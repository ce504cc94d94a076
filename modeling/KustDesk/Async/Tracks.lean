import KustDesk.Async.Trace

/-!
# Async — Tracks

A task that takes the same steps as another one, as long as the history is as
given: the runs of the first are then runs of the second. So a task on numbers
that can wrap is compared with the task on numbers that cannot.
-/

namespace Async

namespace Task

variable {ε ο σ α α' β β' : Type}

/-- After the steps `es`, the task takes the steps of `t'` as long as the
history is as `given`, and returns when `t'` does, with results in `R`. -/
def Tracks (given : List (Event ε ο σ) → Prop) (R : List (Event ε ο σ) → α → β → Prop) :
    Task ε ο σ α → Task ε ο σ β → List (Event ε ο σ) → Prop
  | .done a, t', es => ∃ b, t' = .done b ∧ R es a b
  | .abort why, t', _ => t' = .abort why
  | .step op f k, t', es => ∃ f' k', t' = .step op f' k' ∧ ∀ e s,
      given (es ++ [⟨op, e, s, f e s⟩]) → f' e s = f e s
        ∧ (k e s).Tracks given R (k' e s) (es ++ [⟨op, e, s, f e s⟩])

variable {given : List (Event ε ο σ) → Prop} {es es' : List (Event ε ο σ)}

/-- A task tracks itself. -/
theorem Tracks.refl {R : List (Event ε ο σ) → α → α → Prop} (hR : ∀ es a, R es a a)
    (t : Task ε ο σ α) : t.Tracks given R t es := by
  induction t generalizing es with
  | done a => exact ⟨a, rfl, hR es a⟩
  | abort why => rfl
  | step op f k ih => exact ⟨f, k, rfl, fun e s _ => ⟨rfl, ih e s⟩⟩

theorem Tracks.bind {R : List (Event ε ο σ) → α → α' → Prop}
    {R' : List (Event ε ο σ) → β → β' → Prop} {t : Task ε ο σ α} {t' : Task ε ο σ α'}
    {g : α → Task ε ο σ β} {g' : α' → Task ε ο σ β'} (h : t.Tracks given R t' es)
    (hg : ∀ es a a', R es a a' → (g a).Tracks given R' (g' a') es) :
    (t >>= g).Tracks given R' (t' >>= g') es := by
  induction t generalizing t' es with
  | done a =>
      obtain ⟨a', rfl, h⟩ := h
      exact hg es a a' h
  | abort why =>
      obtain rfl : t' = .abort why := h
      rfl
  | step op f k ih =>
      obtain ⟨f', k', rfl, hstep⟩ := h
      refine ⟨f', fun e s => k' e s >>= g', rfl, fun e s hgiven => ?_⟩
      obtain ⟨hpost, hk⟩ := hstep e s hgiven
      exact ⟨hpost, ih e s hk⟩

theorem Tracks.act_bind {op : ο} {f : ε → σ → α × σ} {f' : ε → σ → α' × σ}
    {g : α → Task ε ο σ β} {g' : α' → Task ε ο σ β'} {R : List (Event ε ο σ) → β → β' → Prop}
    (h : ∀ e s, given (es ++ [⟨op, e, s, (f e s).2⟩]) → (f' e s).2 = (f e s).2
      ∧ (g (f e s).1).Tracks given R (g' (f' e s).1) (es ++ [⟨op, e, s, (f e s).2⟩])) :
    (act op f >>= g).Tracks given R (act op f' >>= g') es := ⟨_, _, rfl, h⟩

theorem Tracks.look_bind {op : ο} {f : ε → σ → α} {f' : ε → σ → α'} {g : α → Task ε ο σ β}
    {g' : α' → Task ε ο σ β'} {R : List (Event ε ο σ) → β → β' → Prop}
    (h : ∀ e s, given (es ++ [⟨op, e, s, s⟩]) →
      (g (f e s)).Tracks given R (g' (f' e s)) (es ++ [⟨op, e, s, s⟩])) :
    (look op f >>= g).Tracks given R (look op f' >>= g') es :=
  ⟨_, _, rfl, fun e s hgiven => ⟨rfl, h e s hgiven⟩⟩

/-- What the tracked task is known to do, the other one does too. -/
theorem Tracks.heeds {P : List (Event ε ο σ) → Event ε ο σ → Prop}
    {R : List (Event ε ο σ) → α → β → Prop} {Q : List (Event ε ο σ) → β → Prop}
    {t : Task ε ο σ α} {t' : Task ε ο σ β} (h : t.Tracks given R t' es) (ht' : t'.Heeds P Q es) :
    t.Tracks given (fun es a b => R es a b ∧ Q es b) t' es := by
  induction t generalizing t' es with
  | done a =>
      obtain ⟨b, rfl, h⟩ := h
      exact ⟨b, rfl, h, ht'⟩
  | abort why => exact h
  | step op f k ih =>
      obtain ⟨f', k', rfl, hstep⟩ := h
      refine ⟨f', k', rfl, fun e s hgiven => ?_⟩
      obtain ⟨hpost, hk⟩ := hstep e s hgiven
      have hrest := (ht' e s).2
      rw [hpost] at hrest
      exact ⟨hpost, ih e s hk hrest⟩

/-- **Refinement of runs.** A run through histories that are as given is a run
of the tracked task, and the two go on together. -/
theorem Tracks.path {R : List (Event ε ο σ) → α → β → Prop} {t u : Task ε ο σ α}
    {t' : Task ε ο σ β} (h : t.Tracks given R t' es) (hpath : Path t es' u)
    (hgiven : ∀ es₁ es₂, es' = es₁ ++ es₂ → given (es ++ es₁)) :
    ∃ u', Path t' es' u' ∧ u.Tracks given R u' (es ++ es') := by
  induction hpath generalizing t' es with
  | nil t => exact ⟨t', .nil t', by simpa using h⟩
  | @cons op f k es' u e s _ ih =>
      obtain ⟨f', k', rfl, hstep⟩ := h
      obtain ⟨hpost, hk⟩ := hstep e s (hgiven [_] es' rfl)
      obtain ⟨u', hu', hrest⟩ := ih hk fun es₁ es₂ hes => by
        simpa using hgiven (_ :: es₁) es₂ (by rw [hes]; rfl)
      refine ⟨u', ?_, by simpa using hrest⟩
      have hcons : Path (.step op f' k') (⟨op, e, s, f' e s⟩ :: es') u' := .cons e s hu'
      rwa [hpost] at hcons

/-- It has returned where the tracked task has. -/
theorem Tracks.result {R : List (Event ε ο σ) → α → β → Prop} {t : Task ε ο σ α}
    {t' : Task ε ο σ β} (h : t.Tracks given R t' es) {a : α} (ha : t.result = some a) :
    ∃ b, t'.result = some b ∧ R es a b := by
  cases t with
  | done a' =>
      cases ha
      obtain ⟨b, rfl, h⟩ := h
      exact ⟨b, rfl, h⟩
  | abort why => cases ha
  | step op f k => cases ha

end Task

end Async
