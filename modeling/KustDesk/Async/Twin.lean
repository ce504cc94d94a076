import KustDesk.Async.Alone
import Mathlib.Data.List.Forall2

/-!
# Async — Twin

Two tasks that run alone on the same inputs, each from a state of its own.
`Twin` says that they take their steps together, what holds of two steps at
the same place, and what of the results and the states in the end.
-/

namespace Async

namespace Task

variable {ε ο σ α α' β β' : Type}

/-- As long as two steps at the same place are as `given`, they are as `owed`,
and the two tasks return together, with results and states in `R`. -/
inductive Twin (given owed : Event ε ο σ → Event ε ο σ → Prop) (R : α → σ → α' → σ → Prop) :
    Task ε ο σ α → σ → Task ε ο σ α' → σ → Prop
  | done {a s a' s'} : R a s a' s' → Twin given owed R (.done a) s (.done a') s'
  | abort {why s why' s'} : Twin given owed R (.abort why) s (.abort why') s'
  | step {op f k s op' f' k' s'} :
      (∀ e, given ⟨op, e, s, f e s⟩ ⟨op', e, s', f' e s'⟩ →
        owed ⟨op, e, s, f e s⟩ ⟨op', e, s', f' e s'⟩) →
      (∀ e, given ⟨op, e, s, f e s⟩ ⟨op', e, s', f' e s'⟩ →
        Twin given owed R (k e s) (f e s) (k' e s') (f' e s')) →
      Twin given owed R (.step op f k) s (.step op' f' k') s'

variable {given owed : Event ε ο σ → Event ε ο σ → Prop} {s s' : σ}

theorem Twin.mono {R R' : α → σ → α' → σ → Prop}
    (hR : ∀ a s a' s', R a s a' s' → R' a s a' s') {t : Task ε ο σ α} {t' : Task ε ο σ α'}
    (h : Twin given owed R t s t' s') : Twin given owed R' t s t' s' := by
  induction h with
  | done h => exact .done (hR _ _ _ _ h)
  | abort => exact .abort
  | step howed _ ih => exact .step howed ih

/-- What follows two twins is twins again. -/
theorem Twin.bind {R : α → σ → α' → σ → Prop} {R' : β → σ → β' → σ → Prop} {t : Task ε ο σ α}
    {t' : Task ε ο σ α'} {g : α → Task ε ο σ β} {g' : α' → Task ε ο σ β'}
    (h : Twin given owed R t s t' s')
    (hg : ∀ a s a' s', R a s a' s' → Twin given owed R' (g a) s (g' a') s') :
    Twin given owed R' (t >>= g) s (t' >>= g') s' := by
  induction h with
  | done h => exact hg _ _ _ _ h
  | abort => exact .abort
  | step howed _ ih => exact .step howed ih

section act
variable {op op' : ο} {f : ε → σ → α × σ} {f' : ε → σ → α' × σ}

theorem Twin.act_bind {g : α → Task ε ο σ β} {g' : α' → Task ε ο σ β'} {R : β → σ → β' → σ → Prop}
    (howed : ∀ e, given ⟨op, e, s, (f e s).2⟩ ⟨op', e, s', (f' e s').2⟩ →
      owed ⟨op, e, s, (f e s).2⟩ ⟨op', e, s', (f' e s').2⟩)
    (h : ∀ e, given ⟨op, e, s, (f e s).2⟩ ⟨op', e, s', (f' e s').2⟩ →
      Twin given owed R (g (f e s).1) (f e s).2 (g' (f' e s').1) (f' e s').2) :
    Twin given owed R (Task.act op f >>= g) s (Task.act op' f' >>= g') s' := .step howed h

theorem Twin.act {R : α → σ → α' → σ → Prop}
    (howed : ∀ e, given ⟨op, e, s, (f e s).2⟩ ⟨op', e, s', (f' e s').2⟩ →
      owed ⟨op, e, s, (f e s).2⟩ ⟨op', e, s', (f' e s').2⟩)
    (h : ∀ e, given ⟨op, e, s, (f e s).2⟩ ⟨op', e, s', (f' e s').2⟩ →
      R (f e s).1 (f e s).2 (f' e s').1 (f' e s').2) :
    Twin given owed R (Task.act op f) s (Task.act op' f') s' :=
  .step howed fun e hgiven => .done (h e hgiven)

end act

theorem Twin.look_bind {op op' : ο} {f : ε → σ → α} {f' : ε → σ → α'} {g : α → Task ε ο σ β}
    {g' : α' → Task ε ο σ β'} {R : β → σ → β' → σ → Prop}
    (howed : ∀ e, given ⟨op, e, s, s⟩ ⟨op', e, s', s'⟩ → owed ⟨op, e, s, s⟩ ⟨op', e, s', s'⟩)
    (h : ∀ e, given ⟨op, e, s, s⟩ ⟨op', e, s', s'⟩ →
      Twin given owed R (g (f e s)) s (g' (f' e s')) s') :
    Twin given owed R (Task.look op f >>= g) s (Task.look op' f' >>= g') s' := .act_bind howed h

theorem Twin.unwrap {why : String} {o : Option α} {R : α → σ → α → σ → Prop}
    (h : ∀ a, R a s a s') : Twin given owed R (Task.unwrap why o) s (Task.unwrap why o) s' := by
  cases o with
  | none => exact .abort
  | some a => exact .done (h a)

/-- Twins of a component are twins in the whole, and the rest of it stays. -/
theorem Twin.lift {ο' τ : Type} {part : Part τ σ} {emb : ο → ο'}
    {given' owed' : Event ε ο' τ → Event ε ο' τ → Prop}
    (hself : ∀ w, part.put (part.get w) w = w)
    (hlast : ∀ x y w, part.put x (part.put y w) = part.put x w)
    (hgiven : ∀ op op' e w w' x x',
      given' ⟨emb op, e, w, part.put x w⟩ ⟨emb op', e, w', part.put x' w'⟩ →
      given ⟨op, e, part.get w, x⟩ ⟨op', e, part.get w', x'⟩)
    (howed : ∀ op op' e w w' x x', owed ⟨op, e, part.get w, x⟩ ⟨op', e, part.get w', x'⟩ →
      owed' ⟨emb op, e, w, part.put x w⟩ ⟨emb op', e, w', part.put x' w'⟩)
    {R : α → σ → α' → σ → Prop} {t : Task ε ο σ α} {t' : Task ε ο σ α'} {w w' : τ}
    (h : Twin given owed R t (part.get w) t' (part.get w')) :
    Twin given' owed'
      (fun a u a' u' => ∃ x x', u = part.put x w ∧ u' = part.put x' w' ∧ R a x a' x')
      (t.lift part emb) w (t'.lift part emb) w' := by
  generalize hs : part.get w = s, hs' : part.get w' = s' at h
  induction h generalizing w w' with
  | done h =>
      subst hs hs'
      exact .done ⟨_, _, (hself w).symm, (hself w').symm, h⟩
  | abort => exact .abort
  | step howed₀ _ ih =>
      subst hs hs'
      refine .step (fun e hstep => ?_) fun e hstep => ?_
      · exact howed _ _ _ _ _ _ _ (howed₀ e (hgiven _ _ _ _ _ _ _ hstep))
      · refine (ih e (hgiven _ _ _ _ _ _ _ hstep) (part.get_put _ _) (part.get_put _ _)).mono ?_
        rintro a u a' u' ⟨x, x', rfl, rfl, hR⟩
        exact ⟨x, x', hlast _ _ _, hlast _ _ _, hR⟩

/-- Twins that run on the same inputs. -/
theorem Twin.run {R : α → σ → α' → σ → Prop} {t : Task ε ο σ α} {t' : Task ε ο σ α'}
    (h : Twin given owed R t s t' s') (η : Nat → ε)
    (hgiven : ∀ x ∈ (t.trace η s).zip (t'.trace η s'), given x.1 x.2) {a : α}
    (ha : (t.run η s).1 = some a) :
    List.Forall₂ owed (t.trace η s) (t'.trace η s')
    ∧ ∃ a', (t'.run η s').1 = some a' ∧ R a (t.run η s).2 a' (t'.run η s').2 := by
  induction h generalizing η with
  | done h =>
      cases ha
      exact ⟨.nil, _, rfl, h⟩
  | abort => cases ha
  | step howed _ ih =>
      simp only [trace, List.zip_cons_cons, List.forall_mem_cons] at hgiven
      obtain ⟨hforall, hreturns⟩ := ih (η 0) hgiven.1 _ hgiven.2 ha
      exact ⟨.cons (howed (η 0) hgiven.1) hforall, hreturns⟩

end Task

/-- Two sessions side by side: at each place a call and one in `rel` to it, on
the same inputs. -/
inductive Twins {κ ε ο σ α : Type} (task : κ → Task ε ο σ α) (rel : κ → κ → Prop) (s₀ s₀' : σ) :
    List (Ran κ ε ο σ α × Ran κ ε ο σ α) → σ → σ → Prop
  | nil : Twins task rel s₀ s₀' [] s₀ s₀'
  | call {ran s s'} (c c' : κ) (η : Nat → ε) : Twins task rel s₀ s₀' ran s s' → rel c c' →
      Twins task rel s₀ s₀'
        (ran ++ [(⟨c, (task c).trace η s, ((task c).run η s).1⟩,
          ⟨c', (task c').trace η s', ((task c').run η s').1⟩)])
        ((task c).run η s).2 ((task c').run η s').2

namespace Twins

variable {κ ε ο σ α : Type} {task : κ → Task ε ο σ α} {rel : κ → κ → Prop} {s₀ s₀' s s' : σ}
  {ran : List (Ran κ ε ο σ α × Ran κ ε ο σ α)}

/-- Where all the calls are twins from related states, they are so throughout
the sessions, as long as their steps are as `given`. -/
theorem related {given owed : κ → κ → Event ε ο σ → Event ε ο σ → Prop}
    {J : σ → σ → Prop} {R : κ → κ → α → α → Prop}
    (htask : ∀ c c' s s', rel c c' → J s s' → (task c).NoAbort
      ∧ Task.Twin (given c c') (owed c c') (fun a u a' u' => R c c' a a' ∧ J u u')
        (task c) s (task c') s')
    (h₀ : J s₀ s₀') (h : Twins task rel s₀ s₀' ran s s')
    (hgiven : ∀ r ∈ ran, ∀ x ∈ r.1.events.zip r.2.events, given r.1.call r.2.call x.1 x.2) :
    J s s' ∧ ∀ r ∈ ran, List.Forall₂ (owed r.1.call r.2.call) r.1.events r.2.events
      ∧ ∃ a a', r.1.result = some a ∧ r.2.result = some a' ∧ R r.1.call r.2.call a a' := by
  induction h with
  | nil => exact ⟨h₀, nofun⟩
  | @call ran s s' c c' η _ hrel ih =>
      obtain ⟨hbefore, hlast⟩ := List.forall_mem_append.mp hgiven
      rw [List.forall_mem_singleton] at hlast
      obtain ⟨hJ, hran⟩ := ih hbefore
      obtain ⟨hreturns, htwin⟩ := htask c c' s s' hrel hJ
      obtain ⟨a, ha⟩ := hreturns.run η s
      obtain ⟨howed, a', ha', hR, hJ'⟩ := htwin.run η hlast ha
      refine ⟨hJ', List.forall_mem_append.mpr ⟨hran, ?_⟩⟩
      rw [List.forall_mem_singleton]
      exact ⟨howed, a, a', ha, ha', hR⟩

end Twins

end Async
