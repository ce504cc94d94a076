import KustDesk.Async.Trace

/-!
# Async — Alone

Tasks that run to completion one after the other: what one of them does is
a function of the state it starts in and of the inputs of its steps. `Alone`
says what holds of its steps, its result and the state it leaves, and a
session is a sequence of such tasks.
-/

namespace Async

namespace Task

variable {ε ο σ α β : Type}

/-- The steps of a task that runs alone. -/
def trace : Task ε ο σ α → (Nat → ε) → σ → List (Event ε ο σ)
  | .done _, _, _ => []
  | .abort _, _, _ => []
  | .step op f k, η, s =>
      ⟨op, η 0, s, f (η 0) s⟩ :: (k (η 0) s).trace (fun n => η (n + 1)) (f (η 0) s)

/-- Run alone from `s`, whatever the inputs are, the task returns an `a`
after the steps `es` in a state `s'` with `R es a s'`, unless it panics. -/
def Alone : Task ε ο σ α → σ → (List (Event ε ο σ) → α → σ → Prop) → Prop
  | .done a, s, R => R [] a s
  | .abort _, _, _ => True
  | .step op f k, s, R =>
      ∀ e, (k e s).Alone (f e s) fun es => R (⟨op, e, s, f e s⟩ :: es)

@[simp] theorem alone_done (a : α) (s : σ) (R : List (Event ε ο σ) → α → σ → Prop) :
    (Task.done a : Task ε ο σ α).Alone s R ↔ R [] a s := Iff.rfl

@[simp] theorem alone_act (op : ο) (f : ε → σ → β × σ) (s : σ)
    (R : List (Event ε ο σ) → β → σ → Prop) :
    (act op f).Alone s R ↔ ∀ e, R [⟨op, e, s, (f e s).2⟩] (f e s).1 (f e s).2 := Iff.rfl

@[simp] theorem alone_look (op : ο) (f : ε → σ → β) (s : σ)
    (R : List (Event ε ο σ) → β → σ → Prop) :
    (look op f).Alone s R ↔ ∀ e, R [⟨op, e, s, s⟩] (f e s) s := Iff.rfl

theorem Alone.mono {R R' : List (Event ε ο σ) → α → σ → Prop}
    (hR : ∀ es a s, R es a s → R' es a s) {t : Task ε ο σ α} {s : σ}
    (ht : t.Alone s R) : t.Alone s R' := by
  induction t generalizing s R R' with
  | done a => exact hR _ _ _ ht
  | abort why => trivial
  | step op f k ih => exact fun e => ih e s (fun es => hR _) (ht e)

theorem Alone.and {R R' : List (Event ε ο σ) → α → σ → Prop} {t : Task ε ο σ α} {s : σ}
    (ht : t.Alone s R) (ht' : t.Alone s R') :
    t.Alone s fun es a s' => R es a s' ∧ R' es a s' := by
  induction t generalizing s R R' with
  | done a => exact ⟨ht, ht'⟩
  | abort why => trivial
  | step op f k ih => exact fun e => ih e s (ht e) (ht' e)

theorem alone_imp {P : Prop} {R : List (Event ε ο σ) → α → σ → Prop} {t : Task ε ο σ α} {s : σ}
    (ht : P → t.Alone s R) : t.Alone s fun es a s' => P → R es a s' := by
  induction t generalizing s R with
  | done a => exact ht
  | abort why => trivial
  | step op f k ih => exact fun e => ih e s fun hp => ht hp e

/-- The steps of a sequence are those of its first half, then those of its
second. -/
theorem Alone.bind {R : List (Event ε ο σ) → α → σ → Prop}
    {R' : List (Event ε ο σ) → β → σ → Prop} {t : Task ε ο σ α}
    {g : α → Task ε ο σ β} {s : σ} (ht : t.Alone s R)
    (hg : ∀ es a s', R es a s' → (g a).Alone s' fun es' => R' (es ++ es')) :
    (t >>= g).Alone s R' := by
  induction t generalizing s R R' with
  | done a => exact hg [] a s ht
  | abort why => trivial
  | step op f k ih => exact fun e => ih e s (ht e) fun es a s' h => hg _ a s' h

/-- The next step is taken, and the rest goes on from the state it leaves. -/
theorem alone_act_bind {op : ο} {f : ε → σ → α × σ} {g : α → Task ε ο σ β} {s : σ}
    {R : List (Event ε ο σ) → β → σ → Prop} :
    (act op f >>= g).Alone s R ↔ ∀ e, (g (f e s).1).Alone (f e s).2
      fun es => R (⟨op, e, s, (f e s).2⟩ :: es) := Iff.rfl

theorem alone_look_bind {op : ο} {f : ε → σ → α} {g : α → Task ε ο σ β} {s : σ}
    {R : List (Event ε ο σ) → β → σ → Prop} :
    (look op f >>= g).Alone s R ↔ ∀ e, (g (f e s)).Alone s
      fun es => R (⟨op, e, s, s⟩ :: es) := Iff.rfl

/-- A task that only looks leaves the state as it is. -/
theorem All.alone {t : Task ε ο σ α} (ht : t.All fun ev => ev.post = ev.pre) (s : σ) :
    t.Alone s fun es _ s' => s' = s ∧ ∀ ev ∈ es, ev.post = s := by
  induction t generalizing s with
  | done a => exact ⟨rfl, by simp⟩
  | abort why => trivial
  | step op f k ih =>
      intro e
      obtain ⟨hpost, hrest⟩ := ht e s
      dsimp only at hpost
      rw [hpost]
      refine (ih e s hrest s).mono fun es a s' h => ⟨h.1, ?_⟩
      exact List.forall_mem_cons.mpr ⟨rfl, h.2⟩

/-- A task of a component, alone in the whole. `see` finds its steps. -/
theorem Alone.lift {ο' τ : Type} {part : Part τ σ} {emb : ο → ο'}
    {see : Event ε ο' τ → Option (Event ε ο σ)}
    (hsee : ∀ op e w w', see ⟨emb op, e, w, w'⟩ = some ⟨op, e, part.get w, part.get w'⟩)
    {R : List (Event ε ο σ) → α → σ → Prop} {t : Task ε ο σ α} {w : τ}
    (ht : t.Alone (part.get w) R) :
    (t.lift part emb).Alone w fun es a w' => R (es.filterMap see) a (part.get w') := by
  induction t generalizing w R with
  | done a => exact ht
  | abort why => trivial
  | step op f k ih =>
      intro e
      have hput : part.get (part.put (f e (part.get w)) w) = f e (part.get w) := part.get_put _ _
      have hrest := ht e
      rw [← hput] at hrest
      refine (ih e (part.get w) hrest).mono fun es a w' h => ?_
      show R (List.filterMap see (⟨emb op, e, w, _⟩ :: es)) a (part.get w')
      rwa [List.filterMap_cons_some (hsee op e w _)]

/-- The steps of a task that runs alone are a path of it. -/
theorem path_trace {t : Task ε ο σ α} {η : Nat → ε} {s : σ} {a : α}
    (ha : (t.run η s).1 = some a) : Path t (t.trace η s) (.done a) := by
  induction t generalizing η s with
  | done b =>
      cases ha
      exact .nil _
  | abort why => cases ha
  | step op f k ih => exact .cons _ _ (ih _ _ ha)

/-- The steps of a task that only looks all see the same state. -/
theorem All.trace {t : Task ε ο σ α} (ht : t.All fun ev => ev.post = ev.pre) (η : Nat → ε) (s : σ) :
    (t.run η s).2 = s ∧ ∀ ev ∈ t.trace η s, ev.pre = s ∧ ∃ n, ev.env = η n := by
  induction t generalizing η s with
  | done a => exact ⟨rfl, by simp [Task.trace]⟩
  | abort why => exact ⟨rfl, by simp [Task.trace]⟩
  | step op f k ih =>
      obtain ⟨hpost, hrest⟩ := ht (η 0) s
      replace hpost : f (η 0) s = s := hpost
      obtain ⟨hend, htrace⟩ := ih (η 0) s hrest (fun n => η (n + 1)) s
      simp only [run_step, Task.trace, hpost, List.forall_mem_cons]
      refine ⟨hend, ⟨trivial, 0, rfl⟩, fun ev hev => ?_⟩
      obtain ⟨hpre, n, henv⟩ := htrace ev hev
      exact ⟨hpre, n + 1, henv⟩

/-- What is said of a task alone holds when it runs. -/
theorem Alone.run {R : List (Event ε ο σ) → α → σ → Prop} {t : Task ε ο σ α} {s : σ}
    (ht : t.Alone s R) (η : Nat → ε) {a : α} (ha : (t.run η s).1 = some a) :
    R (t.trace η s) a (t.run η s).2 := by
  induction t generalizing η s R with
  | done b =>
      cases ha
      exact ht
  | abort why => cases ha
  | step op f k ih => exact ih _ _ (ht _) _ ha

end Task

/-- A task that has run: which call it was, its steps and its result. -/
structure Ran (κ ε ο σ α : Type) where
  call : κ
  events : List (Event ε ο σ)
  result : Option α

/-- The sequences of calls that can run one after the other from `s₀`, and
the states they end in. -/
inductive Session {κ ε ο σ α : Type} (task : κ → Task ε ο σ α) (s₀ : σ) :
    List (Ran κ ε ο σ α) → σ → Prop
  | nil : Session task s₀ [] s₀
  | call {ran s} (c : κ) (η : Nat → ε) : Session task s₀ ran s →
      Session task s₀ (ran ++ [⟨c, (task c).trace η s, ((task c).run η s).1⟩])
        ((task c).run η s).2

namespace Session

variable {κ ε ο σ α : Type} {task : κ → Task ε ο σ α} {s₀ s : σ}
  {ran : List (Ran κ ε ο σ α)}

/-- What every call preserves, given what is said of it alone, holds after
the session. -/
theorem invariant {R : κ → σ → List (Event ε ο σ) → α → σ → Prop}
    {J : List (Ran κ ε ο σ α) → σ → Prop}
    (htask : ∀ c s, (task c).NoAbort ∧ (task c).Alone s (R c s)) (h₀ : J [] s₀)
    (hcall : ∀ ran s c es a s', J ran s → R c s es a s' → J (ran ++ [⟨c, es, some a⟩]) s')
    (h : Session task s₀ ran s) : J ran s := by
  induction h with
  | nil => exact h₀
  | @call ran s c η _ ih =>
      obtain ⟨hreturns, halone⟩ := htask c s
      obtain ⟨a, ha⟩ := hreturns.run η s
      have hcalled := hcall ran s c _ a _ ih (halone.run η ha)
      rwa [← ha] at hcalled

/-- Every call of a session has run from some state. -/
theorem of_mem {R : κ → σ → List (Event ε ο σ) → α → σ → Prop}
    (htask : ∀ c s, (task c).NoAbort ∧ (task c).Alone s (R c s)) (h : Session task s₀ ran s)
    {r : Ran κ ε ο σ α} (hr : r ∈ ran) :
    ∃ s₁ a s₂, r.result = some a ∧ R r.call s₁ r.events a s₂ := by
  refine h.invariant (J := fun ran _ => ∀ r ∈ ran, ∃ s₁ a s₂, r.result = some a
    ∧ R r.call s₁ r.events a s₂) htask nofun ?_ r hr
  intro ran s₁ c es a s₂ ih hc r hr
  rcases List.mem_append.mp hr with hr | hr
  · exact ih r hr
  · rw [List.mem_singleton] at hr
    subst hr
    exact ⟨s₁, a, s₂, rfl, hc⟩

/-- The last call of a session, and the session before it. -/
theorem last {R : κ → σ → List (Event ε ο σ) → α → σ → Prop}
    (htask : ∀ c s, (task c).NoAbort ∧ (task c).Alone s (R c s)) {r : Ran κ ε ο σ α}
    (h : Session task s₀ (ran ++ [r]) s) :
    ∃ s' a, Session task s₀ ran s' ∧ r.result = some a ∧ R r.call s' r.events a s := by
  generalize hran' : ran ++ [r] = ran' at h
  cases h with
  | nil => simp at hran'
  | @call ran₁ s₁ c η h₁ =>
      obtain ⟨rfl, hr⟩ := List.append_inj' hran' rfl
      obtain ⟨hreturns, halone⟩ := htask c s₁
      obtain ⟨a, ha⟩ := hreturns.run η s₁
      rw [List.singleton_inj] at hr
      subst hr
      exact ⟨s₁, a, h₁, ha, halone.run η ha⟩

end Session

end Async
