import KustDesk.Async.Pool

/-!
# Async — Control

Tasks given by program counters. `prog` is what a task at a counter has
still to do, and `next` which counter each of its steps leads to. In a run
every task then is at some counter, and an invariant may speak of where all
of them are.
-/

namespace Async

variable {ι ε ο σ π : Type}

/-- Each step at this counter leads to a counter, as `next` says. -/
def ControlsAt {α : Type} (prog : π → Task ε ο σ α) (next : π → Event ε ο σ → π → Prop) (pc : π) :
    Prop :=
  match prog pc with
  | .step op f k => ∀ e s, ∃ pc', k e s = prog pc' ∧ next pc ⟨op, e, s, f e s⟩ pc'
  | _ => True

def Controls {α : Type} (prog : π → Task ε ο σ α) (next : π → Event ε ο σ → π → Prop) : Prop :=
  ∀ pc, ControlsAt prog next pc

theorem Controls.mono {α : Type} {prog : π → Task ε ο σ α} {next next' : π → Event ε ο σ → π → Prop}
    (h : Controls prog next) (hnext : ∀ pc ev pc', next pc ev pc' → next' pc ev pc') :
    Controls prog next' := by
  intro pc
  have hpc := h pc
  unfold ControlsAt at hpc ⊢
  cases hprog : prog pc with
  | step op f k =>
      rw [hprog] at hpc
      intro e s
      obtain ⟨pc', hk, hmove⟩ := hpc e s
      exact ⟨pc', hk, hnext _ _ _ hmove⟩
  | _ => trivial

/-- **Program counters.** What holds at the start, and survives every step
from a counter to the next, holds with the counters reached. -/
theorem Pool.Run.control [DecidableEq ι] {α : ι → Type} {prog : (i : ι) → π → Task ε ο σ (α i)}
    {next : ι → π → Event ε ο σ → π → Prop} (hprog : ∀ i, Controls (prog i) (next i))
    {p q : Pool ι ε ο σ α} {pcs₀ : ι → π} (hstart : ∀ i, p.tasks i = prog i (pcs₀ i))
    {es : List (ι × Event ε ο σ)} (h : p.Run es q)
    {J : List (ι × Event ε ο σ) → (ι → π) → σ → Prop} (h₀ : J [] pcs₀ p.shared)
    (hstep : ∀ es q pcs i ev q' pc', p.Run es q → (∀ j, q.tasks j = prog j (pcs j)) →
      p.Run (es ++ [(i, ev)]) q' → next i (pcs i) ev pc' →
      J es pcs ev.pre → J (es ++ [(i, ev)]) (Function.update pcs i pc') ev.post) :
    ∃ pcs, (∀ i, q.tasks i = prog i (pcs i)) ∧ J es pcs q.shared := by
  induction h with
  | start => exact ⟨pcs₀, hstart, h₀⟩
  | @step es q i e op f k hrun hi ih =>
      obtain ⟨pcs, htasks, hJ⟩ := ih
      have hpc := hprog i (pcs i)
      rw [ControlsAt, ← htasks i, hi] at hpc
      obtain ⟨pc', hk, hnext⟩ := hpc e q.shared
      have hnew := hstep es q pcs i _ _ pc' hrun htasks (.step i e hrun hi) hnext hJ
      refine ⟨Function.update pcs i pc', fun j => ?_, hnew⟩
      by_cases hij : j = i
      · subst hij
        simp [Pool.advance, hk]
      · simp [Pool.advance, Function.update_of_ne hij, htasks j]

end Async
