import KustDesk.Async.Pool
import Mathlib.Data.Finset.Basic

/-!
# Async — SetLog

A set that any number of tasks edit, one element at a time, or empty. What is
in it is decided, element by element, by the last edit that concerns the
element, so that edits of other elements are never lost or undone.
-/

namespace Async

/-- An edit of a set. -/
inductive SetEdit (α : Type) where
  | insert (a : α)
  | erase (a : α)
  | clear
  deriving DecidableEq

namespace SetEdit

variable {α : Type} [DecidableEq α]

def apply (s : Finset α) : SetEdit α → Finset α
  | .insert a => Insert.insert a s
  | .erase a => s.erase a
  | .clear => ∅

/-- What the edit decides about `a`: whether it is in, or nothing. -/
def verdict (a : α) : SetEdit α → Option Bool
  | .insert b => if b = a then some true else none
  | .erase b => if b = a then some false else none
  | .clear => some false

theorem mem_apply (s : Finset α) (edit : SetEdit α) (a : α) :
    a ∈ edit.apply s ↔ (edit.verdict a).getD (decide (a ∈ s)) = true := by
  cases edit with
  | insert b =>
      by_cases hb : b = a
      · simp [apply, verdict, hb]
      · simp [apply, verdict, hb, Ne.symm hb]
  | erase b =>
      by_cases hb : b = a
      · simp [apply, verdict, hb]
      · simp [apply, verdict, hb, Ne.symm hb]
  | clear => simp [apply, verdict]

/-- The edits one after the other. -/
def replay (s : Finset α) (edits : List (SetEdit α)) : Finset α := edits.foldl apply s

@[simp] theorem replay_nil (s : Finset α) : replay s [] = s := rfl

@[simp] theorem replay_append (s : Finset α) (edits edits' : List (SetEdit α)) :
    replay s (edits ++ edits') = replay (replay s edits) edits' := by simp [replay]

/-- An element that nothing takes out stays, and one that is put in as well. -/
theorem mem_replay {s : Finset α} {edits : List (SetEdit α)} {a : α}
    (hkept : ∀ edit ∈ edits, edit.verdict a ≠ some false)
    (ha : a ∈ s ∨ ∃ edit ∈ edits, edit.verdict a = some true) : a ∈ replay s edits := by
  induction edits generalizing s with
  | nil => simpa using ha
  | cons edit edits ih =>
      rw [List.forall_mem_cons] at hkept
      apply ih hkept.2
      rw [mem_apply]
      rcases ha with ha | ⟨edit', hedit', hverdict⟩
      · left
        cases hv : edit.verdict a with
        | none => simpa using ha
        | some b =>
            cases b with
            | true => rfl
            | false => exact (hkept.1 hv).elim
      · rcases List.mem_cons.mp hedit' with rfl | hlater
        · left
          rw [hverdict]
          rfl
        · exact .inr ⟨edit', hlater, hverdict⟩

/-- An element that nothing puts in stays out, and one that is taken out as
well. -/
theorem not_mem_replay {s : Finset α} {edits : List (SetEdit α)} {a : α}
    (hkept : ∀ edit ∈ edits, edit.verdict a ≠ some true)
    (ha : a ∉ s ∨ ∃ edit ∈ edits, edit.verdict a = some false) : a ∉ replay s edits := by
  induction edits generalizing s with
  | nil => simpa using ha
  | cons edit edits ih =>
      rw [List.forall_mem_cons] at hkept
      apply ih hkept.2
      rw [mem_apply]
      rcases ha with ha | ⟨edit', hedit', hverdict⟩
      · left
        cases hv : edit.verdict a with
        | none => simpa using ha
        | some b =>
            cases b with
            | true => exact (hkept.1 hv).elim
            | false => simp
      · rcases List.mem_cons.mp hedit' with rfl | hlater
        · left
          rw [hverdict]
          simp
        · exact .inr ⟨edit', hlater, hverdict⟩

end SetEdit

/-! ## In a run -/

section Edited
variable {ι ε ο σ α : Type}

/-- The edits among the steps of a run. -/
def edits (edit : ο → Option (SetEdit α)) (es : List (ι × Event ε ο σ)) : List (SetEdit α) :=
  es.filterMap fun x => edit x.2.op

theorem mem_edits {edit : ο → Option (SetEdit α)} {es : List (ι × Event ε ο σ)} {x : SetEdit α} :
    x ∈ edits edit es ↔ ∃ i ev, (i, ev) ∈ es ∧ edit ev.op = some x := by
  simp [edits]

variable {β : ι → Type} [DecidableEq ι] [DecidableEq α]

/-- A step does to the set what its label says. -/
def Edits (edit : ο → Option (SetEdit α)) (g : σ → Finset α) (ev : Event ε ο σ) : Prop :=
  g ev.post = ((edit ev.op).map (SetEdit.apply (g ev.pre))).getD (g ev.pre)

/-- The set is what its edits have made of it. -/
theorem Pool.Run.edited {edit : ο → Option (SetEdit α)} {g : σ → Finset α}
    {p q : Pool ι ε ο σ β} {es : List (ι × Event ε ο σ)} (h : p.Run es q)
    (hp : ∀ i, (p.tasks i).All (Edits edit g)) :
    g q.shared = SetEdit.replay (g p.shared) (edits edit es) := by
  refine h.invariant (J := fun es s => g s = SetEdit.replay (g p.shared) (edits edit es)) rfl ?_
  intro es q i e op f k hrun hi ih
  have hnext : g (f e q.shared) = ((edit op).map (SetEdit.apply (g q.shared))).getD _ :=
    hrun.next (hp i) hi e q.shared
  have hedits : edits edit (es ++ [(i, (⟨op, e, q.shared, f e q.shared⟩ : Event ε ο σ))])
      = edits edit es ++ (edit op).toList := by
    cases hop : edit op with
    | none => simp [edits, hop]
    | some x => simp [edits, hop]
  rw [hnext, hedits, SetEdit.replay_append, ← ih]
  cases edit op with
  | none => rfl
  | some x => rfl

end Edited

end Async
