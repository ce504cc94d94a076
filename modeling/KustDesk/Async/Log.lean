import Mathlib.Data.List.Basic

/-!
# Async — Log

A system given by its labelled steps. A run is the log of what was done,
each entry with the state it was done in, so that a condition on a step can
speak of the state before it.
-/

namespace Async

/-- An entry of a list that was just extended is the new one or an old one. -/
theorem snoc_eq_split {β : Type} {l l₁ l₂ : List β} {a b : β} (h : l ++ [a] = l₁ ++ b :: l₂) :
    (l = l₁ ∧ a = b ∧ l₂ = []) ∨ ∃ l₃, l = l₁ ++ b :: l₃ ∧ l₂ = l₃ ++ [a] := by
  rcases List.eq_nil_or_concat l₂ with rfl | ⟨l₃, c, rfl⟩
  · obtain ⟨hl, ha⟩ := List.append_singleton_inj.mp h
    exact .inl ⟨hl, ha, rfl⟩
  · have hsnoc : l ++ [a] = (l₁ ++ b :: l₃) ++ [c] := by simpa using h
    obtain ⟨hl, ha⟩ := List.append_singleton_inj.mp hsnoc
    exact .inr ⟨l₃, hl, by rw [ha, List.concat_eq_append]⟩

variable {σ α : Type} {step : σ → α → σ → Prop} {s s' : σ} {log : List (σ × α)}

/-- The states reachable from `s`, with the log that leads there. -/
inductive Logged (step : σ → α → σ → Prop) (s : σ) : List (σ × α) → σ → Prop
  | start : Logged step s [] s
  | step {log s₁ a s₂} : Logged step s log s₁ → step s₁ a s₂ →
      Logged step s (log ++ [(s₁, a)]) s₂

/-- The state and every state before it satisfy `good`. -/
def Throughout (good : σ → Prop) (log : List (σ × α)) (s : σ) : Prop :=
  (∀ x ∈ log, good x.1) ∧ good s

namespace Logged

/-- What holds at the start and survives every step holds throughout. -/
theorem invariant {J : List (σ × α) → σ → Prop} (h : Logged step s log s') (h0 : J [] s)
    (hstep : ∀ log s₁ a s₂, J log s₁ → step s₁ a s₂ → J (log ++ [(s₁, a)]) s₂) : J log s' := by
  induction h with
  | start => exact h0
  | step _ ha ih => exact hstep _ _ _ _ ih ha

/-- Where a step from a good state leads to a good one exactly if it is fine,
all states of a run are good exactly if all its steps are fine. -/
theorem throughout_iff {good : σ → Prop} {fine : σ × α → Prop} (h : Logged step s log s')
    (h0 : good s)
    (hstep : ∀ x ∈ log, ∀ s₂, good x.1 → step x.1 x.2 s₂ → (good s₂ ↔ fine x)) :
    Throughout good log s' ↔ ∀ x ∈ log, fine x := by
  induction h with
  | start => simp [Throughout, h0]
  | @step log s₁ a s₂ _ ha ih =>
      have hlast := hstep (s₁, a) (by simp)
      specialize ih fun x hx => hstep x (List.mem_append_left _ hx)
      have hsnoc : Throughout good (log ++ [(s₁, a)]) s₂
          ↔ Throughout good log s₁ ∧ good s₂ := by simp [Throughout, or_imp, forall_and]
      rw [hsnoc, List.forall_mem_append, List.forall_mem_singleton, ih]
      apply and_congr_right
      intro hfine
      exact hlast s₂ (ih.mpr hfine).2 ha

/-- A run can be cut in two. -/
theorem split {log₁ log₂ : List (σ × α)} (h : Logged step s (log₁ ++ log₂) s') :
    ∃ s₁, Logged step s log₁ s₁ ∧ Logged step s₁ log₂ s' := by
  generalize hlog : log₁ ++ log₂ = log at h
  induction h generalizing log₂ with
  | start =>
      obtain ⟨rfl, rfl⟩ := List.append_eq_nil_iff.mp hlog
      exact ⟨s, .start, .start⟩
  | @step log s₂ a s₃ hrun ha ih =>
      rcases List.eq_nil_or_concat log₂ with rfl | ⟨log₂, x, rfl⟩
      · rw [List.append_nil] at hlog
        rw [hlog]
        exact ⟨s₃, hrun.step ha, .start⟩
      · rw [List.concat_eq_append, ← List.append_assoc] at hlog
        obtain ⟨hlog, hx⟩ := List.append_singleton_inj.mp hlog
        obtain ⟨s₁, h₁, h₂⟩ := ih hlog
        rw [List.concat_eq_append, hx]
        exact ⟨s₁, h₁, h₂.step ha⟩

/-- A run of one step. -/
theorem single {x : σ × α} (h : Logged step s [x] s') : x.1 = s ∧ step s x.2 s' := by
  generalize hlog : [x] = log at h
  cases h with
  | start => cases hlog
  | @step log s₁ a _ hrun ha =>
      have hnil : log = [] := by
        rw [← List.length_eq_zero_iff]
        simpa using congrArg List.length hlog
      subst hnil
      cases hlog
      generalize hlog : ([] : List (σ × α)) = log at hrun
      cases hrun with
      | start => exact ⟨rfl, ha⟩
      | step => simp at hlog

/-- The state in an entry is reachable by what stands before the entry. -/
theorem cut {log₁ log₂ : List (σ × α)} {x : σ × α} (h : Logged step s log s')
    (hlog : log = log₁ ++ x :: log₂) : Logged step s log₁ x.1 := by
  induction h generalizing log₂ with
  | start => simp at hlog
  | @step log s₁ a s₂ hrun _ ih =>
      rcases snoc_eq_split hlog with ⟨rfl, rfl, -⟩ | ⟨log₃, hold, -⟩
      · exact hrun
      · exact ih hold

end Logged

/-! ## Requests and what follows them -/

section Responds
variable {β : Type} {blocks : β → Prop} {reply : β → List β → Prop} {l l' : List β}

/-- Every entry that nothing before it has blocked is followed by its reply. -/
def Responds (blocks : β → Prop) (reply : β → List β → Prop) (l : List β) : Prop :=
  ∀ l₁ b l₂, l = l₁ ++ b :: l₂ → (∀ a ∈ l₁, ¬ blocks a) → reply b l₂

theorem responds_nil : Responds blocks reply [] := by
  intro l₁ b l₂ hl
  simp at hl

theorem responds_cons {a : β} (ha : reply a l) (hl : ¬ blocks a → Responds blocks reply l) :
    Responds blocks reply (a :: l) := by
  intro l₁ b l₂ hsplit hfree
  cases l₁ with
  | nil =>
      obtain ⟨rfl, rfl⟩ := List.cons.inj hsplit
      exact ha
  | cons a' l₁ =>
      obtain ⟨rfl, htail⟩ := List.cons.inj hsplit
      rw [List.forall_mem_cons] at hfree
      exact hl hfree.1 l₁ b l₂ htail hfree.2

/-- Entries that ask for nothing, in front. -/
theorem responds_append (hl : ∀ a ∈ l, ∀ l₂, reply a l₂)
    (hl' : (∀ a ∈ l, ¬ blocks a) → Responds blocks reply l') :
    Responds blocks reply (l ++ l') := by
  induction l with
  | nil => exact hl' (by simp)
  | cons a l ih =>
      rw [List.forall_mem_cons] at hl
      refine responds_cons (hl.1 _) fun ha => ih hl.2 fun hfree => hl' ?_
      exact List.forall_mem_cons.mpr ⟨ha, hfree⟩

/-- What stands before any `stop` satisfies `P`. -/
def Before (stop : β → Prop) (P : List β → Prop) (l : List β) : Prop :=
  ∀ l₁ b l₂, l = l₁ ++ b :: l₂ → stop b → P l₁

section Before
variable {stop : β → Prop} {P : List β → Prop}

theorem before_free (hl : ∀ a ∈ l, ¬ stop a) : Before stop P l := by
  intro l₁ b l₂ hsplit hb
  exact (hl b (by simp [hsplit]) hb).elim

/-- The first `stop` comes after `l`. -/
theorem before_append (hl : ∀ a ∈ l, ¬ stop a) (hP : ∀ l₁, P (l ++ l₁)) :
    Before stop P (l ++ l') := by
  intro l₁ b l₂ hsplit hb
  obtain ⟨l₃, rfl, -⟩ | ⟨l₃, hl₃, hl'⟩ := List.append_eq_append_iff.mp hsplit
  · exact hP l₃
  · cases l₃ with
    | nil =>
        rw [List.append_nil] at hl₃
        simpa [hl₃] using hP []
    | cons c l₃ =>
        obtain ⟨rfl, -⟩ := List.cons.inj hl'
        exact (hl b (by simp [hl₃]) hb).elim

end Before

end Responds

end Async
