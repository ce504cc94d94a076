import Mathlib.Data.List.Basic

/-!
# Async — Limiter

A counter that lets `limit` calls pass in a row, and starts again after a
pause of `gap`. Wherever each call goes on from the counter that the last
one has left, no window shorter than the pause sees more than `limit` of
them.
-/

namespace Async

/-- The counter, as a number and the time of the last call, after a call at
`now`; `none` where the call is not let pass. -/
def grant (limit gap : Nat) (counter : Nat × Nat) (now : Nat) : Option (Nat × Nat) :=
  if counter.2 + gap ≤ now then some (1, now)
  else if limit ≤ counter.1 then none
  else some (counter.1 + 1, now)

/-- How many of the times are in the window of length `gap` from `start`
on. -/
def inWindow (gap : Nat) (times : List Nat) (start : Nat) : Nat :=
  times.countP fun t => start ≤ t ∧ t < start + gap

/-- The counter bounds the calls that have passed at these times: those in
any window and, by its number, those in a window that is still open. -/
structure Limited (limit gap : Nat) (times : List Nat) (counter : Nat × Nat) : Prop where
  le : ∀ t ∈ times, t ≤ counter.2
  last : times ≠ [] → counter.2 ∈ times
  window : ∀ start, inWindow gap times start ≤ limit
  recent : ∀ start, counter.2 < start + gap → inWindow gap times start ≤ counter.1

variable {limit gap now : Nat} {times : List Nat} {counter counter' : Nat × Nat}

theorem Limited.nil (counter : Nat × Nat) : Limited limit gap [] counter where
  le := by simp
  last := by simp
  window := by simp [inWindow]
  recent := by simp [inWindow]

theorem inWindow_concat (gap : Nat) (times : List Nat) (now start : Nat) :
    inWindow gap (times ++ [now]) start
      = inWindow gap times start + if start ≤ now ∧ now < start + gap then 1 else 0 := by
  simp [inWindow, List.countP_append, List.countP_singleton]

theorem inWindow_eq_zero {start : Nat} (h : ∀ t ∈ times, t < start) :
    inWindow gap times start = 0 := by
  refine List.countP_eq_zero.mpr fun t ht => ?_
  have hlt := h t ht
  simp only [decide_eq_true_eq]
  omega

theorem grant_snd (h : grant limit gap counter now = some counter') : counter'.2 = now := by
  unfold grant at h
  split at h
  · cases h
    rfl
  · split at h
    · cases h
    · cases h
      rfl

/-- A larger number bounds no less. -/
theorem Limited.mono {n n' last : Nat} (h : Limited limit gap times (n, last)) (hn : n ≤ n') :
    Limited limit gap times (n', last) where
  le := h.le
  last := h.last
  window := h.window
  recent start hopen := Nat.le_trans (h.recent start hopen) hn

/-- One more call, not before the others. -/
theorem Limited.grant (h : Limited limit gap times counter) (hlimit : 0 < limit)
    (hnow : ∀ t ∈ times, t ≤ now) (hgrant : grant limit gap counter now = some counter') :
    Limited limit gap (times ++ [now]) counter' := by
  have hlast := grant_snd hgrant
  have hrecent (start : Nat) (hopen : now < start + gap) :
      inWindow gap (times ++ [now]) start ≤ counter'.1 ∧ counter'.1 ≤ limit := by
    have hone : (if start ≤ now ∧ now < start + gap then 1 else 0) ≤ 1 := by
      split <;> omega
    rw [inWindow_concat]
    unfold Async.grant at hgrant
    split at hgrant
    · -- after the pause, nothing else is in the window
      rename_i hpause
      cases hgrant
      have hzero : inWindow gap times start = 0 := by
        refine inWindow_eq_zero fun t ht => ?_
        have hle := h.le t ht
        omega
      dsimp only
      omega
    · split at hgrant
      · cases hgrant
      · cases hgrant
        have hold : inWindow gap times start ≤ counter.1 := by
          by_cases hempty : times = []
          · simp [hempty, inWindow]
          · have hle := hnow _ (h.last hempty)
            exact h.recent start (by omega)
        dsimp only
        omega
  constructor
  · intro t ht
    rw [hlast]
    rcases List.mem_append.mp ht with ht | ht
    · exact hnow t ht
    · exact Nat.le_of_eq (List.mem_singleton.mp ht)
  · intro _
    simp [hlast]
  · intro start
    by_cases hopen : now < start + gap
    · have hbound := hrecent start hopen
      omega
    · have hold := h.window start
      rw [inWindow_concat, if_neg (by omega)]
      omega
  · intro start hopen
    rw [hlast] at hopen
    exact (hrecent start hopen).1

end Async
