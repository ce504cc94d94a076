import Mathlib.Data.Int.CardIntervalMod
import KustDesk.Async.Pool

/-!
# Async — Ticket

A counter from which tasks draw numbers, and which starts over at a modulus.
Whatever the schedule, the numbers that are drawn are consecutive up to that, so
that those that are taken modulo `n` come in turns.
-/

namespace Async

/-! ## Turns -/

section turns
variable {n r : Nat}

/-- With every round, each remainder comes once more. -/
theorem count_add_round (hn : 0 < n) (r k u : Nat) :
    (k + n * u).count (· ≡ r [MOD n]) = k.count (· ≡ r [MOD n]) + u := by
  rw [Nat.count_modEq_card _ hn, Nat.count_modEq_card _ hn, Nat.add_mul_div_left _ _ hn,
    Nat.add_mul_mod_self_left]
  omega

theorem countP_range' (p : Nat → Prop) [DecidablePred p] (k m : Nat) :
    (List.range' k m).countP (fun i => decide (p i)) + k.count p = (k + m).count p := by
  induction m with
  | zero => simp
  | succ m ih =>
      rw [List.range'_1_concat, List.countP_append, ← Nat.add_assoc, Nat.count_succ, ← ih]
      by_cases hp : p (k + m)
      · simp [hp]
        omega
      · simp [hp]

/-- Of `m` consecutive numbers, each remainder has its share. -/
theorem share_bounds (hr : r < n) (k m : Nat) :
    m / n ≤ (List.range' k m).countP (fun i => i % n = r)
    ∧ (List.range' k m).countP (fun i => i % n = r) ≤ m / n + 1
    ∧ (n ∣ m → (List.range' k m).countP (fun i => i % n = r) = m / n) := by
  have hn : 0 < n := by omega
  have hmod : (fun i : Nat => decide (i % n = r)) = fun i => decide (i ≡ r [MOD n]) := by
    funext i
    show _ = decide (i % n = r % n)
    rw [Nat.mod_eq_of_lt hr]
  have hcount := countP_range' (· ≡ r [MOD n]) k m
  -- all rounds that are complete, and then less than one
  have hsplit : k + m = k + m % n + n * (m / n) := by
    have hdiv := Nat.mod_add_div m n
    omega
  rw [hsplit, count_add_round hn] at hcount
  have hlow : k.count (· ≡ r [MOD n]) ≤ (k + m % n).count (· ≡ r [MOD n]) :=
    Nat.count_monotone _ (by omega)
  have hhigh : (k + m % n).count (· ≡ r [MOD n]) ≤ (k + n * 1).count (· ≡ r [MOD n]) :=
    Nat.count_monotone _ (by have := Nat.mod_lt m hn; omega)
  rw [count_add_round hn] at hhigh
  rw [hmod]
  refine ⟨by omega, by omega, fun hdvd => ?_⟩
  rw [Nat.mod_eq_zero_of_dvd hdvd, Nat.add_zero] at hcount
  omega

/-! Where the numbers start over at `M`. -/

section wrap
variable {k m M : Nat}

theorem nodup_range'_mod (h : m ≤ M) : ((List.range' k m).map (· % M)).Nodup := by
  have hinj {i j : Nat} (hi : i ∈ List.range' k m) (hj : j ∈ List.range' k m)
      (hmod : i % M = j % M) (hle : i ≤ j) : i = j := by
    rw [List.mem_range'_1] at hi hj
    have hdvd : M ∣ j - i := (Nat.modEq_iff_dvd' hle).mp hmod
    have hzero := Nat.eq_zero_of_dvd_of_lt hdvd (by omega)
    omega
  refine List.Nodup.map_on ?_ (List.nodup_range' 1)
  intro i hi j hj hmod
  rcases Nat.le_total i j with hle | hle
  · exact hinj hi hj hmod hle
  · exact (hinj hj hi hmod.symm hle).symm

theorem range'_mod_of_le (h : k % M + m ≤ M) :
    (List.range' k m).map (· % M) = List.range' (k % M) m := by
  induction m with
  | zero => rfl
  | succ m ih =>
      have hlast : (k + m) % M = k % M + m := by
        rw [← Nat.mod_add_mod, Nat.mod_eq_of_lt (by omega)]
      rw [List.range'_1_concat, List.range'_1_concat, List.map_append, ih (by omega)]
      simp [hlast]

/-- The shares are kept where the numbers do not start over, or do so between
two rounds. -/
theorem share_bounds_mod (hr : r < n) (h : n ∣ M ∨ k % M + m ≤ M) :
    m / n ≤ ((List.range' k m).map (· % M)).countP (fun i => i % n = r)
    ∧ ((List.range' k m).map (· % M)).countP (fun i => i % n = r) ≤ m / n + 1
    ∧ (n ∣ m → ((List.range' k m).map (· % M)).countP (fun i => i % n = r) = m / n) := by
  rcases h with hdvd | hle
  · have hcount : ((List.range' k m).map (· % M)).countP (fun i => i % n = r)
        = (List.range' k m).countP (fun i => i % n = r) := by
      rw [List.countP_map]
      congr 1
      funext i
      simp [Nat.mod_mod_of_dvd i hdvd]
    rw [hcount]
    exact share_bounds hr k m
  · rw [range'_mod_of_le hle]
    exact share_bounds hr _ m

end wrap

end turns

/-! ## Tickets -/

variable {ι ε ο σ : Type}

/-- A counter: where the state has it, at which number it starts over, and which
steps draw a number. -/
structure Counter (ε ο σ : Type) where
  value : σ → Nat
  modulus : σ → Nat
  value_lt : ∀ s, value s < modulus s
  draws : Event ε ο σ → Bool

namespace Counter

variable (c : Counter ε ο σ)

/-- The step leaves the counter alone, or draws the next number. -/
def Counts (ev : Event ε ο σ) : Prop :=
  c.modulus ev.post = c.modulus ev.pre
    ∧ c.value ev.post = (c.value ev.pre + (c.draws ev).toNat) % c.modulus ev.pre

/-- The numbers that are drawn, in order. -/
def tickets (es : List (ι × Event ε ο σ)) : List Nat :=
  es.filterMap fun y => if c.draws y.2 then some (c.value y.2.pre) else none

variable {c} {β : ι → Type} [DecidableEq ι] {p q : Pool ι ε ο σ β}
  {es es₁ es₂ : List (ι × Event ε ο σ)}

theorem value_eq (h : p.Run es q) (hp : ∀ i, (p.tasks i).All c.Counts) :
    c.modulus q.shared = c.modulus p.shared
    ∧ c.value q.shared = (c.value p.shared + (c.tickets es).length) % c.modulus p.shared
    ∧ c.tickets es = (List.range' (c.value p.shared) (c.tickets es).length).map
        (· % c.modulus p.shared) := by
  refine h.invariant (J := fun es s => c.modulus s = c.modulus p.shared
    ∧ c.value s = (c.value p.shared + (c.tickets es).length) % c.modulus p.shared
    ∧ c.tickets es = (List.range' (c.value p.shared) (c.tickets es).length).map
        (· % c.modulus p.shared))
    ⟨rfl, (Nat.mod_eq_of_lt (c.value_lt p.shared)).symm, rfl⟩ ?_
  rintro es q i e op f k hrun hi ⟨hmodulus, hvalue, htickets⟩
  have hcounts : c.Counts ⟨op, e, q.shared, f e q.shared⟩ := hrun.next (hp i) hi e q.shared
  obtain ⟨hkept, hnext⟩ := hcounts
  dsimp only at hkept hnext
  rw [hmodulus] at hkept hnext
  refine ⟨hkept, ?_⟩
  have hsnoc : c.tickets (es ++ [(i, ⟨op, e, q.shared, f e q.shared⟩)]) = c.tickets es
      ++ if c.draws ⟨op, e, q.shared, f e q.shared⟩ then [c.value q.shared] else [] := by
    unfold tickets
    rw [List.filterMap_append]
    cases hdraws : c.draws ⟨op, e, q.shared, f e q.shared⟩ with
    | false => simp [hdraws]
    | true => simp [hdraws]
  rw [hsnoc]
  cases hdraws : c.draws ⟨op, e, q.shared, f e q.shared⟩ with
  | false =>
      rw [hdraws, hvalue] at hnext
      simp only [Bool.false_eq_true, if_false, List.append_nil]
      exact ⟨hnext.trans (Nat.mod_mod _ _), htickets⟩
  | true =>
      rw [hdraws, hvalue] at hnext
      simp only [if_true, List.length_append, List.length_singleton]
      refine ⟨hnext.trans (Nat.mod_add_mod _ _ _), ?_⟩
      rw [List.range'_1_concat, List.map_append, ← htickets, hvalue]
      rfl

/-- In any stretch of a run, the numbers that are drawn follow one another. -/
theorem tickets_stretch (h : p.Run (es₁ ++ es₂) q) (hp : ∀ i, (p.tasks i).All c.Counts) :
    c.tickets es₂ = (List.range' (c.value p.shared + (c.tickets es₁).length)
      (c.tickets es₂).length).map (· % c.modulus p.shared) := by
  have hall := (value_eq h hp).2.2
  have happend : c.tickets (es₁ ++ es₂) = c.tickets es₁ ++ c.tickets es₂ :=
    List.filterMap_append
  rw [happend, List.length_append, ← List.range'_append_1, List.map_append] at hall
  exact (List.append_inj hall (by simp)).2

end Counter

end Async
