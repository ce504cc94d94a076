import Mathlib.Data.List.Basic

/-!
# Codec — Numeral

Numbers in digits: the digits at the front of a text are read one after the
other, and a number that `Nat.toDigits` has written is read back, whatever
text follows that is no digit itself.

Nothing in this directory is about a particular program.
-/

namespace Codec

def digitValue (c : Char) : Option Nat :=
  if '0' ≤ c ∧ c ≤ '9' then some (c.toNat - '0'.toNat)
  else if 'a' ≤ c ∧ c ≤ 'z' then some (c.toNat - 'a'.toNat + 10)
  else if 'A' ≤ c ∧ c ≤ 'Z' then some (c.toNat - 'A'.toNat + 10)
  else none

/-- The value of a digit in this radix, 36 at most. -/
def toDigit (radix : Nat) (c : Char) : Option Nat := (digitValue c).filter (· < radix)

/-- The digits at the front, and the rest of the text. -/
def readDigits (radix : Nat) : List Char → List Nat × List Char
  | [] => ([], [])
  | c :: cs =>
    match toDigit radix c with
    | some d => (d :: (readDigits radix cs).1, (readDigits radix cs).2)
    | none => ([], c :: cs)

def ofDigits (radix : Nat) (ds : List Nat) : Nat := ds.foldl (fun n d => n * radix + d) 0

/-- The text does not begin with a digit. -/
def NoDigit (radix : Nat) (rest : List Char) : Prop := ∀ c ∈ rest.head?, toDigit radix c = none

variable {radix n : Nat} {rest : List Char}

theorem toDigit_digitChar {d : Nat} (hradix : radix ≤ 16) (hd : d < radix) :
    toDigit radix d.digitChar = some d := by
  have hvalue : ∀ d < 16, digitValue d.digitChar = some d := by decide
  simp [toDigit, hvalue d (by omega), hd]

theorem ofDigits_concat (radix : Nat) (ds : List Nat) (d : Nat) :
    ofDigits radix (ds ++ [d]) = ofDigits radix ds * radix + d := by
  simp [ofDigits]

/-! ## What is read -/

theorem readDigits_subset (radix : Nat) (cs : List Char) : (readDigits radix cs).2 ⊆ cs := by
  induction cs with
  | nil => exact List.Subset.refl _
  | cons c cs ih =>
      rw [readDigits]
      cases toDigit radix c with
      | some d => exact fun a ha => List.mem_cons_of_mem _ (ih ha)
      | none => exact List.Subset.refl _

theorem readDigits_of_noDigit (h : NoDigit radix rest) : readDigits radix rest = ([], rest) := by
  cases rest with
  | nil => rfl
  | cons c cs => rw [readDigits, h c rfl]

theorem readDigits_append {cs : List Char} {ds : List Nat}
    (hdigits : cs.map (toDigit radix) = ds.map some) (hrest : NoDigit radix rest) :
    readDigits radix (cs ++ rest) = (ds, rest) := by
  induction cs generalizing ds with
  | nil =>
      obtain rfl : ds = [] := by simpa using hdigits.symm
      exact readDigits_of_noDigit hrest
  | cons c cs ih =>
      cases ds with
      | nil => simp at hdigits
      | cons d ds =>
          simp only [List.map_cons, List.cons.injEq] at hdigits
          obtain ⟨hd, hdigits⟩ := hdigits
          rw [List.cons_append, readDigits, hd]
          simp [ih hdigits]

/-! ## What is written -/

theorem map_toDigit_toDigits (hpos : 1 < radix) (hradix : radix ≤ 16) (n : Nat) :
    ∃ ds, (Nat.toDigits radix n).map (toDigit radix) = ds.map some ∧ ofDigits radix ds = n := by
  induction n using Nat.strongRecOn with
  | ind n ih =>
      by_cases hn : n < radix
      · refine ⟨[n], ?_, by simp [ofDigits]⟩
        rw [Nat.toDigits_of_lt_base hn]
        simp [toDigit_digitChar hradix hn]
      · -- all digits but the last are those of the quotient
        obtain ⟨ds, hds, hvalue⟩ := ih (n / radix) (Nat.div_lt_self (by omega) hpos)
        refine ⟨ds ++ [n % radix], ?_, ?_⟩
        · rw [Nat.toDigits_of_base_le hpos (by omega), List.map_append, hds]
          simp [toDigit_digitChar hradix (Nat.mod_lt n (by omega : radix > 0))]
        · rw [ofDigits_concat, hvalue, Nat.mul_comm, Nat.div_add_mod]

theorem readDigits_toDigits (hpos : 1 < radix) (hradix : radix ≤ 16) (n : Nat)
    (hrest : NoDigit radix rest) :
    ∃ ds, readDigits radix (Nat.toDigits radix n ++ rest) = (ds, rest) ∧ ofDigits radix ds = n
      ∧ ds.length = (Nat.toDigits radix n).length := by
  obtain ⟨ds, hds, hvalue⟩ := map_toDigit_toDigits hpos hradix n
  refine ⟨ds, readDigits_append hds hrest, hvalue, ?_⟩
  simpa using (congrArg List.length hds).symm

/-- Only zero is written with a zero in front. -/
theorem head_toDigits (hpos : 1 < radix) (hradix : radix ≤ 16) (n : Nat)
    (h : (Nat.toDigits radix n).head? = some '0') : n = 0 := by
  induction n using Nat.strongRecOn with
  | ind n ih =>
      by_cases hn : n < radix
      · rw [Nat.toDigits_of_lt_base hn, List.head?_cons, Option.some.injEq] at h
        have hdigit := toDigit_digitChar hradix hn
        rw [h] at hdigit
        have hzero : toDigit radix '0' = some 0 := by
          simp [toDigit, digitValue]
          omega
        cases hdigit.symm.trans hzero
        rfl
      · rw [Nat.toDigits_of_base_le hpos (by omega),
          List.head?_append_of_ne_nil _ Nat.toDigits_ne_nil] at h
        have hquot := ih (n / radix) (Nat.div_lt_self (by omega) hpos) h
        have hpos' : 0 < n / radix := Nat.div_pos (by omega) (by omega)
        omega

end Codec
