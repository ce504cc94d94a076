import KustDesk.Prelude

/-!
# KustDesk — AddrForms

An IPv4 address as it comes from an IPv4 socket, and as the IPv4-mapped IPv6
address that a dual-stack socket makes of it. The two are different as
addresses and as texts; no other address shares a text with either.
-/

namespace KustDesk

/-! ## The text of an address -/

theorem toList_ipv4ToString (a : BitVec 32) : (ipv4ToString a).toList
    = ['.'].intercalate ((octets a).map (Nat.toDigits 10)) := by
  have hrepr : String.toList ∘ (toString : Nat → String) = Nat.toDigits 10 := by
    funext n
    exact Nat.toList_repr
  rw [ipv4ToString, String.toList_intercalate, List.map_map, hrepr]
  rfl

theorem not_mem_toDigits {c : Char} (hc : c.isDigit = false) (n : Nat) :
    c ∉ Nat.toDigits 10 n := by
  intro hmem
  rw [Nat.isDigit_of_mem_toDigits (by omega) (by omega) hmem] at hc
  cases hc

theorem splitOn_ipv4ToString (a : BitVec 32) :
    (ipv4ToString a).toList.splitOn '.' = (octets a).map (Nat.toDigits 10) := by
  rw [toList_ipv4ToString]
  apply List.splitOn_intercalate
  · intro l hl
    obtain ⟨n, -, rfl⟩ := List.mem_map.mp hl
    exact not_mem_toDigits rfl n
  · simp [octets]

theorem octets_inj {a b : BitVec 32} (h : octets a = octets b) : a = b := by
  simp only [octets, List.cons.injEq, and_true] at h
  apply BitVec.eq_of_toNat_eq
  omega

theorem ipv4ToString_inj {a b : BitVec 32} (h : ipv4ToString a = ipv4ToString b) : a = b := by
  have hdigits : (octets a).map (Nat.toDigits 10) = (octets b).map (Nat.toDigits 10) := by
    rw [← splitOn_ipv4ToString, ← splitOn_ipv4ToString, h]
  apply octets_inj
  refine List.map_injective_iff.mpr (fun m n hmn => ?_) hdigits
  rw [← Nat.ofDigitChars_ten_toDigits (n := m), hmn, Nat.ofDigitChars_ten_toDigits]

theorem dot_mem_ipv4ToString (a : BitVec 32) : '.' ∈ (ipv4ToString a).toList := by
  simp [toList_ipv4ToString, octets]

theorem colon_not_mem_ipv4ToString (a : BitVec 32) : ':' ∉ (ipv4ToString a).toList := by
  have hdigits := not_mem_toDigits (c := ':') rfl
  simp [toList_ipv4ToString, octets, hdigits]

theorem ipv6ToString_of_mapped {a : BitVec 128} {c : BitVec 32} (h : toIpv4Mapped a = some c) :
    ipv6ToString a = "::ffff:" ++ ipv4ToString c := by
  rw [ipv6ToString, h]

theorem dot_not_mem_toDigits (n : Nat) : '.' ∉ Nat.toDigits 16 n := by
  induction n using Nat.strong_induction_on with
  | _ n ih =>
      rw [Nat.toDigits_eq_if (by omega)]
      split
      · simp
      · have hquot := ih (n / 16) (by omega)
        simp [hquot]

theorem not_mem_intercalate {α : Type} {a b : α} (hne : a ≠ b) {ls : List (List α)}
    (hls : ∀ l ∈ ls, a ∉ l) : a ∉ [b].intercalate ls := by
  induction ls with
  | nil => simp
  | cons l rest ih =>
      cases rest with
      | nil => simpa using hls
      | cons l' rest =>
          have hrest := ih fun k hk => hls k (List.mem_cons_of_mem _ hk)
          have hl := hls l (by simp)
          rw [List.intercalate_cons_cons]
          simp [hl, hrest, hne]

theorem dot_not_mem_ipv6ToString {a : BitVec 128} (h : toIpv4Mapped a = none) :
    '.' ∉ (ipv6ToString a).toList := by
  have hslice (l : List Nat) : '.' ∉ (String.intercalate ":" (l.map hexText)).toList := by
    rw [String.toList_intercalate]
    apply not_mem_intercalate (by decide)
    simp [hexText, dot_not_mem_toDigits]
  rw [ipv6ToString, h]
  dsimp only
  split
  · simp only [String.toList_append, List.mem_append, hslice, false_or, or_false]
    decide
  · exact hslice _

/-! ## The two forms -/

/-- `Ipv4Addr::to_ipv6_mapped`. -/
def toIpv6Mapped (a : BitVec 32) : BitVec 128 :=
  BitVec.ofNat 128 (0xffff * 2 ^ 32 + a.toNat)

theorem toIpv4Mapped_toIpv6Mapped (a : BitVec 32) : toIpv4Mapped (toIpv6Mapped a) = some a := by
  have ha := a.isLt
  have hnat : (toIpv6Mapped a).toNat = 0xffff * 2 ^ 32 + a.toNat := by
    rw [toIpv6Mapped, BitVec.toNat_ofNat]
    omega
  have hhigh : (0xffff * 2 ^ 32 + a.toNat) / 2 ^ 32 = 0xffff := by omega
  rw [toIpv4Mapped, hnat, if_pos hhigh]
  apply congrArg some
  apply BitVec.eq_of_toNat_eq
  rw [BitVec.toNat_ofNat]
  omega

theorem eq_of_toIpv4Mapped {a : BitVec 128} {c : BitVec 32} (h : toIpv4Mapped a = some c) :
    a = toIpv6Mapped c := by
  unfold toIpv4Mapped at h
  split at h
  · cases h
    apply BitVec.eq_of_toNat_eq
    rw [toIpv6Mapped, BitVec.toNat_ofNat, BitVec.toNat_ofNat]
    omega
  · cases h

theorem toIpv6Mapped_inj {c d : BitVec 32} (h : toIpv6Mapped c = toIpv6Mapped d) : c = d := by
  have hback := congrArg toIpv4Mapped h
  rwa [toIpv4Mapped_toIpv6Mapped, toIpv4Mapped_toIpv6Mapped, Option.some.injEq] at hback

namespace IpAddr

/-- The other form of an IPv4 address. -/
def other : IpAddr → Option IpAddr
  | .v4 c => some (.v6 (toIpv6Mapped c))
  | .v6 a => (toIpv4Mapped a).map .v4

@[simp] theorem other_v4 (c : BitVec 32) : (v4 c).other = some (v6 (toIpv6Mapped c)) := rfl

@[simp] theorem other_mapped (c : BitVec 32) : (v6 (toIpv6Mapped c)).other = some (v4 c) := by
  rw [other, toIpv4Mapped_toIpv6Mapped]
  rfl

/-- An address with another form is one of the two of an IPv4 address. -/
theorem forms_of_other {a o : IpAddr} (h : a.other = some o) :
    ∃ c, (a = .v4 c ∧ o = .v6 (toIpv6Mapped c)) ∨ (a = .v6 (toIpv6Mapped c) ∧ o = .v4 c) := by
  cases a with
  | v4 c => exact ⟨c, .inl ⟨rfl, (Option.some.inj h).symm⟩⟩
  | v6 a =>
      obtain ⟨c, hc, rfl⟩ := Option.map_eq_some_iff.mp h
      exact ⟨c, .inr ⟨congrArg _ (eq_of_toIpv4Mapped hc), rfl⟩⟩

theorem toString_mapped (c : BitVec 32) :
    (v6 (toIpv6Mapped c)).toString = "::ffff:" ++ ipv4ToString c :=
  ipv6ToString_of_mapped (toIpv4Mapped_toIpv6Mapped c)

/-- A mapped address is not `::1`. -/
theorem isLoopback_mapped (c : BitVec 32) : (v6 (toIpv6Mapped c)).isLoopback = false := by
  have hc := c.isLt
  rw [isLoopback, toIpv6Mapped, BitVec.toNat_ofNat]
  apply decide_eq_false
  omega

/-- A form of an IPv4 address does not share its text. -/
theorem eq_of_toString_eq {a b o : IpAddr} (ho : a.other = some o)
    (h : a.toString = b.toString) : a = b := by
  have hcolon (c : BitVec 32) : ':' ∈ (v6 (toIpv6Mapped c)).toString.toList := by
    rw [toString_mapped]
    simp
  cases hother : b.other with
  | some o' =>
      obtain ⟨c, ⟨rfl, -⟩ | ⟨rfl, -⟩⟩ := forms_of_other ho
      · obtain ⟨d, ⟨rfl, -⟩ | ⟨rfl, -⟩⟩ := forms_of_other hother
        · rw [ipv4ToString_inj h]
        · have hd := hcolon d
          rw [← h] at hd
          exact (colon_not_mem_ipv4ToString c hd).elim
      · obtain ⟨d, ⟨rfl, -⟩ | ⟨rfl, -⟩⟩ := forms_of_other hother
        · have hc := hcolon c
          rw [h] at hc
          exact (colon_not_mem_ipv4ToString d hc).elim
        · rw [toString_mapped, toString_mapped, String.append_right_inj] at h
          rw [ipv4ToString_inj h]
  | none =>
      -- all forms have a dot, and other addresses none
      cases b with
      | v4 d => cases hother
      | v6 b =>
          have hdot := dot_not_mem_ipv6ToString (Option.map_eq_none_iff.mp hother)
          rw [show ipv6ToString b = a.toString from h.symm] at hdot
          obtain ⟨c, ⟨rfl, -⟩ | ⟨rfl, -⟩⟩ := forms_of_other ho
          · exact (hdot (dot_mem_ipv4ToString c)).elim
          · rw [toString_mapped] at hdot
            simp [dot_mem_ipv4ToString] at hdot

/-- The text is that of the other form. -/
def OtherText (a : IpAddr) (text : String) : Prop := ∃ o ∈ a.other, text = o.toString

instance (a : IpAddr) (text : String) : Decidable (a.OtherText text) :=
  inferInstanceAs (Decidable (∃ o ∈ a.other, text = o.toString))

/-- An IPv4 address may be replaced by its IPv4-mapped form. -/
inductive Rewritten : IpAddr → IpAddr → Prop
  | same (a) : Rewritten a a
  | mapped (c) : Rewritten (.v4 c) (.v6 (toIpv6Mapped c))

end IpAddr

/-- The text of an address, likewise. -/
inductive TextRewritten : String → String → Prop
  | same (t) : TextRewritten t t
  | mapped (c) : TextRewritten (IpAddr.v4 c).toString (IpAddr.v6 (toIpv6Mapped c)).toString

namespace IpAddr.Rewritten

variable {a a' b b' : IpAddr}

theorem eq_or_mapped (h : a.Rewritten a') :
    a' = a ∨ ∃ c, a = .v4 c ∧ a' = .v6 (toIpv6Mapped c) := by
  cases h with
  | same a => exact .inl rfl
  | mapped c => exact .inr ⟨c, rfl, rfl⟩

theorem text (h : a.Rewritten a') : TextRewritten a.toString a'.toString := by
  cases h with
  | same a => exact .same _
  | mapped c => exact .mapped c

/-- Two addresses compare as those they are rewritten to, if in both cases they
are two forms of one address, or in neither. -/
theorem eq_iff (ha : a.Rewritten a') (hb : b.Rewritten b')
    (hforms : b.other = some a ↔ b'.other = some a') : a = b ↔ a' = b' := by
  cases ha with
  | same a =>
      cases hb with
      | same b => exact Iff.rfl
      | mapped c =>
          rw [other_v4, other_mapped, Option.some.injEq, Option.some.injEq] at hforms
          rw [eq_comm, ← hforms, eq_comm]
  | mapped d =>
      cases hb with
      | same b =>
          constructor
          · rintro rfl
            simp at hforms
          · rintro rfl
            simp at hforms
      | mapped c =>
          constructor
          · rintro ⟨⟩
            rfl
          · intro h
            rw [toIpv6Mapped_inj (IpAddr.v6.inj h)]

/-- Likewise where the text of one of them is compared. -/
theorem toString_eq_iff {t t' : String} (ht : TextRewritten t t') (hb : b.Rewritten b')
    (hforms : b.OtherText t ↔ b'.OtherText t') : t = b.toString ↔ t' = b'.toString := by
  cases ht with
  | same t =>
      cases hb with
      | same b => exact Iff.rfl
      | mapped c =>
          simp only [OtherText, other_v4, other_mapped, Option.mem_some_iff,
            exists_eq_left'] at hforms
          exact hforms.symm
  | mapped d =>
      cases hb with
      | same b =>
          constructor
          · intro h
            obtain rfl := eq_of_toString_eq (other_v4 d) h
            obtain ⟨o, ho, htext⟩ := hforms.mpr ⟨_, other_v4 d, rfl⟩
            cases ho
            cases eq_of_toString_eq (other_v4 d) htext
          · intro h
            obtain rfl := eq_of_toString_eq (other_mapped d) h
            obtain ⟨o, ho, htext⟩ := hforms.mp ⟨_, other_mapped d, rfl⟩
            rw [other_mapped] at ho
            cases ho
            cases eq_of_toString_eq (other_mapped d) htext
      | mapped c =>
          constructor
          · intro h
            rw [IpAddr.v4.inj (eq_of_toString_eq (other_v4 d) h)]
          · intro h
            rw [toIpv6Mapped_inj (IpAddr.v6.inj (eq_of_toString_eq (other_mapped d) h))]

end IpAddr.Rewritten

end KustDesk
