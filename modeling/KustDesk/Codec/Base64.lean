import Mathlib.Data.List.Basic

/-!
# Codec — Base64

Bytes as text with 64 letters: three bytes are four letters, and a last
group that is too short is filled up with `=`. A `Base64` is any such codec,
given by what is promised of it; `standard` is the one of RFC 4648.

Nothing in this directory is about a particular program.
-/

namespace Codec

/-- The 64 letters, in the order of their values. -/
def letters : List Char :=
  ['A', 'B', 'C', 'D', 'E', 'F', 'G', 'H', 'I', 'J', 'K', 'L', 'M',
    'N', 'O', 'P', 'Q', 'R', 'S', 'T', 'U', 'V', 'W', 'X', 'Y', 'Z',
    'a', 'b', 'c', 'd', 'e', 'f', 'g', 'h', 'i', 'j', 'k', 'l', 'm',
    'n', 'o', 'p', 'q', 'r', 's', 't', 'u', 'v', 'w', 'x', 'y', 'z',
    '0', '1', '2', '3', '4', '5', '6', '7', '8', '9', '+', '/']

/-- An encoding of bytes in the letters and `=`, four characters for every
three bytes that were begun, with a decoder that takes no other characters. -/
structure Base64 where
  encode : List UInt8 → String
  decode : String → Option (List UInt8)
  decode_encode : ∀ bytes, decode (encode bytes) = some bytes
  length_encode : ∀ bytes, (encode bytes).length = 4 * ((bytes.length + 2) / 3)
  mem_of_decode : ∀ text bytes, decode text = some bytes → ∀ c ∈ text.toList, c ∈ '=' :: letters

/-! ## Letters and values -/

def letter (n : Nat) : Char := letters.getD n '='

def value (c : Char) : Option Nat := letters.findIdx? (· = c)

theorem value_letter : ∀ n < 64, value (letter n) = some n := by decide +kernel

theorem letter_ne : ∀ n < 64, letter n ≠ '=' := by decide +kernel

/-! ## Groups of three bytes -/

/-- The letters of the groups, two bytes filled up to 18 bits and one byte to
twelve. -/
def encodeChars : List UInt8 → List Char
  | [] => []
  | [a] =>
      let n := a.toNat * 16
      [letter (n / 64), letter (n % 64), '=', '=']
  | [a, b] =>
      let n := (a.toNat * 256 + b.toNat) * 4
      [letter (n / 4096), letter (n / 64 % 64), letter (n % 64), '=']
  | a :: b :: c :: rest =>
      let n := (a.toNat * 256 + b.toNat) * 256 + c.toNat
      letter (n / 262144) :: letter (n / 4096 % 64) :: letter (n / 64 % 64) :: letter (n % 64)
        :: encodeChars rest

/-- The last group: what fills it up must be zero. -/
def decodeLast (a b c : Char) : Option (List UInt8) := do
  let a ← value a
  let b ← value b
  if c = '=' then
    if b % 16 = 0 then some [UInt8.ofNat ((a * 64 + b) / 16)] else none
  else do
    let c ← value c
    let n := (a * 64 + b) * 64 + c
    if n % 4 = 0 then some [UInt8.ofNat (n / 1024), UInt8.ofNat (n / 4 % 256)] else none

def decodeChars : List Char → Option (List UInt8)
  | [] => some []
  | a :: b :: c :: d :: rest =>
      if d = '=' then
        if rest = [] then decodeLast a b c else none
      else do
        let a ← value a
        let b ← value b
        let c ← value c
        let d ← value d
        let n := ((a * 64 + b) * 64 + c) * 64 + d
        let bytes ← decodeChars rest
        some (UInt8.ofNat (n / 65536) :: UInt8.ofNat (n / 256 % 256) :: UInt8.ofNat (n % 256)
          :: bytes)
  | _ => none

theorem ofNat_eq {n : Nat} {a : UInt8} (h : n = a.toNat) : UInt8.ofNat n = a := by
  rw [h, UInt8.ofNat_toNat]

theorem decodeChars_encodeChars (bytes : List UInt8) :
    decodeChars (encodeChars bytes) = some bytes := by
  fun_induction encodeChars bytes with
  | case1 => rfl
  | case2 a n =>
      have ha := a.toNat_lt
      have h₁ : n / 64 < 64 := by omega
      have h₂ : n % 64 < 64 := by omega
      have hfill : n % 64 % 16 = 0 := by omega
      have hback : (n / 64 * 64 + n % 64) / 16 = a.toNat := by omega
      simp [decodeChars, decodeLast, value_letter _ h₁, value_letter _ h₂, hfill, ofNat_eq hback]
  | case3 a b n =>
      have ha := a.toNat_lt
      have hb := b.toNat_lt
      have h₁ : n / 4096 < 64 := by omega
      have h₂ : n / 64 % 64 < 64 := by omega
      have h₃ : n % 64 < 64 := by omega
      have hjoin : (n / 4096 * 64 + n / 64 % 64) * 64 + n % 64 = n := by omega
      have hfill : n % 4 = 0 := by omega
      have hback : n / 1024 = a.toNat := by omega
      have hback' : n / 4 % 256 = b.toNat := by omega
      simp [decodeChars, decodeLast, value_letter _ h₁, value_letter _ h₂, value_letter _ h₃,
        letter_ne _ h₃, hjoin, hfill, ofNat_eq hback, ofNat_eq hback']
  | case4 a b c rest n ih =>
      have ha := a.toNat_lt
      have hb := b.toNat_lt
      have hc := c.toNat_lt
      have h₁ : n / 262144 < 64 := by omega
      have h₂ : n / 4096 % 64 < 64 := by omega
      have h₃ : n / 64 % 64 < 64 := by omega
      have h₄ : n % 64 < 64 := by omega
      have hjoin : ((n / 262144 * 64 + n / 4096 % 64) * 64 + n / 64 % 64) * 64 + n % 64 = n := by
        omega
      have hback : n / 65536 = a.toNat := by omega
      have hback' : n / 256 % 256 = b.toNat := by omega
      have hback'' : n % 256 = c.toNat := by omega
      simp [decodeChars, value_letter _ h₁, value_letter _ h₂, value_letter _ h₃,
        value_letter _ h₄, letter_ne _ h₄, hjoin, ih, ofNat_eq hback, ofNat_eq hback',
        ofNat_eq hback'']

theorem length_encodeChars (bytes : List UInt8) :
    (encodeChars bytes).length = 4 * ((bytes.length + 2) / 3) := by
  fun_induction encodeChars bytes with
  | case1 => rfl
  | case2 a n => simp
  | case3 a b n => simp
  | case4 a b c rest n ih =>
      simp only [List.length_cons, ih]
      omega

theorem value_mem {c : Char} {n : Nat} (h : value c = some n) : c ∈ '=' :: letters := by
  obtain ⟨hn, hc, -⟩ := List.findIdx?_eq_some_iff_getElem.mp h
  rw [← of_decide_eq_true hc]
  exact List.mem_cons_of_mem _ (List.getElem_mem hn)

theorem mem_of_decodeLast {a b c : Char} {bytes : List UInt8}
    (h : decodeLast a b c = some bytes) : ∀ c' ∈ [a, b, c], c' ∈ '=' :: letters := by
  simp only [decodeLast, Option.bind_eq_bind, Option.bind_eq_some_iff] at h
  obtain ⟨na, ha, nb, hb, h⟩ := h
  have hc : c ∈ '=' :: letters := by
    by_cases hfill : c = '='
    · exact List.mem_cons.mpr (.inl hfill)
    · rw [if_neg hfill, Option.bind_eq_some_iff] at h
      obtain ⟨nc, hc, -⟩ := h
      exact value_mem hc
  intro c' hc'
  simp only [List.mem_cons, List.not_mem_nil, or_false] at hc'
  rcases hc' with rfl | rfl | rfl
  · exact value_mem ha
  · exact value_mem hb
  · exact hc

theorem mem_of_decodeChars {text : List Char} {bytes : List UInt8}
    (h : decodeChars text = some bytes) : ∀ c ∈ text, c ∈ '=' :: letters := by
  fun_induction decodeChars text generalizing bytes with
  | case1 => exact List.forall_mem_nil _
  | case2 a b c =>
      intro c' hc'
      have hlast := mem_of_decodeLast h c'
      simp only [List.mem_cons, List.not_mem_nil, or_false] at hc'
      rcases hc' with rfl | rfl | rfl | rfl
      · exact hlast (by simp)
      · exact hlast (by simp)
      · exact hlast (by simp)
      · exact List.mem_cons_self
  | case3 a b c rest hrest => cases h
  | case4 a b c d rest hd ih =>
      simp only [Option.bind_eq_bind, Option.bind_eq_some_iff] at h
      obtain ⟨na, ha, nb, hb, nc, hc, nd, hd, tail, htail, -⟩ := h
      intro c' hc'
      simp only [List.mem_cons] at hc'
      rcases hc' with rfl | rfl | rfl | rfl | hc'
      · exact value_mem ha
      · exact value_mem hb
      · exact value_mem hc
      · exact value_mem hd
      · exact ih htail c' hc'
  | case5 => cases h

namespace Base64

/-- RFC 4648, with canonical padding. -/
def standard : Base64 where
  encode bytes := String.ofList (encodeChars bytes)
  decode text := decodeChars text.toList
  decode_encode bytes := by simp [decodeChars_encodeChars]
  length_encode bytes := by simp [length_encodeChars]
  mem_of_decode _ _ h := mem_of_decodeChars h

variable (b64 : Base64)

/-- Only the empty list has the empty text. -/
@[simp] theorem encode_eq_empty {bytes : List UInt8} : b64.encode bytes = "" ↔ bytes = [] := by
  constructor
  · intro h
    have hlength := b64.length_encode bytes
    rw [h] at hlength
    cases bytes with
    | nil => rfl
    | cons a rest =>
        simp only [String.length_empty, List.length_cons] at hlength
        omega
  · intro h
    have hlength := b64.length_encode bytes
    rw [h] at hlength
    rw [h]
    exact String.length_eq_zero_iff.mp hlength

theorem mem_encode (bytes : List UInt8) : ∀ c ∈ (b64.encode bytes).toList, c ∈ '=' :: letters :=
  b64.mem_of_decode _ _ (b64.decode_encode bytes)

end Base64

example : Base64.standard.encode [77, 97, 110, 33] = "TWFuIQ==" := by decide

end Codec
