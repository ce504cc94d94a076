import KustDesk.AddrForms
import KustDesk.Codec.Numeral

/-!
# KustDesk — AddrParse

`FromStr` of the address types of `std::net`: a parser that reads a text
from the front. A reader that fails leaves its input as it was, so it yields
what it has read and the rest, or nothing. What `Display` has written is read
back, with one exception: an IPv4-mapped IPv6 address is text with a dot, and
in front of a port it needs its brackets all the same.
-/

namespace KustDesk

open Codec

/-- `read_given_char`. -/
def readGivenChar (target : Char) : List Char → Option (List Char)
  | [] => none
  | c :: cs => if c = target then some cs else none

/-- `read_separator`: no separator in front of the first one. -/
def readSeparator {α : Type} (sep : Char) (index : Nat)
    (inner : List Char → Option (α × List Char)) (cs : List Char) : Option (α × List Char) :=
  if index > 0 then (readGivenChar sep cs).bind inner else inner cs

/-- `read_number`, of a type with `size` values. The source stops at the first
digit that is too much. -/
def readNumber (radix : Nat) (maxDigits : Option Nat) (allowZeroPrefix : Bool) (size : Nat)
    (cs : List Char) : Option (Nat × List Char) :=
  let (ds, rest) := readDigits radix cs
  if maxDigits.any (ds.length > ·) then none
  else if ds = [] then none
  else if !allowZeroPrefix && cs.head? = some '0' && ds.length > 1 then none
  else if ofDigits radix ds < size then some (ofDigits radix ds, rest)
  else none

/-- The groups of `read_ipv4_addr` from `index` on. -/
def readOctets (index : Nat) : Nat → List Char → Option (List Nat × List Char)
  | 0, cs => some ([], cs)
  | left + 1, cs => do
    let (octet, cs) ← readSeparator '.' index (readNumber 10 (some 3) false (2 ^ 8)) cs
    let (octets, cs) ← readOctets (index + 1) left cs
    return (octet :: octets, cs)

/-- `Ipv4Addr::from` of the four octets. -/
def ofOctets (octets : List Nat) : BitVec 32 := BitVec.ofNat 32 (ofDigits (2 ^ 8) octets)

/-- `read_ipv4_addr`. -/
def readIpv4Addr (cs : List Char) : Option (BitVec 32 × List Char) :=
  (readOctets 0 4 cs).map fun (octets, cs) => (ofOctets octets, cs)

/-- `read_groups` from `index` on: the groups, whether the last two are an
embedded IPv4 address, and the rest. -/
def readGroups (index : Nat) : Nat → List Char → List Nat × Bool × List Char
  | 0, cs => ([], false, cs)
  | left + 1, cs =>
    -- an IPv4 address takes the place of two groups
    match if left > 0 then readSeparator ':' index readIpv4Addr cs else none with
    | some (a, cs) => ([a.toNat / 2 ^ 16, a.toNat % 2 ^ 16], true, cs)
    | none =>
      match readSeparator ':' index (readNumber 16 (some 4) true (2 ^ 16)) cs with
      | some (group, cs) =>
        let (groups, ipv4, cs) := readGroups (index + 1) left cs
        (group :: groups, ipv4, cs)
      | none => ([], false, cs)

/-- `Ipv6Addr::from` of the eight groups. -/
def ofSegments (groups : List Nat) : BitVec 128 := BitVec.ofNat 128 (ofDigits (2 ^ 16) groups)

/-- `read_ipv6_addr`. -/
def readIpv6Addr (cs : List Char) : Option (BitVec 128 × List Char) :=
  let (head, ipv4, cs) := readGroups 0 8 cs
  if head.length = 8 then some (ofSegments head, cs)
  else if ipv4 then none
  else do
    let cs ← readGivenChar ':' cs
    let cs ← readGivenChar ':' cs
    let (tail, _, cs) := readGroups 0 (8 - (head.length + 1)) cs
    let zeroes := List.replicate (8 - head.length - tail.length) 0
    return (ofSegments (head ++ zeroes ++ tail), cs)

/-- `read_ip_addr`. -/
def readIpAddr (cs : List Char) : Option (IpAddr × List Char) :=
  match readIpv4Addr cs with
  | some (a, cs) => some (.v4 a, cs)
  | none => (readIpv6Addr cs).map fun (a, cs) => (.v6 a, cs)

/-- `read_port`. -/
def readPort (cs : List Char) : Option (UInt16 × List Char) := do
  let cs ← readGivenChar ':' cs
  let (port, cs) ← readNumber 10 none true (2 ^ 16) cs
  return (port.toUInt16, cs)

/-- `read_scope_id`. -/
def readScopeId (cs : List Char) : Option (Nat × List Char) := do
  let cs ← readGivenChar '%' cs
  readNumber 10 none true (2 ^ 32) cs

/-- `read_socket_addr_v4`. -/
def readSocketAddrV4 (cs : List Char) : Option (SocketAddr × List Char) := do
  let (ip, cs) ← readIpv4Addr cs
  let (port, cs) ← readPort cs
  return (⟨.v4 ip, port⟩, cs)

/-- `read_socket_addr_v6`. The scope is not part of a `SocketAddr` here. -/
def readSocketAddrV6 (cs : List Char) : Option (SocketAddr × List Char) := do
  let cs ← readGivenChar '[' cs
  let (ip, cs) ← readIpv6Addr cs
  let cs := match readScopeId cs with
    | some (_, cs) => cs
    | none => cs
  let cs ← readGivenChar ']' cs
  let (port, cs) ← readPort cs
  return (⟨.v6 ip, port⟩, cs)

/-- `read_socket_addr`. -/
def readSocketAddr (cs : List Char) : Option (SocketAddr × List Char) :=
  (readSocketAddrV4 cs).or (readSocketAddrV6 cs)

/-- `parse_with`: nothing may be left over. Bytes outside ASCII are no part of
any address, whether they are read as bytes or as characters. -/
def parseWith {α : Type} (inner : List Char → Option (α × List Char)) (s : String) : Option α :=
  match inner s.toList with
  | some (a, []) => some a
  | _ => none

/-- `s.parse::<IpAddr>()`. -/
def parseIpAddr : String → Option IpAddr := parseWith readIpAddr

/-- `s.parse::<SocketAddr>()`. -/
def parseSocketAddr : String → Option SocketAddr := parseWith readSocketAddr

/-! ## Numbers and separators -/

section numbers
variable {radix size n : Nat} {maxDigits : Option Nat} {allowZeroPrefix : Bool}
  {cs rest : List Char}

theorem readNumber_toDigits (hpos : 1 < radix) (hradix : radix ≤ 16) (hsize : n < size)
    (hmax : ∀ m, maxDigits = some m → (Nat.toDigits radix n).length ≤ m)
    (hrest : NoDigit radix rest) :
    readNumber radix maxDigits allowZeroPrefix size (Nat.toDigits radix n ++ rest)
      = some (n, rest) := by
  obtain ⟨ds, hread, hvalue, hlength⟩ := readDigits_toDigits hpos hradix n hrest
  have hmany : maxDigits.any (ds.length > ·) = false := by
    cases maxDigits with
    | none => rfl
    | some m => simpa [hlength] using hmax m rfl
  have hsome : ds ≠ [] := by
    rintro rfl
    simpa using hlength.symm
  -- a zero in front is the only digit
  have hzero : (Nat.toDigits radix n ++ rest).head? = some '0' → ds.length = 1 := by
    intro hhead
    rw [List.head?_append_of_ne_nil _ Nat.toDigits_ne_nil] at hhead
    rw [hlength, head_toDigits hpos hradix n hhead, Nat.toDigits_zero]
    rfl
  have hprefix : (!allowZeroPrefix && (Nat.toDigits radix n ++ rest).head? = some '0'
      && ds.length > 1) = false := by
    by_cases hhead : (Nat.toDigits radix n ++ rest).head? = some '0'
    · simp [hzero hhead]
    · rw [decide_eq_false hhead]
      simp
  unfold readNumber
  rw [hread]
  simp only [hmany, hprefix, hsome, hvalue, hsize, Bool.false_eq_true, if_false, if_true]

theorem readNumber_of_noDigit (h : NoDigit radix cs) :
    readNumber radix maxDigits allowZeroPrefix size cs = none := by
  unfold readNumber
  rw [readDigits_of_noDigit h]
  simp

theorem readNumber_subset (h : readNumber radix maxDigits allowZeroPrefix size cs = some (n, rest)) :
    rest ⊆ cs := by
  have hsub := readDigits_subset radix cs
  unfold readNumber at h
  dsimp only at h
  split at h
  · cases h
  · split at h
    · cases h
    · split at h
      · cases h
      · split at h
        · cases h
          exact hsub
        · cases h

end numbers

/-- Texts with a separator in front of each, from `index` on. -/
def separated (sep : Char) (index : Nat) : List (List Char) → List Char
  | [] => []
  | l :: ls => (if index > 0 then [sep] else []) ++ (l ++ separated sep (index + 1) ls)

theorem separated_zero (sep : Char) (ls : List (List Char)) :
    separated sep 0 ls = [sep].intercalate ls := by
  have hcons (ls : List (List Char)) (l : List Char) (i : Nat) :
      l ++ separated sep (i + 1) ls = [sep].intercalate (l :: ls) := by
    induction ls generalizing l i with
    | nil => simp [separated]
    | cons l' ls ih =>
        rw [List.intercalate_cons_cons, ← ih l' (i + 1)]
        simp [separated]
  cases ls with
  | nil => rfl
  | cons l ls => simpa [separated] using hcons ls l 0

theorem noDigit_separated {radix : Nat} {sep : Char} {rest : List Char} (i : Nat)
    (ls : List (List Char)) (hsep : toDigit radix sep = none) (hrest : NoDigit radix rest) :
    NoDigit radix (separated sep (i + 1) ls ++ rest) := by
  cases ls with
  | nil => exact hrest
  | cons l ls => simpa [NoDigit, separated] using hsep

theorem readSeparator_separator {α : Type} (sep : Char) (i : Nat)
    (inner : List Char → Option (α × List Char)) (cs : List Char) :
    readSeparator sep i inner ((if i > 0 then [sep] else []) ++ cs) = inner cs := by
  unfold readSeparator
  split <;> simp [readGivenChar]

/-! ## IPv4 -/

theorem readOctets_separated {rest : List Char} (octets : List Nat) (i : Nat)
    (hoctets : ∀ n ∈ octets, n < 2 ^ 8) (hrest : NoDigit 10 rest) :
    readOctets i octets.length (separated '.' i (octets.map (Nat.toDigits 10)) ++ rest)
      = some (octets, rest) := by
  induction octets generalizing i with
  | nil => rfl
  | cons n octets ih =>
      have hn := hoctets n (by simp)
      have hread : readNumber 10 (some 3) false (2 ^ 8) (Nat.toDigits 10 n
          ++ (separated '.' (i + 1) (octets.map (Nat.toDigits 10)) ++ rest))
          = some (n, separated '.' (i + 1) (octets.map (Nat.toDigits 10)) ++ rest) := by
        refine readNumber_toDigits (by omega) (by omega) hn ?_
          (noDigit_separated i _ (by decide) hrest)
        rintro m ⟨⟩
        rw [Nat.length_toDigits_le_iff (by omega) (by omega)]
        omega
      rw [List.length_cons, readOctets, List.map_cons, separated, List.append_assoc,
        List.append_assoc, readSeparator_separator, hread]
      simp [ih (i + 1) fun m hm => hoctets m (by simp [hm])]

theorem octets_lt (a : BitVec 32) : ∀ n ∈ octets a, n < 2 ^ 8 := by
  have ha := a.isLt
  intro n hn
  simp only [octets, List.mem_cons, List.not_mem_nil, or_false] at hn
  omega

theorem ofOctets_octets (a : BitVec 32) : ofOctets (octets a) = a := by
  have ha := a.isLt
  apply BitVec.eq_of_toNat_eq
  rw [ofOctets, BitVec.toNat_ofNat]
  simp only [octets, ofDigits, List.foldl_cons, List.foldl_nil]
  omega

theorem readIpv4Addr_toString {rest : List Char} (a : BitVec 32) (hrest : NoDigit 10 rest) :
    readIpv4Addr ((ipv4ToString a).toList ++ rest) = some (a, rest) := by
  have hread := readOctets_separated (octets a) 0 (octets_lt a) hrest
  rw [show (octets a).length = 4 from rfl] at hread
  rw [readIpv4Addr, toList_ipv4ToString, ← separated_zero, hread]
  simp [ofOctets_octets]

/-- There is no IPv4 address without a dot. -/
theorem readIpv4Addr_of_no_dot {cs : List Char} (h : '.' ∉ cs) : readIpv4Addr cs = none := by
  have hsecond (cs : List Char) (hcs : '.' ∉ cs) : readOctets 1 3 cs = none := by
    cases cs with
    | nil => rfl
    | cons c cs =>
        have hc : c ≠ '.' := fun hc => hcs (by simp [hc])
        simp [readOctets, readSeparator, readGivenChar, hc]
  rw [readIpv4Addr, readOctets, readSeparator, if_neg (by omega)]
  cases hnumber : readNumber 10 (some 3) false (2 ^ 8) cs with
  | none => rfl
  | some y =>
      have hrest := hsecond y.2 fun hdot => h (readNumber_subset hnumber hdot)
      show Option.map _ ((readOctets 1 3 y.2).bind _) = none
      rw [hrest]
      rfl

/-! ## IPv6 -/

/-- One group of an IPv6 address. -/
def readGroup : List Char → Option (Nat × List Char) := readNumber 16 (some 4) true (2 ^ 16)

/-- Without a dot, there is no embedded IPv4 address. -/
theorem readSeparator_readIpv4Addr {cs : List Char} (i : Nat) (h : '.' ∉ cs) :
    readSeparator ':' i readIpv4Addr cs = none := by
  unfold readSeparator
  split
  · cases cs with
    | nil => rfl
    | cons c cs =>
        by_cases hc : c = ':'
        · rw [readGivenChar, if_pos hc]
          exact readIpv4Addr_of_no_dot fun hmem => h (List.mem_cons_of_mem _ hmem)
        · rw [readGivenChar, if_neg hc]
          rfl
  · exact readIpv4Addr_of_no_dot h

theorem dot_not_mem_separated {rest : List Char} (groups : List Nat) (i : Nat)
    (hrest : '.' ∉ rest) :
    '.' ∉ separated ':' i (groups.map (Nat.toDigits 16)) ++ rest := by
  induction groups generalizing i with
  | nil => exact hrest
  | cons n groups ih =>
      have hsep : '.' ∉ (if i > 0 then [':'] else []) := by split <;> decide
      have htail := ih (i + 1)
      simp only [List.mem_append, not_or] at htail
      simp only [List.map_cons, separated, List.mem_append, not_or]
      exact ⟨⟨hsep, dot_not_mem_toDigits n, htail.1⟩, hrest⟩

theorem readGroups_separated {rest : List Char} (groups : List Nat) (i left : Nat)
    (hgroups : ∀ n ∈ groups, n < 2 ^ 16) (hleft : groups.length ≤ left)
    (hrest : NoDigit 16 rest) (hdot : '.' ∉ rest)
    (hstop : ∀ i, readSeparator ':' i readGroup rest = none) :
    readGroups i left (separated ':' i (groups.map (Nat.toDigits 16)) ++ rest)
      = (groups, false, rest) := by
  induction groups generalizing i left with
  | nil =>
      cases left with
      | zero => rfl
      | succ left =>
          have hnone := hstop i
          unfold readGroup at hnone
          rw [readGroups, readSeparator_readIpv4Addr i (dot_not_mem_separated [] i hdot), ite_self]
          simp only [List.map_nil, separated, List.nil_append, hnone]
  | cons n groups ih =>
      cases left with
      | zero => simp at hleft
      | succ left =>
          have hread : readNumber 16 (some 4) true (2 ^ 16) (Nat.toDigits 16 n
              ++ (separated ':' (i + 1) (groups.map (Nat.toDigits 16)) ++ rest))
              = some (n, separated ':' (i + 1) (groups.map (Nat.toDigits 16)) ++ rest) := by
            refine readNumber_toDigits (by omega) (by omega) (hgroups n (by simp)) ?_
              (noDigit_separated i _ (by decide) hrest)
            rintro m ⟨⟩
            rw [Nat.length_toDigits_le_iff (by omega) (by omega)]
            have hn := hgroups n (by simp)
            omega
          rw [readGroups,
            readSeparator_readIpv4Addr i (dot_not_mem_separated (n :: groups) i hdot), ite_self,
            List.map_cons, separated, List.append_assoc, List.append_assoc,
            readSeparator_separator, hread]
          have htail := ih (i + 1) left (fun m hm => hgroups m (by simp [hm]))
            (by simpa using hleft)
          simp only [htail]

/-- A run of zero segments. -/
structure ZeroRun (segs : List Nat) (run : Nat × Nat) : Prop where
  le : run.1 + run.2 ≤ segs.length
  zero : ∀ k, run.1 ≤ k → k < run.1 + run.2 → segs[k]? = some 0

theorem ZeroRun.split {segs : List Nat} {run : Nat × Nat} (h : ZeroRun segs run) :
    segs = segs.take run.1 ++ List.replicate run.2 0 ++ segs.drop (run.1 + run.2) := by
  have hle := h.le
  have hmiddle : (segs.drop run.1).take run.2 = List.replicate run.2 0 := by
    apply List.ext_getElem?
    intro k
    rw [List.getElem?_take, List.getElem?_drop, List.getElem?_replicate]
    split
    · exact h.zero (run.1 + k) (by omega) (by omega)
    · rfl
  rw [← hmiddle, List.append_assoc, ← List.drop_drop, List.take_append_drop,
    List.take_append_drop]

/-- What holds before a scan and is kept by each element holds after it. -/
theorem foldl_zipIdx {α β : Type} {f : β → α × Nat → β} {J : Nat → β → Prop} {l : List α} {b : β}
    (h : J 0 b) (hstep : ∀ i a b, l[i]? = some a → J i b → J (i + 1) (f b (a, i))) :
    J l.length (l.zipIdx.foldl f b) := by
  have hfrom (rest : List α) (i : Nat) (b : β) (hrest : l.drop i = rest) (h : J i b) :
      J (i + rest.length) ((rest.zipIdx i).foldl f b) := by
    induction rest generalizing i b with
    | nil => exact h
    | cons a rest ih =>
        have ha : l[i]? = some a := by
          rw [← List.head?_drop, hrest]
          rfl
        have hrest' : l.drop (i + 1) = rest := by
          rw [← List.tail_drop, hrest]
          rfl
        have hnext := ih (i + 1) (f b (a, i)) hrest' (hstep i a b ha h)
        rwa [List.length_cons, List.zipIdx_cons, List.foldl_cons, Nat.add_comm rest.length 1,
          ← Nat.add_assoc]
  simpa using hfrom l 0 b rfl h

/-- What the scan of `longestZeroes` knows after `i` segments: the longest run
so far and the one it is in. -/
structure Scanned (segs : List Nat) (i : Nat) (acc : (Nat × Nat) × (Nat × Nat)) : Prop where
  longest : ZeroRun segs acc.1
  current : ZeroRun segs acc.2
  ends : acc.2.2 = 0 ∨ acc.2.1 + acc.2.2 = i

theorem zeroRun_longestZeroes (segs : List Nat) : ZeroRun segs (longestZeroes segs) := by
  have hempty : ZeroRun segs (0, 0) := ⟨by simp, fun k hle hlt => absurd hlt (by simp)⟩
  unfold longestZeroes
  refine (foldl_zipIdx (J := Scanned segs) ⟨hempty, hempty, .inl rfl⟩ ?_).longest
  intro i seg acc hseg h
  obtain ⟨longest, current⟩ := acc
  obtain ⟨hlongest, hcurrent, hends⟩ := h
  have hi : i < segs.length := (List.getElem?_eq_some_iff.mp hseg).1
  dsimp only at hlongest hcurrent hends ⊢
  by_cases hzero : seg = 0
  · rw [if_pos hzero]
    have hrun : ZeroRun segs (if current.2 = 0 then i else current.1, current.2 + 1) := by
      constructor
      · dsimp only
        split <;> omega
      · intro k hle hlt
        dsimp only at hle hlt
        by_cases hk : k = i
        · rw [hk, hseg, hzero]
        · split at hle
          · rename_i hnone
            rw [if_pos hnone] at hlt
            omega
          · rename_i hsome
            rw [if_neg hsome] at hlt
            exact hcurrent.zero k hle (by omega)
    constructor
    · dsimp only
      split
      · exact hrun
      · exact hlongest
    · exact hrun
    · dsimp only
      split <;> omega
  · rw [if_neg hzero]
    exact ⟨hlongest, hempty, .inl rfl⟩

theorem segments_lt (a : BitVec 128) : ∀ n ∈ segments a, n < 2 ^ 16 := by
  intro n hn
  obtain ⟨i, -, rfl⟩ := List.mem_map.mp hn
  exact Nat.mod_lt _ (by omega)

theorem ofSegments_segments (a : BitVec 128) : ofSegments (segments a) = a := by
  have ha := a.isLt
  apply BitVec.eq_of_toNat_eq
  rw [ofSegments, BitVec.toNat_ofNat]
  simp only [segments, ofDigits, List.map_cons, List.map_nil, List.foldl_cons, List.foldl_nil]
  omega

theorem toList_groups (groups : List Nat) :
    (String.intercalate ":" (groups.map hexText)).toList
      = separated ':' 0 (groups.map (Nat.toDigits 16)) := by
  have hhex : String.toList ∘ hexText = Nat.toDigits 16 := by
    funext n
    simp [hexText]
  rw [separated_zero, String.toList_intercalate, List.map_map, hhex]
  rfl

/-- A group does not start at a bracket, nor between two colons. -/
theorem readGroup_stop {rest : List Char} (hrest : NoDigit 16 rest) (i : Nat)
    (hcolon : ∀ cs, rest = ':' :: cs → NoDigit 16 cs) :
    readSeparator ':' i readGroup rest = none := by
  unfold readSeparator
  split
  · cases rest with
    | nil => rfl
    | cons c cs =>
        by_cases hc : c = ':'
        · rw [readGivenChar, if_pos hc]
          exact readNumber_of_noDigit (hcolon cs (by rw [hc]))
        · rw [readGivenChar, if_neg hc]
          rfl
  · exact readNumber_of_noDigit hrest

theorem noDigit_cons {radix : Nat} {c : Char} (cs : List Char) (h : toDigit radix c = none) :
    NoDigit radix (c :: cs) := by
  simpa [NoDigit] using h

theorem readIpv6Addr_full {groups : List Nat} {cs rest : List Char}
    (hread : readGroups 0 8 cs = (groups, false, rest)) (hlength : groups.length = 8) :
    readIpv6Addr cs = some (ofSegments groups, rest) := by
  unfold readIpv6Addr
  rw [hread]
  exact if_pos hlength

theorem readIpv6Addr_gap {head tail : List Nat} {cs cs' rest : List Char}
    (hhead : readGroups 0 8 cs = (head, false, ':' :: ':' :: cs')) (hlength : head.length ≠ 8)
    (htail : readGroups 0 (8 - (head.length + 1)) cs' = (tail, false, rest)) :
    readIpv6Addr cs = some (ofSegments (head
      ++ List.replicate (8 - head.length - tail.length) 0 ++ tail), rest) := by
  unfold readIpv6Addr
  rw [hhead]
  simp only [hlength, readGivenChar, htail, if_false, if_true, Bool.false_eq_true,
    Option.bind_eq_bind, Option.bind_some, Option.pure_def]

theorem readIpv6Addr_toString {a : BitVec 128} {rest : List Char} (h : toIpv4Mapped a = none)
    (hdot : '.' ∉ rest) :
    readIpv6Addr ((ipv6ToString a).toList ++ ']' :: rest) = some (a, ']' :: rest) := by
  have hbracket : NoDigit 16 (']' :: rest) := noDigit_cons rest (by decide)
  have hbracketStop (i : Nat) : readSeparator ':' i readGroup (']' :: rest) = none :=
    readGroup_stop hbracket i (by simp)
  have hbracketDot : '.' ∉ ']' :: rest := by simpa using hdot
  rw [ipv6ToString, h]
  dsimp only
  split
  · -- `::` stands for a run of zero segments, so fewer than eight groups are left
    rename_i hrun
    have hzero := zeroRun_longestZeroes (segments a)
    generalize longestZeroes (segments a) = run at hrun hzero
    have hsplit := hzero.split
    have hle : run.1 + run.2 ≤ 8 := hzero.le
    generalize hhead : (segments a).take run.1 = head at hsplit
    generalize htail : (segments a).drop (run.1 + run.2) = tail at hsplit
    have hheadLength : head.length = run.1 := by
      rw [← hhead, List.length_take, show (segments a).length = 8 from rfl]
      omega
    have htailLength : tail.length = 8 - (run.1 + run.2) := by
      rw [← htail, List.length_drop]
      rfl
    have hlt : ∀ n ∈ head ++ List.replicate run.2 0 ++ tail, n < 2 ^ 16 := by
      rw [← hsplit]
      exact segments_lt a
    have hreadTail : readGroups 0 (8 - (head.length + 1))
        (separated ':' 0 (tail.map (Nat.toDigits 16)) ++ ']' :: rest)
        = (tail, false, ']' :: rest) :=
      readGroups_separated tail 0 _ (fun n hn => hlt n (by simp [hn])) (by omega)
        hbracket hbracketDot hbracketStop
    have hcolons : NoDigit 16
        (':' :: ':' :: (separated ':' 0 (tail.map (Nat.toDigits 16)) ++ ']' :: rest)) :=
      noDigit_cons _ (by decide)
    have hreadHead := readGroups_separated head 0 8 (fun n hn => hlt n (by simp [hn])) (by omega)
      hcolons (by simpa using dot_not_mem_separated tail 0 hbracketDot)
      (fun i => readGroup_stop hcolons i (by
        rintro cs ⟨⟩
        exact noDigit_cons _ (by decide)))
    have hmiddle : 8 - head.length - tail.length = run.2 := by omega
    have hread := readIpv6Addr_gap hreadHead (by omega) hreadTail
    rw [hmiddle, ← hsplit, ofSegments_segments] at hread
    rw [String.toList_append, String.toList_append, toList_groups, toList_groups,
      List.append_assoc, List.append_assoc]
    exact hread
  · have hread := readGroups_separated (segments a) 0 8 (segments_lt a) (Nat.le_of_eq rfl)
      hbracket hbracketDot hbracketStop
    rw [toList_groups, readIpv6Addr_full hread rfl, ofSegments_segments]

/-! ## An address and a port -/

theorem readPort_zero : readPort [':', '0'] = some (0, []) := by decide

/-- An IPv4 address with port zero is read back. -/
theorem parseSocketAddr_ipv4 (a : BitVec 32) :
    parseSocketAddr (ipv4ToString a ++ ":0") = some ⟨.v4 a, 0⟩ := by
  have hport : NoDigit 10 [':', '0'] := noDigit_cons _ (by decide)
  have hread := readIpv4Addr_toString a hport
  have hsocket : readSocketAddr ((ipv4ToString a).toList ++ [':', '0'])
      = some (⟨.v4 a, 0⟩, []) := by
    simp [readSocketAddr, readSocketAddrV4, hread, readPort_zero]
  simp [parseSocketAddr, parseWith, hsocket]

/-- So is any other IPv6 address, in brackets, but the IPv4-mapped ones. -/
theorem parseSocketAddr_ipv6 {a : BitVec 128} (h : toIpv4Mapped a = none) :
    parseSocketAddr ("[" ++ ipv6ToString a ++ "]:0") = some ⟨.v6 a, 0⟩ := by
  have hread := readIpv6Addr_toString h (show '.' ∉ [':', '0'] by decide)
  have hbracket : NoDigit 10 ('[' :: ((ipv6ToString a).toList ++ [']', ':', '0'])) :=
    noDigit_cons _ (by decide)
  have hv4 : readSocketAddrV4 ('[' :: ((ipv6ToString a).toList ++ [']', ':', '0'])) = none := by
    rw [readSocketAddrV4, readIpv4Addr, readOctets, readSeparator, if_neg (by omega),
      readNumber_of_noDigit hbracket]
    rfl
  have hsocket : readSocketAddr ('[' :: ((ipv6ToString a).toList ++ [']', ':', '0']))
      = some (⟨.v6 a, 0⟩, []) := by
    simp [readSocketAddr, hv4, readSocketAddrV6, readGivenChar, hread, readScopeId, readPort_zero]
  simp [parseSocketAddr, parseWith, hsocket]

/-- A text that begins with a colon is no socket address. -/
theorem parseSocketAddr_colon (s : String) : parseSocketAddr (":" ++ s) = none := by
  have hcolon : NoDigit 10 (':' :: s.toList) := noDigit_cons _ (by decide)
  have hv4 : readSocketAddrV4 (':' :: s.toList) = none := by
    rw [readSocketAddrV4, readIpv4Addr, readOctets, readSeparator, if_neg (by omega),
      readNumber_of_noDigit hcolon]
    rfl
  simp [parseSocketAddr, parseWith, readSocketAddr, hv4, readSocketAddrV6, readGivenChar]

example : parseSocketAddr "[2001:db8::1.2.3.4%7]:21116"
    = some ⟨.v6 0x20010DB8000000000000000001020304#128, 21116⟩ := by decide +kernel

end KustDesk
