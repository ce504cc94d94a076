import Mathlib.Algebra.Ring.Int.Defs
import Mathlib.Algebra.Ring.Nat
import Mathlib.Data.List.AList

/-!
# KustDesk — Prelude

The standard-library types the two servers are written in: byte strings,
hash maps, the monotonic clock, IP and socket addresses with their
`Display` text.
-/

namespace KustDesk

abbrev Bytes := List UInt8

/-- `HashMap`: an association list without duplicate keys. -/
abbrev HashMap (κ ν : Type) := AList (fun _ : κ => ν)

/-! ## The monotonic clock -/

/-- `std::time::Instant`, in nanoseconds from some moment before all that the
platform can represent. -/
abbrev Instant := Nat

namespace Instant

/-- `t.elapsed()`, read at `now`: a saturating difference. -/
def elapsed (now t : Instant) : Nat := now - t

def asMillis (d : Nat) : Nat := d / 1000000

def asSecs (d : Nat) : Nat := d / 1000000000

/-- `Instant::checked_sub` of a number of seconds, on a platform where no
`Instant` is before `earliest`: the clock's origin on Windows, ages before it on
Linux. -/
def checkedSubSecs (earliest t : Instant) (secs : Nat) : Option Instant :=
  if earliest + secs * 1000000000 ≤ t then some (t - secs * 1000000000) else none

end Instant

/-- A number as a `usize` of `w` bits: arithmetic and casts wrap. -/
def usizeOf (w n : Nat) : Nat := n % 2 ^ w

theorem usizeOf_add (w m n : Nat) :
    usizeOf w (usizeOf w m + usizeOf w n) = usizeOf w (m + n) := (Nat.add_mod m n _).symm

theorem usizeOf_eq_iff {w n : Nat} : usizeOf w n = n ↔ n < 2 ^ w := by
  constructor
  · intro h
    rw [← h]
    exact Nat.mod_lt _ (Nat.two_pow_pos w)
  · exact Nat.mod_eq_of_lt

/-- `AtomicUsize`, with `fetch_add(1)`, which wraps. -/
structure AtomicUsize where
  bits : Nat := 64
  word : BitVec bits := 0

def AtomicUsize.next (n : AtomicUsize) : AtomicUsize := { n with word := n.word + 1 }

theorem AtomicUsize.next_toNat (n : AtomicUsize) :
    n.next.word.toNat = (n.word.toNat + 1) % 2 ^ n.bits := by
  show (n.word + 1#n.bits).toNat = _
  simp

/-- `x as i32` of an unsigned integer: the low 32 bits, read as signed. -/
def asI32 (n : Nat) : Int :=
  if n % 2 ^ 32 < 2 ^ 31 then (n % 2 ^ 32 : Nat) else (n % 2 ^ 32 : Nat) - 2 ^ 32

theorem asI32_lt {n : Nat} :
    asI32 n < 30000 ↔ n % 2 ^ 32 < 30000 ∨ 2 ^ 31 ≤ n % 2 ^ 32 := by
  rw [asI32]
  split <;> omega

/-! ## Addresses -/

/-- `std::net::IpAddr`: the 32 or 128 bits of the address. -/
inductive IpAddr where
  | v4 (a : BitVec 32)
  | v6 (a : BitVec 128)
  deriving DecidableEq

structure SocketAddr where
  ip : IpAddr
  port : UInt16
  deriving DecidableEq

/-- The four bytes of an IPv4 address. -/
def octets (a : BitVec 32) : List Nat :=
  [a.toNat / 2 ^ 24, a.toNat / 2 ^ 16 % 256, a.toNat / 2 ^ 8 % 256, a.toNat % 256]

/-- The eight 16-bit groups of an IPv6 address. -/
def segments (a : BitVec 128) : List Nat :=
  [7, 6, 5, 4, 3, 2, 1, 0].map fun i => a.toNat / 2 ^ (16 * i) % 2 ^ 16

/-- `Ipv6Addr::to_ipv4_mapped`: the address behind `::ffff:a.b.c.d`. -/
def toIpv4Mapped (a : BitVec 128) : Option (BitVec 32) :=
  if a.toNat / 2 ^ 32 = 0xffff then some (BitVec.ofNat 32 a.toNat) else none

/-- `Ipv6Addr::to_ipv4`: also the compatible form `::a.b.c.d`. -/
def toIpv4 (a : BitVec 128) : Option (BitVec 32) :=
  if a.toNat / 2 ^ 32 = 0xffff ∨ a.toNat / 2 ^ 32 = 0 then
    some (BitVec.ofNat 32 a.toNat)
  else none

/-- `Ipv4Addr`'s `Display`. -/
def ipv4ToString (a : BitVec 32) : String :=
  String.intercalate "." ((octets a).map toString)

/-- The first longest run of zero segments, as its start and its length. -/
def longestZeroes (segs : List Nat) : Nat × Nat :=
  let scan := segs.zipIdx.foldl
    (fun (acc : (Nat × Nat) × (Nat × Nat)) (seg, i) =>
      let (longest, current) := acc
      if seg = 0 then
        let current := (if current.2 = 0 then i else current.1, current.2 + 1)
        (if current.2 > longest.2 then current else longest, current)
      else (longest, (0, 0)))
    ((0, 0), (0, 0))
  scan.1

def hexText (n : Nat) : String := String.ofList (Nat.toDigits 16 n)

/-- `Ipv6Addr`'s `Display`: the longest run of at least two zero segments
is written `::`, a mapped IPv4 address in dotted form. -/
def ipv6ToString (a : BitVec 128) : String :=
  match toIpv4Mapped a with
  | some v4 => "::ffff:" ++ ipv4ToString v4
  | none =>
      let segs := segments a
      let zeroes := longestZeroes segs
      let slice (l : List Nat) := String.intercalate ":" (l.map hexText)
      if zeroes.2 > 1 then
        slice (segs.take zeroes.1) ++ "::" ++ slice (segs.drop (zeroes.1 + zeroes.2))
      else slice segs

/-- `IpAddr::to_string`. -/
def IpAddr.toString : IpAddr → String
  | .v4 a => ipv4ToString a
  | .v6 a => ipv6ToString a

/-- `IpAddr::is_loopback`: `127.0.0.0/8` or `::1`. -/
def IpAddr.isLoopback : IpAddr → Bool
  | .v4 a => a.toNat / 2 ^ 24 = 127
  | .v6 a => a.toNat = 1

/-- `"0.0.0.0:0".parse().unwrap()`. -/
def SocketAddr.unspecified : SocketAddr := ⟨.v4 0, 0⟩

example : (IpAddr.v4 0xC0A80102#32).toString = "192.168.1.2" := by decide

example : (IpAddr.v6 0x20010DB8000000000000000000010002#128).toString
    = "2001:db8::1:2" := by decide

end KustDesk
