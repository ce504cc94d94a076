import KustDesk.AddrParse
import KustDesk.Relay
import KustDesk.Rendezvous

/-!
# KustDesk — Forwarded

Behind a proxy, the address of a WebSocket connection is the one that the
upgrade request carries in a header. Both servers tell an IPv4 address from an
IPv6 one by its dots, and keep the address of the proxy where the text does
not parse.
-/

namespace KustDesk

open Async Codec

/-- `http::HeaderMap`, with the names in lower case as it has them. -/
abbrev HeaderMap := List (String × Bytes)

/-- `headers.get`: the first value under a name. -/
def HeaderMap.get (headers : HeaderMap) (name : String) : Option Bytes := headers.lookup name

/-- `HeaderValue::to_str`: visible ASCII and tabs only. -/
def headerToStr (value : Bytes) : Option String :=
  if value.all fun b => 32 ≤ b && b < 127 || b = 9 then
    some (String.ofList (value.map fun b => Char.ofNat b.toNat))
  else none

/-- The upgrade callback, the same in both servers: the address of a
connection from `addr`. -/
def forwardedAddr (headers : HeaderMap) (addr : SocketAddr) : SocketAddr :=
  let realIp := ((headers.get "x-real-ip").or (headers.get "x-forwarded-for")).bind headerToStr
  match realIp with
  | some ip =>
    if '.' ∈ ip.toList then (parseSocketAddr (ip ++ ":0")).getD addr
    else (parseSocketAddr ("[" ++ ip ++ "]:0")).getD addr
  | none => addr

/-- `addr` in `handle_listener_inner`, after the upgrade. -/
def Stream.addr (headers : HeaderMap) (addr : SocketAddr) : Stream → SocketAddr
  | .ws _ => forwardedAddr headers addr
  | .tcp _ => addr

/-- `addr` in `make_pair`, after the upgrade. -/
def RelayJob.upgradedAddr (headers : HeaderMap) (job : RelayJob) : SocketAddr :=
  if job.isWs then forwardedAddr headers job.addr else job.addr

/-- `handle_listener_inner` from its start, for a connection from `addr`. -/
def listenerInner (cfg : Config) (rs : RendezvousServer) (conn : ConnId) (headers : HeaderMap)
    (addr : SocketAddr) (stream : Stream) : ServerTask Unit :=
  handleListenerInner cfg rs conn (stream.addr headers addr) stream

/-- `make_pair`. -/
def makePair (cfg : RelayConfig) (conn : ConnId) (headers : HeaderMap) (job : RelayJob) :
    RelayTask Unit :=
  makePair_ cfg conn { job with addr := job.upgradedAddr headers }

/-- Whether this is an IPv4-mapped IPv6 address. -/
def IpAddr.isMapped : IpAddr → Bool
  | .v4 _ => false
  | .v6 a => (toIpv4Mapped a).isSome

/-- The bytes of a text in ASCII. -/
def asciiBytes (s : String) : Bytes := s.toList.map fun c => c.toNat.toUInt8

/-- A request carries the address: in `X-Real-IP`, or in `X-Forwarded-For` where
there is no `X-Real-IP`. -/
def HeaderMap.Carries (headers : HeaderMap) (ip : IpAddr) : Prop :=
  (headers.get "x-real-ip").or (headers.get "x-forwarded-for") = some (asciiBytes ip.toString)

/-! ## The text of an address as a header -/

/-- A printable character of ASCII. -/
def Visible (c : Char) : Prop := 32 ≤ c.toNat ∧ c.toNat < 127

theorem headerToStr_asciiBytes {s : String} (h : ∀ c ∈ s.toList, Visible c) :
    headerToStr (asciiBytes s) = some s := by
  have hbyte (c : Char) (hc : c ∈ s.toList) : c.toNat.toUInt8.toNat = c.toNat := by
    have hlt := (h c hc).2
    rw [Nat.toUInt8, UInt8.toNat_ofNat', Nat.mod_eq_of_lt (by omega)]
  have hvisible : (asciiBytes s).all (fun b => 32 ≤ b && b < 127 || b = 9) = true := by
    rw [asciiBytes, List.all_map, List.all_eq_true]
    intro c hc
    have hrange := h c hc
    simp only [Function.comp, UInt8.le_iff_toNat_le, UInt8.lt_iff_toNat_lt, hbyte c hc]
    simp [show 32 ≤ c.toNat from hrange.1, show c.toNat < 127 from hrange.2]
  have hchars : (asciiBytes s).map (fun b => Char.ofNat b.toNat) = s.toList := by
    rw [asciiBytes, List.map_map]
    conv_rhs => rw [← List.map_id s.toList]
    apply List.map_congr_left
    intro c hc
    simp [hbyte c hc]
  rw [headerToStr, if_pos hvisible, hchars, String.ofList_toList]

theorem visible_of_toDigit {radix : Nat} {c : Char} (h : toDigit radix c ≠ none) : Visible c := by
  have hvalue : digitValue c ≠ none := fun hnone => h (by simp [toDigit, hnone])
  unfold digitValue at hvalue
  unfold Visible
  simp only [Char.le_def, UInt32.le_iff_toNat_le] at hvalue
  have hc : c.val.toNat = c.toNat := rfl
  simp only [hc] at hvalue
  split at hvalue
  · simp at *
    omega
  · split at hvalue
    · simp at *
      omega
    · split at hvalue
      · simp at *
        omega
      · simp at hvalue

theorem visible_of_mem_toDigits {radix n : Nat} {c : Char} (hpos : 1 < radix)
    (hradix : radix ≤ 16) (hc : c ∈ Nat.toDigits radix n) : Visible c := by
  obtain ⟨ds, hds, -⟩ := map_toDigit_toDigits hpos hradix n
  have hmem : toDigit radix c ∈ ds.map some := by
    rw [← hds]
    exact List.mem_map_of_mem hc
  obtain ⟨d, -, hd⟩ := List.mem_map.mp hmem
  apply visible_of_toDigit
  rw [← hd]
  exact Option.some_ne_none d

theorem visible_of_mem_intercalate {sep : Char} {ls : List (List Char)} (hsep : Visible sep)
    (hls : ∀ l ∈ ls, ∀ c ∈ l, Visible c) : ∀ c ∈ [sep].intercalate ls, Visible c := by
  induction ls with
  | nil => simp
  | cons l ls ih =>
      have hl := hls l (by simp)
      have htail := ih fun l' hl' => hls l' (by simp [hl'])
      cases ls with
      | nil => simpa using hl
      | cons l' ls =>
          intro c hc
          rw [List.intercalate_cons_cons] at hc
          simp only [List.mem_append, List.mem_singleton] at hc
          rcases hc with (hc | rfl) | hc
          · exact hl c hc
          · exact hsep
          · exact htail c hc

theorem visible_of_mem_toString (ip : IpAddr) : ∀ c ∈ ip.toString.toList, Visible c := by
  have hv4 (a : BitVec 32) : ∀ c ∈ (ipv4ToString a).toList, Visible c := by
    rw [toList_ipv4ToString]
    apply visible_of_mem_intercalate (by unfold Visible; decide)
    intro l hl c hc
    obtain ⟨n, -, rfl⟩ := List.mem_map.mp hl
    exact visible_of_mem_toDigits (by omega) (by omega) hc
  have hslice (l : List Nat) :
      ∀ c ∈ (String.intercalate ":" (l.map hexText)).toList, Visible c := by
    rw [toList_groups, separated_zero]
    apply visible_of_mem_intercalate (by unfold Visible; decide)
    intro l hl c hc
    obtain ⟨n, -, rfl⟩ := List.mem_map.mp hl
    exact visible_of_mem_toDigits (by omega) (by omega) hc
  have hcolon : Visible ':' := by unfold Visible; decide
  have hf : Visible 'f' := by unfold Visible; decide
  intro c hc
  cases ip with
  | v4 a => exact hv4 a c hc
  | v6 a =>
      rw [IpAddr.toString, ipv6ToString] at hc
      split at hc
      · rw [String.toList_append, List.mem_append] at hc
        rcases hc with hc | hc
        · simp only [String.reduceToList, List.mem_cons, List.not_mem_nil, or_false] at hc
          rcases hc with rfl | rfl | rfl | rfl | rfl | rfl | rfl <;> assumption
        · exact hv4 _ c hc
      · dsimp only at hc
        split at hc
        · simp only [String.toList_append, List.mem_append, String.reduceToList, List.mem_cons,
            List.not_mem_nil, or_false] at hc
          rcases hc with (hc | rfl | rfl) | hc
          · exact hslice _ c hc
          · exact hcolon
          · exact hcolon
          · exact hslice _ c hc
        · exact hslice _ c hc

/-! ## Which addresses are taken over -/

section
variable {headers : HeaderMap} {ip : IpAddr}

theorem realIp_of_carries (h : headers.Carries ip) :
    ((headers.get "x-real-ip").or (headers.get "x-forwarded-for")).bind headerToStr
      = some ip.toString := by
  rw [show (headers.get "x-real-ip").or (headers.get "x-forwarded-for")
    = some (asciiBytes ip.toString) from h]
  exact headerToStr_asciiBytes (visible_of_mem_toString ip)

theorem forwardedAddr_of_carries (h : headers.Carries ip) (addr : SocketAddr) :
    forwardedAddr headers addr = if ip.isMapped then addr else ⟨ip, 0⟩ := by
  unfold forwardedAddr
  rw [realIp_of_carries h]
  dsimp only
  cases ip with
  | v4 a =>
      rw [IpAddr.toString, if_pos (dot_mem_ipv4ToString a), parseSocketAddr_ipv4]
      rfl
  | v6 a =>
      rw [IpAddr.isMapped, IpAddr.toString]
      cases hmapped : toIpv4Mapped a with
      | some c =>
          -- the dots of the last four octets, but no brackets
          have hdot : '.' ∈ (ipv6ToString a).toList := by
            rw [ipv6ToString_of_mapped hmapped, String.toList_append]
            exact List.mem_append_right _ (dot_mem_ipv4ToString c)
          rw [if_pos hdot, ipv6ToString_of_mapped hmapped, String.append_assoc,
            show "::ffff:" = ":" ++ ":ffff:" from rfl, String.append_assoc, parseSocketAddr_colon]
          rfl
      | none =>
          rw [if_neg (dot_not_mem_ipv6ToString hmapped), parseSocketAddr_ipv6 hmapped]
          rfl

/-- **Forwarded addresses.** Where an upgrade request carries an address, both
servers take it for that of the connection just if it is not IPv4-mapped, or
the connection comes from there anyway. What is taken over is what their tasks
work with. -/
theorem forwarded_iff (h : headers.Carries ip) (addr : SocketAddr) (frames : List WsMessage)
    (job : RelayJob) (hws : job.isWs = true) (haddr : job.addr = addr) :
    (((Stream.ws frames).addr headers addr = ⟨ip, 0⟩ ∧ job.upgradedAddr headers = ⟨ip, 0⟩)
      ↔ ip.isMapped = false ∨ addr = ⟨ip, 0⟩)
    ∧ (ip.isMapped = false ∨ addr = ⟨ip, 0⟩ → ∀ conn,
      (∀ cfg rs, listenerInner cfg rs conn headers addr (.ws frames)
        = handleListenerInner cfg rs conn ⟨ip, 0⟩ (.ws frames))
      ∧ ∀ cfg, makePair cfg conn headers job
        = makePair_ cfg conn { job with addr := ⟨ip, 0⟩ }) := by
  have hiff : ((Stream.ws frames).addr headers addr = ⟨ip, 0⟩ ∧ job.upgradedAddr headers = ⟨ip, 0⟩)
      ↔ ip.isMapped = false ∨ addr = ⟨ip, 0⟩ := by
    rw [Stream.addr, RelayJob.upgradedAddr, if_pos hws, haddr, and_self,
      forwardedAddr_of_carries h]
    cases ip.isMapped with
    | true => simp
    | false => simp
  refine ⟨hiff, fun htaken conn => ?_⟩
  obtain ⟨hstream, hjob⟩ := hiff.mpr htaken
  constructor
  · intro cfg rs
    rw [listenerInner, hstream]
  · intro cfg
    rw [makePair, hjob]

/-- A proxy on the same host, with one client behind it. -/
def proxyAddr : SocketAddr := ⟨.v4 0x7F000001#32, 50000⟩

/-- An upgrade request for a client with this address. -/
def proxyHeaders (ip : IpAddr) : HeaderMap :=
  [("host", asciiBytes "localhost"), ("x-real-ip", asciiBytes ip.toString)]

/-- A WebSocket connection through the proxy to the relay server. -/
def proxyJob : RelayJob := { isWs := true, addr := proxyAddr, first := none, outcomes := [] }

/-- An IPv6 address is taken over. -/
theorem forwarded_iff_ipv6 :
    (Stream.ws []).addr (proxyHeaders (.v6 1)) proxyAddr = ⟨.v6 1, 0⟩
      ∧ proxyJob.upgradedAddr (proxyHeaders (.v6 1)) = ⟨.v6 1, 0⟩ :=
  (forwarded_iff (show (proxyHeaders (.v6 1)).Carries (.v6 1) from rfl) proxyAddr [] proxyJob
    rfl rfl).1.mpr (.inl (by decide))

/-- `::ffff:1.2.3.4` is not: the connection keeps the address of the proxy. -/
theorem forwarded_mapped_lost :
    (proxyHeaders (.v6 (toIpv6Mapped 0x01020304#32))).Carries (.v6 (toIpv6Mapped 0x01020304#32))
      ∧ (Stream.ws []).addr (proxyHeaders (.v6 (toIpv6Mapped 0x01020304#32))) proxyAddr = proxyAddr
      ∧ proxyJob.upgradedAddr (proxyHeaders (.v6 (toIpv6Mapped 0x01020304#32))) = proxyAddr
      ∧ proxyAddr ≠ ⟨.v6 (toIpv6Mapped 0x01020304#32), 0⟩ := by
  refine ⟨rfl, ?_, ?_, by decide⟩
  · decide +kernel
  · decide +kernel

end

end KustDesk
