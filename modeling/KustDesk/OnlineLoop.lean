import KustDesk.Registration
import KustDesk.Async.Trace

/-!
# KustDesk — OnlineLoop

The loop of `peers_online_state` while registrations go on: the ids are looked
up one after the other, and what is found sets one bit each.
-/

namespace KustDesk

open Async

/-! ## Looks -/

/-- The steps that change nothing. -/
def PmOp.reads : PmOp → Bool
  | .mapRead _ | .getPeer _ | .checkUuid _ | .readRegPk _ | .readPunch .. | .readOnline _
  | .readAddr _ | .readPk _ => true
  | _ => false

/-- The lookup of a peer that a request is for. -/
def PmOp.punches : PmOp → Bool
  | .readPunch .. => true
  | _ => false

/-- A look at the peer map for something else than a request. -/
structure Reads (ev : Event Env PmOp PeerMap) : Prop where
  reads : ev.op.reads = true
  punches : ev.op.punches = false
  post : ev.post = ev.pre

theorem Reads.look {op : PmOp} {e : Env} {s : PeerMap} (hreads : op.reads = true)
    (hpunches : op.punches = false) : Reads ⟨op, e, s, s⟩ :=
  ⟨hreads, hpunches, rfl⟩

/-! ## One bit -/

/-- The bit of an `OnlineResponse` that stands for index `i`: bit `7 - i % 8`
of byte `i / 8`. -/
def onlineBit (states : Bytes) (i : Nat) : Bool :=
  ((states[i / 8]?).getD 0).toNat.testBit (7 - i % 8)

theorem toNat_or_shiftLeft (b : UInt8) {bit : Nat} (h : bit < 8) (k : Nat) :
    (b ||| (1 <<< bit.toUInt8)).toNat.testBit k = (b.toNat.testBit k || decide (k = bit)) := by
  have hshift : ((1 : UInt8) <<< bit.toUInt8).toNat = 2 ^ bit := by
    have hbit : bit.toUInt8.toNat = bit := by
      simp only [Nat.toUInt8, UInt8.toNat_ofNat']
      omega
    rw [UInt8.toNat_shiftLeft, hbit, Nat.mod_eq_of_lt h, Nat.shiftLeft_eq]
    have hpow : 2 ^ bit < 2 ^ 8 := Nat.pow_lt_pow_right (by omega) h
    rw [UInt8.toNat_one, Nat.one_mul, Nat.mod_eq_of_lt hpow]
  rw [UInt8.toNat_or, hshift, Nat.testBit_or, Nat.testBit_two_pow]
  simp [eq_comm]

/-- Setting the bit of `i` changes that one bit. -/
theorem onlineBit_setBit {states : Bytes} {i : Nat} (hi : i / 8 < states.length) :
    ∃ states', setBit states (i / 8) (7 - i % 8) = some states'
      ∧ states'.length = states.length
      ∧ ∀ j, onlineBit states' j = (onlineBit states j || decide (j = i)) := by
  refine ⟨_, by rw [setBit, List.getElem?_eq_getElem hi]; rfl, by simp, fun j => ?_⟩
  unfold onlineBit
  by_cases hbyte : j / 8 = i / 8
  · rw [hbyte, List.getElem?_set_self hi, List.getElem?_eq_getElem hi]
    have hsame : (7 - j % 8 = 7 - i % 8) ↔ j = i := by omega
    simp only [Option.getD_some, toNat_or_shiftLeft _ (show 7 - i % 8 < 8 by omega), hsame]
  · have hne : j ≠ i := by
      rintro rfl
      exact hbyte rfl
    rw [List.getElem?_set_ne (Ne.symm hbyte)]
    simp [hne]

theorem onlineBit_replicate (n i : Nat) : onlineBit (List.replicate n 0) i = false := by
  unfold onlineBit
  have hzero : ((List.replicate n (0 : UInt8))[i / 8]?).getD 0 = 0 := by
    rw [List.getElem?_replicate]
    split <;> rfl
  rw [hzero]
  exact Nat.zero_testBit _

/-! ## What is found out about the ids -/

/-- What the looks at one id say: whether it is in memory, and if so, whether
the peer that was found has registered lately. -/
inductive Sighted (id : String) : List (Event Env PmOp PeerMap) → Bool → Prop
  | absent {ev : Event Env PmOp PeerMap} (hop : ev.op = .mapRead id)
      (hnone : ev.pre.map.lookup id = none) : Sighted id [ev] false
  | present {ev ev' : Event Env PmOp PeerMap} {peer : LockPeer} (hop : ev.op = .mapRead id)
      (hsome : ev.pre.map.lookup id = some peer) (hop' : ev'.op = .readOnline peer) :
      Sighted id [ev, ev'] (decide ((ev'.pre.peers peer).age ev'.env.now < regTimeout))

/-- The ids are looked up one after the other. -/
inductive LookedUp : List String → List (Event Env PmOp PeerMap) → List Bool → Prop
  | nil : LookedUp [] [] []
  | snoc {ids : List String} {es es' : List (Event Env PmOp PeerMap)} {bits : List Bool}
      {id : String} {b : Bool} (h : LookedUp ids es bits) (hid : Sighted id es' b) :
      LookedUp (ids ++ [id]) (es ++ es') (bits ++ [b])

theorem LookedUp.length {ids : List String} {es : List (Event Env PmOp PeerMap)}
    {bits : List Bool} (h : LookedUp ids es bits) : bits.length = ids.length := by
  induction h with
  | nil => rfl
  | snoc h hid ih => simp [ih]

/-- The bitmap says what is in the list. -/
def Bitmap (states : Bytes) (bits : List Bool) : Prop :=
  ∀ j, onlineBit states j = bits[j]?.getD false

theorem Bitmap.clear {states : Bytes} {bits : List Bool} (h : Bitmap states bits) :
    Bitmap states (bits ++ [false]) := by
  intro j
  rw [h j]
  rcases Nat.lt_trichotomy j bits.length with hlt | rfl | hgt
  · rw [List.getElem?_append_left hlt]
  · simp
  · rw [List.getElem?_eq_none (by omega), List.getElem?_eq_none (by simp; omega)]

theorem Bitmap.set {states states' : Bytes} {bits : List Bool} (h : Bitmap states bits)
    (hset : ∀ j, onlineBit states' j = (onlineBit states j || decide (j = bits.length))) :
    Bitmap states' (bits ++ [true]) := by
  intro j
  rw [hset j, h j]
  rcases Nat.lt_trichotomy j bits.length with hlt | rfl | hgt
  · rw [List.getElem?_append_left hlt]
    simp [show j ≠ bits.length by omega]
  · simp
  · rw [List.getElem?_eq_none (show bits.length ≤ j by omega),
      List.getElem?_eq_none (by simp; omega)]
    simp [show j ≠ bits.length by omega]

/-- What has been found out so far is what the bitmap says so far. -/
theorem peersOnlineLoop_heeds (rest : List String) {ids : List String} {states : Bytes}
    {es : List (Event Env PmOp PeerMap)} {bits : List Bool} (hlooked : LookedUp ids es bits)
    (hbits : Bitmap states bits) (hlength : ids.length + rest.length ≤ 8 * states.length) :
    (peersOnlineLoop ids.length states rest).Heeds (fun _ => Reads)
      (fun es states' => states'.length = states.length
        ∧ ∃ bits, LookedUp (ids ++ rest) es bits ∧ Bitmap states' bits) es := by
  induction rest generalizing ids states es bits with
  | nil => exact ⟨rfl, bits, by rwa [List.append_nil], hbits⟩
  | cons id rest ih =>
      simp only [List.length_cons] at hlength
      -- what is left to do after this id, whose bit is `b`
      have hrest {es' : List (Event Env PmOp PeerMap)} {b : Bool} {states₁ : Bytes}
          (hid : Sighted id es' b) (hlen : states₁.length = states.length)
          (hbits₁ : Bitmap states₁ (bits ++ [b])) :
          (peersOnlineLoop (ids.length + 1) states₁ rest).Heeds (fun _ => Reads)
            (fun es states' => states'.length = states.length
              ∧ ∃ bits, LookedUp (ids ++ id :: rest) es bits ∧ Bitmap states' bits)
            (es ++ es') := by
        have hnext := ih (hlooked.snoc hid) hbits₁
          (by rw [List.length_append, List.length_singleton, hlen]; omega)
        rw [List.length_append, List.length_singleton, List.append_assoc, hlen] at hnext
        exact hnext
      unfold peersOnlineLoop
      refine Task.Heeds.look_bind fun e s => ⟨.look rfl rfl, ?_⟩
      cases hlookup : s.map.lookup id with
      | none =>
          have hsighted : Sighted id [⟨.mapRead id, e, s, s⟩] false := .absent rfl hlookup
          exact hrest hsighted rfl hbits.clear
      | some peer =>
          dsimp only
          refine Task.Heeds.look_bind fun e' s' => ⟨.look rfl rfl, ?_⟩
          rw [List.append_assoc]
          have hsighted : Sighted id [⟨.mapRead id, e, s, s⟩, ⟨.readOnline peer, e', s', s'⟩]
              (decide ((s'.peers peer).age e'.now < regTimeout)) := .present rfl hlookup rfl
          by_cases hage : (s'.peers peer).age e'.now < regTimeout
          · rw [decide_eq_true hage] at hsighted
            obtain ⟨states₁, hset, hlen, hbit⟩ := @onlineBit_setBit states ids.length (by omega)
            rw [if_pos hage, hset]
            rw [← hlooked.length] at hbit
            exact hrest hsighted hlen (hbits.set hbit)
          · rw [decide_eq_false hage] at hsighted
            rw [if_neg hage]
            exact hrest hsighted rfl hbits.clear

theorem peersOnlineState_heeds (peers : List String) :
    (peersOnlineState peers).Heeds (fun _ => Reads)
      (fun es states => states.length = (peers.length + 7) / 8
        ∧ ∃ bits, LookedUp peers es bits ∧ Bitmap states bits) [] := by
  have hzero : Bitmap (List.replicate ((peers.length + 7) / 8) 0) [] :=
    fun j => onlineBit_replicate _ j
  have hlength : ([] : List String).length + peers.length
      ≤ 8 * (List.replicate ((peers.length + 7) / 8) (0 : UInt8)).length := by
    rw [List.length_replicate, List.length_nil]
    omega
  have hloop := peersOnlineLoop_heeds peers .nil hzero hlength
  rw [List.length_replicate] at hloop
  exact hloop

theorem peersOnlineState_looks (peers : List String) :
    (peersOnlineState peers).All fun ev => ev.post = ev.pre :=
  (peersOnlineState_heeds peers).all fun _ _ => Reads.post

end KustDesk
