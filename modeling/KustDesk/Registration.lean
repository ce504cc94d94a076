import KustDesk.Peer

/-!
# KustDesk — Registration

The handlers of `rendezvous_server.rs` that work on the peer map: the
attempt limits, the registration of a key, the refresh of an address, the
online query and the signed identity. Each critical section is a pure
function; the task around it takes the locks in the source's order.
-/

namespace KustDesk

open Async

/-- `REG_TIMEOUT`, in milliseconds. -/
def regTimeout : Int := 30000

/-! ## The critical sections -/

/-- The body of `check_ip_blocker`: at most 31 attempts in a row and at
most 301 ids a day from one IP. -/
def IpBlockMap.check (m : IpBlockMap) (now : Instant) (ip id : String) :
    Bool × IpBlockMap :=
  match m.lookup ip with
  | none => (true, m.insert ip ((0, now), (∅, now)))
  | some ((n, last), (ids, since)) =>
    let rested := Instant.asSecs (Instant.elapsed now last) > ipBlockDur
    if ¬ rested ∧ n > 30 then (false, m)
    else
      let attempts := ((if rested then 0 else n) + 1, now)
      if Instant.asSecs (Instant.elapsed now since) > daySeconds then
        -- the new id was looked up before the set is cleared
        (true, m.insert ip (attempts, (if id ∈ ids then ∅ else {id}, now)))
      else if ids.card > 300 then
        (decide (id ∈ ids), m.insert ip (attempts, (ids, since)))
      else
        (true, m.insert ip (attempts, (insert id ids, now)))

/-- One change of address of `id` to `ip`, counted in `IP_CHANGES`. -/
def IpChangesMap.record (m : IpChangesMap) (now : Instant) (id ip : String) :
    IpChangesMap :=
  match m.lookup id with
  | some (tm, ips) =>
    if Instant.asSecs (Instant.elapsed now tm) > ipChangeDur then
      m.insert id (now, (∅ : HashMap String Nat).insert ip 1)
    else
      match ips.lookup ip with
      | some v => m.insert id (tm, ips.insert ip (v + 1))
      | none => m.insert id (tm, ips.insert ip 1)
  | none => m.insert id (now, (∅ : HashMap String Nat).insert ip 1)

/-- The ownership check of `handle_register_pk`: `none` on a mismatch,
otherwise whether the stored identity or address changes, and whether the
address does. -/
def Peer.checkUuid (peer : Peer) (rk : RegisterPk) (ip : String) :
    Option (Bool × Bool) :=
  if peer.uuid = [] then some (true, false)
  else if peer.uuid = rk.uuid then
    if peer.info.ip ≠ ip ∧ peer.pk ≠ rk.pk then none
    else
      let ipChanged := decide (peer.info.ip ≠ ip)
      some (peer.uuid ≠ rk.uuid || peer.pk ≠ rk.pk || ipChanged, ipChanged)
  else none

/-- The registration counter: three in a row, then `none` until more than
six seconds have passed. -/
def countRegPk (regPk : Nat × Instant) (now : Instant) : Option (Nat × Instant) :=
  if Instant.asSecs (Instant.elapsed now regPk.2) > 6 then some (1, now)
  else if regPk.1 > 2 then none
  else some (regPk.1 + 1, now)

/-- The body of `update_addr`: whether the peer must register its key
again; if not, it is refreshed. -/
def Peer.updateAddr (old : Peer) (socketAddr : SocketAddr) (now : Instant) :
    Bool × Peer :=
  let ip := socketAddr.ip
  let ipChange :=
    (if old.socketAddr.port ≠ 0 then decide (ip ≠ old.socketAddr.ip)
      else decide (ip.toString ≠ old.info.ip)) && !ip.isLoopback
  let requestPk := decide (old.pk = []) || ipChange
  if requestPk then (true, old)
  else (false, { old with socketAddr, lastRegTime := now })

theorem Peer.updateAddr_snd (old : Peer) (socketAddr : SocketAddr) (now : Instant) :
    (old.updateAddr socketAddr now).2 = if (old.updateAddr socketAddr now).1 then old
      else { old with socketAddr, lastRegTime := now } := by
  have hrequest (requestPk : Bool) (p : Peer) :
      (if requestPk then (true, old) else (false, p)).2
        = if (if requestPk then (true, old) else (false, p)).1 then old else p := by
    cases requestPk <;> rfl
  exact hrequest _ _

section checks
variable {p : Peer} {rk : RegisterPk} {ip : String}

/-- Who passes the check owns the peer, or nobody does. -/
theorem Peer.uuid_of_checkUuid {changed : Bool × Bool}
    (h : p.checkUuid rk ip = some changed) : p.uuid = [] ∨ p.uuid = rk.uuid := by
  by_cases hempty : p.uuid = []
  · exact .inl hempty
  · right
    by_contra hne
    simp [checkUuid, hempty, hne] at h

theorem Peer.eq_of_checkUuid {ipChanged : Bool}
    (h : p.checkUuid rk ip = some (false, ipChanged)) :
    p.uuid = rk.uuid ∧ p.pk = rk.pk ∧ p.info.ip = ip := by
  by_cases hempty : p.uuid = []
  · simp [checkUuid, hempty] at h
  · by_cases huuid : p.uuid = rk.uuid
    · rw [checkUuid, if_neg hempty, if_pos huuid] at h
      by_cases hip : p.info.ip = ip
      · simp [hip, huuid] at h
        exact ⟨huuid, h.1, hip⟩
      · by_cases hpk : p.pk = rk.pk <;> simp [hip, hpk] at h
    · simp [checkUuid, hempty, huuid] at h

theorem Peer.checkUuid_of_uuid_nil (h : p.uuid = []) :
    p.checkUuid rk ip = some (true, false) := if_pos h

theorem countRegPk_zero (since now : Instant) : countRegPk (0, since) now ≠ none := by
  unfold countRegPk
  split <;> simp

/-- A new peer passes both checks. -/
theorem Peer.default_passes (earliest since : Instant) :
    ¬ ((Peer.default earliest since).checkUuid rk ip = none
      ∨ ∃ now, countRegPk (Peer.default earliest since).regPk now = none) := by
  rintro (hcheck | ⟨now, hcount⟩)
  · rw [checkUuid_of_uuid_nil rfl] at hcheck
    cases hcheck
  · exact countRegPk_zero _ _ hcount

end checks

/-- `last_reg_time.elapsed().as_millis() as i32`, the age the handlers
compare with `REG_TIMEOUT`. -/
def Peer.age (p : Peer) (now : Instant) : Int :=
  asI32 (Instant.asMillis (Instant.elapsed now p.lastRegTime))

/-- `states[idx] |= 0x01 << bit`, `none` where the index is out of range. -/
def setBit (states : Bytes) (idx bit : Nat) : Option Bytes :=
  states[idx]?.map fun b => states.set idx (b ||| (1 <<< bit.toUInt8))

/-! ## The handlers -/

/-- `check_ip_blocker`. -/
def checkIpBlocker (ip id : String) : PmTask Bool :=
  .act .ipBlocker fun e s =>
    let (ok, blocker) := s.ipBlocker.check e.now ip id
    (ok, { s with ipBlocker := blocker })

variable (x : External)

/-- `handle_register_pk`. The result of `update_pk` is dropped, as in the
source. -/
def handleRegisterPk (rk : RegisterPk) (addr : SocketAddr) (ws : Bool) :
    PmTask (Except RegisterPkResult RegisterPkResult) := do
  if rk.uuid = [] || rk.pk = [] then return .error .invalidIdFormat
  let id := rk.id
  let ip := addr.ip.toString
  if id.utf8ByteSize < 6 then return .error .uuidMismatch
  let allowed ← checkIpBlocker ip id
  if !allowed then return .error .tooFrequent
  let peer ← PeerMap.getOr x id
  let checked ← Task.look (.checkUuid peer) fun _ s =>
    (s.peers peer).checkUuid rk ip
  match checked with
  | none => return .error .uuidMismatch
  | some (changed, ipChanged) =>
    let counted ← Task.look (.readRegPk peer) fun e s =>
      countRegPk (s.peers peer).regPk e.now
    match counted with
    | none => return .error .tooFrequent
    | some reqPk =>
      Task.act (.writeRegPk peer) fun _ s =>
        ((), s.set peer { s.peers peer with regPk := reqPk })
      if ipChanged then
        Task.act .ipChanges fun e s =>
          ((), { s with ipChanges := s.ipChanges.record e.now id ip })
      if changed || ws then
        let _ ← PeerMap.updatePk x id peer addr rk.uuid rk.pk ip
      return .ok .ok

/-- `update_addr`. -/
def updateAddr (id : String) (socketAddr : SocketAddr) : PmTask Bool := do
  match ← PeerMap.getInMemory id with
  | some old =>
    Task.act (.writeAddr id old socketAddr) fun e s =>
      let (requestPk, p) := (s.peers old).updateAddr socketAddr e.now
      (requestPk, s.set old p)
  | none => return true

/-- The loop of `peers_online_state`, from index `i` on. -/
def peersOnlineLoop (i : Nat) (states : Bytes) : List String → PmTask Bytes
  | [] => return states
  | peerId :: rest => do
    match ← PeerMap.getInMemory peerId with
    | some peer =>
      let elapsed ← Task.look (.readOnline peer) fun e s => (s.peers peer).age e.now
      if elapsed < regTimeout then
        let states ← Task.unwrap "index out of bounds" (setBit states (i / 8) (7 - i % 8))
        peersOnlineLoop (i + 1) states rest
      else peersOnlineLoop (i + 1) states rest
    | none => peersOnlineLoop (i + 1) states rest

/-- `peers_online_state`: one bit for each id, most significant first. -/
def peersOnlineState (peers : List String) : PmTask Bytes :=
  peersOnlineLoop 0 (List.replicate ((peers.length + 7) / 8) 0) peers

/-- `get_pk`, with `sk` the server's signing key. -/
def getPk (sk : Option Bytes) (version id : String) : PmTask Bytes := do
  if version = "" || sk.isNone then return []
  match ← PeerMap.get x id with
  | some peer =>
    let pk ← Task.look (.readPk peer) fun _ s => (s.peers peer).pk
    let sk ← Task.unwrap "unwrap on None" sk
    return x.sign ((x.idPk id pk).getD []) sk
  | none => return []

end KustDesk
