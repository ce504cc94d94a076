import KustDesk.Pinning

/-!
# KustDesk — Handshake

The two messages by which a client gets online: the server asks for its key,
the client registers it, and the next refresh of the address should be
accepted. The two handlers look at different fields to see whether the
address has changed, and a registration that finds nothing changed does not
write: then the server goes on asking.
-/

namespace KustDesk

open Async

/-! ## The refresh -/

/-- Where the key is there and the registered address is that of the refresh,
only another socket address stands in the way. -/
theorem Peer.requestsPk_iff {p : Peer} {addr : SocketAddr} {now : Instant} (hpk : p.pk ≠ [])
    (hip : p.info.ip = addr.ip.toString) :
    (p.updateAddr addr now).1 = true
      ↔ p.socketAddr.port ≠ 0 ∧ p.socketAddr.ip ≠ addr.ip ∧ addr.ip.isLoopback = false := by
  have hfst (b : Bool) (q : Peer) : (if b then (true, p) else (false, q)).1 = b := by
    cases b <;> rfl
  have hrequest : (p.updateAddr addr now).1 = (decide (p.pk = [])
      || ((if p.socketAddr.port ≠ 0 then decide (addr.ip ≠ p.socketAddr.ip)
        else decide (addr.ip.toString ≠ p.info.ip)) && !addr.ip.isLoopback)) := hfst _ _
  rw [hrequest]
  by_cases hport : p.socketAddr.port = 0
  · simp [hpk, hport, hip]
  · simp [hpk, hport, ne_comm]

theorem Peer.updateAddr_of_false {p : Peer} {addr : SocketAddr} {now : Instant}
    (h : (p.updateAddr addr now).1 = false) :
    (p.updateAddr addr now).2 = { p with socketAddr := addr, lastRegTime := now } := by
  rw [updateAddr_snd, h]
  rfl

section
variable {cfg : Config} {s : Shared} {id : String} {addr : SocketAddr} {old : LockPeer}

/-- The clock is read in the second step, with the lock on the peer. -/
theorem run_updateAddr (hlookup : s.pm.map.lookup id = some old) (η : Nat → Env) :
    ((Handler.updateAddr id addr).task cfg).run η s
      = (some (.requestPk ((s.pm.peers old).updateAddr addr (η 1).now).1),
        { s with pm := s.pm.set old ((s.pm.peers old).updateAddr addr (η 1).now).2 }) := by
  have hupdate : (updateAddr id addr).run η s.pm
      = (some ((s.pm.peers old).updateAddr addr (η 1).now).1,
        s.pm.set old ((s.pm.peers old).updateAddr addr (η 1).now).2) := by
    rw [updateAddr, PeerMap.getInMemory, Task.run_look_bind, hlookup]
    rfl
  refine (run_liftPm (updateAddr id addr) _ η s).trans ?_
  rw [hupdate]
  rfl

end

/-! ## Whether a registration writes -/

section
variable (x : External) (c : RegCall)

theorem updatePk_writes (peer : LockPeer) (s : PeerMap) :
    (PeerMap.updatePk x c.id peer c.addr c.rk.uuid c.rk.pk c.ip).Alone s fun es _ _ =>
      es.filterMap (dbWrite c.id) ≠ [] := by
  refine (updatePk_alone x c peer s).mono fun es _ s' h => ?_
  obtain ⟨now, ok, guid, db, -, -, hwrites, -⟩ := h
  rw [hwrites, if_pos rfl]
  nofun

theorem settle_writes (peer : LockPeer) (s : PeerMap) :
    (c.settle x peer).Alone s fun es r _ => r = .ok .ok →
      ∃ changed ipChanged, (s.peers peer).checkUuid c.rk c.ip = some (changed, ipChanged)
        ∧ (es.filterMap (dbWrite c.id) = [] ↔ changed = false ∧ c.ws = false) := by
  have hfinish (changed : Bool) (s : PeerMap) :
      (c.finish x peer changed).Alone s fun es _ _ =>
        (es.filterMap (dbWrite c.id) = [] ↔ changed = false ∧ c.ws = false) := by
    unfold RegCall.finish
    split
    · rename_i hwrite
      refine (updatePk_writes x c peer s).bind fun es _ s' h => ?_
      have hnot : ¬ (changed = false ∧ c.ws = false) := by
        rintro ⟨rfl, hws⟩
        simp [hws] at hwrite
      simpa [h] using hnot
    · rename_i hwrite
      simpa using hwrite
  apply settle_rule
  · nofun
  · nofun
  · intro es changed ipChanged regPk ipChanges hquiet hcheck
    refine (hfinish changed _).mono fun es' r s' h _ => ⟨changed, ipChanged, hcheck, ?_⟩
    rwa [hquiet.append]

/-- What is known of a registration that is accepted. -/
structure RegCall.Accepted (s : PeerMap) (es : List (Event Env PmOp PeerMap)) : Prop where
  uuid : c.rk.uuid ≠ []
  pk : c.rk.pk ≠ []
  /-- Over WebSocket it writes in any case. -/
  ws : c.ws = true → es.filterMap (dbWrite c.id) ≠ []
  entry : ∀ p, (s.record c.id).entry = some p →
    ∃ changed ipChanged, p.checkUuid c.rk c.ip = some (changed, ipChanged)
      ∧ (es.filterMap (dbWrite c.id) = [] ↔ changed = false ∧ c.ws = false)

theorem accepted_alone (s : PeerMap) :
    (c.task x).Alone s fun es r _ => r = .ok .ok → c.Accepted s es := by
  apply register_rule
  · nofun
  · nofun
  · nofun
  · intro hkeys _ es failed peer s₀ s₁ hquiet hattempted hopen _
    refine (settle_writes x c peer s₁).mono fun es' r s' hsettle hok => ?_
    obtain ⟨changed, ipChanged, hcheck, hwrites⟩ := hsettle hok
    rw [← hquiet.append c.id es'] at hwrites
    obtain ⟨huuid, hpk⟩ := not_or.mp hkeys
    refine ⟨huuid, hpk, fun hws => ?_, fun p hp => ⟨changed, ipChanged, ?_, hwrites⟩⟩
    · rw [Ne, hwrites, hws]
      nofun
    · rw [← hattempted.alike.record] at hp
      have hnew (hlookup : s₀.map.lookup c.id = none) : False := by
        simp [PeerMap.record, hlookup] at hp
      cases hopen with
      | found hlookup =>
          rw [PeerMap.record_of_lookup hlookup] at hp
          cases hp
          exact hcheck
      | loaded earliest since hlookup hrow => exact (hnew hlookup).elim
      | created earliest now hlookup hrow => exact (hnew hlookup).elim

end

/-! ## The handshake -/

/-- The address at which the peer was last seen is a third one, neither that
of the registration nor a missing one. -/
def Peer.SeenElsewhere (p : Peer) (addr : SocketAddr) : Prop :=
  p.socketAddr.port ≠ 0 ∧ p.socketAddr.ip ≠ addr.ip ∧ addr.ip.isLoopback = false

/-- The registration finds nothing to change, though the peer was last seen
elsewhere. -/
def RegCall.Stuck (c : RegCall) (entry : Option Peer) : Prop :=
  ∃ p, entry = some p ∧ p.uuid = c.rk.uuid ∧ p.pk = c.rk.pk ∧ p.info.ip = c.ip ∧ c.ws = false
    ∧ p.SeenElsewhere c.addr

section
variable {x : External} {c : RegCall} {s : PeerMap} {es : List (Event Env PmOp PeerMap)}
  {rec' : Record} {failed : Bool} {w : Option ((Bytes × String) × Bool)}

theorem Peer.checkUuid_of_eq {p : Peer} {rk : RegisterPk} {ip : String} (hrk : rk.uuid ≠ [])
    (huuid : p.uuid = rk.uuid) (hpk : p.pk = rk.pk) (hip : p.info.ip = ip) :
    p.checkUuid rk ip = some (false, false) := by
  simp [checkUuid, huuid, hrk, hpk, hip]

/-- What an accepted registration leaves in memory: the key, the address, and
the place where the peer was last seen, which it updates unless it is stuck. -/
theorem Record.Registered.seen_iff (h : (s.record c.id).Registered x c failed w (.ok .ok) rec')
    (hok : c.Accepted s es) (hwrites : es.filterMap (dbWrite c.id) = w.toList) :
    ∃ p, rec'.entry = some p ∧ p.pk = c.rk.pk ∧ p.info.ip = c.ip
      ∧ (p.SeenElsewhere c.addr ↔ c.Stuck (s.record c.id).entry) := by
  cases h with
  | @unchanged _ p ipChanged regPk hopen hcheck =>
      obtain ⟨huuid, hpk, hip⟩ := Peer.eq_of_checkUuid hcheck
      refine ⟨_, rfl, hpk, hip, fun hseen => ?_, ?_⟩
      · cases hopen with
        | found hentry =>
            have hws : c.ws = false := by
              by_contra hws
              exact hok.ws (Bool.not_eq_false _ ▸ hws) hwrites
            exact ⟨p, hentry, huuid, hpk, hip, hws, hseen⟩
        | loaded earliest since hentry hrow => exact (hseen.1 rfl).elim
        | created earliest now hentry hrow => exact (hok.uuid huuid.symm).elim
      · rintro ⟨q, hq, -, -, -, -, hseen⟩
        rwa [← hopen.eq_of_entry hq] at hseen
  | @written _ p _ ok guid row regPk now hopen huuid hcheck hwrote =>
      refine ⟨_, rfl, rfl, rfl, fun hseen => (hseen.2.1 rfl).elim, ?_⟩
      rintro ⟨q, hq, huuid, hpk, hip, hws, -⟩
      obtain ⟨changed, ipChanged, hchecked, hiff⟩ := hok.entry q hq
      rw [Peer.checkUuid_of_eq hok.uuid huuid hpk hip, Option.some.injEq, Prod.mk.injEq]
        at hchecked
      rw [hiff.mpr ⟨hchecked.1.symm, hws⟩] at hwrites
      cases hwrites

end

/-- The refresh that follows asks for no registration, and is noted: where
the peer is, and when it was seen. -/
def Converges (cfg : Config) (c : RegCall) (s : Shared) (η : Nat → Env) : Prop :=
  (((Handler.updateAddr c.id c.addr).task cfg).run η s).1 = some (.requestPk false)
    ∧ ∃ p, ((((Handler.updateAddr c.id c.addr).task cfg).run η s).2.pm.record c.id).entry = some p
      ∧ p.socketAddr = c.addr ∧ p.lastRegTime = (η 1).now

section
variable {cfg : Config} {c : RegCall} {s : Shared} {p : Peer}

theorem converges_iff (hentry : (s.pm.record c.id).entry = some p) (hpk : p.pk ≠ [])
    (hip : p.info.ip = c.ip) (η : Nat → Env) :
    Converges cfg c s η ↔ ¬ p.SeenElsewhere c.addr := by
  obtain ⟨old, hlookup, rfl⟩ := Option.map_eq_some_iff.mp hentry
  rw [Converges, run_updateAddr hlookup, Peer.SeenElsewhere, ← Peer.requestsPk_iff hpk hip]
  constructor
  · rintro ⟨hfalse, -⟩ htrue
    rw [htrue] at hfalse
    cases hfalse
  · intro hfalse
    have hfalse := Bool.eq_false_iff.mpr hfalse
    refine ⟨by rw [hfalse], ?_⟩
    rw [Peer.updateAddr_of_false hfalse]
    dsimp only
    rw [PeerMap.record_set_self hlookup]
    exact ⟨_, rfl, rfl, rfl⟩

/-- **The handshake converges.** In every reachable state, if a registration
is accepted, the refresh from the same address that follows is accepted too,
unless the peer was registered from there with this very key, was last seen
elsewhere, and comes over UDP or TCP and not from a loopback address. -/
theorem handshake_converges_iff {db : Database} {ran : Handled}
    (hran : Session (Handler.task cfg) (.start db) ran s) {η : Nat → Env}
    (hok : (((Handler.registerPk c).task cfg).run η s).1 = some (.registered (.ok .ok)))
    (η' : Nat → Env) :
    Converges cfg c (((Handler.registerPk c).task cfg).run η s).2 η'
      ↔ ¬ c.Stuck (s.pm.record c.id).entry := by
  have hs := Intact.session hran (.new db)
  have halone : ((Handler.registerPk c).task cfg).Alone s fun es a s' =>
      ∃ r, a = .registered r ∧ c.Outcome cfg.x s.pm (es.filterMap pmEvent) r s'.pm
        ∧ (r = .ok .ok → c.Accepted s.pm (es.filterMap pmEvent)) := by
    refine (liftPm_alone ((handleRegisterPk_alone cfg.x c s.pm).and
      (accepted_alone cfg.x c s.pm))).bind fun es r s' h => ?_
    exact ⟨r, rfl, by simpa using h⟩
  obtain ⟨r, hr, ⟨failed, w, hreg, -, hwrites, -⟩, haccepted⟩ := halone.run η hok
  cases hr
  obtain ⟨-, hreg', -⟩ := hreg.record hs.sound (hs.linked c.id)
  have hwrites := hwrites c.id
  rw [if_pos rfl] at hwrites
  obtain ⟨p, hp, hpk, hip, hseen⟩ := hreg'.seen_iff (haccepted rfl) hwrites
  rw [converges_iff hp (hpk ▸ (haccepted rfl).pk) hip, hseen]

end

/-! A client gets online after its first registration. Then a refresh comes
over a tunnel, from a loopback address, and from then on the client registers
and is asked to register. -/

theorem handshake_converges_iff_first :
    Converges { x := .sample [] } firstKey (handled (.registerPk firstKey) (.start .empty))
      fun _ => { now := 1 } := by
  refine (handshake_converges_iff .nil ?_ _).mpr ?_
  · rfl
  · rintro ⟨p, hp, -⟩
    cases hp

def tunnel : SocketAddr := ⟨.v4 0x7F000001#32, 40000⟩

theorem handshake_stuck :
    ∃ ran s, Session (Handler.task { x := .sample [] }) (.start .empty) ran s
      ∧ (∀ r ∈ ran, ∀ ev ∈ r.events, ev.env.fails = false)
      ∧ (((Handler.registerPk firstKey).task { x := .sample [] }).run (fun _ => { now := 0 }) s).1
        = some (.registered (.ok .ok))
      ∧ (((Handler.updateAddr firstKey.id firstKey.addr).task { x := .sample [] }).run
          (fun _ => { now := 0 }) (handled (.registerPk firstKey) s)).1
        = some (.requestPk true) := by
  have hfirst := Session.call (.registerPk firstKey) (fun _ => { now := 0 })
    (.nil : Session (Handler.task { x := .sample [] }) (.start .empty) [] _)
  have hseen := hfirst.call (.updateAddr "123456" tunnel) (fun _ => { now := 0 })
  exact ⟨_, _, hseen, by decide, rfl, rfl⟩

end KustDesk
