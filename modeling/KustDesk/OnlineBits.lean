import KustDesk.NoPanic
import KustDesk.Async.Alone

/-!
# KustDesk — OnlineBits

The answer to an `OnlineRequest` is a bitmap, most significant bit first. It
is compared with what a punch-hole request for the same id meets at the same
instant: the two handlers write the test of a peer's age in opposite ways.
-/

namespace KustDesk

open Async

/-- Whether the map holds a peer for the id, and that peer is fresh. -/
def PeerMap.online (s : PeerMap) (now : Instant) (id : String) : Bool :=
  match s.map.lookup id with
  | some peer => decide ((s.peers peer).age now < regTimeout)
  | none => false

/-- Whether a request gets past the licence and the login check. -/
def PunchHoleRequest.passes (cfg : Config) (ph : PunchHoleRequest) (mustLogin : Bool)
    (utc : Nat) : Prop :=
  ¬ (cfg.key ≠ "" ∧ ph.licenceKey ≠ cfg.key)
    ∧ loginCheck cfg.x cfg.secret mustLogin ph.token utc = none

/-! ## The loop -/

section loop
variable {s : PeerMap} {now : Instant} {η : Nat → Env}

/-- Where nothing happens in between, what is found is who is online. -/
theorem LookedUp.online {ids : List String} {es : List (Event Env PmOp PeerMap)} {bits : List Bool}
    (h : LookedUp ids es bits) (hes : ∀ ev ∈ es, ev.pre = s ∧ ev.env.now = now) :
    bits = ids.map (s.online now) := by
  induction h with
  | nil => rfl
  | @snoc ids es es' bits id b h hid ih =>
      obtain ⟨hes, hes'⟩ := List.forall_mem_append.mp hes
      rw [List.map_append, List.map_singleton, ih hes]
      congr
      cases hid with
      | @absent ev hop hnone =>
          obtain ⟨hpre, -⟩ := List.forall_mem_singleton.mp hes'
          rw [hpre] at hnone
          simp [PeerMap.online, hnone]
      | @present ev ev' peer hop hsome hop' =>
          obtain ⟨⟨hpre, -⟩, hev'⟩ := List.forall_mem_cons.mp hes'
          obtain ⟨hpre', hnow⟩ := List.forall_mem_singleton.mp hev'
          rw [hpre] at hsome
          simp [PeerMap.online, hsome, hpre', hnow]

theorem run_peersOnlineState (peers : List String) (hη : ∀ n, (η n).now = now) :
    ∃ states, (peersOnlineState peers).run η s = (some states, s)
      ∧ states.length = (peers.length + 7) / 8
      ∧ ∀ i, onlineBit states i = (peers[i]?).elim false (s.online now) := by
  have hheeds := peersOnlineState_heeds peers
  obtain ⟨states, hrun⟩ := hheeds.noAbort.run η s
  obtain ⟨hlength, bits, hlooked, hbits⟩ := (hheeds.path (Task.path_trace hrun)).2
  obtain ⟨hpost, htrace⟩ := (peersOnlineState_looks peers).trace η s
  have honline : bits = peers.map (s.online now) := by
    refine hlooked.online fun ev hev => ?_
    obtain ⟨hpre, n, henv⟩ := htrace ev hev
    exact ⟨hpre, henv ▸ hη n⟩
  refine ⟨states, Prod.ext hrun hpost, hlength, fun i => ?_⟩
  rw [hbits i, honline, List.getElem?_map]
  cases peers[i]? <;> rfl

end loop

/-! ## Against the punch-hole request -/

section request
variable {cfg : Config} {s : Shared} {now : Instant} {η : Nat → Env}

/-- Past the checks, a request for a peer in memory is forwarded to it if it
is fresh, and answered `OFFLINE` if not. -/
theorem run_handlePunchHoleRequest (rs : RendezvousServer) (addr : SocketAddr)
    {ph : PunchHoleRequest} (ws : Bool) {peer : LockPeer} (hη : ∀ n, (η n).now = now)
    (hpasses : ph.passes cfg s.mustLogin (η 0).utc)
    (hlookup : s.pm.map.lookup ph.id = some peer) :
    (s.pm.online now ph.id = true →
      ∃ msg, ((handlePunchHoleRequest cfg rs addr ph ws).run η s).1
        = some (msg, some (s.pm.peers peer).socketAddr))
    ∧ (s.pm.online now ph.id = false →
      ((handlePunchHoleRequest cfg rs addr ph ws).run η s).1
        = some (.punchHoleResponse { failure := some .offline }, none)) := by
  obtain ⟨hlicence, hlogin⟩ := hpasses
  have honline : s.pm.online now ph.id = decide ((s.pm.peers peer).age now < regTimeout) := by
    simp [PeerMap.online, hlookup]
  -- the lookup finds the peer in memory, so the database is not asked
  have hrun : (handlePunchHoleRequest cfg rs addr ph ws).run η s
      = (if (s.pm.peers peer).age now ≥ regTimeout then
          (Task.done (.punchHoleResponse { failure := some .offline }, none) :
            ServerTask (Union × Option SocketAddr))
        else do
          let msg ← punchHoleMessage cfg rs addr ph ws (s.pm.peers peer).socketAddr
          return (msg, some (s.pm.peers peer).socketAddr)).run (fun n => η (n + 3)) s := by
    unfold handlePunchHoleRequest
    rw [if_neg (by simpa using hlicence), Task.run_look_bind, hlogin]
    simp only [liftPm, PeerMap.get, Task.look, Task.act, Task.lift, Task.step_bind, Task.done_bind,
      Task.run_step, Shared.pmPart, hlookup, hη, Task.pure_eq]
  rw [hrun, honline]
  constructor
  · intro hfresh
    rw [if_neg (by simpa using hfresh)]
    obtain ⟨msg, hmsg⟩ := (punchHoleMessage_noAbort cfg rs addr ph ws
      (s.pm.peers peer).socketAddr).run (fun n => η (n + 3)) s
    refine ⟨msg, ?_⟩
    show ((_ >>= fun msg => Task.done (msg, _)).run _ s).1 = _
    rw [Task.run_map, hmsg]
    rfl
  · intro hstale
    rw [if_pos (by simpa using hstale)]
    rfl

/-- **The online bitmap.** It has one bit for each id, and the bits after the
last id are zero. The bit of an id is set just if the peer is in memory and a
request for it that gets past the checks is forwarded to it; a peer in memory
whose bit is not set is said to be offline. -/
theorem online_bitmap (s : Shared) (peers : List String) (hη : ∀ n, (η n).now = now) :
    ∃ states, (liftPm (peersOnlineState peers)).run η s = (some states, s)
      ∧ states.length = (peers.length + 7) / 8
      ∧ (∀ i id, peers[i]? = some id →
        ∀ (cfg : Config) (rs : RendezvousServer) (addr : SocketAddr) (ph : PunchHoleRequest)
          (ws : Bool) (η' : Nat → Env), (∀ n, (η' n).now = now) → ph.id = id →
          ph.passes cfg s.mustLogin (η' 0).utc →
          (onlineBit states i = true ↔ ∃ peer msg, s.pm.map.lookup id = some peer
            ∧ ((handlePunchHoleRequest cfg rs addr ph ws).run η' s).1
              = some (msg, some (s.pm.peers peer).socketAddr))
          ∧ (onlineBit states i = false → ∀ peer, s.pm.map.lookup id = some peer →
            ((handlePunchHoleRequest cfg rs addr ph ws).run η' s).1
              = some (.punchHoleResponse { failure := some .offline }, none)))
      ∧ ∀ i, peers.length ≤ i → onlineBit states i = false := by
  obtain ⟨states, hrun, hlen, hbits⟩ := run_peersOnlineState (s := s.pm) peers hη
  refine ⟨states, ?_, hlen, ?_, fun i hi => ?_⟩
  · rw [liftPm, Task.run_lift (fun _ => rfl) (fun _ _ _ => rfl)]
    simp only [Shared.pmPart, hrun]
  · intro i id hid cfg rs addr ph ws η' hη' hph hpasses
    subst hph
    have hbit : onlineBit states i = s.pm.online now ph.id := by simp [hbits, hid]
    rw [hbit]
    constructor
    · constructor
      · intro honline
        cases hlookup : s.pm.map.lookup ph.id with
        | none => simp [PeerMap.online, hlookup] at honline
        | some peer =>
            obtain ⟨msg, hmsg⟩ :=
              (run_handlePunchHoleRequest rs addr ws hη' hpasses hlookup).1 honline
            exact ⟨peer, msg, rfl, hmsg⟩
      · rintro ⟨peer, msg, hlookup, hmsg⟩
        by_contra hstale
        have hoffline := (run_handlePunchHoleRequest rs addr ws hη' hpasses hlookup).2
          (by simpa using hstale)
        -- what is forwarded is not answered
        simp [hmsg] at hoffline
    · intro hstale peer hlookup
      exact (run_handlePunchHoleRequest rs addr ws hη' hpasses hlookup).2 hstale
  · rw [hbits, List.getElem?_eq_none hi]
    rfl

end request

/-- A server that has one peer in memory, fresh at time zero. -/
def onePeerServer : Shared :=
  { Shared.start .empty with pm := ((PeerMap.new .empty).enter "123456" (Peer.default 0 0)).2 }

/-- Of two ids, the first one has its bit set. -/
theorem online_bitmap_two : ∃ states,
    (liftPm (peersOnlineState ["123456", "654321"])).run (fun _ => { now := 0 }) onePeerServer
        = (some states, onePeerServer)
      ∧ states.length = 1 ∧ onlineBit states 0 = true ∧ onlineBit states 7 = false := by
  obtain ⟨states, hrun, hlen, hbits, hpadding⟩ :=
    online_bitmap (η := fun _ => { now := 0 }) onePeerServer ["123456", "654321"] (fun _ => rfl)
  refine ⟨states, hrun, hlen, ?_, hpadding 7 (by simp)⟩
  obtain ⟨hbit, -⟩ := hbits 0 "123456" rfl { x := .sample [] } {} .unspecified
    { id := "123456" } false (fun _ => { now := 0 }) (fun _ => rfl) rfl ⟨by simp, rfl⟩
  exact hbit.mpr ⟨_, _, rfl, rfl⟩

end KustDesk
