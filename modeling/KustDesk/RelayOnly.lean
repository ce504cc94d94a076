import KustDesk.Pinning

/-!
# KustDesk — RelayOnly

`ALWAYS_USE_RELAY`: what a fresh peer is told while it is set. The relay
branch and the same-intranet branch of `handle_punch_hole_request` decide
one after the other, and the second has the last word.
-/

namespace KustDesk

open Async

/-- Whether the two sides are taken to be behind the same router. -/
def RendezvousServer.sameIntranet (rs : RendezvousServer) (ws : Bool)
    (peerAddr addr : SocketAddr) : Bool :=
  !ws && (rs.isLan peerAddr && rs.isLan addr || sameIp peerAddr addr)

/-- The peer is told not to connect directly. -/
def Union.ForcesRelay : Union → Prop
  | .punchHole m => m.natType = .known .symmetric
  | _ => False

section
variable {cfg : Config} {rs : RendezvousServer} {addr : SocketAddr}
  {ph : PunchHoleRequest} {ws : Bool} {es : List (Event Env Op Shared)} {msg : Union}

/-- The message for a fresh peer, by the flag as it was read. -/
theorem punchHoleMessage_path {peerAddr : SocketAddr}
    (h : Task.Path (punchHoleMessage cfg rs addr ph ws peerAddr) es (.done msg)) :
    ∃ ev ∈ es, ev.op = .relayFlag ∧ ∃ relayServer,
      msg = if rs.sameIntranet ws peerAddr addr
        then .fetchLocalAddr { socketAddr := cfg.x.mangleEncode addr, relayServer }
        else .punchHole {
          socketAddr := cfg.x.mangleEncode addr
          natType := if ev.pre.alwaysUseRelay || xor (rs.isLan peerAddr) (rs.isLan addr)
            then .known .symmetric else ph.natType
          relayServer } := by
  unfold punchHoleMessage at h
  obtain ⟨es₁, relayServer, es₂, rfl, -, h⟩ := Task.path_bind_done h
  obtain ⟨es₃, alwaysUseRelay, es₄, rfl, hflag, h⟩ := Task.path_bind_done h
  obtain ⟨e, s, rfl, rfl⟩ := Task.path_act_done hflag
  refine ⟨⟨.relayFlag, e, s, s⟩, by simp, rfl, ?_⟩
  dsimp only at h
  unfold RendezvousServer.sameIntranet
  split at h
  · rename_i hsame
    obtain ⟨-, hdone⟩ := Task.path_done h
    cases hdone
    exact ⟨_, (if_pos hsame).symm⟩
  · rename_i hsame
    obtain ⟨-, hdone⟩ := Task.path_done h
    cases hdone
    exact ⟨_, (if_neg hsame).symm⟩

/-- A message that is forwarded is one for a fresh peer, at the address that
was read of it. -/
theorem handlePunchHoleRequest_forwards {toAddr : SocketAddr}
    (h : Task.Path (handlePunchHoleRequest cfg rs addr ph ws) es (.done (msg, some toAddr))) :
    ∃ es₁ ev es₂ peer, es = es₁ ++ ev :: es₂ ∧ ev.op = .pm (.readPunch ph.id peer)
      ∧ toAddr = (ev.pre.pm.peers peer).socketAddr
      ∧ Task.Path (punchHoleMessage cfg rs addr ph ws toAddr) es₂ (.done msg) := by
  unfold handlePunchHoleRequest at h
  split at h
  · obtain ⟨-, hdone⟩ := Task.path_done h
    cases hdone
  obtain ⟨es₁, refused, es₂, rfl, -, h⟩ := Task.path_bind_done h
  cases refused with
  | some otherFailure =>
      obtain ⟨-, hdone⟩ := Task.path_done h
      cases hdone
  | none =>
      obtain ⟨es₃, peer, es₄, rfl, -, h⟩ := Task.path_bind_done h
      cases peer with
      | none =>
          obtain ⟨-, hdone⟩ := Task.path_done h
          cases hdone
      | some peer =>
          cases h with
          | @cons _ _ _ es₅ _ e s h =>
              change Task.Path (if (s.pm.peers peer).age e.now ≥ regTimeout then _ else _) es₅ _
                at h
              split at h
              · obtain ⟨-, hdone⟩ := Task.path_done h
                cases hdone
              · obtain ⟨es₆, msg', es₇, rfl, hmsg, h⟩ := Task.path_bind_done h
                obtain ⟨rfl, hdone⟩ := Task.path_done h
                cases hdone
                refine ⟨es₁ ++ es₃, _, es₆ ++ [], peer, (List.append_assoc es₁ es₃ _).symm,
                  rfl, rfl, ?_⟩
                rwa [List.append_nil]

/-- **`ALWAYS_USE_RELAY`.** While the flag is set, whatever runs in between, a
message that is forwarded to a fresh peer, at the address that is stored of
it, forces the relay exactly if the request came over WebSocket or the two
addresses are not taken to be in the same intranet. -/
theorem always_use_relay_iff {toAddr : SocketAddr}
    (h : Task.Path (handlePunchHoleRequest cfg rs addr ph ws) es (.done (msg, some toAddr)))
    (hflag : ∀ ev ∈ es, ev.op = .relayFlag → ev.pre.alwaysUseRelay = true) :
    (∃ ev ∈ es, ∃ peer, ev.op = .pm (.readPunch ph.id peer)
      ∧ (ev.pre.pm.peers peer).socketAddr = toAddr)
    ∧ (msg.ForcesRelay ↔ ws = true
      ∨ ¬ (rs.isLan toAddr && rs.isLan addr || sameIp toAddr addr) = true) := by
  obtain ⟨es₁, ev, es₂, peer, rfl, hread, hto, hmsg⟩ := handlePunchHoleRequest_forwards h
  refine ⟨⟨ev, by simp, peer, hread, hto.symm⟩, ?_⟩
  obtain ⟨ev', hev', hop, relayServer, rfl⟩ := punchHoleMessage_path hmsg
  have hset := hflag ev' (by simp [hev']) hop
  cases ws <;>
    cases hsame : (rs.isLan toAddr && rs.isLan addr || sameIp toAddr addr) <;>
    simp [RendezvousServer.sameIntranet, hsame, hset, Union.ForcesRelay]

end

/-- The flag is set, and the peer of `firstKey` has just registered. -/
def relayOnly : Shared :=
  { handled (.registerPk firstKey) (.start .empty) with alwaysUseRelay := true }

/-- A request for that peer, from the address. -/
def punchFrom (addr : SocketAddr) : ServerTask (Union × Option SocketAddr) :=
  handlePunchHoleRequest { x := .sample [] } {} addr { id := "123456" } false

/-- From elsewhere, the relay is forced. -/
theorem always_use_relay_elsewhere :
    ∃ msg, ((punchFrom ⟨.v4 9, 40000⟩).run (fun _ => { now := 1 }) relayOnly).1
        = some (msg, some firstKey.addr)
      ∧ msg.ForcesRelay := by
  have hdone : ∃ msg, ((punchFrom ⟨.v4 9, 40000⟩).run (fun _ => { now := 1 }) relayOnly).1
      = some (msg, some firstKey.addr) := ⟨_, rfl⟩
  obtain ⟨msg, hmsg⟩ := hdone
  have hforces := always_use_relay_iff (Task.path_trace hmsg) (by decide)
  exact ⟨msg, hmsg, hforces.2.mpr (by decide)⟩

/-- From the address of the peer itself, it is told to connect directly. -/
theorem always_use_relay_direct :
    ¬ ∀ (cfg : Config) (rs : RendezvousServer) (addr : SocketAddr) (ph : PunchHoleRequest)
      (ws : Bool) (es : List (Event Env Op Shared)) (msg : Union) (toAddr : SocketAddr),
      Task.Path (handlePunchHoleRequest cfg rs addr ph ws) es (.done (msg, some toAddr)) →
      (∀ ev ∈ es, ev.op = .relayFlag → ev.pre.alwaysUseRelay = true) → msg.ForcesRelay := by
  intro h
  have hdone : ∃ m, ((punchFrom ⟨.v4 1, 40000⟩).run (fun _ => { now := 1 }) relayOnly).1
      = some (.fetchLocalAddr m, some firstKey.addr) := ⟨_, rfl⟩
  obtain ⟨m, hm⟩ := hdone
  exact h _ _ _ _ _ _ _ _ (Task.path_trace hm) (by decide)

end KustDesk
