import KustDesk.NoPanic
import KustDesk.IoLoop

/-!
# KustDesk — Datagram

What one datagram can do: where `handle_udp` sends to, when it fails, and
that the relay servers are none of its business. All of it is said once, of
every message, and holds whatever the other tasks do meanwhile.
-/

namespace KustDesk

open Async

abbrev ServerEvent := Event Env Op Shared

/-- The address that a message brings along and is answered to. -/
def chosenAddr (x : External) : Option Union → Option SocketAddr
  | some (.punchHoleSent phs) => some (x.mangleDecode phs.socketAddr)
  | some (.localAddr la) => some (x.mangleDecode la.socketAddr)
  | _ => none

/-- The step, if it is a `socket.send`, succeeds. -/
def Sent (ev : ServerEvent) : Prop :=
  ∀ msg dest, ev.op = .udpSend msg dest → ev.env.fails = false

/-- `tx.send` fails only when its receiver is gone, and `io_loop` has it. -/
def QueueOpen (es : List ServerEvent) : Prop :=
  ∀ ev ∈ es, ∀ msg dest, ev.op = .queue msg dest → ev.env.fails = false

/-- Neither a `socket.send` nor a `tx.send`. -/
def SendsNothing (ev : ServerEvent) : Prop :=
  ∀ msg dest, ev.op ≠ .udpSend msg dest ∧ ev.op ≠ .queue msg dest

/-- What `handle_udp` owes to a step: it sends only to the source and to the
address that the message has chosen. -/
def Addressed (x : External) (addr : SocketAddr) (m : Option Union) (ev : ServerEvent) : Prop :=
  ∀ msg dest, ev.op = .udpSend msg dest → dest = addr ∨ chosenAddr x m = some dest

/-- What `handle_udp` has come to after the steps `es`. -/
structure Served (rs : RendezvousServer) (es : List ServerEvent)
    (r : Except Unit RendezvousServer) : Prop where
  ok_iff : QueueOpen es → ((∃ rs', r = .ok rs') ↔ ∀ ev ∈ es, Sent ev)
  relayServers : ∀ rs', r = .ok rs' → rs'.relayServers = rs.relayServers

section Served
variable {rs rs' : RendezvousServer} {es : List ServerEvent}

theorem served_ok (hsent : ∀ ev ∈ es, Sent ev) (h : rs'.relayServers = rs.relayServers) :
    Served rs es (.ok rs') where
  ok_iff _ := iff_of_true ⟨_, rfl⟩ hsent
  relayServers rs'' hok := by
    cases hok
    exact h

/-- The last send has failed. -/
theorem served_unsent {msg : Union} {dest : SocketAddr} {ev : ServerEvent}
    (hop : ev.op = .udpSend msg dest) (hfails : ev.env.fails = true) :
    Served rs (es ++ [ev]) (.error ()) where
  ok_iff _ := by
    refine iff_of_false nofun fun hsent => ?_
    rw [hsent ev (by simp) msg dest hop] at hfails
    cases hfails
  relayServers := nofun

/-- The queue is gone. -/
theorem served_unqueued {msg : Union} {dest : SocketAddr} {ev : ServerEvent}
    (hop : ev.op = .queue msg dest) (hfails : ev.env.fails = true) :
    Served rs (es ++ [ev]) (.error ()) where
  ok_iff hqueue := by
    rw [hqueue ev (by simp) msg dest hop] at hfails
    cases hfails
  relayServers := nofun

end Served

/-! ## Steps that send nothing -/

theorem liftPm_sendsNothing {α : Type} (t : PmTask α) : (liftPm t).All SendsNothing :=
  Task.all_lift (fun _ _ _ _ _ _ => ⟨nofun, nofun⟩) t

theorem getRelayServer_sendsNothing (rs : RendezvousServer) : rs.getRelayServer.All SendsNothing := by
  unfold RendezvousServer.getRelayServer
  split
  · trivial
  · split
    · exact Task.all_unwrap _ _
    · exact Task.All.bind (by simp [SendsNothing]) fun _ => Task.all_unwrap _ _

theorem handlePunchHoleRequest_sendsNothing (cfg : Config) (rs : RendezvousServer) (addr : SocketAddr)
    (ph : PunchHoleRequest) (ws : Bool) :
    (handlePunchHoleRequest cfg rs addr ph ws).All SendsNothing := by
  unfold handlePunchHoleRequest
  split
  · trivial
  apply Task.All.bind (by simp [SendsNothing])
  intro refused
  cases refused with
  | some _ => trivial
  | none =>
      apply (liftPm_sendsNothing _).bind
      intro peer
      cases peer with
      | none => trivial
      | some peer =>
          apply (liftPm_sendsNothing _).bind
          intro r
          dsimp only
          split
          · trivial
          · apply Task.All.bind
            · apply (getRelayServer_sendsNothing rs).bind
              intro relayServer
              apply Task.All.bind (by simp [SendsNothing])
              intro alwaysUseRelay
              dsimp only
              split <;> trivial
            · exact fun _ => trivial

section Handlers
variable {x : External} {rs : RendezvousServer} {addr : SocketAddr} {m : Option Union}
  {es : List ServerEvent}

theorem SendsNothing.heeds {α : Type} {t : ServerTask α} (ht : t.All SendsNothing) (hn : t.NoAbort)
    (hsent : ∀ ev ∈ es, Sent ev) :
    t.Heeds (fun _ => Addressed x addr m) (fun es _ => ∀ ev ∈ es, Sent ev) es := by
  refine Task.Heeds.extend (ht.heeds hn []) hsent fun es ev hsent hnothing => ⟨?_, ?_⟩
  · intro msg dest hop
    exact ((hnothing msg dest).1 hop).elim
  · rw [List.forall_mem_append, List.forall_mem_singleton]
    exact ⟨hsent, fun msg dest hop => ((hnothing msg dest).1 hop).elim⟩

/-- A send whose failure `handle_udp` returns. -/
theorem udpSend_heeds {msg : Union} {dest : SocketAddr}
    {g : Except Unit Unit → ServerTask (Except Unit RendezvousServer)}
    (hdest : dest = addr ∨ chosenAddr x m = some dest) (hsent : ∀ ev ∈ es, Sent ev)
    (herror : g (.error ()) = .done (.error ()))
    (hok : ∀ es, (∀ ev ∈ es, Sent ev) →
      (g (.ok ())).Heeds (fun _ => Addressed x addr m) (Served rs) es) :
    (udpSend msg dest >>= g).Heeds (fun _ => Addressed x addr m) (Served rs) es := by
  intro e s
  refine ⟨?_, ?_⟩
  · intro msg' dest' hop
    cases hop
    exact hdest
  show Task.Heeds _ _ (g (if e.fails then .error () else .ok ())) _
  cases hfails : e.fails with
  | true =>
      rw [if_pos rfl, herror]
      exact served_unsent rfl hfails
  | false =>
      rw [if_neg Bool.false_ne_true]
      apply hok
      rw [List.forall_mem_append, List.forall_mem_singleton]
      exact ⟨hsent, fun _ _ _ => hfails⟩

/-- Once everything is sent, it does not matter what is queued behind it. -/
theorem txSend_heeds {msg : Union} {dest : SocketAddr}
    {g : Except Unit Unit → ServerTask (Except Unit RendezvousServer)}
    (hsent : ∀ ev ∈ es, Sent ev)
    (herror : g (.error ()) = .done (.error ()) ∨ g (.error ()) = .done (.ok rs))
    (hok : g (.ok ()) = .done (.ok rs)) :
    (txSend msg dest >>= g).Heeds (fun _ => Addressed x addr m) (Served rs) es := by
  intro e s
  refine ⟨fun _ _ hop => (by cases hop), ?_⟩
  have hsent' : ∀ ev ∈ es ++ [(⟨.queue msg dest, e, s, s⟩ : ServerEvent)], Sent ev := by
    rw [List.forall_mem_append, List.forall_mem_singleton]
    exact ⟨hsent, fun _ _ hop => (by cases hop)⟩
  show Task.Heeds _ _ (g (if e.fails then .error () else .ok ())) _
  cases hfails : e.fails with
  | true =>
      rw [if_pos rfl]
      rcases herror with herror | herror
      · rw [herror]
        exact served_unqueued rfl hfails
      · rw [herror]
        exact served_ok hsent' rfl
  | false =>
      rw [if_neg Bool.false_ne_true, hok]
      exact served_ok hsent' rfl

end Handlers

/-! ## Every message -/

section Messages
variable (cfg : Config) (rs : RendezvousServer) (addr : SocketAddr) {m : Option Union}
  {es : List ServerEvent}

theorem handleUdpPunchHoleRequest_heeds (ph : PunchHoleRequest)
    {g : Except Unit Unit → ServerTask (Except Unit RendezvousServer)}
    (hsent : ∀ ev ∈ es, Sent ev)
    (herror : g (.error ()) = .done (.error ()) ∨ g (.error ()) = .done (.ok rs))
    (hok : g (.ok ()) = .done (.ok rs)) :
    (handleUdpPunchHoleRequest cfg rs addr ph >>= g).Heeds
      (fun _ => Addressed cfg.x addr m) (Served rs) es := by
  unfold handleUdpPunchHoleRequest
  rw [bind_assoc]
  apply Task.Heeds.bind (SendsNothing.heeds (handlePunchHoleRequest_sendsNothing cfg rs addr ph false)
    (handlePunchHoleRequest_noAbort cfg rs addr ph false) hsent)
  intro es r hsent
  exact txSend_heeds hsent herror hok

theorem handleHoleSent_heeds (phs : PunchHoleSent)
    {g : Except Unit Unit → ServerTask (Except Unit RendezvousServer)}
    (hsent : ∀ ev ∈ es, Sent ev) (herror : g (.error ()) = .done (.error ()))
    (hok : g (.ok ()) = .done (.ok rs)) :
    (handleHoleSent cfg rs phs addr true >>= g).Heeds
      (fun _ => Addressed cfg.x addr (some (.punchHoleSent phs))) (Served rs) es := by
  unfold handleHoleSent
  rw [bind_assoc]
  apply Task.Heeds.bind (SendsNothing.heeds (liftPm_sendsNothing _)
    (liftPm_noAbort (getPk_noAbort cfg.x rs.inner.sk phs.version phs.id)) hsent)
  intro es pk hsent
  apply udpSend_heeds (.inr rfl) hsent herror
  intro es hsent
  rw [hok]
  exact served_ok hsent rfl

theorem handleLocalAddr_heeds (la : LocalAddr)
    {g : Except Unit Unit → ServerTask (Except Unit RendezvousServer)}
    (hsent : ∀ ev ∈ es, Sent ev) (herror : g (.error ()) = .done (.error ()))
    (hok : g (.ok ()) = .done (.ok rs)) :
    (handleLocalAddr cfg rs la true >>= g).Heeds
      (fun _ => Addressed cfg.x addr (some (.localAddr la))) (Served rs) es := by
  unfold handleLocalAddr
  rw [bind_assoc]
  apply Task.Heeds.bind (SendsNothing.heeds (liftPm_sendsNothing _)
    (liftPm_noAbort (getPk_noAbort cfg.x rs.inner.sk la.version la.id)) hsent)
  intro es pk hsent
  apply udpSend_heeds (.inr rfl) hsent herror
  intro es hsent
  rw [hok]
  exact served_ok hsent rfl

/-- An answer to the source is the last thing done. -/
theorem answer_heeds (msg : Union) (hsent : ∀ ev ∈ es, Sent ev)
    {g : Except Unit Unit → ServerTask (Except Unit RendezvousServer)}
    (herror : g (.error ()) = .done (.error ())) (hok : g (.ok ()) = .done (.ok rs)) :
    (udpSend msg addr >>= g).Heeds (fun _ => Addressed cfg.x addr m) (Served rs) es := by
  apply udpSend_heeds (.inl rfl) hsent herror
  intro es hsent
  rw [hok]
  exact served_ok hsent rfl

theorem handleUdpMessage_heeds (m : Option Union) (hsent : ∀ ev ∈ es, Sent ev) :
    (handleUdpMessage cfg rs addr m).Heeds (fun _ => Addressed cfg.x addr m) (Served rs) es := by
  rcases m with _ | m
  · exact served_ok hsent rfl
  cases m with
  | registerPeer rp =>
      rw [handleUdpMessage]
      split
      · -- one answer, and a second one where the serial is behind
        apply Task.Heeds.bind (SendsNothing.heeds (liftPm_sendsNothing _)
          (liftPm_noAbort (updateAddr_noAbort cfg.x rp.id addr)) hsent)
        intro es requestPk hsent
        apply udpSend_heeds (.inl rfl) hsent rfl
        intro es hsent
        dsimp only
        split
        · exact answer_heeds cfg rs addr _ hsent rfl rfl
        · exact served_ok hsent rfl
      · exact served_ok hsent rfl
  | registerPk rk =>
      apply Task.Heeds.bind (SendsNothing.heeds (liftPm_sendsNothing _)
        (liftPm_noAbort (handleRegisterPk_noAbort cfg.x rk addr false)) hsent)
      intro es res hsent
      exact answer_heeds cfg rs addr _ hsent rfl rfl
  | punchHoleRequest ph =>
      apply Task.Heeds.bind (SendsNothing.heeds (liftPm_sendsNothing _)
        (liftPm_noAbort (Task.noAbort_look _ _)) hsent)
      intro es loaded hsent
      split
      · exact handleUdpPunchHoleRequest_heeds cfg rs addr ph hsent (.inl rfl) rfl
      · -- spawned
        exact handleUdpPunchHoleRequest_heeds cfg rs addr ph hsent (.inr rfl) rfl
  | punchHoleSent phs => exact handleHoleSent_heeds cfg rs addr phs hsent rfl rfl
  | localAddr la => exact handleLocalAddr_heeds cfg rs addr la hsent rfl rfl
  | configureUpdate cu =>
      rw [handleUdpMessage]
      split
      · -- serial and rendezvous servers change, the relay servers do not
        exact served_ok hsent rfl
      · exact served_ok hsent rfl
  | softwareUpdate su =>
      rw [handleUdpMessage]
      split
      · exact answer_heeds cfg rs addr _ hsent rfl rfl
      · exact served_ok hsent rfl
  | _ => exact served_ok hsent rfl

/-- **A datagram**, with everything it can do. -/
theorem handleUdp_heeds (bytes : Bytes) :
    (handleUdp cfg rs bytes addr).Heeds
      (fun _ => Addressed cfg.x addr (cfg.message bytes)) (Served rs) [] :=
  fun _ _ => ⟨fun _ _ hop => (by cases hop), handleUdpMessage_heeds cfg rs addr _ (by simp [Sent])⟩

variable {cfg rs addr}

theorem handleUdp_served {bytes : Bytes} {r : Except Unit RendezvousServer}
    (h : (handleUdp cfg rs bytes addr).Path es (.done r)) :
    (∀ ev ∈ es, Addressed cfg.x addr (cfg.message bytes) ev) ∧ Served rs es r := by
  obtain ⟨hsteps, hserved⟩ := (handleUdp_heeds cfg rs addr bytes).path h
  refine ⟨fun ev hev => ?_, hserved⟩
  obtain ⟨es₁, es₂, hes⟩ := List.append_of_mem hev
  exact hsteps es₁ ev es₂ hes

end Messages

end KustDesk
