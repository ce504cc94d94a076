import KustDesk.Datagram

/-!
# KustDesk — UdpSocket

All peers share one UDP socket, and `io_loop` gives it up when `handle_udp`
returns an error. Sends to the source of a datagram are taken to succeed;
the address in a `PunchHoleSent` or a `LocalAddr` is the sender's choice, and
a failure there is passed on like one of the server's own.
-/

namespace KustDesk

open Async

/-- What is sent to the source of the datagram goes out. -/
def Answered (addr : SocketAddr) (es : List ServerEvent) : Prop :=
  ∀ ev ∈ es, ∀ msg, ev.op = .udpSend msg addr → ev.env.fails = false

/-- What is sent to the address that the message has chosen goes out. -/
def Forwarded (cfg : Config) (bytes : Bytes) (es : List ServerEvent) : Prop :=
  ∀ ev ∈ es, ∀ msg dest, ev.op = .udpSend msg dest →
    chosenAddr cfg.x (cfg.message bytes) = some dest → ev.env.fails = false

section Datagrams
variable {cfg : Config} {rs : RendezvousServer} {bytes : Bytes} {addr : SocketAddr}
  {es : List ServerEvent}

/-- The destinations are known, so both sends together are all sends. -/
theorem sent_iff_forwarded
    (haddressed : ∀ ev ∈ es, Addressed cfg.x addr (cfg.message bytes) ev)
    (hanswered : Answered addr es) : (∀ ev ∈ es, Sent ev) ↔ Forwarded cfg bytes es := by
  constructor
  · intro hsent ev hev msg dest hop _
    exact hsent ev hev msg dest hop
  · intro hforwarded ev hev msg dest hop
    -- the chosen address may be the source itself
    rcases haddressed ev hev msg dest hop with rfl | hchosen
    · exact hanswered ev hev msg hop
    · exact hforwarded ev hev msg dest hop hchosen

theorem handleUdp_ok_iff {r : Except Unit RendezvousServer}
    (h : (handleUdp cfg rs bytes addr).Path es (.done r)) (hqueue : QueueOpen es)
    (hanswered : Answered addr es) : (∃ rs', r = .ok rs') ↔ Forwarded cfg bytes es := by
  obtain ⟨haddressed, hserved⟩ := handleUdp_served h
  rw [hserved.ok_iff hqueue, sent_iff_forwarded haddressed hanswered]

end Datagrams

/-! ## The main task -/

/-- The UDP socket is the one that `start` has created. -/
def MainTask.SocketKept (m : MainTask) : Prop :=
  m.failure ≠ some .udpSocket ∧ .udpSocket ∉ m.recreated

/-- A datagram's source can be answered, and the queue is there. -/
def Act.Answered : Act → Prop
  | .datagram _ addr es => QueueOpen es ∧ KustDesk.Answered addr es
  | _ => True

/-- Nothing is wrong with the socket itself, and no datagram is forwarded to
where it does not go. -/
def Act.Forwarded (cfg : Config) : Act → Prop
  | .datagram bytes _ es => KustDesk.Forwarded cfg bytes es
  | .socketFailed => False
  | _ => True

section Steps
variable {cfg : Config} {m m' : MainTask}

theorem MainTask.SocketKept.congr (h : m.SocketKept) (hfailure : m'.failure = m.failure)
    (hrecreated : m'.recreated = m.recreated) : m'.SocketKept := by
  rwa [SocketKept, hfailure, hrecreated]

theorem MainTask.Step.socketKept_iff {a : Act} (h : m.Step cfg a m') (hkept : m.SocketKept)
    (hanswered : a.Answered) : m'.SocketKept ↔ a.Forwarded cfg := by
  cases h with
  | tick hrun =>
      refine iff_of_true ?_ trivial
      unfold MainTask.tick
      split
      · exact hkept.congr rfl rfl
      · exact hkept
  | recv hrun hrx hpath =>
      rw [MainTask.handleData_done hpath]
      exact iff_of_true (hkept.congr (MainTask.received_failure ..) (MainTask.received_recreated ..))
        trivial
  | datagram hrun hpath =>
      obtain ⟨r, hudp, rfl⟩ := MainTask.handleDatagram_done hpath
      show _ ↔ KustDesk.Forwarded _ _ _
      rw [← handleUdp_ok_iff hudp hanswered.1 hanswered.2]
      cases r with
      | ok rs => exact iff_of_true (hkept.congr rfl rfl) ⟨rs, rfl⟩
      | error _ => exact iff_of_false (fun hlost => hlost.1 rfl) nofun
  | socketFailed hrun => exact iff_of_false (fun hlost => hlost.1 rfl) id
  | acceptFailed hrun hlistener =>
      refine iff_of_true ⟨fun hudp => ?_, hkept.2⟩ trivial
      exact hlistener (Option.some.inj hudp)
  | @recreate failure hfailure =>
      -- it was another socket that has failed
      refine iff_of_true ⟨nofun, fun hmem => ?_⟩ trivial
      rcases List.mem_append.mp hmem with hmem | hmem
      · exact hkept.2 hmem
      · rw [List.mem_singleton] at hmem
        rw [← hmem] at hfailure
        exact hkept.1 hfailure
  | command rs => exact iff_of_true (hkept.congr rfl rfl) trivial
  | queue msg addr => exact iff_of_true (hkept.congr rfl rfl) trivial
  | probed ok hchecks hwaiting => exact iff_of_true (hkept.congr rfl rfl) trivial
  | checked hchecks hwaiting => exact iff_of_true (hkept.congr rfl rfl) trivial

end Steps

/-- **The UDP socket.** `handle_udp` always returns, and where its source can
be answered it returns `Ok` exactly if what it sends to an address in the
message goes out. So in every run of the main task in which sources can be
answered, the socket is kept exactly as long as it does not fail by itself
and no such send fails. -/
theorem udpSocket_kept_iff (cfg : Config) :
    (∀ rs bytes addr, (handleUdp cfg rs bytes addr).NoAbort)
    ∧ (∀ rs bytes addr es r, (handleUdp cfg rs bytes addr).Path es (.done r) →
        QueueOpen es → Answered addr es →
        ((∃ rs', r = .ok rs') ↔ Forwarded cfg bytes es))
    ∧ ∀ rs relayServers log m,
        Logged (MainTask.Step cfg) (.start cfg.x rs relayServers) log m →
        (∀ y ∈ log, y.2.Answered) →
        (Throughout MainTask.SocketKept log m ↔ ∀ y ∈ log, y.2.Forwarded cfg) := by
  refine ⟨handleUdp_noAbort cfg, fun rs bytes addr es r h hqueue hanswered =>
    handleUdp_ok_iff h hqueue hanswered, ?_⟩
  intro rs relayServers log m hrun hanswered
  have hstart : (MainTask.start cfg.x rs relayServers).SocketKept := ⟨nofun, nofun⟩
  apply hrun.throughout_iff hstart
  intro y hy m' hkept hstep
  exact hstep.socketKept_iff hkept (hanswered y hy)

/-! ## A peer that names port 0 -/

/-- One peer answers a punch hole for a requester at 0.0.0.0:0. -/
def portZero : Config := { x := .sample [([0], .punchHoleSent {})] }

/-- Where its datagrams come from. -/
def portZeroPeer : SocketAddr := ⟨.v4 1, 21116⟩

/-- The datagram, and how the send to port 0 ends. -/
def portZeroSteps (fails : Bool) : List ServerEvent :=
  let msg : Union := .punchHoleResponse {
    socketAddr := portZero.x.mangleEncode portZeroPeer
    union := some (.natType .unknownNat) }
  [⟨.handleUdp [0], { now := 0 }, .start .empty, .start .empty⟩,
    ⟨.udpSend msg .unspecified, { now := 0, fails }, .start .empty, .start .empty⟩]

theorem portZeroSteps_udp (fails : Bool) :
    (handleUdp portZero {} [0] portZeroPeer).Path (portZeroSteps fails)
      (.done (if fails then .error () else .ok {})) := by
  cases fails with
  | true => exact .cons _ _ (.cons _ _ (.nil _))
  | false => exact .cons _ _ (.cons _ _ (.nil _))

/-- Nothing else is sent. -/
theorem portZeroSteps_answered (fails : Bool) :
    QueueOpen (portZeroSteps fails) ∧ Answered portZeroPeer (portZeroSteps fails) := by
  have hdest : SocketAddr.unspecified ≠ portZeroPeer := by decide
  simp [QueueOpen, Answered, portZeroSteps, hdest]

def portZeroMain : MainTask := .start portZero.x {} ""

theorem portZeroSteps_main (fails : Bool) :
    portZeroMain.Step portZero (.datagram [0] portZeroPeer (portZeroSteps fails))
      (if fails then { portZeroMain with failure := some .udpSocket } else portZeroMain) := by
  apply MainTask.Step.datagram rfl
  cases fails with
  | true => exact .cons _ _ (.cons _ _ (.nil _))
  | false => exact .cons _ _ (.cons _ _ (.nil _))

/-- As long as port 0 can be sent to, all is well. -/
theorem udpSocket_kept_iff_sendable :
    Forwarded portZero [0] (portZeroSteps false)
    ∧ Throughout MainTask.SocketKept
        [(portZeroMain, Act.datagram [0] portZeroPeer (portZeroSteps false))] portZeroMain := by
  obtain ⟨hqueue, hanswered⟩ := portZeroSteps_answered false
  obtain ⟨-, hudp, hmain⟩ := udpSocket_kept_iff portZero
  have hforwarded : Forwarded portZero [0] (portZeroSteps false) :=
    (hudp {} [0] portZeroPeer _ _ (portZeroSteps_udp false) hqueue hanswered).mp ⟨_, rfl⟩
  refine ⟨hforwarded, (hmain {} "" _ _ (.step .start (portZeroSteps_main false)) ?_).mpr ?_⟩
  · simpa [Act.Answered] using ⟨hqueue, hanswered⟩
  · simpa [Act.Forwarded] using hforwarded

/-- The send to port 0 fails: the source of the datagram could be answered,
and yet `handle_udp` returns an error and the socket is dropped. -/
theorem udpSocket_recreated :
    ∃ es log m, (handleUdp portZero {} [0] portZeroPeer).Path es (.done (.error ()))
      ∧ QueueOpen es ∧ Answered portZeroPeer es
      ∧ Logged (MainTask.Step portZero) portZeroMain log m
      ∧ log.map Prod.snd = [.datagram [0] portZeroPeer es, .recreate]
      ∧ m.recreated = [.udpSocket] := by
  obtain ⟨hqueue, hanswered⟩ := portZeroSteps_answered true
  exact ⟨portZeroSteps true, _, _, portZeroSteps_udp true, hqueue, hanswered,
    .step (.step .start (portZeroSteps_main true)) (.recreate rfl), rfl, rfl⟩

end KustDesk
