import KustDesk.Answers

/-!
# KustDesk — ServerSteps

What the steps of the server's tasks have to do with each other and with the
server value the task works with: whoever writes to a sink of `tcp_punch` or
`ws_map` has taken it out with the step before, and a `ConfigUpdate` is that
of the task's own server.
-/

namespace KustDesk

open Async

/-! ## What a step does -/

inductive Table where
  | tcpPunch
  | wsMap
  deriving DecidableEq

def Shared.table (s : Shared) : Table → HashMap SocketAddr Sink
  | .tcpPunch => s.tcpPunch
  | .wsMap => s.wsMap

/-- What a step on the table leaves under `k`. -/
def Op.leaves (t : Table) (k : SocketAddr) : Op → Option (Option Sink)
  | .punchInsert k' y => if t = .tcpPunch ∧ k' = k then some (some y) else none
  | .punchTake k' | .punchClose k' => if t = .tcpPunch ∧ k' = k then some none else none
  | .wsInsert k' y => if t = .wsMap ∧ k' = k then some (some y) else none
  | .wsTake k' => if t = .wsMap ∧ k' = k then some none else none
  | _ => none

/-- The connection to whose sink the step writes, and the key under which the
sink was found in the table. -/
def Op.writes (t : Table) : Op → Option (SocketAddr × ConnId)
  | .sinkSend (.punch k) conn _ _ => if t = .tcpPunch then some (k, conn) else none
  | .sinkSend (.ws k) conn _ _ => if t = .wsMap then some (k, conn) else none
  | _ => none

/-- The `ConfigUpdate` in the message that the step sends. -/
def Op.configUpdate : Op → Option ConfigUpdate
  | .sinkSend _ _ msg _ | .queue msg _ | .udpSend msg _ => msg.configUpdate
  | _ => none

/-- What a step of a task that works with `rs` owes, after the task's step
`prev`. -/
structure ServerStep (rs : RendezvousServer) (prev : Option (Event Env Op Shared))
    (ev : Event Env Op Shared) : Prop where
  taken : ∀ t k conn, ev.op.writes t = some (k, conn) → ∃ ev₀ y, prev = some ev₀
    ∧ ev₀.op.leaves t k = some none ∧ (ev₀.pre.table t).lookup k = some y ∧ y.conn = conn
  config : ∀ cu, ev.op.configUpdate = some cu → cu = rs.configUpdate

/-- The step writes through no table and sends no `ConfigUpdate`. -/
structure Plain (ev : Event Env Op Shared) : Prop where
  writes : ∀ t, ev.op.writes t = none
  config : ev.op.configUpdate = none

theorem Plain.serverStep {rs : RendezvousServer} {prev : Option (Event Env Op Shared)}
    {ev : Event Env Op Shared} (h : Plain ev) : ServerStep rs prev ev where
  taken t k conn hwrites := by
    rw [h.writes t] at hwrites
    cases hwrites
  config cu hcu := by
    rw [h.config] at hcu
    cases hcu

/-- All steps of the task are in order, and what it returns satisfies `Q`. -/
def InOrder {α : Type} (rs : RendezvousServer) (Q : α → Prop) (t : ServerTask α) : Prop :=
  ∀ prev, t.Follows (ServerStep rs) Q prev

theorem InOrder.bind {α β : Type} {rs : RendezvousServer} {Q : α → Prop} {R : β → Prop}
    {t : ServerTask α} {g : α → ServerTask β} (ht : InOrder rs Q t)
    (hg : ∀ a, Q a → InOrder rs R (g a)) : InOrder rs R (t >>= g) :=
  fun prev => Task.Follows.bind (ht prev) hg

theorem InOrder.mono {α : Type} {rs : RendezvousServer} {Q R : α → Prop} {t : ServerTask α}
    (ht : InOrder rs Q t) (h : ∀ a, Q a → R a) : InOrder rs R t :=
  fun prev => (ht prev).mono h

theorem orderly_done {α : Type} {rs : RendezvousServer} {Q : α → Prop} {a : α} (h : Q a) :
    InOrder rs Q (.done a : ServerTask α) := fun _ => h

theorem orderly_of_plain {α : Type} {rs : RendezvousServer} {t : ServerTask α}
    (ht : t.All Plain) : InOrder rs (fun _ => True) t :=
  ht.follows fun _ _ hev => hev.serverStep

theorem liftPm_orderly {α : Type} {rs : RendezvousServer} (t : PmTask α) :
    InOrder rs (fun _ => True) (liftPm t) :=
  orderly_of_plain (Task.all_lift (fun _ _ _ _ => ⟨fun _ => rfl, rfl⟩) t)

theorem look_orderly {α : Type} {rs : RendezvousServer} {op : Op} {f : Env → Shared → α}
    (hwrites : ∀ t, op.writes t = none) (hconfig : op.configUpdate = none) :
    InOrder rs (fun _ => True) (Task.look op f) :=
  orderly_of_plain ((Task.all_look op f).mpr fun _ _ => ⟨hwrites, hconfig⟩)

theorem act_orderly {α : Type} {rs : RendezvousServer} {op : Op} {f : Env → Shared → α × Shared}
    (hwrites : ∀ t, op.writes t = none) (hconfig : op.configUpdate = none) :
    InOrder rs (fun _ => True) (Task.act op f) :=
  orderly_of_plain ((Task.all_act op f).mpr fun _ _ => ⟨hwrites, hconfig⟩)

section
variable (x : External) (cfg : Config) (rs : RendezvousServer) (addr : SocketAddr)

/-! ## Sending -/

theorem Sink.send_follows {y : Sink} {via : Route} {prev : Option (Event Env Op Shared)}
    {msg : Union} (h : ∀ wire e s,
      ServerStep rs prev ⟨.sinkSend via y.conn msg wire, e, s, s⟩) :
    (y.send x via msg).Follows (ServerStep rs) (fun r => r.Like y) prev := by
  obtain hsend | ⟨wire, y', hlike, hsend⟩ := y.send_cases x via msg
  · rw [hsend]
    exact Sink.Like.refl y
  · rw [hsend]
    exact fun e s => ⟨h wire e s, hlike⟩

theorem sendToSink_follows {sink : Option Sink} {via : Route}
    {prev : Option (Event Env Op Shared)} {msg : Union} (h : ∀ y, sink = some y → ∀ wire e s,
      ServerStep rs prev ⟨.sinkSend via y.conn msg wire, e, s, s⟩) :
    (sendToSink x via sink msg).Follows (ServerStep rs)
      (fun r => Option.Rel Sink.Like r sink) prev := by
  cases sink with
  | none => exact .none
  | some y =>
      apply (y.send_follows x rs (h y rfl)).bind
      exact fun r hlike prev => .some hlike

theorem direct_orderly (sink : Option Sink) {msg : Union} (h : msg.Of rs) :
    InOrder rs (fun r => Option.Rel Sink.Like r sink) (sendToSink x .direct sink msg) := by
  intro prev
  apply sendToSink_follows
  intro y _ wire e s
  refine ⟨?_, h⟩
  intro t k conn hwrites
  cases hwrites

theorem sendToTcp_orderly {msg : Union} (h : msg.Of rs) :
    InOrder rs (fun _ => True) (sendToTcp x msg addr) := by
  intro prev e s
  refine ⟨⟨nofun, nofun⟩, ?_⟩
  have hsend : (sendToSink x (.punch (x.tryIntoV4 addr))
      (s.tcpPunch.lookup (x.tryIntoV4 addr)) msg).Follows (ServerStep rs)
      (fun r => Option.Rel Sink.Like r (s.tcpPunch.lookup (x.tryIntoV4 addr)))
      (some ⟨.punchTake (x.tryIntoV4 addr), e, s,
        { s with tcpPunch := s.tcpPunch.erase (x.tryIntoV4 addr) }⟩) := by
    apply sendToSink_follows
    intro y hlookup wire e' s'
    refine ⟨fun t k conn hwrites => ?_, h⟩
    simp only [Op.writes, Option.ite_none_right_eq_some, Option.some.injEq, Prod.mk.injEq]
      at hwrites
    obtain ⟨rfl, rfl, rfl⟩ := hwrites
    exact ⟨_, y, rfl, by simp [Op.leaves], hlookup, rfl⟩
  exact hsend.bind fun _ _ _ => trivial

theorem txSend_orderly {msg : Union} (h : msg.Of rs) :
    InOrder rs (fun _ => True) (txSend msg addr) :=
  fun _ _ _ => ⟨⟨nofun, h⟩, trivial⟩

theorem udpSend_orderly {msg : Union} (h : msg.Of rs) :
    InOrder rs (fun _ => True) (udpSend msg addr) :=
  fun _ _ _ => ⟨⟨nofun, h⟩, trivial⟩

/-! ## Answers -/

theorem getRelayServer_orderly : InOrder rs (fun _ => True) rs.getRelayServer := by
  unfold RendezvousServer.getRelayServer
  split
  · exact orderly_done trivial
  · apply orderly_of_plain
    split
    · exact Task.all_unwrap _ _
    · refine Task.All.bind ?_ fun _ => Task.all_unwrap _ _
      exact (Task.all_act _ _).mpr fun _ _ => ⟨fun _ => rfl, rfl⟩

theorem Op.plain_of_asks {op : Op} (h : op.asks = true) :
    (∀ t, op.writes t = none) ∧ op.configUpdate = none := by
  cases op <;> first | exact ⟨fun _ => rfl, rfl⟩ | cases h

/-- What only replies writes to no table but the one it has looked up. -/
theorem Replying.orderly {α : Type} {t : ServerTask α} {Q : α → Prop} (h : Replying x rs t Q) :
    InOrder rs Q t := by
  induction h with
  | done h => exact orderly_done h
  | mono _ h ih => exact ih.mono h
  | bind _ _ iht ihg => exact iht.bind ihg
  | pm h => exact liftPm_orderly _
  | look h f => exact look_orderly (Op.plain_of_asks h).1 (Op.plain_of_asks h).2
  | relayServer => exact getRelayServer_orderly rs
  | direct sink h hof => exact direct_orderly x rs sink hof
  | toTcp addr h hof => exact sendToTcp_orderly x rs addr hof
  | udp addr h hof => exact udpSend_orderly rs addr hof
  | punch id hg _ _ ihnone ihsome =>
      refine (liftPm_orderly _).bind fun peer _ => ?_
      cases peer with
      | none => exact ihnone
      | some peer =>
          rw [hg]
          exact (liftPm_orderly _).bind fun r _ => ihsome peer r

/-! ## Punch-hole requests -/

/-- The message goes through `ws_map` if the peer has a sink there. -/
theorem handleTcpPunchHoleRequest_orderly (ph : PunchHoleRequest) (ws : Bool) :
    InOrder rs (fun _ => True) (handleTcpPunchHoleRequest cfg rs addr ph ws) := by
  refine (handlePunchHoleRequest_replying cfg rs addr ph ws).orderly.bind fun r hr => ?_
  obtain ⟨msg, toAddr⟩ := r
  have hmsg : msg.Of rs := hr.2.2
  cases toAddr with
  | none => exact sendToTcp_orderly _ rs _ hmsg
  | some a =>
      refine fun prev => Task.Follows.act_bind fun e s =>
        ⟨Plain.serverStep ⟨fun _ => rfl, rfl⟩, ?_⟩
      cases hlookup : s.wsMap.lookup (cfg.x.tryIntoV4 a) with
      | none => exact (txSend_orderly rs a hmsg).bind (fun _ _ => orderly_done trivial) _
      | some y =>
          refine Task.Follows.bind (y.send_follows cfg.x rs fun wire e' s' => ?_)
            fun _ _ _ => trivial
          refine ⟨fun t k conn hwrites => ?_, hmsg⟩
          simp only [Op.writes, Option.ite_none_right_eq_some, Option.some.injEq, Prod.mk.injEq]
            at hwrites
          obtain ⟨rfl, rfl, rfl⟩ := hwrites
          exact ⟨_, y, rfl, by simp [Op.leaves], hlookup, rfl⟩

theorem handleUdpPunchHoleRequest_orderly (ph : PunchHoleRequest) :
    InOrder rs (fun _ => True) (handleUdpPunchHoleRequest cfg rs addr ph) :=
  (handlePunchHoleRequest_replying cfg rs addr ph false).orderly.bind fun _ hr =>
    txSend_orderly rs _ hr.2.2

/-! ## One connection -/

theorem giveAway_orderly (sink : Option Sink) :
    InOrder rs (fun _ => True) (giveAway cfg sink addr) := by
  cases sink with
  | none => exact orderly_done trivial
  | some y => exact act_orderly (fun _ => rfl) rfl

theorem forwardRelay_orderly (rf : RequestRelay) :
    InOrder rs (fun _ => True) (forwardRelay cfg addr rf) := by
  refine (look_orderly (fun _ => rfl) rfl).bind fun peer _ => ?_
  cases peer with
  | none => exact orderly_done trivial
  | some peer =>
      refine (liftPm_orderly _).bind fun peerAddr _ => ?_
      exact (txSend_orderly rs peerAddr (Union.of_none rfl)).bind fun _ _ => orderly_done trivial

theorem enterWs_orderly (r : Bool × Option Sink) :
    InOrder rs (fun _ => True) (enterWs cfg addr r) := by
  obtain ⟨go, sink⟩ := r
  cases go with
  | false => exact orderly_done trivial
  | true =>
      cases sink with
      | none => exact orderly_done trivial
      | some y => exact (act_orderly (fun _ => rfl) rfl).bind fun _ _ => orderly_done trivial

theorem handleTcpMessage_orderly (conn : ConnId) (sink : Option Sink) (ws : Bool)
    (msg : Option Union) :
    InOrder rs (fun _ => True) (handleTcpMessage cfg rs conn sink addr ws msg) := by
  have hcases := handleTcpMessage_cases cfg rs conn sink addr ws msg
  generalize handleTcpMessage cfg rs conn sink addr ws msg = t at hcases
  cases hcases with
  | answers _ ht => exact ht.orderly.mono fun _ _ => trivial
  | enters _ _ ht => exact ht.orderly.bind fun r _ => enterWs_orderly cfg rs addr r
  | forwards _ ht =>
      refine (giveAway_orderly cfg rs addr sink).bind fun _ _ => ?_
      cases ht with
      | punchHole ph =>
          exact (handleTcpPunchHoleRequest_orderly cfg rs addr ph ws).bind fun _ _ =>
            orderly_done trivial
      | relay rf =>
          exact (forwardRelay_orderly cfg rs addr rf).bind fun _ _ => orderly_done trivial
  | panics => exact fun _ => trivial
  | setsKey => exact (look_orderly (fun _ => rfl) rfl).bind fun _ _ => orderly_done trivial

theorem handleTcp_orderly (conn : ConnId) (bytes : Bytes) (sink : Option Sink) (ws : Bool) :
    InOrder rs (fun _ => True) (handleTcp cfg rs conn bytes sink addr ws) :=
  (look_orderly (fun _ => rfl) rfl).bind fun _ _ =>
    handleTcpMessage_orderly cfg rs addr conn sink ws _

theorem decryptFrame_orderly (conn : ConnId) (sink : Option Sink) (frame : Bytes) :
    InOrder rs (fun _ => True) (decryptFrame cfg conn sink frame) := by
  unfold decryptFrame
  split
  · split
    · exact (look_orderly (fun _ => rfl) rfl).bind fun _ _ => orderly_done trivial
    · exact orderly_done trivial
  · exact orderly_done trivial

theorem serveTcp_orderly (conn : ConnId) (sink : Option Sink) (frames : List Bytes) :
    InOrder rs (fun _ => True) (serveTcp cfg rs conn addr sink frames) := by
  induction frames generalizing sink with
  | nil => exact orderly_done trivial
  | cons frame rest ih =>
      refine (look_orderly (fun _ => rfl) rfl).bind fun _ _ => ?_
      refine (decryptFrame_orderly cfg rs conn sink frame).bind fun r _ => ?_
      obtain ⟨bytes, sink⟩ := r
      cases bytes with
      | none => exact orderly_done trivial
      | some bytes =>
          refine (handleTcp_orderly cfg rs addr conn bytes sink false).bind fun r _ => ?_
          dsimp only
          split
          · exact ih _
          · exact orderly_done trivial

theorem serveWs_orderly (conn : ConnId) (sink : Option Sink) (frames : List WsMessage) :
    InOrder rs (fun _ => True) (serveWs cfg rs conn addr sink frames) := by
  induction frames generalizing sink with
  | nil => exact orderly_done trivial
  | cons frame rest ih =>
      cases frame with
      | other => exact ih sink
      | binary frame =>
          refine (look_orderly (fun _ => rfl) rfl).bind fun _ _ => ?_
          refine (handleTcp_orderly cfg rs addr conn frame sink true).bind fun r _ => ?_
          dsimp only
          split
          · exact ih _
          · exact orderly_done trivial

theorem serve_orderly (conn : ConnId) (stream : Stream) :
    InOrder rs (fun _ => True) (serve cfg rs conn addr stream) := by
  cases stream with
  | ws frames => exact serveWs_orderly cfg rs addr conn _ frames
  | tcp frames =>
      have hstart (sink : Option Sink) : InOrder rs (fun _ => True)
          (if cfg.key ≠ "" then keyExchangePhase1 cfg rs sink else pure sink) := by
        split
        · exact (keyExchangePhase1_replying cfg rs sink).orderly.mono fun _ _ => trivial
        · exact orderly_done trivial
      exact (hstart _).bind fun sink _ => serveTcp_orderly cfg rs addr conn sink frames

theorem handleListenerInner_orderly (conn : ConnId) (stream : Stream) :
    InOrder rs (fun _ => True) (handleListenerInner cfg rs conn addr stream) := by
  have hclose (sink : Option Sink) : InOrder rs (fun _ => True) (closePunch cfg addr sink) := by
    unfold closePunch
    split
    · exact fun _ _ _ => ⟨⟨nofun, nofun⟩, trivial⟩
    · exact orderly_done trivial
  refine (serve_orderly cfg rs addr conn stream).bind fun sink _ => ?_
  exact (hclose sink).bind fun _ _ => look_orderly (fun _ => rfl) rfl

/-! ## One datagram -/

/-- The server's serial does not go down. -/
def SerialKept (r : Except Unit RendezvousServer) : Prop :=
  ∀ rs', r = .ok rs' → rs.inner.serial ≤ rs'.inner.serial

theorem serialKept_ok : SerialKept rs (.ok rs) := by
  rintro rs' ⟨⟩
  exact le_refl _

theorem serialKept_error : SerialKept rs (.error ()) := by
  rintro rs' ⟨⟩

theorem handleUdpMessage_orderly (msg : Option Union) :
    InOrder rs (SerialKept rs) (handleUdpMessage cfg rs addr msg) := by
  have hcases := handleUdpMessage_cases cfg rs addr msg
  generalize handleUdpMessage cfg rs addr msg = t at hcases
  cases hcases with
  | answers ht =>
      refine ht.orderly.mono fun r hr => ?_
      rcases hr with rfl | rfl
      · exact serialKept_ok rs
      · exact serialKept_error rs
  | punches =>
      refine (liftPm_orderly _).bind fun loaded _ => ?_
      refine (handleUdpPunchHoleRequest_orderly cfg rs addr _).bind fun r _ => ?_
      cases r with
      | ok _ => exact orderly_done (serialKept_ok rs)
      | error _ =>
          cases loaded with
          | true => exact orderly_done (serialKept_error rs)
          | false => exact orderly_done (serialKept_ok rs)
  | configures hmsg hlocal hserial =>
      apply orderly_done
      rintro rs' ⟨⟩
      exact le_of_lt hserial

theorem handleUdp_orderly (bytes : Bytes) :
    InOrder rs (SerialKept rs) (handleUdp cfg rs bytes addr) :=
  (look_orderly (fun _ => rfl) rfl).bind fun _ _ => handleUdpMessage_orderly cfg rs addr _

theorem Job.task_orderly (job : Job) : InOrder job.server (fun _ => True) (job.task cfg) := by
  cases job with
  | stream rs conn addr stream => exact handleListenerInner_orderly cfg rs addr conn stream
  | datagram rs bytes addr =>
      exact (handleUdp_orderly cfg rs addr bytes).bind fun _ _ => orderly_done trivial

end

end KustDesk
