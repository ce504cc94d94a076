import KustDesk.Cleanup
import KustDesk.Encryption
import KustDesk.Async.Log

/-!
# KustDesk — ConfigAnswers

Who asks with an old serial is told the server's configuration: over UDP
unless a send fails, on a connection as long as it has its sink.
-/

namespace KustDesk

open Async

/-- A request for which a server with this serial has a newer configuration. -/
def Outdated (serial : Int) : Option Union → Prop
  | some (.registerPeer rp) => rp.id ≠ "" ∧ rp.serial < serial
  | some (.testNatRequest tar) => tar.serial < serial
  | _ => False

/-- The step hands such a request over. -/
def Op.Asks (cfg : Config) (serial : Int) : Op → Prop
  | .handleTcp _ bytes => Outdated serial (cfg.message bytes)
  | _ => False

/-- The step writes the configuration to the connection. -/
def Op.Tells (conn : ConnId) (cu : ConfigUpdate) : Op → Prop
  | .sinkSend .direct c msg _ => c = conn ∧ msg.configUpdate = some cu
  | _ => False

/-- The connection takes its next frame, or is closed. -/
def Op.backs : Op → Bool
  | .recv _ _ | .closed _ => true
  | _ => false

/-- Every request that comes before the connection gives its sink away is
answered with the configuration of `rs` before the connection goes on. -/
def Answers (cfg : Config) (rs : RendezvousServer) (conn : ConnId) (ops : List Op) : Prop :=
  Responds (fun op => op.inserts = true)
    (fun op => Before (fun op' => op'.backs = true) fun later =>
      op.Asks cfg rs.inner.serial → ∃ op' ∈ later, op'.Tells conn rs.configUpdate)
    ops

/-- `write_to_bytes` does not fail. -/
def Config.Writes (cfg : Config) : Prop :=
  ∀ msg, (cfg.x.writeToBytes ⟨some msg⟩).isSome

variable {cfg : Config} {rs : RendezvousServer} {conn : ConnId} {addr : SocketAddr}
  {es : List (Event Env Op Shared)} {y : Sink}

/-! ## One message -/

theorem Sink.send_tells (hwrites : cfg.Writes) {msg : Union} {r : Sink}
    (h : (y.send cfg.x .direct msg).Path es (.done r)) :
    r.conn = y.conn ∧ ∃ ev ∈ es, ∃ wire, ev.op = .sinkSend .direct y.conn msg wire := by
  obtain ⟨bytes, hbytes⟩ := Option.isSome_iff_exists.mp (hwrites msg)
  simp only [Sink.send, hbytes] at h
  split at h
  · obtain ⟨e, s, es', rfl, hend⟩ := path_note_bind h
    cases (Task.path_done hend).2
    exact ⟨rfl, _, List.mem_cons_self, _, rfl⟩
  · obtain ⟨e, s, es', rfl, hend⟩ := path_note_bind h
    cases (Task.path_done hend).2
    exact ⟨rfl, _, List.mem_cons_self, _, rfl⟩

/-- What is said to a connection that has its sink reaches it. -/
theorem direct_tells (hwrites : cfg.Writes) {msg : Union} {r : Option Sink}
    (h : (sendToSink cfg.x .direct (some y) msg).Path es (.done r)) :
    (∃ y', r = some y' ∧ y'.conn = y.conn)
      ∧ ∃ ev ∈ es, ∃ wire, ev.op = .sinkSend .direct y.conn msg wire := by
  obtain ⟨es₁, y', es₂, rfl, hsend, h⟩ := Task.path_bind_done h
  cases (Task.path_done h).2
  obtain ⟨hconn, ev, hev, htells⟩ := Sink.send_tells hwrites hsend
  exact ⟨⟨y', rfl, hconn⟩, ev, List.mem_append_left _ hev, htells⟩

theorem handleTcpMessage_tells (hwrites : cfg.Writes) {msg : Option Union} {ws : Bool}
    {r : Bool × Option Sink} (hmsg : Outdated rs.inner.serial msg)
    (h : (handleTcpMessage cfg rs conn (some y) addr ws msg).Path es (.done r)) :
    ∃ ev ∈ es, ev.op.Tells y.conn rs.configUpdate := by
  rcases msg with _ | msg
  · exact hmsg.elim
  cases msg with
  | registerPeer rp =>
      obtain ⟨hid, hserial⟩ := hmsg
      rw [handleTcpMessage, if_pos hid] at h
      obtain ⟨_, requestPk, es₁, rfl, _, h⟩ := Task.path_bind_done h
      obtain ⟨es₂, sink, es₃, rfl, hsend, h⟩ := Task.path_bind_done h
      obtain ⟨⟨y', rfl, hconn⟩, -⟩ := direct_tells hwrites hsend
      rw [if_pos hserial] at h
      obtain ⟨es₄, _, es₅, rfl, hsend', -⟩ := Task.path_bind_done h
      obtain ⟨-, ev, hev, wire, hop⟩ := direct_tells hwrites hsend'
      refine ⟨ev, by simp [hev], ?_⟩
      rw [hop]
      exact ⟨hconn, rfl⟩
  | testNatRequest tar =>
      obtain ⟨es₁, sink, es₂, rfl, hsend, h⟩ := Task.path_bind_done h
      obtain ⟨-, ev, hev, wire, hop⟩ := direct_tells hwrites hsend
      refine ⟨ev, List.mem_append_left _ hev, ?_⟩
      rw [hop]
      exact ⟨rfl, if_pos hmsg⟩
  | _ => exact hmsg.elim

theorem not_asks {op : Op} (h : op.wire = none) (serial : Int) : ¬ op.Asks cfg serial := by
  intro hasks
  cases op with
  | handleTcp c bytes => cases h
  | _ => exact hasks

theorem not_backs {op : Op} (hwire : op.wire = none) (hends : op.ends = false) :
    op.backs = false := by
  cases op with
  | recv c frame => cases hwire
  | closed c => cases hends
  | _ => rfl

/-- No frame is taken and none handed over, nor is the connection closed. -/
def Op.within (op : Op) : Option Unit :=
  if op.backs = true ∨ op.wire.isSome then some () else none

theorem within_see {op : Op} (hwire : op.wire = none) (hends : op.ends = false) :
    op.within = none := by
  simp [Op.within, not_backs hwire hends, hwire]

theorem within_none {op : Op} (h : op.within = none) (serial : Int) :
    ¬ op.Asks cfg serial ∧ op.backs ≠ true := by
  unfold Op.within at h
  split at h
  · cases h
  · rename_i hneither
    rw [not_or, Option.not_isSome_iff_eq_none] at hneither
    exact ⟨not_asks hneither.2 serial, hneither.1⟩

/-- The handling of one message hands no other over, and does not go on to the
next. -/
theorem handleTcpMessage_within {sink : Option Sink} {msg : Option Union} {ws : Bool}
    {t : ServerTask (Bool × Option Sink)} (s : Shared) (serial : Int)
    (h : (handleTcpMessage cfg rs conn sink addr ws msg).Path es t) :
    ∀ ev ∈ es, ¬ ev.op.Asks cfg serial ∧ ev.op.backs ≠ true := by
  by_cases hex : ∃ ex, msg = some (.keyExchange ex)
  · obtain ⟨ex, rfl⟩ := hex
    replace h : (handleKeyExchange cfg rs conn ex sink).Path es t := h
    obtain ⟨why, hk⟩ | hk | ⟨rfl, hk⟩ | ⟨y, key, rfl, hk⟩ :=
      handleKeyExchange_cases cfg rs conn ex sink
    · rw [hk] at h
      cases h
      simp
    · rw [hk] at h
      simp [(Task.path_done h).1]
    · rw [hk] at h
      simp [(Task.path_done h).1]
    · rw [hk] at h
      cases h with
      | nil => simp
      | cons e s h =>
          rw [(Task.path_done h).1]
          simp [Op.Asks, Op.backs]
  · have hguar := (handleTcpMessage_silent (fun _ => within_see) conn sink addr ws
      (fun ex hmsg => hex ⟨ex, hmsg⟩) s).path (fun _ _ => trivial) h fun _ _ => trivial
    exact fun ev hev => within_none (hguar ev hev) serial

/-- A connection that goes on without having given its sink away still has
it. -/
theorem handleTcpMessage_holds {msg : Option Union} {ws : Bool} {r : Option Sink} (s : Shared)
    (h : (handleTcpMessage cfg rs conn (some y) addr ws msg).Path es (.done (true, r)))
    (hkept : ∀ ev ∈ es, ev.op.inserts ≠ true) : ∃ y', r = some y' ∧ y'.conn = y.conn := by
  have hheld {t : ServerTask (Bool × Option Sink)} {es : List (Event Env Op Shared)}
      {go : Bool} {sink : Option Sink} (ht : Replies cfg rs (some y) t)
      (h : t.Path es (.done (go, sink))) :
      ∃ y', sink = some y' ∧ y'.conn = y.conn := by
    obtain ⟨s', hlike⟩ :=
      (ht.meets free_answering s).path_done (fun _ _ => trivial) h fun _ _ => trivial
    cases hlike with
    | some hlike => exact ⟨_, rfl, hlike.2.1⟩
  have hcases := handleTcpMessage_cases cfg rs conn (some y) addr ws msg
  generalize handleTcpMessage cfg rs conn (some y) addr ws msg = t at hcases h
  cases hcases with
  | answers _ ht => exact hheld ht h
  | enters _ _ ht =>
      obtain ⟨es₁, ⟨go, sink⟩, es₂, rfl, h₁, h⟩ := Task.path_bind_done h
      obtain ⟨y', rfl, -⟩ := hheld ht h₁
      cases go with
      | false => cases (Task.path_done h).2
      | true =>
          obtain ⟨_, _, _, rfl, hput, h⟩ := Task.path_bind_done h
          -- the sink goes into `ws_map`, against `hkept`
          cases hput with
          | cons e s' _ => exact (hkept _ (by simp; exact .inr (.inl rfl)) rfl).elim
  | forwards _ _ =>
      obtain ⟨es₁, _, es₂, rfl, hgive, -⟩ := Task.path_bind_done h
      -- the sink goes into `tcp_punch`
      cases hgive with
      | cons e s' _ => exact (hkept _ (by simp; exact .inl rfl) rfl).elim
  | panics _ => cases h
  | setsKey _ hsink =>
      cases hsink
      obtain ⟨e, s', es', rfl, hend⟩ := path_note_bind h
      cases (Task.path_done hend).2
      exact ⟨_, rfl, rfl⟩

/-! ## One connection -/

theorem decryptFrame_holds {frame : Bytes} {r : Option Bytes × Option Sink}
    (h : (decryptFrame cfg conn (some y) frame).Path es (.done r)) :
    ∃ y', r.2 = some y' ∧ y'.conn = y.conn := by
  simp only [decryptFrame] at h
  split at h
  · obtain ⟨e, s, es', rfl, hend⟩ := path_note_bind h
    cases (Task.path_done hend).2
    exact ⟨_, rfl, rfl⟩
  · cases (Task.path_done h).2
    exact ⟨y, rfl, rfl⟩

theorem decryptFrame_asks {frame : Bytes} {sink : Option Sink} {t} (serial : Int)
    (h : (decryptFrame cfg conn sink frame).Path es t) : ∀ ev ∈ es, ¬ ev.op.Asks cfg serial := by
  have hall : (decryptFrame cfg conn sink frame).All fun ev => ¬ ev.op.Asks cfg serial := by
    unfold decryptFrame
    split
    · split
      · exact fun _ _ => ⟨not_false, trivial⟩
      · trivial
    · trivial
  exact (hall.path h).1

/-- Entries that ask for nothing, in front. -/
theorem answers_quiet {ops : List Op} (hes : ∀ ev ∈ es, ¬ ev.op.Asks cfg rs.inner.serial)
    (h : (∀ ev ∈ es, ev.op.inserts ≠ true) → Answers cfg rs conn ops) :
    Answers cfg rs conn (es.map Event.op ++ ops) := by
  refine responds_append ?_ fun hfree => h fun ev hev => hfree _ (List.mem_map_of_mem hev)
  intro op hop _ _ _ _ _ _ hasks
  obtain ⟨ev, hev, rfl⟩ := List.mem_map.mp hop
  exact (hes ev hev hasks).elim

theorem answers_of_quiet {ops : List Op} (h : ∀ op ∈ ops, ¬ op.Asks cfg rs.inner.serial) :
    Answers cfg rs conn ops := by
  have hnil : Answers cfg rs conn [] := responds_nil
  have hops := responds_append (fun op hop _ _ _ _ _ _ hasks => (h op hop hasks).elim)
    fun _ => hnil
  rwa [List.append_nil] at hops

/-- A frame, with what follows it: the rest of the connection if it goes on,
its end if it does not, nothing while the frame is being handled. -/
theorem handleTcp_answers (hwrites : cfg.Writes) {bytes : Bytes} {ws : Bool} {ops : List Op} {t}
    (s : Shared) (h : (handleTcp cfg rs conn bytes (some y) addr ws).Path es t)
    (hrest : ∀ y', t = .done (true, some y') → y'.conn = y.conn → Answers cfg rs y.conn ops)
    (hstop : ∀ sink, t = .done (false, sink) → ∀ op ∈ ops, ¬ op.Asks cfg rs.inner.serial)
    (hopen : (∀ r, t ≠ .done r) → ops = []) : Answers cfg rs y.conn (es.map Event.op ++ ops) := by
  obtain ⟨rfl, ht⟩ | ⟨e, s', es', rfl, hmsg⟩ := path_note_cases h
  · rw [hopen ht]
    exact responds_nil
  · rw [List.map_cons, List.cons_append]
    have hwithin := handleTcpMessage_within s rs.inner.serial hmsg
    have hbacks : ∀ op ∈ es'.map Event.op, ¬ op.backs = true :=
      List.forall_mem_map.mpr fun ev hev => (hwithin ev hev).2
    by_cases hdone : ∃ r, t = .done r
    · obtain ⟨⟨go, sink⟩, rfl⟩ := hdone
      refine responds_cons (before_append hbacks fun later hasks => ?_) fun _ =>
        answers_quiet (fun ev hev => (hwithin ev hev).1) fun hkept => ?_
      · obtain ⟨ev, hev, htells⟩ := handleTcpMessage_tells hwrites hasks hmsg
        exact ⟨ev.op, List.mem_append_left _ (List.mem_map_of_mem hev), htells⟩
      · cases go with
        | false => exact answers_of_quiet (hstop sink rfl)
        | true =>
            obtain ⟨y', rfl, hconn⟩ := handleTcpMessage_holds s hmsg hkept
            exact hrest y' rfl hconn
    · -- the request is still being handled
      rw [hopen fun r hr => hdone ⟨r, hr⟩, List.append_nil]
      refine responds_cons (before_free hbacks) fun _ => answers_of_quiet ?_
      exact List.forall_mem_map.mpr fun ev hev => (hwithin ev hev).1

/-- The loop over TCP, with what follows when it is done. -/
theorem serveTcp_answers (hwrites : cfg.Writes) (frames : List Bytes) {ops : List Op} (s : Shared)
    {t} (h : (serveTcp cfg rs conn addr (some y) frames).Path es t)
    (hops : ∀ op ∈ ops, ¬ op.Asks cfg rs.inner.serial) (hopen : (∀ r, t ≠ .done r) → ops = []) :
    Answers cfg rs y.conn (es.map Event.op ++ ops) := by
  induction frames generalizing y es with
  | nil =>
      rw [(Task.path_done h).1]
      exact answers_of_quiet hops
  | cons frame rest ih =>
      obtain ⟨rfl, ht⟩ | ⟨e, s', es', rfl, hframe⟩ := path_note_cases h
      · rw [hopen ht]
        exact responds_nil
      rw [List.map_cons, List.cons_append]
      refine responds_cons (fun _ _ _ _ _ hasks => hasks.elim) fun _ => ?_
      obtain ⟨t₁, h₁, ht⟩ | ⟨es₁, ⟨bytes, sink⟩, es₂, rfl, h₁, hrest⟩ := Task.path_bind hframe
      · rw [hopen ht]
        exact answers_quiet (decryptFrame_asks _ h₁) fun _ => responds_nil
      obtain ⟨y', hsink, hconn⟩ := decryptFrame_holds h₁
      dsimp only at hsink
      subst hsink
      rw [List.map_append, List.append_assoc]
      refine answers_quiet (decryptFrame_asks _ h₁) fun _ => ?_
      cases bytes with
      | none =>
          rw [(Task.path_done hrest).1]
          exact answers_of_quiet hops
      | some bytes =>
          rw [← hconn]
          obtain ⟨t₃, h₃, ht⟩ | ⟨es₃, ⟨go, sink⟩, es₄, rfl, h₃, hrest⟩ := Task.path_bind hrest
          · rw [hopen ht]
            apply handleTcp_answers hwrites s h₃
            · exact fun _ _ _ => responds_nil
            · simp
            · exact fun _ => rfl
          · rw [List.map_append, List.append_assoc]
            apply handleTcp_answers hwrites s h₃
            · rintro y'' ⟨⟩ hconn'
              rw [← hconn']
              exact ih hrest
            · rintro _ ⟨⟩
              rw [(Task.path_done hrest).1]
              exact hops
            · exact fun hnot => (hnot _ rfl).elim

/-- Likewise over WebSocket. -/
theorem serveWs_answers (hwrites : cfg.Writes) (frames : List WsMessage) {ops : List Op}
    (s : Shared) {t} (h : (serveWs cfg rs conn addr (some y) frames).Path es t)
    (hops : ∀ op ∈ ops, ¬ op.Asks cfg rs.inner.serial) (hopen : (∀ r, t ≠ .done r) → ops = []) :
    Answers cfg rs y.conn (es.map Event.op ++ ops) := by
  induction frames generalizing y es with
  | nil =>
      rw [(Task.path_done h).1]
      exact answers_of_quiet hops
  | cons frame rest ih =>
      cases frame with
      | other => exact ih h
      | binary frame =>
          obtain ⟨rfl, ht⟩ | ⟨e, s', es', rfl, hframe⟩ := path_note_cases h
          · rw [hopen ht]
            exact responds_nil
          rw [List.map_cons, List.cons_append]
          refine responds_cons (fun _ _ _ _ _ hasks => hasks.elim) fun _ => ?_
          obtain ⟨t₁, h₁, ht⟩ | ⟨es₁, ⟨go, sink⟩, es₂, rfl, h₁, hrest⟩ := Task.path_bind hframe
          · rw [hopen ht]
            apply handleTcp_answers hwrites s h₁
            · exact fun _ _ _ => responds_nil
            · simp
            · exact fun _ => rfl
          · rw [List.map_append, List.append_assoc]
            apply handleTcp_answers hwrites s h₁
            · rintro y' ⟨⟩ hconn
              rw [← hconn]
              exact ih hrest
            · rintro _ ⟨⟩
              rw [(Task.path_done hrest).1]
              exact hops
            · exact fun hnot => (hnot _ rfl).elim

/-- The key exchange, if there is one. -/
theorem keyExchange_holds (hwrites : cfg.Writes) {r : Option Sink}
    (h : Task.Path (if cfg.key ≠ "" then keyExchangePhase1 cfg rs (some y) else pure (some y))
      es (.done r)) : ∃ y', r = some y' ∧ y'.conn = y.conn := by
  split at h
  · unfold keyExchangePhase1 at h
    split at h
    · exact (direct_tells hwrites h).1
    · cases (Task.path_done h).2
      exact ⟨y, rfl, rfl⟩
  · cases (Task.path_done h).2
    exact ⟨y, rfl, rfl⟩

theorem keyExchange_asks {sink : Option Sink} {t} (s : Shared) (serial : Int)
    (h : Task.Path (if cfg.key ≠ "" then keyExchangePhase1 cfg rs sink else pure sink) es t) :
    ∀ ev ∈ es, ¬ ev.op.Asks cfg serial := by
  split at h
  · have hguar := ((keyExchangePhase1_replying cfg rs sink).meets
      (silent_answering fun _ hw _ => hw) s).path (fun _ _ => trivial) h fun _ _ => trivial
    exact fun ev hev => not_asks (hguar ev hev) serial
  · simp [(Task.path_done h).1]

theorem serve_answers (hwrites : cfg.Writes) {stream : Stream} {ops : List Op} (s : Shared) {t}
    (h : (serve cfg rs conn addr stream).Path es t)
    (hops : ∀ op ∈ ops, ¬ op.Asks cfg rs.inner.serial) (hopen : (∀ r, t ≠ .done r) → ops = []) :
    Answers cfg rs conn (es.map Event.op ++ ops) := by
  cases stream with
  | ws frames =>
      exact serveWs_answers hwrites frames s h hops hopen
  | tcp frames =>
      obtain ⟨t₁, hstart, ht⟩ | ⟨es₁, sink, es₂, rfl, hstart, hserve⟩ := Task.path_bind h
      · rw [hopen ht]
        exact answers_quiet (keyExchange_asks s _ hstart) fun _ => responds_nil
      · obtain ⟨y, rfl, hconn⟩ :=
          keyExchange_holds hwrites hstart
        rw [List.map_append, List.append_assoc]
        refine answers_quiet (keyExchange_asks s _ hstart) fun _ => ?_
        have hserved := serveTcp_answers hwrites frames s hserve hops hopen
        rw [hconn] at hserved
        exact hserved

theorem listenerEnd_asks {serial : Int} (sink : Option Sink) {t}
    (h : Task.Path (do
      closePunch cfg addr sink
      note (.closed conn)) es t) :
    ∀ ev ∈ es, ¬ ev.op.Asks cfg serial := by
  have hall : Task.All (fun ev => ¬ ev.op.Asks cfg serial) (do
      closePunch cfg addr sink
      note (.closed conn)) := by
    cases sink with
    | none => exact fun _ _ => ⟨not_false, fun _ _ => ⟨not_false, trivial⟩⟩
    | some y => exact fun _ _ => ⟨not_false, trivial⟩
  exact (hall.path h).1

/-- **A connection.** All requests that come before it gives its sink away are
answered before it goes on. -/
theorem handleListenerInner_answers (hwrites : cfg.Writes) {stream : Stream} (s : Shared) {t}
    (h : (handleListenerInner cfg rs conn addr stream).Path es t) :
    Answers cfg rs conn (es.map Event.op) := by
  obtain ⟨t₁, hserve, -⟩ | ⟨served, sink, es₁, rfl, hserve, hend⟩ := Task.path_bind h
  · simpa using serve_answers hwrites s hserve (by simp) fun _ => rfl
  · rw [List.map_append]
    refine serve_answers hwrites s hserve ?_ fun hnot => (hnot _ rfl).elim
    exact List.forall_mem_map.mpr (listenerEnd_asks sink hend)

/-! ## One datagram -/

/-- The send is one over UDP that has not failed. -/
def UdpWorks (op : Op) (e : Env) : Prop :=
  ∀ msg dest, op = .udpSend msg dest → e.fails = false

theorem udpSend_tells {msg : Union} {dest : SocketAddr} {r : Except Unit Unit}
    (h : (udpSend msg dest).Path es (.done r)) (hworks : ∀ ev ∈ es, UdpWorks ev.op ev.env) :
    r = .ok () ∧ ∃ ev ∈ es, ev.op = .udpSend msg dest := by
  cases h with
  | cons e s hend =>
      have hfails := hworks _ List.mem_cons_self msg dest rfl
      dsimp only at hfails
      obtain ⟨-, hr⟩ := Task.path_done hend
      refine ⟨?_, _, List.mem_cons_self, rfl⟩
      simpa [hfails] using hr

/-- **A datagram.** A registration with an old serial is told the configuration
unless a send fails. -/
theorem handleUdp_tells {bytes : Bytes} {rp : RegisterPeer} {r : Except Unit RendezvousServer}
    (h : (handleUdp cfg rs bytes addr).Path es (.done r))
    (hmsg : cfg.message bytes = some (.registerPeer rp))
    (hold : Outdated rs.inner.serial (some (.registerPeer rp)))
    (hworks : ∀ ev ∈ es, UdpWorks ev.op ev.env) :
    ∃ ev ∈ es, ev.op = .udpSend (.configureUpdate rs.configUpdate) addr := by
  obtain ⟨hid, hserial⟩ := hold
  obtain ⟨e, s, es₁, rfl, hrest⟩ := path_note_bind h
  rw [hmsg, handleUdpMessage, if_pos hid] at hrest
  obtain ⟨es₂, requestPk, es₃, rfl, -, hrest⟩ := Task.path_bind_done hrest
  obtain ⟨es₄, r₁, es₅, rfl, hsend, hrest⟩ := Task.path_bind_done hrest
  obtain ⟨rfl, -⟩ := udpSend_tells hsend fun ev hev => hworks ev (by simp [hev])
  dsimp only at hrest
  rw [if_pos hserial] at hrest
  obtain ⟨es₆, r₂, es₇, rfl, hsend', -⟩ := Task.path_bind_done hrest
  obtain ⟨-, ev, hev, hop⟩ := udpSend_tells hsend' fun ev hev => hworks ev (by simp [hev])
  exact ⟨ev, by simp [hev], hop⟩

end KustDesk
