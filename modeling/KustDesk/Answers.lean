import KustDesk.Rendezvous
import KustDesk.PeerSteps

/-!
# KustDesk — Answers

Most of what the handlers do is to look things up and to answer. Any
contract that allows these steps is kept by all of it: this is proved once,
for an arbitrary such contract, and leaves to each result the few steps it
is about.
-/

namespace KustDesk

open Async

/-- The step sends a message that starts a session with its receiver. -/
def Op.forwards : Op → Bool
  | .sinkSend _ _ msg _ => msg.startsSession
  | .queue msg _ => msg.startsSession
  | .udpSend msg _ => msg.startsSession
  | _ => false

/-- The steps that change nothing and send no more than an answer of the
connection's own. -/
def Op.looks : Op → Bool
  | .loginCheck _ | .relayFlag | .relayLookup _ | .handleUdp _ => true
  | .sinkSend .direct _ msg _ => !msg.startsSession
  | .queue msg _ => !msg.startsSession
  | .udpSend msg _ => !msg.startsSession
  | _ => false

/-- What the handlers look up beside the peer map. -/
def Op.asks : Op → Bool
  | .loginCheck _ | .relayFlag => true
  | _ => false

theorem Op.looks_of_asks {op : Op} (h : op.asks = true) : op.looks = true := by
  cases op <;> first | rfl | cases h

/-- The contract allows the calls on the peer map, and to look things up and
to answer, be it through a sink that waits in `tcp_punch`. -/
structure Answering (c : Contract Env Op Shared) : Prop where
  pm : ∀ {x : External} {α : Type} {t : PmTask α}, PmCall x t → ∀ s,
    (liftPm t).Meets c (fun _ _ => True) s
  punch : ∀ (x : External) (id : String) s, (liftPm (PeerMap.get x id)).Meets c
    (fun r s => ∀ peer, r = some peer → ∀ e s', c.rely s s' →
      c.given (.pm (.readPunch id peer)) e s' → c.guar (.pm (.readPunch id peer)) e s' s') s
  looks : ∀ op e s, op.looks = true → c.guar op e s s
  rotate : ∀ e s, c.guar .rotate e s
    { s with rotationRelayServer := s.rotationRelayServer.next }
  punchTake : ∀ k e s, c.guar (.punchTake k) e s
    { s with tcpPunch := s.tcpPunch.erase k }
  reply : ∀ s₀ s k sink, c.rely s₀ s → s.tcpPunch.lookup k = some sink →
    ∀ msg wire e s', msg.startsSession = false →
      c.guar (.sinkSend (.punch k) sink.conn msg wire) e s' s'

/-- A contract that does not look at the peer map allows all calls on it. -/
theorem liftPm_meets {c : Contract Env Op Shared}
    (h : ∀ op e s pm, c.guar (.pm op) e s { s with pm }) {α : Type} (t : PmTask α)
    (s : Shared) : (liftPm t).Meets c (fun _ _ => True) s :=
  Task.Meets.lift (c := .free Env PmOp PeerMap) (fun _ _ _ => trivial)
    (fun _ _ _ _ => trivial) (fun _ _ _ _ _ => h _ _ _ _) (Task.meets_free t _)

theorem liftPm_get_meets {c : Contract Env Op Shared}
    (h : ∀ op e s pm, c.guar (.pm op) e s { s with pm }) (x : External) (id : String)
    (s : Shared) : (liftPm (PeerMap.get x id)).Meets c
      (fun r s => ∀ peer, r = some peer → ∀ e s', c.rely s s' →
        c.given (.pm (.readPunch id peer)) e s' → c.guar (.pm (.readPunch id peer)) e s' s') s :=
  (liftPm_meets h _ s).mono fun _ _ _ _ _ _ s' _ _ => h _ _ s' s'.pm

/-- The bytes by which the receiver of a session will name the requester. -/
def Union.returnAddr : Union → Option Bytes
  | .punchHole m => some m.socketAddr
  | .fetchLocalAddr m => some m.socketAddr
  | .requestRelay m => some m.socketAddr
  | _ => none

def Union.configUpdate : Union → Option ConfigUpdate
  | .configureUpdate cu => some cu
  | .testNatResponse r => r.cu
  | _ => none

/-- The `ConfigUpdate` of the message, if it has one, is the server's. -/
def Union.Of (rs : RendezvousServer) (msg : Union) : Prop :=
  ∀ cu, msg.configUpdate = some cu → cu = rs.configUpdate

theorem Union.of_none {rs : RendezvousServer} {msg : Union} (h : msg.configUpdate = none) :
    msg.Of rs := by
  intro cu hcu
  rw [h] at hcu
  cases hcu

/-- The sinks differ at most in what has been sent through them. -/
def Sink.Like (a b : Sink) : Prop :=
  a.kind = b.kind ∧ a.conn = b.conn
    ∧ a.encrypt.map (fun key => (key.key, key.received))
      = b.encrypt.map (fun key => (key.key, key.received))

theorem Sink.Like.refl (a : Sink) : a.Like a := ⟨rfl, rfl, rfl⟩

/-- Writing to a sink is one step, if the message can be serialised, and leaves
the sink as it is but for the messages sent. -/
theorem Sink.send_cases (x : External) (via : Route) (sink : Sink) (msg : Union) :
    sink.send x via msg = .done sink
    ∨ ∃ wire y, Sink.Like y sink ∧ sink.send x via msg
      = (do note (.sinkSend via sink.conn msg wire); return y) := by
  unfold Sink.send
  cases x.writeToBytes ⟨some msg⟩ with
  | none => exact .inl rfl
  | some bytes =>
      cases hkey : sink.encrypt with
      | none => exact .inr ⟨bytes, sink, .refl sink, rfl⟩
      | some key =>
          exact .inr ⟨x.enc key bytes,
            { sink with encrypt := some { key with sent := key.sent ++ [bytes] } },
            ⟨rfl, rfl, by simp [hkey]⟩, rfl⟩

theorem like_refl (sink : Option Sink) : Option.Rel Sink.Like sink sink := by
  cases sink with
  | none => exact .none
  | some y => exact .some (.refl y)

theorem like_trans {a b c : Option Sink} (h : Option.Rel Sink.Like a b)
    (h' : Option.Rel Sink.Like b c) : Option.Rel Sink.Like a c := by
  cases h with
  | none => exact h'
  | some h =>
      cases h' with
      | some h' => exact .some ⟨h.1.trans h'.1, h.2.1.trans h'.2.1, h.2.2.trans h'.2.2⟩

/-- A key exchange panics, closes the connection, has no sink to work on, or
puts a key on the sink. -/
theorem handleKeyExchange_cases (cfg : Config) (rs : RendezvousServer)
    (conn : ConnId) (ex : KeyExchange) (sink : Option Sink) :
    (∃ why, handleKeyExchange cfg rs conn ex sink = .abort why)
    ∨ handleKeyExchange cfg rs conn ex sink = .done (false, sink)
    ∨ sink = none ∧ handleKeyExchange cfg rs conn ex sink = .done (true, none)
    ∨ ∃ y key, sink = some y ∧ handleKeyExchange cfg rs conn ex sink
        = (do note (.setKey conn key); return (true, some { y with encrypt := some { key } })) := by
  have habort (n : Nat) (v : Bytes) :
      toArray n v = .done v ∨ ∃ why, toArray n v = .abort why := by
    unfold toArray
    split
    · exact .inl rfl
    · exact .inr ⟨_, rfl⟩
  unfold handleKeyExchange
  split
  · rename_i key0 key1 _
    rcases habort 32 key0 with h0 | ⟨why, h0⟩
    · rcases habort 48 key1 with h1 | ⟨why, h1⟩
      · rw [h0, h1]
        simp only [Task.done_bind, getSymetricKeyFromMsg]
        cases cfg.x.boxOpen key1 (List.replicate 24 0) key0 rs.inner.secureTcpSkB with
        | none => exact .inl ⟨_, rfl⟩
        | some m =>
            by_cases hlen : m.length = 32
            · simp only [hlen, if_true, Task.pure_eq, Task.done_bind]
              cases cfg.x.secretboxKey m with
              | none => exact .inr (.inl rfl)
              | some key =>
                  cases sink with
                  | none => exact .inr (.inr (.inl ⟨rfl, rfl⟩))
                  | some y => exact .inr (.inr (.inr ⟨y, key, rfl, rfl⟩))
            · simp only [hlen, if_false, Task.abort_bind]
              exact .inl ⟨_, rfl⟩
      · rw [h0, h1]
        exact .inl ⟨why, rfl⟩
    · rw [h0]
      exact .inl ⟨why, rfl⟩
  · exact .inr (.inl rfl)

section
variable {c : Contract Env Op Shared} (hc : Answering c)
variable (x : External) (cfg : Config) (rs : RendezvousServer)

include hc

theorem look_meets {α : Type} {op : Op} (h : op.looks = true)
    (f : Env → Shared → α) (s : Shared) :
    (Task.look op f).Meets c (fun _ _ => True) s :=
  fun e s' _ _ => ⟨hc.looks op e s' h, trivial⟩

omit hc in
theorem Sink.send_meets (via : Route) (sink : Sink) (msg : Union)
    (h : ∀ wire e s', c.guar (.sinkSend via sink.conn msg wire) e s' s') (s : Shared) :
    (sink.send x via msg).Meets c (fun r _ => r.Like sink) s := by
  obtain hsend | ⟨wire, y, hlike, hsend⟩ := sink.send_cases x via msg
  · rw [hsend]
    exact Sink.Like.refl sink
  · rw [hsend]
    exact fun e s' _ _ => ⟨h wire e s', hlike⟩

omit hc in
theorem sendToSink_meets (via : Route) (sink : Option Sink) (msg : Union)
    (h : ∀ y ∈ sink, ∀ wire e s', c.guar (.sinkSend via y.conn msg wire) e s' s')
    (s : Shared) :
    (sendToSink x via sink msg).Meets c
      (fun r _ => Option.Rel Sink.Like r sink) s := by
  cases sink with
  | none => exact .none
  | some y =>
      exact (y.send_meets x via msg (h y rfl) s).bind fun r _ hr => .some hr

/-- An answer to the connection itself. -/
theorem direct_meets (sink : Option Sink) {msg : Union}
    (h : msg.startsSession = false) (s : Shared) :
    (sendToSink x .direct sink msg).Meets c
      (fun r _ => Option.Rel Sink.Like r sink) s :=
  sendToSink_meets x _ sink msg
    (fun _ _ _ _ _ => hc.looks _ _ _ (by simp [Op.looks, h])) s

/-- What `send_to_tcp` takes out of `tcp_punch` it writes to. -/
theorem sendToTcp_meets {msg : Union} (h : msg.startsSession = false)
    (addr : SocketAddr) (s : Shared) :
    (sendToTcp x msg addr).Meets c (fun _ _ => True) s := by
  intro e s' hr _
  refine ⟨hc.punchTake _ _ _, ?_⟩
  refine (sendToSink_meets x _ _ msg ?_ _).bind fun _ _ _ => trivial
  intro sink hsink wire e' s''
  exact hc.reply s s' _ sink hr hsink msg wire e' s'' h

theorem txSend_meets {msg : Union} (h : msg.startsSession = false)
    (addr : SocketAddr) (s : Shared) :
    (txSend msg addr).Meets c (fun _ _ => True) s :=
  look_meets hc (by simp [Op.looks, h]) _ s

theorem getRelayServer_meets (s : Shared) :
    rs.getRelayServer.Meets c (fun _ _ => True) s := by
  have hunwrap (o : Option String) (s : Shared) :
      (Task.unwrap "index out of bounds" o).Meets c (fun _ _ => True) s := by
    cases o <;> trivial
  unfold RendezvousServer.getRelayServer
  split
  · trivial
  · split
    · exact hunwrap _ s
    · exact fun e s' _ _ => ⟨hc.rotate e s', hunwrap _ _⟩

end

/-! ## What the handlers are made of -/

/-- The task is made of calls on the peer map, of looking things up and of
answers, and what it returns satisfies the predicate. -/
inductive Replying (x : External) (rs : RendezvousServer) :
    {α : Type} → ServerTask α → (α → Prop) → Prop
  | done {α : Type} {a : α} {Q : α → Prop} (h : Q a) : Replying x rs (.done a) Q
  | mono {α : Type} {t : ServerTask α} {Q R : α → Prop} (ht : Replying x rs t Q)
      (h : ∀ a, Q a → R a) : Replying x rs t R
  | bind {α β : Type} {t : ServerTask α} {g : α → ServerTask β} {Q : α → Prop} {R : β → Prop}
      (ht : Replying x rs t Q) (hg : ∀ a, Q a → Replying x rs (g a) R) : Replying x rs (t >>= g) R
  | pm {α : Type} {t : PmTask α} (h : PmCall x t) : Replying x rs (liftPm t) fun _ => True
  | look {α : Type} {op : Op} (h : op.asks = true) (f : Env → Shared → α) :
      Replying x rs (Task.look op f) fun _ => True
  | relayServer : Replying x rs rs.getRelayServer fun _ => True
  | direct (sink : Option Sink) {msg : Union} (h : msg.startsSession = false) (hof : msg.Of rs) :
      Replying x rs (sendToSink x .direct sink msg) fun r => Option.Rel Sink.Like r sink
  | toTcp (addr : SocketAddr) {msg : Union} (h : msg.startsSession = false) (hof : msg.Of rs) :
      Replying x rs (sendToTcp x msg addr) fun _ => True
  | udp (addr : SocketAddr) {msg : Union} (h : msg.startsSession = false) (hof : msg.Of rs) :
      Replying x rs (udpSend msg addr) fun _ => True
  /-- The peer that a punch-hole request asks for is read where it is found. -/
  | punch (id : String) {α β : Type} {g : Option LockPeer → ServerTask β}
      {f : LockPeer → Env → PeerMap → α} {k : LockPeer → α → ServerTask β} {R : β → Prop}
      (hg : ∀ peer, g (some peer) = liftPm (Task.look (.readPunch id peer) (f peer)) >>= k peer)
      (hnone : Replying x rs (g none) R) (hsome : ∀ peer a, Replying x rs (k peer a) R) :
      Replying x rs (liftPm (PeerMap.get x id) >>= g) R

/-- Any contract that allows to look things up and to answer is kept. -/
theorem Replying.meets {c : Contract Env Op Shared} (hc : Answering c) {x : External}
    {rs : RendezvousServer} {α : Type} {t : ServerTask α} {Q : α → Prop} (h : Replying x rs t Q)
    (s : Shared) : t.Meets c (fun a _ => Q a) s := by
  induction h generalizing s with
  | done h => exact h
  | mono _ h ih => exact (ih s).mono fun a _ ha => h a ha
  | bind _ _ iht ihg => exact (iht s).bind fun a s ha => ihg a ha s
  | pm h => exact hc.pm h s
  | look h f => exact look_meets hc (Op.looks_of_asks h) f s
  | relayServer => exact getRelayServer_meets hc rs s
  | direct sink h => exact direct_meets hc x sink h s
  | toTcp addr h => exact sendToTcp_meets hc x h addr s
  | udp addr h => exact look_meets hc (by simp [Op.looks, h]) _ s
  | punch id hg _ _ ihnone ihsome =>
      refine (hc.punch x id s).bind fun peer s hread => ?_
      cases peer with
      | none => exact ihnone s
      | some peer =>
          rw [hg]
          refine Task.Meets.bind (Q := fun _ _ => True) ?_ fun a s _ => ihsome peer a s
          exact fun e s' hrely hgiven => ⟨hread peer rfl e s' hrely hgiven, trivial⟩

section
variable (cfg : Config) (rs : RendezvousServer) (addr : SocketAddr)

/-- An answer goes out by UDP, or through the sink that waits in `tcp_punch`. -/
theorem replying_answer {msg : Union} (h : msg.startsSession = false) (hof : msg.Of rs)
    (socket : Bool) : Replying cfg.x rs (if socket then udpSend msg addr else do
      sendToTcp cfg.x msg addr
      return .ok ()) fun _ => True := by
  split
  · exact .udp addr h hof
  · exact .bind (.toTcp addr h hof) fun _ _ => .done trivial

theorem handleHoleSent_replying (phs : PunchHoleSent) (socket : Bool) :
    Replying cfg.x rs (handleHoleSent cfg rs phs addr socket) fun _ => True :=
  .bind (.pm (.getPk _ _ _)) fun _ _ => replying_answer cfg rs _ rfl (Union.of_none rfl) socket

theorem handleLocalAddr_replying (la : LocalAddr) (socket : Bool) :
    Replying cfg.x rs (handleLocalAddr cfg rs la socket) fun _ => True :=
  .bind (.pm (.getPk _ _ _)) fun _ _ => replying_answer cfg rs _ rfl (Union.of_none rfl) socket

theorem relayResponsePk_replying (rr : RelayResponse) :
    Replying cfg.x rs (relayResponsePk cfg rs rr) fun _ => True := by
  unfold relayResponsePk
  split
  · exact .bind (.pm (.getPk _ _ _)) fun _ _ => .done trivial
  · exact .done trivial

theorem relayResponseServer_replying (rr : RelayResponse) (addrB : SocketAddr) :
    Replying cfg.x rs (relayResponseServer rs rr addrB) fun _ => True := by
  unfold relayResponseServer
  split
  · split
    · exact .done trivial
    · split
      · exact .bind .relayServer fun _ _ => .done trivial
      · exact .done trivial
  · exact .done trivial

theorem handleRelayResponse_replying (rr : RelayResponse) :
    Replying cfg.x rs (handleRelayResponse cfg rs rr) fun _ => True :=
  .bind (relayResponsePk_replying cfg rs _) fun _ _ =>
    .bind (relayResponseServer_replying cfg rs _ _) fun _ _ => .toTcp _ rfl (Union.of_none rfl)

theorem keyExchangePhase1_replying (sink : Option Sink) :
    Replying cfg.x rs (keyExchangePhase1 cfg rs sink) fun r => Option.Rel Sink.Like r sink := by
  unfold keyExchangePhase1
  cases rs.inner.sk with
  | none => exact .done (like_refl sink)
  | some sk => exact .direct sink rfl (Union.of_none rfl)

/-- The message for the peer names the requester. -/
theorem punchHoleMessage_replying (ph : PunchHoleRequest) (ws : Bool) (peerAddr : SocketAddr) :
    Replying cfg.x rs (punchHoleMessage cfg rs addr ph ws peerAddr)
      fun msg => msg.returnAddr = some (cfg.x.mangleEncode addr) ∧ msg.Of rs := by
  refine .bind .relayServer fun _ _ => .bind (.look rfl _) fun _ _ => ?_
  dsimp only
  split <;> exact .done ⟨rfl, Union.of_none rfl⟩

/-- A punch-hole request without a peer to go to is answered, and the
message for a peer names the requester. -/
theorem handlePunchHoleRequest_replying (ph : PunchHoleRequest) (ws : Bool) :
    Replying cfg.x rs (handlePunchHoleRequest cfg rs addr ph ws) fun r =>
      (r.2 = none → r.1.startsSession = false)
        ∧ (r.2 ≠ none → r.1.returnAddr = some (cfg.x.mangleEncode addr)) ∧ r.1.Of rs := by
  have hanswer {m : PunchHoleResponse} : Replying cfg.x rs
      (.done (.punchHoleResponse m, none) : ServerTask (Union × Option SocketAddr)) fun r =>
        (r.2 = none → r.1.startsSession = false)
          ∧ (r.2 ≠ none → r.1.returnAddr = some (cfg.x.mangleEncode addr)) ∧ r.1.Of rs :=
    .done ⟨fun _ => rfl, fun h => (h rfl).elim, Union.of_none rfl⟩
  unfold handlePunchHoleRequest
  split
  · exact hanswer
  · refine .bind (.look rfl _) fun refused _ => ?_
    cases refused with
    | some _ => exact hanswer
    | none =>
        refine .punch ph.id (fun _ => rfl) hanswer fun peer r => ?_
        dsimp only
        split
        · exact hanswer
        · refine .bind (punchHoleMessage_replying cfg rs addr ph ws _) fun msg h => ?_
          exact .done ⟨nofun, fun _ => h.1, h.2⟩

end

/-! ## One message over TCP -/

/-- The task replies at most, and returns the sink but for what has been sent
through it. -/
abbrev Replies (cfg : Config) (rs : RendezvousServer) (sink : Option Sink)
    (t : ServerTask (Bool × Option Sink)) : Prop :=
  Replying cfg.x rs t fun r => Option.Rel Sink.Like r.2 sink

/-- A registration over WebSocket that was answered with `OK` puts the sink into
`ws_map`. -/
def enterWs (cfg : Config) (addr : SocketAddr) :
    Bool × Option Sink → ServerTask (Bool × Option Sink)
  | (true, some y) => do
    Task.act (.wsInsert (cfg.x.tryIntoV4 addr) y) fun _ s =>
      ((), { s with wsMap := s.wsMap.insert (cfg.x.tryIntoV4 addr) y })
    return (true, none)
  | (true, none) => return (true, none)
  | (false, sink) => return (false, sink)

/-- A registration and its answer. -/
def answerPk (cfg : Config) (sink : Option Sink) (rk : RegisterPk) (addr : SocketAddr) (ws : Bool) :
    ServerTask (Bool × Option Sink) := do
  match ← liftPm (handleRegisterPk cfg.x rk addr ws) with
  | .error err =>
    let sink ← sendToSink cfg.x .direct sink (.registerPkResponse { result := err })
    return (false, sink)
  | .ok res =>
    let sink ← sendToSink cfg.x .direct sink (.registerPkResponse { result := res })
    return (true, sink)

/-- The request is forwarded if its peer is in memory. -/
def forwardRelay (cfg : Config) (addr : SocketAddr) (rf : RequestRelay) : ServerTask Unit := do
  match ← Task.look (.relayLookup rf.id) fun _ s => s.pm.map.lookup rf.id with
  | some peer =>
    let peerAddr ← liftPm <| Task.look (.readAddr peer) fun _ s => (s.peers peer).socketAddr
    let _ ← txSend (.requestRelay { rf with socketAddr := cfg.x.mangleEncode addr }) peerAddr
    return ()
  | none => return ()

/-- The contract that asks nothing allows everything. -/
theorem free_answering : Answering (.free Env Op Shared) where
  pm _ _ := Task.meets_free _ _
  punch _ _ _ := (Task.meets_free _ _).mono fun _ _ _ _ _ _ _ _ _ => trivial
  looks _ _ _ _ := trivial
  rotate _ _ := trivial
  punchTake _ _ _ := trivial
  reply _ _ _ _ _ _ _ _ _ _ _ := trivial

/-- What is done with a request for a session once the sink is in `tcp_punch`. -/
inductive Forwarding (cfg : Config) (rs : RendezvousServer) (addr : SocketAddr) (ws : Bool) :
    Union → ServerTask Unit → Prop
  | punchHole (ph : PunchHoleRequest) :
      Forwarding cfg rs addr ws (.punchHoleRequest ph) (handleTcpPunchHoleRequest cfg rs addr ph ws)
  | relay (rf : RequestRelay) :
      Forwarding cfg rs addr ws (.requestRelay rf) (forwardRelay cfg addr rf)

/-- The messages that give the connection's sink away. -/
def movesSink : Option Union → Bool
  | some (.punchHoleRequest _) | some (.requestRelay _) => true
  | _ => false

/-- What `handle_tcp` does with a message: it answers at most, or puts the sink
into a table as well, before it forwards a request or after it has answered a
registration, or it sets the key that a key exchange has brought, or panics on
it. -/
inductive TcpMessage (cfg : Config) (rs : RendezvousServer) (conn : ConnId) (sink : Option Sink)
    (addr : SocketAddr) (ws : Bool) (msg : Option Union) : ServerTask (Bool × Option Sink) → Prop
  | answers {t} (hmsg : movesSink msg = false) (ht : Replies cfg rs sink t) :
      TcpMessage cfg rs conn sink addr ws msg t
  | enters {t} (hmsg : movesSink msg = false) (hws : ws = true) (ht : Replies cfg rs sink t) :
      TcpMessage cfg rs conn sink addr ws msg (t >>= enterWs cfg addr)
  | forwards {request t} (hmsg : msg = some request) (ht : Forwarding cfg rs addr ws request t) :
      TcpMessage cfg rs conn sink addr ws msg (do
        giveAway cfg sink addr
        t
        return (true, none))
  | panics {ex why} (hmsg : msg = some (.keyExchange ex)) :
      TcpMessage cfg rs conn sink addr ws msg (.abort why)
  | setsKey {ex y key} (hmsg : msg = some (.keyExchange ex)) (hsink : sink = some y) :
      TcpMessage cfg rs conn sink addr ws msg (do
        note (.setKey conn key)
        return (true, some { y with encrypt := some { key } }))

theorem Forwarding.movesSink {cfg : Config} {rs : RendezvousServer} {addr : SocketAddr} {ws : Bool}
    {request : Union} {t : ServerTask Unit} (h : Forwarding cfg rs addr ws request t) :
    movesSink (some request) = true := by
  cases h <;> rfl

section
variable (cfg : Config) (rs : RendezvousServer)

theorem replies_done (go : Bool) (sink : Option Sink) : Replies cfg rs sink (.done (go, sink)) :=
  .done (like_refl sink)

/-- An answer, after which nothing is done. -/
theorem replies_send {sink : Option Sink} {msg : Union} (h : msg.startsSession = false)
    (hof : msg.Of rs) (go : Bool) : Replies cfg rs sink (do
      let sink ← sendToSink cfg.x .direct sink msg
      return (go, sink)) :=
  .bind (.direct sink h hof) fun _ hlike => .done hlike

/-- A sink that is in `ws_map` is no longer the connection's. -/
theorem enterWs_meets {c : Contract Env Op Shared} (addr : SocketAddr) (r : Bool × Option Sink)
    (h : ∀ y ∈ r.2, ∀ e s, c.guar (.wsInsert (cfg.x.tryIntoV4 addr) y) e s
      { s with wsMap := s.wsMap.insert (cfg.x.tryIntoV4 addr) y }) (s : Shared) :
    (enterWs cfg addr r).Meets c
      (fun r' _ => r'.1 = true ∧ r'.2 = none ∨ r' = r ∧ r'.1 = false) s := by
  obtain ⟨go, sink⟩ := r
  cases go with
  | false => exact .inr ⟨rfl, rfl⟩
  | true =>
      cases sink with
      | none => exact .inl ⟨rfl, rfl⟩
      | some y => exact fun e s' _ _ => ⟨h y rfl e s', .inl ⟨rfl, rfl⟩⟩

section
variable (conn : ConnId) (sink : Option Sink) (addr : SocketAddr) (ws : Bool)

theorem handleTcpMessage_requestRelay (rf : RequestRelay) :
    handleTcpMessage cfg rs conn sink addr ws (some (.requestRelay rf)) = (do
      giveAway cfg sink addr
      forwardRelay cfg addr rf
      return (true, none)) := by
  rw [handleTcpMessage, forwardRelay]
  refine congrArg _ (funext fun _ => ?_)
  rw [bind_assoc]
  refine congrArg _ (funext fun peer => ?_)
  cases peer with
  | none => rfl
  | some peer => simp only [bind_assoc, Task.pure_eq, Task.done_bind]

theorem handleTcpMessage_registerPk (rk : RegisterPk) :
    handleTcpMessage cfg rs conn sink addr false (some (.registerPk rk))
      = answerPk cfg sink rk addr false := by
  rw [handleTcpMessage, answerPk]
  refine congrArg _ (funext fun res => ?_)
  cases res <;> rfl

theorem handleTcpMessage_registerPk_ws (rk : RegisterPk) :
    handleTcpMessage cfg rs conn sink addr true (some (.registerPk rk))
      = answerPk cfg sink rk addr true >>= enterWs cfg addr := by
  rw [handleTcpMessage, answerPk, bind_assoc]
  refine congrArg _ (funext fun res => ?_)
  cases res with
  | error err => simp only [bind_assoc, Task.pure_eq, Task.done_bind, enterWs]
  | ok res =>
      dsimp only
      rw [bind_assoc]
      refine congrArg _ (funext fun sink => ?_)
      cases sink <;> rfl

theorem replies_registerPeer (rp : RegisterPeer) :
    Replies cfg rs sink (handleTcpMessage cfg rs conn sink addr ws (some (.registerPeer rp))) := by
  rw [handleTcpMessage]
  split
  · refine .bind (.pm (.updateAddr _ _)) fun requestPk _ => ?_
    refine .bind (.direct sink rfl (Union.of_none rfl)) fun sink' hlike => ?_
    split
    · refine .mono (replies_send cfg rs rfl ?_ false) fun r h => like_trans h hlike
      rintro cu ⟨⟩
      rfl
    · exact .done hlike
  · exact replies_done cfg rs false sink

theorem replies_answerPk (rk : RegisterPk) :
    Replies cfg rs sink (answerPk cfg sink rk addr ws) := by
  refine .bind (.pm (.registerPk _ _ _)) fun res _ => ?_
  cases res with
  | error err => exact replies_send cfg rs rfl (Union.of_none rfl) false
  | ok res => exact replies_send cfg rs rfl (Union.of_none rfl) true

theorem replies_testNat (tar : TestNatRequest) :
    Replies cfg rs sink
      (handleTcpMessage cfg rs conn sink addr ws (some (.testNatRequest tar))) := by
  refine replies_send cfg rs rfl ?_ false
  intro cu hcu
  simp only [Union.configUpdate, Option.ite_none_right_eq_some, Option.some.injEq] at hcu
  exact hcu.2.symm

theorem handleTcpMessage_cases (msg : Option Union) : TcpMessage cfg rs conn sink addr ws msg
    (handleTcpMessage cfg rs conn sink addr ws msg) := by
  have hdone := like_refl sink
  rcases msg with _ | msg
  · exact .answers rfl (.done hdone)
  cases msg with
  | registerPeer rp => exact .answers rfl (replies_registerPeer cfg rs conn sink addr ws rp)
  | punchHoleRequest ph => exact .forwards rfl (.punchHole ph)
  | requestRelay rf =>
      rw [handleTcpMessage_requestRelay]
      exact .forwards rfl (.relay rf)
  | relayResponse rr =>
      exact .answers rfl (.bind (handleRelayResponse_replying cfg rs rr) fun _ _ => .done hdone)
  | punchHoleSent phs =>
      have ht := handleHoleSent_replying cfg rs addr phs false
      exact .answers rfl (.bind ht fun _ _ => .done hdone)
  | localAddr la =>
      exact .answers rfl (.bind (handleLocalAddr_replying cfg rs la false) fun _ _ => .done hdone)
  | testNatRequest tar => exact .answers rfl (replies_testNat cfg rs conn sink addr ws tar)
  | onlineRequest or =>
      refine .answers rfl (.bind (.pm (.peersOnline _)) fun states _ => ?_)
      exact replies_send cfg rs rfl (Union.of_none rfl) false
  | registerPk rk =>
      have hreplies := replies_answerPk cfg rs sink addr ws rk
      cases ws with
      | false =>
          rw [handleTcpMessage_registerPk]
          exact .answers rfl hreplies
      | true =>
          rw [handleTcpMessage_registerPk_ws]
          exact .enters rfl rfl hreplies
  | keyExchange ex =>
      show TcpMessage _ _ _ _ _ _ _ (handleKeyExchange cfg rs conn ex sink)
      obtain ⟨why, h⟩ | h | ⟨rfl, h⟩ | ⟨y, key, rfl, h⟩ :=
        handleKeyExchange_cases cfg rs conn ex sink
      · rw [h]
        exact .panics rfl
      · rw [h]
        exact .answers rfl (.done hdone)
      · rw [h]
        exact .answers rfl (.done hdone)
      · rw [h]
        exact .setsKey rfl rfl
  | _ => exact .answers rfl (.done hdone)

end

end

/-! ## One datagram -/

/-- What is done once a punch-hole request is handled: where it was spawned,
nothing can go wrong any more. -/
def afterPunch (rs : RendezvousServer) (loaded : Bool) :
    Except Unit Unit → ServerTask (Except Unit RendezvousServer)
  | .error _ => return if loaded then .error () else .ok rs
  | .ok _ => return .ok rs

/-- What `handle_udp` does with a message: it replies at most, whose failure ends
it, or has a punch-hole request handled, or takes over a new configuration. -/
inductive UdpMessage (cfg : Config) (rs : RendezvousServer) (addr : SocketAddr)
    (msg : Option Union) : ServerTask (Except Unit RendezvousServer) → Prop
  | answers {t} (ht : Replying cfg.x rs t fun r => r = .ok rs ∨ r = .error ()) :
      UdpMessage cfg rs addr msg t
  | punches {ph} (hmsg : msg = some (.punchHoleRequest ph)) :
      UdpMessage cfg rs addr msg (do
        let loaded ← liftPm (PeerMap.isInMemory ph.id)
        handleUdpPunchHoleRequest cfg rs addr ph >>= afterPunch rs loaded)
  | configures {cu} (hmsg : msg = some (.configureUpdate cu))
      (hlocal : (cfg.x.tryIntoV4 addr).ip.isLoopback = true)
      (hserial : cu.serial > rs.inner.serial) :
      UdpMessage cfg rs addr msg (.done (.ok { rs with
        inner := { rs.inner with serial := cu.serial }
        rendezvousServers := cu.rendezvousServers.filter fun s =>
          s ≠ "" && testIfValidServer cfg.x s }))

section
variable (cfg : Config) (rs : RendezvousServer) (addr : SocketAddr)

/-- The server is returned, or the failure of what was done last. -/
theorem replying_then {t : ServerTask (Except Unit Unit)}
    {g : Except Unit Unit → ServerTask (Except Unit RendezvousServer)}
    (ht : Replying cfg.x rs t fun _ => True) (hok : g (.ok ()) = .done (.ok rs))
    (herror : g (.error ()) = .done (.error ())) :
    Replying cfg.x rs (t >>= g) fun r => r = .ok rs ∨ r = .error () := by
  refine .bind ht fun r _ => ?_
  cases r with
  | ok _ =>
      rw [hok]
      exact .done (.inl rfl)
  | error _ =>
      rw [herror]
      exact .done (.inr rfl)

theorem replying_registerPeer (rp : RegisterPeer) :
    Replying cfg.x rs (handleUdpMessage cfg rs addr (some (.registerPeer rp)))
      fun r => r = .ok rs ∨ r = .error () := by
  rw [handleUdpMessage]
  split
  · refine .bind (.pm (.updateAddr _ _)) fun requestPk _ => ?_
    refine .bind (.udp addr rfl (Union.of_none rfl)) fun r _ => ?_
    cases r with
    | error _ => exact .done (.inr rfl)
    | ok _ =>
        dsimp only
        split
        · refine replying_then cfg rs (.udp addr rfl ?_) rfl rfl
          rintro cu ⟨⟩
          rfl
        · exact .done (.inl rfl)
  · exact .done (.inl rfl)

theorem handleUdpMessage_punchHoleRequest (ph : PunchHoleRequest) :
    handleUdpMessage cfg rs addr (some (.punchHoleRequest ph)) = (do
      let loaded ← liftPm (PeerMap.isInMemory ph.id)
      handleUdpPunchHoleRequest cfg rs addr ph >>= afterPunch rs loaded) := by
  rw [handleUdpMessage]
  refine congrArg _ (funext fun loaded => ?_)
  split
  · refine congrArg _ (funext fun r => ?_)
    cases r <;> simp [afterPunch, *]
  · refine congrArg _ (funext fun r => ?_)
    cases r <;> simp [afterPunch, *]

theorem handleUdpMessage_cases (msg : Option Union) :
    UdpMessage cfg rs addr msg (handleUdpMessage cfg rs addr msg) := by
  rcases msg with _ | msg
  · exact .answers (.done (.inl rfl))
  cases msg with
  | registerPeer rp => exact .answers (replying_registerPeer cfg rs addr rp)
  | registerPk rk =>
      refine .answers (.bind (.pm (.registerPk _ _ _)) fun res _ => ?_)
      exact replying_then cfg rs (.udp addr rfl (Union.of_none rfl)) rfl rfl
  | punchHoleRequest ph =>
      rw [handleUdpMessage_punchHoleRequest]
      exact .punches rfl
  | punchHoleSent phs =>
      exact .answers (replying_then cfg rs (handleHoleSent_replying cfg rs addr phs true) rfl rfl)
  | localAddr la =>
      exact .answers (replying_then cfg rs (handleLocalAddr_replying cfg rs la true) rfl rfl)
  | configureUpdate cu =>
      rw [handleUdpMessage]
      split
      · rename_i hcu
        rw [Bool.and_eq_true, decide_eq_true_eq] at hcu
        exact .configures rfl hcu.1 hcu.2
      · exact .answers (.done (.inl rfl))
  | softwareUpdate su =>
      rw [handleUdpMessage]
      split
      · exact .answers (replying_then cfg rs (.udp addr rfl (Union.of_none rfl)) rfl rfl)
      · exact .answers (.done (.inl rfl))
  | _ => exact .answers (.done (.inl rfl))

/-- The contract that answering keeps is kept, if what is done with a punch-hole
request keeps it. -/
theorem handleUdpMessage_meets {c : Contract Env Op Shared} (hc : Answering c) {msg : Option Union}
    (hreq : ∀ ph, msg = some (.punchHoleRequest ph) → ∀ s,
      (handleUdpPunchHoleRequest cfg rs addr ph).Meets c (fun _ _ => True) s) (s : Shared) :
    (handleUdpMessage cfg rs addr msg).Meets c (fun _ _ => True) s := by
  have hcases := handleUdpMessage_cases cfg rs addr msg
  generalize handleUdpMessage cfg rs addr msg = t at hcases
  cases hcases with
  | answers ht => exact (ht.meets hc s).mono fun _ _ _ => trivial
  | punches hmsg =>
      refine (hc.pm (.isInMemory (x := cfg.x) _) s).bind fun loaded s _ => ?_
      exact (hreq _ hmsg s).bind fun r _ _ => by cases r <;> trivial
  | configures => trivial

end

/-! ## One connection -/

/-- The steps that only record where a connection stands. -/
def Op.notes : Op → Bool
  | .recv .. | .decrypt .. | .closed _ => true
  | _ => false

/-- What the contract has to allow for a connection to keep it, where `Own` holds
of the sink at every turn of the loop. -/
structure Serving (c : Contract Env Op Shared) (cfg : Config) (rs : RendezvousServer)
    (conn : ConnId) (addr : SocketAddr) (Own : Option Sink → Prop) : Prop where
  answering : Answering c
  notes : ∀ op e s, op.notes = true → c.guar op e s s
  closes : ∀ e s, c.guar (.punchClose (cfg.x.tryIntoV4 addr)) e s
    { s with tcpPunch := s.tcpPunch.erase (cfg.x.tryIntoV4 addr) }
  start : ∀ y, y.conn = conn → Own (some y)
  same : ∀ {y z : Sink}, z.conn = y.conn → Own (some y) → Own (some z)
  handles : ∀ bytes sink ws s, Own sink →
    (handleTcp cfg rs conn bytes sink addr ws).Meets c (fun r _ => r.1 = true → Own r.2) s

section
variable {c : Contract Env Op Shared} {cfg : Config} {rs : RendezvousServer} {conn : ConnId}
variable {addr : SocketAddr} {Own : Option Sink → Prop} (h : Serving c cfg rs conn addr Own)

include h

theorem Serving.note {op : Op} (hop : op.notes = true) (s : Shared) :
    (note op).Meets c (fun _ _ => True) s :=
  fun e s' _ _ => ⟨h.notes op e s' hop, trivial⟩

theorem Serving.decryptFrame {sink : Option Sink} (hsink : Own sink) (frame : Bytes)
    (s : Shared) : (decryptFrame cfg conn sink frame).Meets c (fun r _ => Own r.2) s := by
  cases sink with
  | none => exact hsink
  | some y =>
      simp only [KustDesk.decryptFrame]
      split
      · exact (h.note rfl s).bind fun _ _ _ => h.same (y := y) rfl hsink
      · exact hsink

theorem Serving.serveTcp {sink : Option Sink} (hsink : Own sink) (frames : List Bytes)
    (s : Shared) : (serveTcp cfg rs conn addr sink frames).Meets c (fun _ _ => True) s := by
  induction frames generalizing sink s with
  | nil => trivial
  | cons frame rest ih =>
      refine (h.note rfl s).bind fun _ s _ => ?_
      refine (h.decryptFrame hsink frame s).bind fun r s hr => ?_
      obtain ⟨bytes, sink'⟩ := r
      cases bytes with
      | none => trivial
      | some bytes =>
          refine (h.handles bytes sink' false s hr).bind fun r s hr => ?_
          dsimp only
          split
          · rename_i hgo
            exact ih (hr hgo) s
          · trivial

theorem Serving.serveWs {sink : Option Sink} (hsink : Own sink) (frames : List WsMessage)
    (s : Shared) : (serveWs cfg rs conn addr sink frames).Meets c (fun _ _ => True) s := by
  induction frames generalizing sink s with
  | nil => trivial
  | cons frame rest ih =>
      cases frame with
      | other => exact ih hsink s
      | binary frame =>
          refine (h.note rfl s).bind fun _ s _ => ?_
          refine (h.handles frame sink true s hsink).bind fun r s hr => ?_
          dsimp only
          split
          · rename_i hgo
            exact ih (hr hgo) s
          · trivial

theorem Serving.serve (stream : Stream) (s : Shared) :
    (serve cfg rs conn addr stream).Meets c (fun _ _ => True) s := by
  have hsink : Own (some (stream.sink conn)) := h.start _ (by cases stream <;> rfl)
  cases stream with
  | ws frames => exact h.serveWs hsink frames s
  | tcp frames =>
      refine Task.Meets.bind (Q := fun r _ => Own r) ?_
        fun sink s hsink => h.serveTcp hsink frames s
      split
      · refine ((keyExchangePhase1_replying cfg rs _).meets h.answering s).mono fun _ _ hlike => ?_
        cases hlike with
        | some hlike => exact h.same hlike.2.1 hsink
      · exact hsink

/-- A connection keeps whatever contract its single messages keep. -/
theorem Serving.handleListenerInner (stream : Stream) (s : Shared) :
    (handleListenerInner cfg rs conn addr stream).Meets c (fun _ _ => True) s := by
  refine (h.serve stream s).bind fun sink s _ => ?_
  refine Task.Meets.bind (Q := fun _ _ => True) ?_ fun _ s _ => h.note rfl s
  unfold closePunch
  split
  · exact fun e s' _ _ => ⟨h.closes e s', trivial⟩
  · trivial

end

/-- The end of a connection is not seen where its two steps are not. -/
theorem closing_silent {ω : Type} {see : Op → Option ω} (cfg : Config) (addr : SocketAddr)
    (sink : Option Sink) (conn : ConnId) (hpunch : ∀ k, see (.punchClose k) = none)
    (hclosed : see (.closed conn) = none) (s : Shared) :
    (closePunch cfg addr sink >>= fun _ => note (.closed conn)).Meets (Task.silent see)
      (fun _ _ => True) s := by
  have hnote (s : Shared) : (note (.closed conn)).Meets (Task.silent see) (fun _ _ => True) s :=
    fun _ _ _ _ => ⟨hclosed, trivial⟩
  refine Task.Meets.bind (Q := fun _ _ => True) ?_ fun _ s _ => hnote s
  unfold closePunch
  split
  · exact fun _ _ _ _ => ⟨hpunch _, trivial⟩
  · trivial

end KustDesk
