import KustDesk.Async.Channel
import KustDesk.RelayCmd
import KustDesk.Serials

/-!
# KustDesk — Hbbs

The ID server as a whole: the main task with its channel, the connections on
the main ports, those on the port for NAT tests, where the host itself sends
its commands, and the checks of the relay servers. All of them run at the
same time.
-/

namespace KustDesk

open Async Codec

/-! ## The state -/

/-- What the tasks of the process share, and the main task. -/
structure Hbbs where
  shared : Shared
  main : MainTask

namespace Hbbs

def sharedPart : Part Hbbs Shared where
  get := Hbbs.shared
  put shared w := { w with shared }
  get_put _ _ := rfl

/-- `d` is put into the channel. -/
def post (d : Data) (w : Hbbs) : Hbbs := { w with main := { w.main with rx := w.main.rx ++ [d] } }

/-- `rx.recv()`, with what is done about a list of relay servers. -/
def receive (x : External) (w : Hbbs) : Option Data × Hbbs :=
  match w.main.rx with
  | [] => (none, w)
  | d :: rest => (some d, { w with main := { w.main with rx := rest }.received x d })

end Hbbs

namespace MainTask

/-- One connection of the `k`-th check is there, or has failed. -/
def probed (m : MainTask) (k : Nat) (host : String) (ok : Bool) : MainTask :=
  match m.checks[k]? with
  | some c =>
    if h : host ∈ c.waiting then { m with checks := m.checks.set k (c.probed host h ok) } else m
  | none => m

/-- The `k`-th check ends, if all its connections are settled. -/
def checked (m : MainTask) (k : Nat) : MainTask :=
  match m.checks[k]? with
  | some c =>
    if c.waiting = [] then
      { m with checks := m.checks.eraseIdx k, rx := m.rx ++ c.report.toList }
    else m
  | none => m

end MainTask

/-! ## The steps -/

/-- The atomic steps of hbbs. -/
inductive HbbsOp where
  | server (op : Op)
  /-- A command looks at a setting or changes it. -/
  | setting (word : CmdWord)
  /-- A listener has accepted a connection; the server is cloned for it. -/
  | accept (conn : ConnId)
  /-- What is read within a second from the host itself. -/
  | read (data : Option Bytes)
  /-- A command sends this to the main task. -/
  | tell (d : Data)
  | reply (res : CmdReply)
  /-- The first message within half a minute on the port for NAT tests. -/
  | first (bytes : Option Bytes)
  /-- `timer_check_relay.tick()` -/
  | tick
  /-- `rx.recv()` -/
  | recv
  /-- `socket.send` of a message from the channel. -/
  | send (msg : Union) (addr : SocketAddr)
  | datagram (bytes : Bytes) (addr : SocketAddr)
  /-- `handle_udp` is back. -/
  | handled
  /-- `io_loop` returns. -/
  | failed (failure : LoopFailure)
  /-- `start` drops the socket and creates it anew. -/
  | recreate
  | probed (k : Nat) (host : String) (ok : Bool)
  | checked (k : Nat)

abbrev HbbsTask := Task Env HbbsOp Hbbs

abbrev HbbsEvent := Event Env HbbsOp Hbbs

/-- What a step of the server does to the channel: `tx.send(Data::Msg(..))`. -/
def HbbsOp.queues : HbbsOp → Env → Hbbs → Hbbs
  | .server (.queue msg addr), e, w => if e.fails then w else w.post (.msg msg addr)
  | _, _, w => w

/-- A task of the server, in the process. -/
def inHbbs {α : Type} (t : ServerTask α) : HbbsTask α :=
  (t.lift Hbbs.sharedPart .server).also HbbsOp.queues

/-- A step that changes nothing. -/
def hbbsNote (op : HbbsOp) : HbbsTask Unit := .look op fun _ _ => ()

/-- `self.tx.send(d).ok()`. -/
def tell (d : Data) : HbbsTask Unit :=
  Task.act (.tell d) fun e w => ((), if e.fails then w else w.post d)

/-- What a command has for the main task, in order. -/
def tellAll : List Data → HbbsTask Unit
  | [] => return ()
  | d :: rest => do
    tell d
    tellAll rest

def CmdOp.inHbbs : CmdOp → HbbsOp
  | .server op => .server op
  | .setting word => .setting word

/-- `check_cmd` on the clone `rs`, up to what it sends. -/
@[irreducible] def hbbsCheckCmd (rs : RendezvousServer) (cmd : String) :
    HbbsTask (CmdReply × List Data) :=
  ((checkCmd rs cmd).lift Hbbs.sharedPart CmdOp.inHbbs).also HbbsOp.queues

/-! ## The port for NAT tests -/

/-- A connection on the port for NAT tests. -/
structure NatConnection where
  conn : ConnId
  addr : SocketAddr
  /-- What a read yields within a second. -/
  data : Option Bytes := none
  /-- The first message within half a minute. -/
  first : Option Bytes := none

namespace NatConnection

/-- The connection is taken for one from the host itself. -/
def isLocal (cfg : Config) (c : NatConnection) : Bool := (cfg.x.tryIntoV4 c.addr).ip.isLoopback

/-- The text of a command, 1024 bytes of it at most. -/
def command (c : NatConnection) : Option String := (c.data.map (·.take 1024)).bind fromUtf8

/-- The stream, which is never encrypted. -/
def sink (c : NatConnection) : Sink := { kind := .tss, conn := c.conn }

end NatConnection

/-- The command, what it sends to the main task, and the reply to it. -/
def serveCommand (rs : RendezvousServer) (cmd : String) : HbbsTask Unit := do
  let (res, queued) ← hbbsCheckCmd rs cmd
  tellAll queued
  hbbsNote (.reply res)

/-- `handle_online_request`. -/
def handleOnlineRequest (cfg : Config) (c : NatConnection) (peers : List String) :
    ServerTask Unit := do
  let states ← liftPm (peersOnlineState peers)
  let _ ← c.sink.send cfg.x .direct (.onlineResponse { states })
  return ()

/-- What the port for NAT tests answers to a message. -/
def answerNat (cfg : Config) (c : NatConnection) : Option Union → ServerTask Unit
  | some (.testNatRequest _) => do
    let _ ← c.sink.send cfg.x .direct (.testNatResponse { port := c.addr.port.toNat })
    return ()
  | some (.onlineRequest or) => handleOnlineRequest cfg c or.peers
  | _ => return ()

/-- `handle_listener2`, with the task it spawns. -/
def handleListener2 (cfg : Config) (c : NatConnection) : HbbsTask Unit := do
  let rs ← Task.look (.accept c.conn) fun _ w => w.main.rs
  if c.isLocal cfg then
    hbbsNote (.read c.data)
    match c.command with
    | some cmd => serveCommand rs cmd
    | none => return ()
  else
    hbbsNote (.first c.first)
    inHbbs (answerNat cfg c (c.first.bind cfg.message))

/-! ## The main task -/

/-- A branch of the `select!` in `io_loop` that is ready. A connection that is
accepted is a task of its own. -/
inductive Ready where
  | tick
  | recv
  | datagram (bytes : Bytes) (addr : SocketAddr)
  /-- `socket.next()` or an `accept` yields an error. -/
  | failed (failure : LoopFailure)

/-- `io_loop` returns, and `start` creates the socket anew. Where that fails,
so does `start`. -/
def restart (failure : LoopFailure) : HbbsTask Bool := do
  Task.act (.failed failure) fun _ w => ((), { w with main := { w.main with failure } })
  Task.act .recreate fun e w =>
    if e.fails then (false, w)
    else (true, { w with main :=
      { w.main with failure := none, recreated := w.main.recreated ++ [failure] } })

/-- What is left to do with what has been received: a failure to send is only
logged. -/
def forward : Option Data → HbbsTask Unit
  | some (.msg msg addr) => hbbsNote (.send msg addr)
  | _ => return ()

/-- One turn of the loop: whether it goes on. -/
def loopTurn (cfg : Config) : Ready → HbbsTask Bool
  | .tick => do
    Task.act .tick fun _ w => ((), { w with main := w.main.tick })
    return true
  | .recv => do
    let d ← Task.act .recv fun _ w => w.receive cfg.x
    forward d
    return true
  | .datagram bytes addr => do
    let rs ← Task.look (.datagram bytes addr) fun _ w => w.main.rs
    match ← inHbbs (handleUdp cfg rs bytes addr) with
    | .ok rs =>
      Task.act .handled fun _ w => ((), { w with main := { w.main with rs } })
      return true
    | .error _ => restart .udpSocket
  | .failed failure => restart failure

/-- The main task of `start`. -/
def mainLoop (cfg : Config) : List Ready → HbbsTask Unit
  | [] => return ()
  | ready :: rest => do
    if ← loopTurn cfg ready then mainLoop cfg rest else return ()

/-! ## The process -/

/-- What runs beside the main task. -/
inductive HbbsJob where
  /-- A connection on the main port or the one for WebSockets. -/
  | connection (c : Connection)
  | natPort (c : NatConnection)
  /-- A connection of the `k`-th check is settled. -/
  | probe (k : Nat) (host : String) (ok : Bool)
  | check (k : Nat)

def HbbsJob.task (cfg : Config) : HbbsJob → HbbsTask Unit
  | .connection c => do
    let rs ← Task.look (.accept c.conn) fun _ w => w.main.rs
    inHbbs (handleListenerInner cfg rs c.conn c.addr c.stream)
  | .natPort c => handleListener2 cfg c
  | .probe k host ok =>
    Task.act (.probed k host ok) fun _ w => ((), { w with main := w.main.probed k host ok })
  | .check k => Task.act (.checked k) fun _ w => ((), { w with main := w.main.checked k })

/-- The process: the main task and the others. -/
def hbbs {ι : Type} (cfg : Config) (turns : List Ready) (jobs : ι → HbbsJob) (w : Hbbs) :
    Pool (Option ι) Env HbbsOp Hbbs fun _ => Unit where
  tasks
    | none => mainLoop cfg turns
    | some i => (jobs i).task cfg
  shared := w

end KustDesk
