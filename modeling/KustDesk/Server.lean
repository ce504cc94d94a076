import KustDesk.Registration
import KustDesk.Jwt

/-!
# KustDesk — Server

The state the tasks of `hbbs` share, the atomic steps on it, and the sinks
through which the server answers a stream connection.
-/

namespace KustDesk

open Async

/-- A stream connection, over its whole life. -/
abbrev ConnId := Nat

inductive SinkKind where
  /-- `Sink::Wss` -/
  | wss
  /-- `Sink::Tss` -/
  | tss
  deriving DecidableEq

/-- `Sink`: the writing half of a connection, with the encryption that a
`KeyExchange` has put on it. -/
structure Sink where
  kind : SinkKind
  conn : ConnId
  encrypt : Option Encrypt := none
  deriving DecidableEq

/-- Whether an address belongs to the configured LAN. -/
structure Ipv4Network where
  contains : BitVec 32 → Bool

/-- `Inner`. -/
structure Inner where
  serial : Int := 0
  version : String := ""
  softwareUrl : String := ""
  mask : Option Ipv4Network := none
  localIp : String := ""
  sk : Option Bytes := none
  secureTcpPkB : Bytes := []
  secureTcpSkB : Bytes := []

/-- The fields of `RendezvousServer` that every clone has for itself. -/
structure RendezvousServer where
  inner : Inner := {}
  relayServers : List String := []
  rendezvousServers : List String := []

/-- What all clones share: the two tables of sinks behind their mutexes,
the peer map, and the global atomics. -/
structure Shared where
  pm : PeerMap
  tcpPunch : HashMap SocketAddr Sink := ∅
  wsMap : HashMap SocketAddr Sink := ∅
  rotationRelayServer : AtomicUsize := {}
  alwaysUseRelay : Bool := false
  mustLogin : Bool := false

/-- A server that has just started. -/
def Shared.start (db : Database) : Shared where
  pm := .new db

/-- Where a sink that is written to was found. -/
inductive Route where
  /-- the connection's own, answered in place -/
  | direct
  /-- taken out of `tcp_punch` under this key -/
  | punch (k : SocketAddr)
  /-- taken out of `ws_map` under this key -/
  | ws (k : SocketAddr)
  deriving DecidableEq

/-- The atomic steps of the server. -/
inductive Op where
  | pm (op : PmOp)
  /-- The login check on a request's token. -/
  | loginCheck (token : String)
  | relayFlag
  | rotate
  /-- `tcp_punch.insert`, when a request gives its sink away. -/
  | punchInsert (k : SocketAddr) (sink : Sink)
  /-- `tcp_punch.remove`, to answer. -/
  | punchTake (k : SocketAddr)
  /-- `tcp_punch.remove`, when a connection closes. -/
  | punchClose (k : SocketAddr)
  | wsInsert (k : SocketAddr) (sink : Sink)
  | wsTake (k : SocketAddr)
  /-- A message written to the sink of a connection, and its bytes. -/
  | sinkSend (via : Route) (conn : ConnId) (msg : Union) (wire : Bytes)
  /-- `tx.send(Data::Msg(msg, addr))`: the UDP socket will send it. -/
  | queue (msg : Union) (addr : SocketAddr)
  /-- `socket.send`. -/
  | udpSend (msg : Union) (addr : SocketAddr)
  /-- A frame arrives on a connection. -/
  | recv (conn : ConnId) (frame : Bytes)
  /-- `key.dec`. -/
  | decrypt (conn : ConnId) (key : Encrypt) (frame : Bytes)
  /-- `handle_tcp` gets to see these bytes. -/
  | handleTcp (conn : ConnId) (bytes : Bytes)
  /-- `handle_udp` gets to see this datagram. -/
  | handleUdp (bytes : Bytes)
  /-- `get_in_memory` for a `RequestRelay`. -/
  | relayLookup (id : String)
  /-- A `KeyExchange` puts a key on the connection. -/
  | setKey (conn : ConnId) (key : Bytes)
  /-- The connection is served to its end. -/
  | closed (conn : ConnId)
  deriving DecidableEq

abbrev ServerTask := Task Env Op Shared

/-- The peer map inside the shared state. -/
def Shared.pmPart : Part Shared PeerMap where
  get := Shared.pm
  put pm s := { s with pm }
  get_put _ _ := rfl

/-- A task of the peer map, run by the server. -/
def liftPm {α : Type} (t : PmTask α) : ServerTask α :=
  t.lift Shared.pmPart .pm

/-- Alone, it changes the peer map only. -/
theorem run_liftPm {α β : Type} (t : PmTask α) (g : α → β) (η : Nat → Env) (s : Shared) :
    (liftPm t >>= fun a => .done (g a)).run η s
      = ((t.run η s.pm).1.map g, { s with pm := (t.run η s.pm).2 }) := by
  rw [Task.run_map, liftPm, Task.run_lift (fun _ => rfl) (fun _ _ _ => rfl)]
  rfl

/-- A step that others can see but that changes nothing shared. -/
def note (op : Op) : ServerTask Unit := .look op fun _ _ => ()

variable (x : External)

/-- `Sink::send`. -/
def Sink.send (via : Route) (sink : Sink) (msg : Union) : ServerTask Sink :=
  match x.writeToBytes ⟨some msg⟩ with
  | none => return sink
  | some bytes =>
    match sink.encrypt with
    | some key => do
      note (.sinkSend via sink.conn msg (x.enc key bytes))
      return { sink with encrypt := some { key with sent := key.sent ++ [bytes] } }
    | none => do
      note (.sinkSend via sink.conn msg bytes)
      return sink

/-- `send_to_sink`. -/
def sendToSink (via : Route) (sink : Option Sink) (msg : Union) :
    ServerTask (Option Sink) :=
  match sink with
  | some sink => do return some (← sink.send x via msg)
  | none => return none

/-- `send_to_tcp_sync`, and `send_to_tcp`, which differs in that another
task does the writing. -/
def sendToTcp (msg : Union) (addr : SocketAddr) : ServerTask Unit := do
  let k := x.tryIntoV4 addr
  let sink ← Task.act (.punchTake k) fun _ s =>
    (s.tcpPunch.lookup k, { s with tcpPunch := s.tcpPunch.erase k })
  let _ ← sendToSink x (.punch k) sink msg
  return ()

/-- `self.tx.send(Data::Msg(msg, addr))`: fails once the receiver is gone. -/
def txSend (msg : Union) (addr : SocketAddr) : ServerTask (Except Unit Unit) :=
  .look (.queue msg addr) fun e _ => if e.fails then .error () else .ok ()

/-- `socket.send(&msg, addr)`. -/
def udpSend (msg : Union) (addr : SocketAddr) : ServerTask (Except Unit Unit) :=
  .look (.udpSend msg addr) fun e _ => if e.fails then .error () else .ok ()

/-- `is_lan`. -/
def RendezvousServer.isLan (rs : RendezvousServer) (addr : SocketAddr) : Bool :=
  match rs.inner.mask with
  | some network =>
    match addr.ip with
    | .v4 a => network.contains a
    | .v6 a =>
      match toIpv4 a with
      | some a => network.contains a
      | none => false
  | none => false

/-- `get_relay_server`. -/
def RendezvousServer.getRelayServer (rs : RendezvousServer) :
    ServerTask String :=
  if rs.relayServers.isEmpty then return ""
  else if rs.relayServers.length = 1 then
    .unwrap "index out of bounds" rs.relayServers[0]?
  else do
    let i ← Task.act .rotate fun _ s =>
      (s.rotationRelayServer.word.toNat % rs.relayServers.length,
        { s with rotationRelayServer := s.rotationRelayServer.next })
    .unwrap "index out of bounds" rs.relayServers[i]?

/-- The login check of `handle_punch_hole_request`: the answer when it
fails. -/
def loginCheck (secret : String) (mustLogin : Bool) (token : String) (now : Nat) :
    Option String :=
  if mustLogin then
    if token = "" then some "Connection failed, please login!"
    else if secret ≠ "" then
      match verifyToken x secret now token with
      | .ok _ => none
      | .error _ => some "Token error, please log out and log back in!"
    else none
  else none

end KustDesk
