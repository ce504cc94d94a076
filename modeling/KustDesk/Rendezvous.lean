import KustDesk.Server
import KustDesk.Async.Pool

/-!
# KustDesk — Rendezvous

The message handlers of `rendezvous_server.rs`: punch-hole requests, the
answers that come back, and the dispatch of what arrives over TCP,
WebSocket and UDP.
-/

namespace KustDesk

open Async

/-- The parameters of a running server: the code outside the repository,
the licence key (`key`) and `jwt::SECRET`. -/
structure Config where
  x : External
  key : String := ""
  secret : String := ""

variable (cfg : Config) (rs : RendezvousServer)

/-! ## Punch-hole requests -/

/-- Whether requester and peer are reached through the same address. -/
def sameIp (a b : SocketAddr) : Bool :=
  match a.ip, b.ip with
  | .v4 a, .v4 b => a = b
  | .v6 a, .v6 b => a = b
  | _, _ => false

/-- The part of `handle_punch_hole_request` for a peer that is fresh: the
message it gets at `peerAddr`. -/
def punchHoleMessage (addr : SocketAddr) (ph : PunchHoleRequest) (ws : Bool)
    (peerAddr : SocketAddr) : ServerTask Union := do
  let peerIsLan := rs.isLan peerAddr
  let isLan := rs.isLan addr
  let relayServer ← rs.getRelayServer
  let alwaysUseRelay ← Task.look .relayFlag fun _ s => s.alwaysUseRelay
  let force := alwaysUseRelay || xor peerIsLan isLan
  let relayServer :=
    if force && peerIsLan then rs.inner.localIp else relayServer
  let natType := if force then .known .symmetric else ph.natType
  let sameIntranet := !ws && (peerIsLan && isLan || sameIp peerAddr addr)
  let socketAddr := cfg.x.mangleEncode addr
  if sameIntranet then return .fetchLocalAddr { socketAddr, relayServer }
  else return .punchHole { socketAddr, natType, relayServer }

/-- `handle_punch_hole_request`: the message, and the peer it goes to
(`none`: back to the requester). -/
def handlePunchHoleRequest (addr : SocketAddr) (ph : PunchHoleRequest)
    (ws : Bool) : ServerTask (Union × Option SocketAddr) := do
  if cfg.key ≠ "" && ph.licenceKey ≠ cfg.key then
    return (.punchHoleResponse { failure := some .licenseMismatch }, none)
  let refused ← Task.look (.loginCheck ph.token) fun e s =>
    loginCheck cfg.x cfg.secret s.mustLogin ph.token e.utc
  match refused with
  | some otherFailure => return (.punchHoleResponse { otherFailure }, none)
  | none =>
    match ← liftPm (PeerMap.get cfg.x ph.id) with
    | some peer =>
      let (elapsed, peerAddr) ← liftPm <| Task.look (.readPunch ph.id peer) fun e s =>
        ((s.peers peer).age e.now, (s.peers peer).socketAddr)
      if elapsed ≥ regTimeout then
        return (.punchHoleResponse { failure := some .offline }, none)
      else
        let msg ← punchHoleMessage cfg rs addr ph ws peerAddr
        return (msg, some peerAddr)
    | none =>
      return (.punchHoleResponse { failure := some .idNotExist }, none)

/-- `handle_tcp_punch_hole_request`. The sink of a WebSocket peer is taken
out of `ws_map` for good. -/
def handleTcpPunchHoleRequest (addr : SocketAddr) (ph : PunchHoleRequest)
    (ws : Bool) : ServerTask Unit := do
  let (msg, toAddr) ← handlePunchHoleRequest cfg rs addr ph ws
  match toAddr with
  | some addr =>
    let k := cfg.x.tryIntoV4 addr
    let sink ← Task.act (.wsTake k) fun _ s =>
      (s.wsMap.lookup k, { s with wsMap := s.wsMap.erase k })
    match sink with
    | some s =>
      let _ ← s.send cfg.x (.ws k) msg
      return ()
    | none =>
      let _ ← txSend msg addr
      return ()
  | none => sendToTcp cfg.x msg addr

/-- `handle_udp_punch_hole_request`. -/
def handleUdpPunchHoleRequest (addr : SocketAddr) (ph : PunchHoleRequest) :
    ServerTask (Except Unit Unit) := do
  let (msg, toAddr) ← handlePunchHoleRequest cfg rs addr ph false
  txSend msg (toAddr.getD addr)

/-! ## The answers of a peer -/

/-- `handle_hole_sent`: over UDP (`socket`) or to a sink in `tcp_punch`. -/
def handleHoleSent (phs : PunchHoleSent) (addr : SocketAddr) (socket : Bool) :
    ServerTask (Except Unit Unit) := do
  let addrA := cfg.x.mangleDecode phs.socketAddr
  let pk ← liftPm (getPk cfg.x rs.inner.sk phs.version phs.id)
  let msg := .punchHoleResponse {
    socketAddr := cfg.x.mangleEncode addr
    pk
    relayServer := phs.relayServer
    union := phs.natType.enumValue.map .natType }
  if socket then udpSend msg addrA
  else do
    sendToTcp cfg.x msg addrA
    return .ok ()

/-- `handle_local_addr`, likewise. -/
def handleLocalAddr (la : LocalAddr) (socket : Bool) :
    ServerTask (Except Unit Unit) := do
  let addrA := cfg.x.mangleDecode la.socketAddr
  let pk ← liftPm (getPk cfg.x rs.inner.sk la.version la.id)
  let msg := .punchHoleResponse {
    socketAddr := la.localAddr
    pk
    relayServer := la.relayServer
    union := some (.isLocal true) }
  if socket then udpSend msg addrA
  else do
    sendToTcp cfg.x msg addrA
    return .ok ()

/-- The identity in a `RelayResponse`: an id is replaced by its signed
key. -/
def relayResponsePk (rr : RelayResponse) : ServerTask RelayResponse :=
  if rr.id ≠ "" then do
    let pk ← liftPm (getPk cfg.x rs.inner.sk rr.version rr.id)
    return { rr with union := some (.pk pk) }
  else return rr

/-- The relay server in a `RelayResponse`, for the requester at `addrB`. -/
def relayResponseServer (rr : RelayResponse) (addrB : SocketAddr) :
    ServerTask RelayResponse :=
  if rr.relayServer ≠ "" then
    if rs.isLan addrB then return { rr with relayServer := rs.inner.localIp }
    else if rr.relayServer = rs.inner.localIp then do
      let relayServer ← rs.getRelayServer
      return { rr with relayServer }
    else return rr
  else return rr

/-- The `RelayResponse` branch of `handle_tcp`. -/
def handleRelayResponse (rr : RelayResponse) : ServerTask Unit := do
  let addrB := cfg.x.mangleDecode rr.socketAddr
  let rr ← relayResponsePk cfg rs { rr with socketAddr := [] }
  let rr ← relayResponseServer rs rr addrB
  sendToTcp cfg.x (.relayResponse rr) addrB

/-! ## Key exchange -/

/-- `<[u8; n]>::try_from(v).unwrap()`. -/
def toArray (n : Nat) (v : Bytes) : ServerTask Bytes :=
  if v.length = n then return v else .abort "unwrap on Err"

/-- `get_symetric_key_from_msg`. -/
def getSymetricKeyFromMsg (ourSkB theirPkB sealedValue : Bytes) : ServerTask Bytes :=
  match cfg.x.boxOpen sealedValue (List.replicate 24 0) theirPkB ourSkB with
  | some key =>
    -- `copy_from_slice` into a `[u8; 32]`
    if key.length = 32 then return key else .abort "slice lengths differ"
  | none => .abort "Error while opening the seal key"

/-- The `KeyExchange` branch of `handle_tcp`. -/
def handleKeyExchange (conn : ConnId) (ex : KeyExchange) (sink : Option Sink) :
    ServerTask (Bool × Option Sink) := do
  match ex.keys with
  | [key0, key1] =>
    let theirPk ← toArray 32 key0
    let cryptobox ← toArray 48 key1
    let symetricKey ← getSymetricKeyFromMsg cfg rs.inner.secureTcpSkB theirPk cryptobox
    match cfg.x.secretboxKey symetricKey with
    | some key =>
      match sink with
      | some sink =>
        note (.setKey conn key)
        return (true, some { sink with encrypt := some { key } })
      | none => return (true, none)
    | none => return (false, sink)
  | _ => return (false, sink)

/-! ## Dispatch -/

/-- `ConfigUpdate` with the server's serial and list. -/
def RendezvousServer.configUpdate (rs : RendezvousServer) : ConfigUpdate :=
  { serial := rs.inner.serial, rendezvousServers := rs.rendezvousServers }

/-- `if let Some(sink) = sink.take() { tcp_punch.insert(..) }`. -/
def giveAway (sink : Option Sink) (addr : SocketAddr) : ServerTask Unit :=
  match sink with
  | some sink =>
    let k := cfg.x.tryIntoV4 addr
    .act (.punchInsert k sink) fun _ s =>
      ((), { s with tcpPunch := s.tcpPunch.insert k sink })
  | none => return ()

/-- `handle_tcp` after parsing. Returns whether the connection goes on, and
the sink if it is still there. -/
def handleTcpMessage (conn : ConnId) (sink : Option Sink) (addr : SocketAddr)
    (ws : Bool) : Option Union → ServerTask (Bool × Option Sink)
  | some (.registerPeer rp) => do
    if rp.id ≠ "" then
      let requestPk ← liftPm (updateAddr rp.id addr)
      let sink ← sendToSink cfg.x .direct sink (.registerPeerResponse { requestPk })
      if rs.inner.serial > rp.serial then
        let sink ← sendToSink cfg.x .direct sink (.configureUpdate rs.configUpdate)
        return (false, sink)
      else return (false, sink)
    else return (false, sink)
  | some (.punchHoleRequest ph) => do
    giveAway cfg sink addr
    handleTcpPunchHoleRequest cfg rs addr ph ws
    return (true, none)
  | some (.requestRelay rf) => do
    giveAway cfg sink addr
    match ← Task.look (.relayLookup rf.id) fun _ s => s.pm.map.lookup rf.id with
    | some peer =>
      let rf := { rf with socketAddr := cfg.x.mangleEncode addr }
      let peerAddr ← liftPm <| Task.look (.readAddr peer) fun _ s =>
        (s.peers peer).socketAddr
      let _ ← txSend (.requestRelay rf) peerAddr
      return (true, none)
    | none => return (true, none)
  | some (.relayResponse rr) => do
    handleRelayResponse cfg rs rr
    return (false, sink)
  | some (.punchHoleSent phs) => do
    let _ ← handleHoleSent cfg rs phs addr false
    return (false, sink)
  | some (.localAddr la) => do
    let _ ← handleLocalAddr cfg rs la false
    return (false, sink)
  | some (.testNatRequest tar) => do
    let cu := if rs.inner.serial > tar.serial then some rs.configUpdate else none
    let sink ← sendToSink cfg.x .direct sink
      (.testNatResponse { port := addr.port.toNat, cu })
    return (false, sink)
  | some (.registerPk rk) => do
    match ← liftPm (handleRegisterPk cfg.x rk addr ws) with
    | .error err =>
      let sink ← sendToSink cfg.x .direct sink (.registerPkResponse { result := err })
      return (false, sink)
    | .ok res =>
      let sink ← sendToSink cfg.x .direct sink (.registerPkResponse { result := res })
      if ws then
        match sink with
        | some sink =>
          let k := cfg.x.tryIntoV4 addr
          Task.act (.wsInsert k sink) fun _ s =>
            ((), { s with wsMap := s.wsMap.insert k sink })
          return (true, none)
        | none => return (true, none)
      else return (true, sink)
  | some (.keyExchange ex) => handleKeyExchange cfg rs conn ex sink
  | some (.onlineRequest or) => do
    let states ← liftPm (peersOnlineState or.peers)
    let sink ← sendToSink cfg.x .direct sink (.onlineResponse { states })
    return (false, sink)
  | _ => return (false, sink)

/-- What `parse_from_bytes` makes of a frame, as far as the dispatch
looks. -/
def Config.message (bytes : Bytes) : Option Union :=
  (cfg.x.parseFromBytes bytes).bind RendezvousMessage.union

/-- The sample instance parses the frames of its table only. -/
theorem Config.mem_of_message_sample {messages : List (Bytes × Union)}
    {key secret : String} {bytes : Bytes} {msg : Union}
    (h : Config.message { x := .sample messages, key, secret } bytes = some msg) :
    (bytes, msg) ∈ messages := by
  have hlookup : messages.lookup bytes = some msg := by
    simpa [Config.message, External.sample, Option.bind_map, Function.comp_def] using h
  obtain ⟨l₁, l₂, rfl, _⟩ := List.lookup_eq_some_iff.mp hlookup
  simp

/-- `handle_tcp`. -/
def handleTcp (conn : ConnId) (bytes : Bytes) (sink : Option Sink)
    (addr : SocketAddr) (ws : Bool) : ServerTask (Bool × Option Sink) := do
  note (.handleTcp conn bytes)
  handleTcpMessage cfg rs conn sink addr ws (cfg.message bytes)

/-- `test_if_valid_server`. -/
def testIfValidServer (x : External) (host : String) : Bool :=
  x.resolves (if host.contains ':' then host else host ++ ":0")

/-- `handle_udp` after parsing: `.error` where a `?` propagates a failed
send, otherwise the server with what a `ConfigureUpdate` has changed. -/
def handleUdpMessage (addr : SocketAddr) :
    Option Union → ServerTask (Except Unit RendezvousServer)
  | some (.registerPeer rp) => do
    if rp.id ≠ "" then
      let requestPk ← liftPm (updateAddr rp.id addr)
      match ← udpSend (.registerPeerResponse { requestPk }) addr with
      | .error _ => return .error ()
      | .ok _ =>
        if rs.inner.serial > rp.serial then
          match ← udpSend (.configureUpdate rs.configUpdate) addr with
          | .error _ => return .error ()
          | .ok _ => return .ok rs
        else return .ok rs
    else return .ok rs
  | some (.registerPk rk) => do
    let result := match ← liftPm (handleRegisterPk cfg.x rk addr false) with
      | .error err => err
      | .ok res => res
    match ← udpSend (.registerPkResponse { result }) addr with
    | .error _ => return .error ()
    | .ok _ => return .ok rs
  | some (.punchHoleRequest ph) => do
    if ← liftPm (PeerMap.isInMemory ph.id) then
      match ← handleUdpPunchHoleRequest cfg rs addr ph with
      | .error _ => return .error ()
      | .ok _ => return .ok rs
    else
      -- spawned: runs on as this task, its failure is only logged
      let _ ← handleUdpPunchHoleRequest cfg rs addr ph
      return .ok rs
  | some (.punchHoleSent phs) => do
    match ← handleHoleSent cfg rs phs addr true with
    | .error _ => return .error ()
    | .ok _ => return .ok rs
  | some (.localAddr la) => do
    match ← handleLocalAddr cfg rs la true with
    | .error _ => return .error ()
    | .ok _ => return .ok rs
  | some (.configureUpdate cu) =>
    if (cfg.x.tryIntoV4 addr).ip.isLoopback && cu.serial > rs.inner.serial then
      return .ok { rs with
        inner := { rs.inner with serial := cu.serial }
        rendezvousServers := cu.rendezvousServers.filter fun s =>
          s ≠ "" && testIfValidServer cfg.x s }
    else return .ok rs
  | some (.softwareUpdate su) => do
    if rs.inner.version ≠ "" && su.url ≠ rs.inner.version then
      match ← udpSend (.softwareUpdate { url := rs.inner.softwareUrl }) addr with
      | .error _ => return .error ()
      | .ok _ => return .ok rs
    else return .ok rs
  | _ => return .ok rs

/-- `handle_udp`. -/
def handleUdp (bytes : Bytes) (addr : SocketAddr) :
    ServerTask (Except Unit RendezvousServer) := do
  note (.handleUdp bytes)
  handleUdpMessage cfg rs addr (cfg.message bytes)

/-! ## One connection -/

/-- What arrives on a WebSocket. -/
inductive WsMessage where
  | binary (bytes : Bytes)
  | other
  deriving DecidableEq

/-- A stream connection, with everything that will arrive on it. -/
inductive Stream where
  | tcp (frames : List Bytes)
  | ws (frames : List WsMessage)
  deriving DecidableEq

/-- `key_exchange_phase1`. -/
def keyExchangePhase1 (sink : Option Sink) : ServerTask (Option Sink) :=
  match rs.inner.sk with
  | some sk =>
    sendToSink cfg.x .direct sink
      (.keyExchange { keys := [cfg.x.sign rs.inner.secureTcpPkB sk] })
  | none => return sink

/-- The decryption in front of `handle_tcp` on a TCP connection: nothing to
do unless the sink is here and carries a key. -/
def decryptFrame (conn : ConnId) (sink : Option Sink) (frame : Bytes) :
    ServerTask (Option Bytes × Option Sink) := do
  match sink with
  | some s =>
    match s.kind, s.encrypt with
    | .tss, some key =>
      note (.decrypt conn key frame)
      return (cfg.x.dec key frame,
        some { s with encrypt := some { key with received := key.received ++ [frame] } })
    | _, _ => return (some frame, sink)
  | none => return (some frame, sink)

/-- The loop of `handle_listener_inner` over TCP. The list runs out where
the stream ends, fails or times out. -/
def serveTcp (conn : ConnId) (addr : SocketAddr) (sink : Option Sink) :
    List Bytes → ServerTask (Option Sink)
  | [] => return sink
  | frame :: rest => do
    note (.recv conn frame)
    let (bytes, sink) ← decryptFrame cfg conn sink frame
    match bytes with
    | none => return sink
    | some bytes =>
      let (go, sink) ← handleTcp cfg rs conn bytes sink addr false
      if go then serveTcp conn addr sink rest else return sink

/-- The loop of `handle_listener_inner` over WebSocket. -/
def serveWs (conn : ConnId) (addr : SocketAddr) (sink : Option Sink) :
    List WsMessage → ServerTask (Option Sink)
  | [] => return sink
  | .other :: rest => serveWs conn addr sink rest
  | .binary frame :: rest => do
    note (.recv conn frame)
    let (go, sink) ← handleTcp cfg rs conn frame sink addr true
    if go then serveWs conn addr sink rest else return sink

/-- The sink a connection starts with. -/
def Stream.sink (stream : Stream) (conn : ConnId) : Sink :=
  match stream with
  | .tcp _ => { kind := .tss, conn }
  | .ws _ => { kind := .wss, conn }

/-- The loops of `handle_listener_inner`; without a key there is no key
exchange. -/
def serve (conn : ConnId) (addr : SocketAddr) (stream : Stream) :
    ServerTask (Option Sink) :=
  let sink := some (stream.sink conn)
  match stream with
  | .ws frames => serveWs cfg rs conn addr sink frames
  | .tcp frames => do
    let sink ← (if cfg.key ≠ "" then keyExchangePhase1 cfg rs sink else pure sink)
    serveTcp cfg rs conn addr sink frames

/-- The end of `handle_listener_inner`: without a sink of its own left, the
connection removes what `tcp_punch` has under its address. -/
def closePunch (addr : SocketAddr) (sink : Option Sink) : ServerTask Unit :=
  if sink.isNone then
    let k := cfg.x.tryIntoV4 addr
    .act (.punchClose k) fun _ s => ((), { s with tcpPunch := s.tcpPunch.erase k })
  else return ()

/-- `handle_listener_inner`. Over WebSocket, `addr` is the address after
the upgrade callback has looked at the forwarding headers. -/
def handleListenerInner (conn : ConnId) (addr : SocketAddr) (stream : Stream) :
    ServerTask Unit := do
  let sink ← serve cfg rs conn addr stream
  closePunch cfg addr sink
  note (.closed conn)

/-! ## The running server -/

/-- A task of the server: a stream connection or a datagram. `io_loop`
handles datagrams one after the other, all but the spawned part; as tasks
of their own they may also overlap. -/
inductive Job where
  | stream (rs : RendezvousServer) (conn : ConnId) (addr : SocketAddr)
      (frames : Stream)
  | datagram (rs : RendezvousServer) (bytes : Bytes) (addr : SocketAddr)

/-- The clone of the server the task works with. -/
def Job.server : Job → RendezvousServer
  | .stream rs _ _ _ => rs
  | .datagram rs _ _ => rs

def Job.task (job : Job) : ServerTask Unit :=
  match job with
  | .stream rs conn addr frames => handleListenerInner cfg rs conn addr frames
  | .datagram rs bytes addr => do
    let _ ← handleUdp cfg rs bytes addr
    return ()

/-- Any number of jobs over one shared state. -/
def server {ι : Type} (jobs : ι → Job) (s : Shared) :
    Pool ι Env Op Shared fun _ => Unit where
  tasks i := (jobs i).task cfg
  shared := s

end KustDesk
