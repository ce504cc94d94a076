import KustDesk.Server
import KustDesk.Async.Pool

/-!
# KustDesk — Relay

`relay_server.rs`: two connections that ask for the same relay find each
other in `PEERS`, and one of the two tasks then copies what arrives on either
side to the other. Every lock acquisition, every `await` on a stream or a
limiter is one step.
-/

namespace KustDesk

open Async

/-- A `Box<dyn StreamTrait>`. -/
structure RelayStream where
  conn : ConnId
  isWs : Bool
  raw : Bool := false
  deriving DecidableEq

namespace RelayStream

/-- `set_raw`, which does nothing on a WebSocket. -/
def setRaw (s : RelayStream) : RelayStream := if s.isWs then s else { s with raw := true }

@[simp] theorem setRaw_conn (s : RelayStream) : s.setRaw.conn = s.conn := by
  unfold setRaw
  split <;> rfl

end RelayStream

/-- What `next()` yields. Only a WebSocket has messages that are not
binary. -/
inductive Incoming where
  | binary (bytes : Bytes)
  | other
  | error
  | eof
  deriving DecidableEq

/-- `StreamTrait::recv`, `none` for an error and at the end. -/
def Incoming.recv : Incoming → Option Bytes
  | .binary bytes => some bytes
  | .other => some []
  | .error | .eof => none

/-- The two ends of a relay: the connection whose task runs it, and the one
that was waiting. -/
inductive Side where
  | stream
  | peer
  deriving DecidableEq

def Side.other : Side → Side
  | .stream => .peer
  | .peer => .stream

/-- What the `select!` of the loop comes to. -/
inductive Select where
  | recv (side : Side) (incoming : Incoming)
  | tick
  deriving DecidableEq

/-- `(elapsed, total, highest, speed)`. -/
abbrev Usage := Nat × Nat × Nat × Nat

/-- The globals of the relay server. -/
structure RelayShared where
  /-- `PEERS`: the streams that wait for their other half. -/
  peers : HashMap String RelayStream := ∅
  usage : HashMap String Usage := ∅
  blacklist : Finset String := ∅
  blocklist : Finset String := ∅
  downgradeThreshold100 : Nat := 66
  downgradeStartCheck : Nat := 1800000
  singleBandwidth : Nat := 16 * 1024 * 1024

/-- The atomic steps of the relay server. -/
inductive RelayOp where
  /-- The first message of a connection, or none in 30 seconds. -/
  | first (bytes : Option Bytes)
  /-- `PEERS.remove`, to pair. -/
  | take (uuid : String)
  /-- `USAGE.insert` and `USAGE.remove` around the relay. -/
  | enter (id : String)
  | leave (id : String)
  /-- `relay` is called. -/
  | relay (stream peer : RelayStream)
  /-- `PEERS.insert`. -/
  | wait (uuid : String) (stream : RelayStream)
  /-- `sleep(30.)` is over. -/
  | sleep (uuid : String)
  /-- `PEERS.remove`, after the sleep. -/
  | expire (uuid : String)
  /-- The settings are loaded. -/
  | settings
  | recv (side : Side) (bytes : Bytes)
  | closed (side : Side)
  | tick
  /-- `consume` of the blacklist limiter or of the relay's own. -/
  | throttle (black : Bool) (nb : Nat)
  | throttleTotal (nb : Nat)
  | send (side : Side) (bytes : Bytes)
  /-- `tm.elapsed()`. -/
  | clock
  | blocklist (ip : String)
  | blacklist (ip : String)
  | usage (id : String)
  deriving DecidableEq

abbrev RelayTask := Task Env RelayOp RelayShared

abbrev RelayEvent := Event Env RelayOp RelayShared

/-- The parameters of the relay server. -/
structure RelayConfig where
  x : External
  key : String := ""
  /-- `(single * threshold / 100. / 1000.) as usize`, in floating point. -/
  downgradeThreshold : Nat → Nat → Nat

/-- A step that others can see but that changes nothing shared. -/
def relayNote (op : RelayOp) : RelayTask Unit := .look op fun _ _ => ()

/-! ## The loop

`wrap` is what the arithmetic on `usize` does to a result: the code's wraps, and
to be compared with it, there is the loop whose counters are exact. -/

/-- The local variables of `relay`. -/
structure RelayVars where
  tm : Instant
  lastRecvTime : Instant
  elapsed : Nat := 0
  total : Nat := 0
  totalS : Nat := 0
  highestS : Nat := 0
  downgrade : Bool := false
  blacked : Bool := false

section loop
variable (wrap : Nat → Nat)

/-- A chunk goes from one side to the other. -/
def relayChunk (side : Side) (bytes : Bytes) (v : RelayVars) :
    RelayTask (RelayVars × Except Unit Unit) := do
  let now ← Task.look (.recv side bytes) fun e _ => e.now
  let nb := wrap (bytes.length * 8)
  relayNote (.throttle (v.blacked || v.downgrade) nb)
  relayNote (.throttleTotal nb)
  let v := { v with
    lastRecvTime := now
    total := wrap (v.total + nb)
    totalS := wrap (v.totalS + nb) }
  if bytes ≠ [] then
    let sent ← Task.look (.send side.other bytes) fun e _ =>
      if e.fails then (.error () : Except Unit Unit) else .ok ()
    return (v, sent)
  else return (v, .ok ())

/-- The end of the loop's body: once a second the lists are looked at and the
usage is noted. `none` where a blocked address ends the loop. -/
def relaySample (ip id : String) (threshold : Nat) (v : RelayVars) :
    RelayTask (Option RelayVars) := do
  let n ← Task.look .clock fun e _ => wrap (Instant.asMillis (Instant.elapsed e.now v.tm))
  if n ≥ 1000 then
    let blocked ← Task.look (.blocklist ip) fun _ s => decide (ip ∈ s.blocklist)
    if blocked then return none
    else
      let (blacked, tm) ← Task.look (.blacklist ip) fun e s => (decide (ip ∈ s.blacklist), e.now)
      let speed := v.totalS / n
      let highestS := if speed > v.highestS then speed else v.highestS
      let elapsed := wrap (v.elapsed + n)
      let start ← Task.act (.usage id) fun _ s => (s.downgradeStartCheck,
        { s with usage := s.usage.insert id (elapsed, v.total, highestS, speed) })
      let downgrade := v.downgrade
        || decide (elapsed > start ∧ v.total > wrap (elapsed * threshold))
      return some { v with tm, elapsed, totalS := 0, highestS, blacked, downgrade }
  else return some v

/-- The loop of `relay`, over what its `select!` comes to: the variables at
the end, and how the loop was left. Where the list runs out, the loop waits
in the `select!`. -/
def relayLoop (ip id : String) (threshold : Nat) (v : RelayVars) :
    List Select → RelayTask (RelayVars × Option (Except Unit Unit))
  | [] => return (v, none)
  | .recv side incoming :: rest => do
    match incoming.recv with
    | some bytes =>
      match ← relayChunk wrap side bytes v with
      | (v, .error _) => return (v, some (.error ()))
      | (v, .ok _) =>
        match ← relaySample wrap ip id threshold v with
        | none => return (v, some (.ok ()))
        | some v => relayLoop ip id threshold v rest
    | none =>
      relayNote (.closed side)
      return (v, some (.ok ()))
  | .tick :: rest => do
    let idle ← Task.look .tick fun e _ =>
      decide (Instant.asSecs (Instant.elapsed e.now v.lastRecvTime) > 30)
    if idle then return (v, some (.error ()))
    else
      match ← relaySample wrap ip id threshold v with
      | none => return (v, some (.ok ()))
      | some v => relayLoop ip id threshold v rest

variable {wrap}

/-- **The loop rule.** `J` holds each time round the loop; a chunk and a sample
keep it, or end the loop with `Q`. -/
theorem relayLoop_rule {P : List RelayEvent → RelayEvent → Prop}
    {Q : List RelayEvent → RelayVars × Option (Except Unit Unit) → Prop}
    {J : List RelayEvent → RelayVars → Prop} {ip id : String} {threshold : Nat}
    (hstop : ∀ es v r, J es v → Q es (v, r))
    (hchunk : ∀ es v side bytes, J es v → (relayChunk wrap side bytes v).Heeds P
      (fun es y => match y.2 with
        | .ok _ => J es y.1
        | .error _ => Q es (y.1, some (.error ()))) es)
    (hsample : ∀ es v, J es v → (relaySample wrap ip id threshold v).Heeds P
      (fun es o => match o with
        | some v' => J es v'
        | none => Q es (v, some (.ok ()))) es)
    (hclosed : ∀ es v side e s, J es v → P es ⟨.closed side, e, s, s⟩
      ∧ J (es ++ [⟨.closed side, e, s, s⟩]) v)
    (htick : ∀ es v e s, J es v → P es ⟨.tick, e, s, s⟩ ∧ J (es ++ [⟨.tick, e, s, s⟩]) v)
    (outcomes : List Select) {es : List RelayEvent} {v : RelayVars} (h : J es v) :
    (relayLoop wrap ip id threshold v outcomes).Heeds P Q es := by
  induction outcomes generalizing v es with
  | nil => exact hstop es v none h
  | cons outcome rest ih =>
      have hrest {es : List RelayEvent} {v : RelayVars} (h : J es v) :
          (relaySample wrap ip id threshold v >>= fun
            | none => .done (v, some (.ok ()))
            | some v => relayLoop wrap ip id threshold v rest).Heeds P Q es := by
        refine (hsample es v h).bind fun es o h => ?_
        cases o with
        | none => exact h
        | some v' => exact ih h
      cases outcome with
      | recv side incoming =>
          unfold relayLoop
          cases incoming.recv with
          | some bytes =>
              refine (hchunk es v side bytes h).bind fun es y h => ?_
              obtain ⟨v', sent⟩ := y
              cases sent with
              | error => exact h
              | ok => exact hrest h
          | none =>
              intro e s
              obtain ⟨hP, hJ⟩ := hclosed es v side e s h
              exact ⟨hP, hstop _ v _ hJ⟩
      | tick =>
          unfold relayLoop
          intro e s
          obtain ⟨hP, hJ⟩ := htick es v e s h
          refine ⟨hP, ?_⟩
          show Task.Heeds _ _ (if decide _ = true then _ else _) _
          split
          · exact hstop _ v _ hJ
          · exact hrest hJ

end loop

variable (cfg : RelayConfig)

/-- The body of `relay`, over what its arithmetic does to a result. -/
def relayWith (wrap : Nat → Nat) (addr : SocketAddr) (id : String) (outcomes : List Select) :
    RelayTask (RelayVars × Option (Except Unit Unit)) := do
  let (single, threshold100, now) ← Task.look .settings fun e s =>
    (s.singleBandwidth, s.downgradeThreshold100, e.now)
  let threshold := cfg.downgradeThreshold single threshold100
  relayLoop wrap addr.ip.toString id threshold { tm := now, lastRecvTime := now } outcomes

/-- `relay`. Only the address of the connection whose task runs it is
known. -/
def relay (addr : SocketAddr) (id : String) (outcomes : List Select) :
    RelayTask (RelayVars × Option (Except Unit Unit)) :=
  relayWith cfg (usizeOf cfg.x.usizeBits) addr id outcomes

/-! ## Pairing -/

/-- A connection to the relay server: its first message, if it comes in time,
and what the two sides will send, should it be the one to run the relay. -/
structure RelayJob where
  isWs : Bool
  addr : SocketAddr
  first : Option Bytes
  outcomes : List Select

/-- The request in a first message. -/
def RelayConfig.request (bytes : Bytes) : Option RequestRelay :=
  match (cfg.x.parseFromBytes bytes).bind RendezvousMessage.union with
  | some (.requestRelay rf) => some rf
  | _ => none

/-- The part of `make_pair_` for a stream that has found its other half. The
relay ends at the latest when the peer's stream does. -/
def runRelay (addr : SocketAddr) (outcomes : List Select) (stream peer : RelayStream) :
    RelayTask Unit := do
  let id := addr.ip.toString ++ ":" ++ toString addr.port.toNat
  Task.act (.enter id) fun _ s => ((), { s with usage := s.usage.insert id (0, 0, 0, 0) })
  let both := !stream.isWs && !peer.isWs
  let stream := if both then stream.setRaw else stream
  let peer := if both then peer.setRaw else peer
  relayNote (.relay stream peer)
  let _ ← relay cfg addr id (outcomes ++ [.recv .peer .eof])
  Task.act (.leave id) fun _ s => ((), { s with usage := s.usage.erase id })

/-- The part of `make_pair_` for a stream that is the first one. -/
def waitForPeer (uuid : String) (stream : RelayStream) : RelayTask Unit := do
  Task.act (.wait uuid stream) fun _ s => ((), { s with peers := s.peers.insert uuid stream })
  relayNote (.sleep uuid)
  Task.act (.expire uuid) fun _ s => ((), { s with peers := s.peers.erase uuid })

/-- `make_pair_`, for the connection `conn`. -/
def makePair_ (conn : ConnId) (job : RelayJob) : RelayTask Unit := do
  relayNote (.first job.first)
  match job.first.bind cfg.request with
  | some rf =>
    if cfg.key ≠ "" && rf.licenceKey ≠ cfg.key then return ()
    else if rf.uuid ≠ "" then
      let stream : RelayStream := { conn, isWs := job.isWs }
      let peer ← Task.act (.take rf.uuid) fun _ s =>
        (s.peers.lookup rf.uuid, { s with peers := s.peers.erase rf.uuid })
      match peer with
      | some peer => runRelay cfg job.addr job.outcomes stream peer
      | none => waitForPeer rf.uuid stream
    else return ()
  | none => return ()

/-- Any number of connections to one relay server. -/
def relayServer (jobs : ConnId → RelayJob) (s : RelayShared) :
    Pool ConnId Env RelayOp RelayShared fun _ => Unit where
  tasks conn := makePair_ cfg conn (jobs conn)
  shared := s

end KustDesk
