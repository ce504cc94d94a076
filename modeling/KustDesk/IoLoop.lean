import KustDesk.Rendezvous
import KustDesk.Async.Log

/-!
# KustDesk — IoLoop

`io_loop` and the main task of `start` around it: the branches of its
`select!`, the channel behind `tx`, the checks of the relay servers that run
beside it, and what `start` does about a failure. A connection that is
accepted is a task of its own and changes nothing here.
-/

namespace KustDesk

open Async

inductive LoopFailure where
  | udpSocket
  | listener3
  | listener2
  | listener
  deriving DecidableEq

/-- `Data`: what the other tasks send to `io_loop`. -/
inductive Data where
  | msg (msg : Union) (addr : SocketAddr)
  /-- a new list of relay servers, from the command line -/
  | relayServers0 (rs : String)
  /-- the relay servers that a check could connect to -/
  | relayServers (rs : List String)
  deriving DecidableEq

/-- `get_servers`. -/
def getServers (x : External) (s : String) : List String :=
  ((s.toList.splitOn ',').map String.ofList).filter fun host =>
    host ≠ "" && testIfValidServer x host

/-- A running `check_relay_servers(rs0)`: the servers whose connection is
still open, and those of the others that could be reached. -/
structure RelayCheck where
  rs0 : List String
  waiting : List String
  rs : List String
  waiting_sub : waiting ⊆ rs0
  rs_sub : rs ⊆ rs0

def RelayCheck.spawn (rs0 : List String) : RelayCheck where
  rs0
  waiting := rs0
  rs := []
  waiting_sub := List.Subset.refl _
  rs_sub := List.nil_subset _

/-- One connection is there, or has failed. -/
def RelayCheck.probed (c : RelayCheck) (host : String) (hwaiting : host ∈ c.waiting)
    (ok : Bool) : RelayCheck where
  rs0 := c.rs0
  -- a host that is listed twice is tried twice
  waiting := c.waiting.erase host
  rs := if ok then c.rs ++ [host] else c.rs
  waiting_sub := fun _ h => c.waiting_sub (List.mem_of_mem_erase h)
  rs_sub := by
    split
    · exact List.append_subset.mpr ⟨c.rs_sub, by simpa using c.waiting_sub hwaiting⟩
    · exact c.rs_sub

/-- What a check sends when all its connections are settled. -/
def RelayCheck.report (c : RelayCheck) : Option Data :=
  if c.rs.isEmpty then none else some (.relayServers c.rs)

/-- The main task: the server and its `relay_servers0`, the channel, the
checks that are under way, what `io_loop` has returned, and the sockets that
`start` has dropped and created anew. -/
structure MainTask where
  rs : RendezvousServer
  relayServers0 : List String := []
  rx : List Data := []
  checks : List RelayCheck := []
  failure : Option LoopFailure := none
  recreated : List LoopFailure := []

namespace MainTask

/-- `parse_relay_servers`. -/
def parseRelayServers (x : External) (m : MainTask) (relayServers : String) : MainTask :=
  let rs := getServers x relayServers
  { m with relayServers0 := rs, rs := { m.rs with relayServers := rs } }

/-- A server that has just started, with the argument `relay-servers`. -/
def start (x : External) (rs : RendezvousServer) (relayServers : String) : MainTask :=
  parseRelayServers x { rs } relayServers

/-- `timer_check_relay.tick()`. -/
def tick (m : MainTask) : MainTask :=
  -- a single server is handed out unchecked
  if m.relayServers0.length > 1 then
    { m with checks := m.checks ++ [.spawn m.relayServers0] }
  else m

/-- `rx.recv()`. -/
def handleData (x : External) (m : MainTask) : Data → ServerTask MainTask
  | .msg msg addr => do
    -- a failure is only logged
    let _ ← udpSend msg addr
    return m
  | .relayServers0 rs => return m.parseRelayServers x rs
  -- whatever list is configured by now
  | .relayServers rs => return { m with rs := { m.rs with relayServers := rs } }

/-- `socket.next()` with a datagram. -/
def handleDatagram (cfg : Config) (m : MainTask) (bytes : Bytes) (addr : SocketAddr) :
    ServerTask MainTask := do
  match ← handleUdp cfg m.rs bytes addr with
  | .ok rs => return { m with rs }
  | .error _ => return { m with failure := some .udpSocket }

end MainTask

/-- What happens to the main task. Steps on the state that all clones share
are listed with what is done. -/
inductive Act where
  | tick
  | recv (es : List (Event Env Op Shared))
  | datagram (bytes : Bytes) (addr : SocketAddr) (es : List (Event Env Op Shared))
  /-- `socket.next()` yields an error. -/
  | socketFailed
  | acceptFailed (failure : LoopFailure)
  /-- `start` drops the socket that has failed and creates it anew. -/
  | recreate
  /-- The command `relay-servers`. -/
  | command (rs : String)
  /-- A message some task sends through `tx`. -/
  | queue (msg : Union) (addr : SocketAddr)
  | probed (host : String) (ok : Bool)
  /-- A check ends. -/
  | checked

/-- One step of the main task or of what runs beside it. -/
inductive MainTask.Step (cfg : Config) (m : MainTask) : Act → MainTask → Prop
  | tick (hrun : m.failure = none) : Step cfg m .tick m.tick
  | recv {d rest es m'} (hrun : m.failure = none) (hrx : m.rx = d :: rest)
      (hpath : (handleData cfg.x { m with rx := rest } d).Path es (.done m')) :
      Step cfg m (.recv es) m'
  | datagram {bytes addr es m'} (hrun : m.failure = none)
      (hpath : (m.handleDatagram cfg bytes addr).Path es (.done m')) :
      Step cfg m (.datagram bytes addr es) m'
  | socketFailed (hrun : m.failure = none) :
      Step cfg m .socketFailed { m with failure := some .udpSocket }
  | acceptFailed {failure} (hrun : m.failure = none) (hlistener : failure ≠ .udpSocket) :
      Step cfg m (.acceptFailed failure) { m with failure := some failure }
  | recreate {failure} (hfailure : m.failure = some failure) :
      Step cfg m .recreate { m with failure := none, recreated := m.recreated ++ [failure] }
  | command (rs) : Step cfg m (.command rs) { m with rx := m.rx ++ [.relayServers0 rs] }
  | queue (msg addr) : Step cfg m (.queue msg addr) { m with rx := m.rx ++ [.msg msg addr] }
  | probed {cs₁ c cs₂ host} (ok) (hchecks : m.checks = cs₁ ++ c :: cs₂)
      (hwaiting : host ∈ c.waiting) :
      Step cfg m (.probed host ok) { m with checks := cs₁ ++ c.probed host hwaiting ok :: cs₂ }
  | checked {cs₁ c cs₂} (hchecks : m.checks = cs₁ ++ c :: cs₂) (hwaiting : c.waiting = []) :
      Step cfg m .checked { m with checks := cs₁ ++ cs₂, rx := m.rx ++ c.report.toList }

/-! ## What one branch does -/

namespace MainTask

/-- The main task after a message from `rx`. -/
def received (x : External) (m : MainTask) : Data → MainTask
  | .msg _ _ => m
  | .relayServers0 rs => m.parseRelayServers x rs
  | .relayServers rs => { m with rs := { m.rs with relayServers := rs } }

@[simp] theorem received_failure (x : External) (m : MainTask) (d : Data) :
    (m.received x d).failure = m.failure := by
  cases d <;> rfl

@[simp] theorem received_recreated (x : External) (m : MainTask) (d : Data) :
    (m.received x d).recreated = m.recreated := by
  cases d <;> rfl

@[simp] theorem received_rx (x : External) (m : MainTask) (d : Data) :
    (m.received x d).rx = m.rx := by
  cases d <;> rfl

@[simp] theorem received_checks (x : External) (m : MainTask) (d : Data) :
    (m.received x d).checks = m.checks := by
  cases d <;> rfl

section Branches
variable {cfg : Config} {m m' : MainTask} {es : List (Event Env Op Shared)}

theorem handleData_done {d : Data} (h : (m.handleData cfg.x d).Path es (.done m')) :
    m' = m.received cfg.x d := by
  cases d with
  | msg msg addr =>
      obtain ⟨es₁, r, es₂, -, -, hrest⟩ := Task.path_bind_done h
      obtain ⟨-, hm⟩ := Task.path_done hrest
      cases hm
      rfl
  | relayServers0 rs =>
      obtain ⟨-, hm⟩ := Task.path_done h
      cases hm
      rfl
  | relayServers rs =>
      obtain ⟨-, hm⟩ := Task.path_done h
      cases hm
      rfl

/-- The main task after a datagram. -/
theorem handleDatagram_done {bytes : Bytes} {addr : SocketAddr}
    (h : (m.handleDatagram cfg bytes addr).Path es (.done m')) :
    ∃ r, (handleUdp cfg m.rs bytes addr).Path es (.done r)
      ∧ m' = match r with
        | .ok rs => { m with rs }
        | .error _ => { m with failure := some .udpSocket } := by
  obtain ⟨es₁, r, es₂, rfl, hudp, hrest⟩ := Task.path_bind_done h
  cases r with
  | ok rs =>
      obtain ⟨rfl, hm⟩ := Task.path_done hrest
      cases hm
      exact ⟨.ok rs, by simpa using hudp, rfl⟩
  | error _ =>
      obtain ⟨rfl, hm⟩ := Task.path_done hrest
      cases hm
      exact ⟨.error (), by simpa using hudp, rfl⟩

end Branches

end MainTask

end KustDesk
