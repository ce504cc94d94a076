import KustDesk.Answers

/-!
# KustDesk — Sinks

Where the sinks of the connections are, and which messages go through them.
A connection puts its sink into `tcp_punch` or `ws_map` under its own
address; what is written through a table goes to a connection of that
address.
-/

namespace KustDesk

open Async

/-! ## What a step does to the tables -/

def Op.effect (op : Op) (s s' : Shared) : Prop :=
  match op with
  | .pm _ => ∃ pm, s' = { s with pm }
  | .rotate => s' = { s with rotationRelayServer := s.rotationRelayServer.next }
  | .punchInsert k y => s' = { s with tcpPunch := s.tcpPunch.insert k y }
  | .punchTake k | .punchClose k => s' = { s with tcpPunch := s.tcpPunch.erase k }
  | .wsInsert k y => s' = { s with wsMap := s.wsMap.insert k y }
  | .wsTake k => s' = { s with wsMap := s.wsMap.erase k }
  | _ => s' = s

/-- Every sink that waits in a table is one of a connection at that key. -/
def Shared.Keyed (At : SocketAddr → ConnId → Prop) (s : Shared) : Prop :=
  (∀ k y, s.tcpPunch.lookup k = some y → At k y.conn)
    ∧ ∀ k y, s.wsMap.lookup k = some y → At k y.conn

/-! ## The contract -/

section contract
variable (cfg : Config) (At : SocketAddr → ConnId → Prop)
  (owner : Option (ConnId × SocketAddr)) (spared : Option SocketAddr)

/-- The message starts no session, or one that the owner of the task asked
for. -/
def Union.AskedBy (msg : Union) : Prop :=
  msg.startsSession = true →
    ∀ conn addr, owner = some (conn, addr) →
      msg.returnAddr = some (cfg.x.mangleEncode addr)

/-- Where a step may put or send something: into a table only the owner's
sink under its address, and through a table only to a connection there. -/
def Op.Placed : Op → Prop
  | .punchInsert k y | .wsInsert k y =>
      ∃ addr, owner = some (y.conn, addr) ∧ cfg.x.tryIntoV4 addr = k
  | .punchClose k => ∃ conn addr, owner = some (conn, addr) ∧ cfg.x.tryIntoV4 addr = k
  | .sinkSend (.punch k) conn msg _ => At k conn ∧ msg.startsSession = false
  | .sinkSend (.ws k) conn msg _ => At k conn ∧ msg.AskedBy cfg owner
  | .queue msg _ => msg.AskedBy cfg owner
  | _ => True

/-- The step queues no session for the spared address. -/
def Op.Avoids : Op → Prop
  | .queue msg a => msg.startsSession = true → some (cfg.x.tryIntoV4 a) ≠ spared
  | _ => True

/-- The key of the address to which the step leads a session without a look
into `ws_map`: the receiver of a relay request, or of a request over UDP. -/
def Op.bypasses (op : Op) (e : Env) (s : Shared) : Option SocketAddr :=
  match op with
  | .pm (.readAddr h) => some (cfg.x.tryIntoV4 (s.pm.peers h).socketAddr)
  | .pm (.readPunch _ h) =>
      if owner = none ∧ (s.pm.peers h).age e.now < regTimeout then
        some (cfg.x.tryIntoV4 (s.pm.peers h).socketAddr)
      else none
  | _ => none

/-- The step leads no session to the spared address past a sink that is
there, and if it looks for the sink, it finds it. -/
def Op.Spares (op : Op) (e : Env) (s : Shared) : Prop :=
  ∀ k, spared = some k → op.bypasses cfg owner e s ≠ some k
    ∧ (op = .wsTake k → (s.wsMap.lookup k).isSome)

/-- The contract of a task, with its owner if it serves a connection. -/
def delivery : Contract Env Op Shared where
  rely _ s := s.Keyed At
  given op e s := op.Spares cfg owner spared e s
  guar op _ s s' := op.effect s s' ∧ op.Placed cfg At owner ∧ op.Avoids cfg spared

theorem delivery_answering : Answering (delivery cfg At owner spared) where
  pm _ := by
    apply liftPm_meets
    intro op e s pm
    exact ⟨⟨pm, rfl⟩, trivial, trivial⟩
  punch := by
    apply liftPm_get_meets
    intro op e s pm
    exact ⟨⟨pm, rfl⟩, trivial, trivial⟩
  looks op _ s h := by
    have hasked (msg : Union) (hmsg : msg.startsSession = false) :
        msg.AskedBy cfg owner := fun hstarts => by simp [hmsg] at hstarts
    cases op with
    | sinkSend via conn msg wire =>
        cases via with
        | direct => exact ⟨rfl, trivial, trivial⟩
        | punch k => cases h
        | ws k => cases h
    | queue msg a =>
        have hmsg : msg.startsSession = false := by simpa [Op.looks] using h
        exact ⟨rfl, hasked msg hmsg, fun hstarts => by simp [hmsg] at hstarts⟩
    | udpSend msg a => exact ⟨rfl, trivial, trivial⟩
    | loginCheck token => exact ⟨rfl, trivial, trivial⟩
    | relayFlag => exact ⟨rfl, trivial, trivial⟩
    | relayLookup id => exact ⟨rfl, trivial, trivial⟩
    | handleUdp bytes => exact ⟨rfl, trivial, trivial⟩
    | _ => cases h
  rotate _ _ := ⟨rfl, trivial, trivial⟩
  punchTake _ _ _ := ⟨rfl, trivial, trivial⟩
  reply _ _ k y hrely hlookup _ _ _ _ hmsg :=
    ⟨rfl, ⟨hrely.1 k y hlookup, hmsg⟩, trivial⟩

end contract

/-! ## Requests -/

section requests
variable (cfg : Config) (rs : RendezvousServer)
  {At : SocketAddr → ConnId → Prop} {owner : Option (ConnId × SocketAddr)}
  {spared : Option SocketAddr}

/-- What a request comes to: an answer, or a message for a peer that names
the requester and, over UDP, does not go to the spared address. -/
def Delivers (owner : Option (ConnId × SocketAddr)) (spared : Option SocketAddr)
    (r : Union × Option SocketAddr) : Prop :=
  (r.2 = none → r.1.startsSession = false)
    ∧ ∀ a, r.2 = some a → r.1.AskedBy cfg owner
        ∧ (owner = none → some (cfg.x.tryIntoV4 a) ≠ spared)

theorem handlePunchHoleRequest_delivers {addr : SocketAddr} (ph : PunchHoleRequest)
    (ws : Bool) (howner : ∀ conn addr', owner = some (conn, addr') → addr' = addr)
    (s : Shared) :
    (handlePunchHoleRequest cfg rs addr ph ws).Meets (delivery cfg At owner spared)
      (fun r _ => Delivers cfg owner spared r) s := by
  have hc := delivery_answering cfg At owner spared
  unfold handlePunchHoleRequest
  split
  · exact ⟨fun _ => rfl, nofun⟩
  · refine (look_meets hc rfl _ s).bind fun refused s _ => ?_
    cases refused with
    | some _ => exact ⟨fun _ => rfl, nofun⟩
    | none =>
        refine (hc.pm (.get _) s).bind fun peer s _ => ?_
        cases peer with
        | none => exact ⟨fun _ => rfl, nofun⟩
        | some peer =>
            intro e s _ hspares
            refine ⟨⟨⟨_, rfl⟩, trivial, trivial⟩, ?_⟩
            show Task.Meets _ _ (if (s.pm.peers peer).age e.now ≥ regTimeout
              then _ else _) _
            split
            · exact ⟨fun _ => rfl, nofun⟩
            · rename_i hfresh
              refine ((punchHoleMessage_replying cfg rs addr ph ws _).meets hc _).bind ?_
              rintro msg s' ⟨hmsg, -⟩
              refine ⟨nofun, ?_⟩
              rintro a ⟨⟩
              refine ⟨fun _ conn addr' ho => ?_, fun ho hspared => ?_⟩
              · rw [hmsg, howner conn addr' ho]
              · have hudp : owner = none ∧ (s.pm.peers peer).age e.now < regTimeout :=
                  ⟨ho, by omega⟩
                exact (hspares _ hspared.symm).1 (by rw [Op.bypasses, if_pos hudp]; rfl)

/-- A message for a peer over TCP or WebSocket: through `ws_map` if the peer
has a sink there. -/
theorem handleTcpPunchHoleRequest_delivers (conn : ConnId) (addr : SocketAddr)
    (ph : PunchHoleRequest) (ws : Bool) (s : Shared) :
    (handleTcpPunchHoleRequest cfg rs addr ph ws).Meets
      (delivery cfg At (some (conn, addr)) spared) (fun _ _ => True) s := by
  have hc := delivery_answering cfg At (some (conn, addr)) spared
  have howner (conn' : ConnId) (addr' : SocketAddr)
      (h : some (conn, addr) = some (conn', addr')) : addr' = addr := by cases h; rfl
  refine (handlePunchHoleRequest_delivers cfg rs ph ws howner s).bind fun r s hr => ?_
  obtain ⟨msg, toAddr⟩ := r
  obtain ⟨hanswer, hpeer⟩ := hr
  cases toAddr with
  | none => exact sendToTcp_meets hc _ (hanswer rfl) _ s
  | some a =>
      obtain ⟨hasked, -⟩ := hpeer a rfl
      refine Task.Meets.act_bind fun e s' hkeyed hspares => ⟨⟨rfl, trivial, trivial⟩, ?_⟩
      cases hlookup : s'.wsMap.lookup (cfg.x.tryIntoV4 a) with
      | some y =>
          have hat := hkeyed.2 _ y hlookup
          refine (y.send_meets cfg.x _ msg (fun _ _ _ => ?_) _).bind fun _ _ _ => trivial
          exact ⟨rfl, ⟨hat, hasked⟩, trivial⟩
      | none =>
          have hother : some (cfg.x.tryIntoV4 a) ≠ spared := by
            intro hspared
            have hsome := (hspares _ hspared.symm).2 rfl
            rw [hlookup] at hsome
            cases hsome
          exact fun _ _ _ _ => ⟨⟨rfl, hasked, fun _ => hother⟩, trivial⟩

theorem handleUdpPunchHoleRequest_delivers (addr : SocketAddr)
    (ph : PunchHoleRequest) (s : Shared) :
    (handleUdpPunchHoleRequest cfg rs addr ph).Meets (delivery cfg At none spared)
      (fun _ _ => True) s := by
  have hc := delivery_answering cfg At none spared
  have howner (conn : ConnId) (addr' : SocketAddr)
      (h : none = some (conn, addr')) : addr' = addr := by cases h
  refine (handlePunchHoleRequest_delivers cfg rs ph false howner s).bind fun r s hr => ?_
  obtain ⟨msg, toAddr⟩ := r
  obtain ⟨hanswer, hpeer⟩ := hr
  cases toAddr with
  | none => exact txSend_meets hc (hanswer rfl) _ s
  | some a =>
      obtain ⟨hasked, hother⟩ := hpeer a rfl
      exact fun _ _ _ _ => ⟨⟨rfl, hasked, fun _ => hother rfl⟩, trivial⟩

/-! ## One connection -/

/-- The sink, where the connection still has it, is its own. -/
def OwnSink (conn : ConnId) (sink : Option Sink) : Prop :=
  ∀ y ∈ sink, y.conn = conn

theorem OwnSink.like {conn : ConnId} {sink sink' : Option Sink}
    (h : OwnSink conn sink) (hlike : Option.Rel Sink.Like sink' sink) :
    OwnSink conn sink' := by
  cases hlike with
  | none => exact h
  | @some y' y hy =>
      rintro z ⟨⟩
      exact hy.2.1.trans (h y rfl)

/-- The steps on the frames of a connection, which no contract is about. -/
def Op.onFrame : Op → Bool
  | .recv .. | .decrypt .. | .handleTcp .. | .setKey .. | .closed _ => true
  | _ => false

theorem note_delivers {op : Op} (h : op.onFrame = true) (s : Shared) :
    (note op).Meets (delivery cfg At owner spared) (fun _ _ => True) s := by
  intro e s' _ _
  refine ⟨?_, trivial⟩
  cases op <;> first | exact ⟨rfl, trivial, trivial⟩ | cases h

theorem giveAway_delivers {conn : ConnId} {addr : SocketAddr} {sink : Option Sink}
    (hsink : OwnSink conn sink) (s : Shared) :
    (giveAway cfg sink addr).Meets (delivery cfg At (some (conn, addr)) spared)
      (fun _ _ => True) s := by
  cases sink with
  | none => trivial
  | some y =>
      have howner : some (conn, addr) = some (y.conn, addr) := by rw [hsink y rfl]
      exact fun _ _ _ _ => ⟨⟨rfl, ⟨addr, howner, rfl⟩, trivial⟩, trivial⟩

theorem forwardRelay_delivers {conn : ConnId} (addr : SocketAddr) (rf : RequestRelay) (s : Shared) :
    (forwardRelay cfg addr rf).Meets (delivery cfg At (some (conn, addr)) spared)
      (fun _ _ => True) s := by
  have hc := delivery_answering cfg At (some (conn, addr)) spared
  refine (look_meets hc rfl _ s).bind fun peer s _ => ?_
  cases peer with
  | none => trivial
  | some peer =>
      intro e s' _ hother
      refine ⟨⟨⟨_, rfl⟩, trivial, trivial⟩, ?_⟩
      have hasked (rf : RequestRelay) (h : rf.socketAddr = cfg.x.mangleEncode addr) :
          (Union.requestRelay rf).AskedBy cfg (some (conn, addr)) := by
        rintro - conn' addr' ⟨⟩
        exact congrArg some h
      intro _ _ _ _
      refine ⟨⟨rfl, hasked _ rfl, fun _ hspared => ?_⟩, trivial⟩
      exact (hother _ hspared.symm).1 rfl

theorem handleTcpMessage_delivers {conn : ConnId} {addr : SocketAddr}
    {sink : Option Sink} (hsink : OwnSink conn sink) (ws : Bool) (msg : Option Union)
    (s : Shared) :
    (handleTcpMessage cfg rs conn sink addr ws msg).Meets
      (delivery cfg At (some (conn, addr)) spared)
      (fun r _ => r.1 = true → OwnSink conn r.2) s := by
  have hc := delivery_answering cfg At (some (conn, addr)) spared
  have hcases := handleTcpMessage_cases cfg rs conn sink addr ws msg
  generalize handleTcpMessage cfg rs conn sink addr ws msg = t at hcases
  cases hcases with
  | answers hmsg ht =>
      refine (ht.meets hc s).mono fun r _ hlike => ?_
      exact fun _ => hsink.like hlike
  | enters hmsg hws ht =>
      refine (ht.meets hc s).bind fun r s hlike => ?_
      have hown := hsink.like hlike
      refine (enterWs_meets cfg addr r (fun y hy e s => ?_) s).mono ?_
      · have howner : some (conn, addr) = some (y.conn, addr) := by rw [hown y hy]
        exact ⟨rfl, ⟨addr, howner, rfl⟩, trivial⟩
      · rintro r' - (⟨-, hnone⟩ | ⟨rfl, hstop⟩) hgo
        · rw [hnone]
          nofun
        · rw [hstop] at hgo
          cases hgo
  | forwards hmsg ht =>
      refine (giveAway_delivers cfg hsink s).bind fun _ s _ => ?_
      cases ht with
      | punchHole ph =>
          exact (handleTcpPunchHoleRequest_delivers cfg rs conn addr ph ws s).bind
            fun _ _ _ _ => nofun
      | relay rf => exact (forwardRelay_delivers cfg addr rf s).bind fun _ _ _ _ => nofun
  | panics => trivial
  | @setsKey ex y key hmsg hy =>
      refine (note_delivers cfg rfl s).bind fun _ _ _ _ => ?_
      rintro z ⟨⟩
      exact hsink y hy

theorem handleTcp_delivers {conn : ConnId} {addr : SocketAddr} {sink : Option Sink}
    (hsink : OwnSink conn sink) (bytes : Bytes) (ws : Bool) (s : Shared) :
    (handleTcp cfg rs conn bytes sink addr ws).Meets
      (delivery cfg At (some (conn, addr)) spared)
      (fun r _ => r.1 = true → OwnSink conn r.2) s := by
  refine (note_delivers cfg rfl s).bind fun _ s _ => ?_
  exact handleTcpMessage_delivers cfg rs hsink ws _ s

/-- The delivery contract is one a connection keeps, whose sink stays its own. -/
theorem delivery_serving (conn : ConnId) (addr : SocketAddr) :
    Serving (delivery cfg At (some (conn, addr)) spared) cfg rs conn addr (OwnSink conn) where
  answering := delivery_answering cfg At (some (conn, addr)) spared
  notes op _ _ h := by cases op <;> first | exact ⟨rfl, trivial, trivial⟩ | cases h
  closes _ _ := ⟨rfl, ⟨conn, addr, rfl, rfl⟩, trivial⟩
  start y hy := by
    rintro z ⟨⟩
    exact hy
  same hconn hown := by
    rintro w ⟨⟩
    exact hconn.trans (hown _ rfl)
  handles bytes _ ws s hown := handleTcp_delivers cfg rs hown bytes ws s

theorem handleUdp_delivers (bytes : Bytes) (addr : SocketAddr) (s : Shared) :
    (handleUdp cfg rs bytes addr).Meets (delivery cfg At none spared)
      (fun _ _ => True) s := by
  have hc := delivery_answering cfg At none spared
  refine (look_meets hc rfl _ s).bind fun _ s _ => ?_
  exact handleUdpMessage_meets cfg rs addr hc
    (fun ph _ s => handleUdpPunchHoleRequest_delivers cfg rs addr ph s) s

end requests

/-! ## Runs -/

section runs
variable (cfg : Config) {ι : Type} (jobs : ι → Job)

/-- The connection a task serves, and its address. -/
def Job.owner : Job → Option (ConnId × SocketAddr)
  | .stream _ conn addr _ => some (conn, addr)
  | .datagram _ _ _ => none

theorem Job.task_delivers (job : Job) {At : SocketAddr → ConnId → Prop}
    {spared : Option SocketAddr} (s : Shared) :
    (job.task cfg).Meets (delivery cfg At job.owner spared) (fun _ _ => True) s := by
  cases job with
  | stream rs conn addr stream =>
      exact (delivery_serving cfg rs conn addr).handleListenerInner stream s
  | datagram rs bytes addr =>
      exact (handleUdp_delivers cfg rs bytes addr s).bind fun _ _ _ => trivial

/-- The connections of the server that are reached under a key. -/
def Reached (k : SocketAddr) (conn : ConnId) : Prop :=
  ∃ i addr, (jobs i).owner = some (conn, addr) ∧ cfg.x.tryIntoV4 addr = k

theorem Shared.Keyed.insert_punch {At : SocketAddr → ConnId → Prop} {s : Shared}
    (h : s.Keyed At) {k : SocketAddr} {y : Sink} (hk : At k y.conn) :
    Shared.Keyed At { s with tcpPunch := s.tcpPunch.insert k y } := by
  refine ⟨fun k' z hz => ?_, h.2⟩
  by_cases hkk : k' = k
  · subst hkk
    rw [AList.lookup_insert] at hz
    cases hz
    exact hk
  · rw [AList.lookup_insert_ne hkk] at hz
    exact h.1 k' z hz

theorem Shared.Keyed.insert_ws {At : SocketAddr → ConnId → Prop} {s : Shared}
    (h : s.Keyed At) {k : SocketAddr} {y : Sink} (hk : At k y.conn) :
    Shared.Keyed At { s with wsMap := s.wsMap.insert k y } := by
  refine ⟨h.1, fun k' z hz => ?_⟩
  by_cases hkk : k' = k
  · subst hkk
    rw [AList.lookup_insert] at hz
    cases hz
    exact hk
  · rw [AList.lookup_insert_ne hkk] at hz
    exact h.2 k' z hz

theorem lookup_of_lookup_erase {κ ν : Type} [DecidableEq κ] {m : HashMap κ ν}
    {k k' : κ} {v : ν} (h : (m.erase k).lookup k' = some v) : m.lookup k' = some v := by
  by_cases hkk : k' = k
  · subst hkk
    rw [AList.lookup_erase] at h
    cases h
  · rwa [AList.lookup_erase_ne hkk] at h

/-- The steps of a task keep the tables keyed. -/
theorem Shared.Keyed.step {i : ι} {op : Op} {s s' : Shared}
    (h : s.Keyed (Reached cfg jobs)) (heffect : op.effect s s')
    (hplaced : op.Placed cfg (Reached cfg jobs) (jobs i).owner) :
    s'.Keyed (Reached cfg jobs) := by
  cases op with
  | pm op => obtain ⟨pm, rfl⟩ := heffect; exact h
  | punchInsert k y =>
      obtain ⟨addr, howner, hk⟩ := hplaced
      cases heffect
      exact h.insert_punch ⟨i, addr, howner, hk⟩
  | wsInsert k y =>
      obtain ⟨addr, howner, hk⟩ := hplaced
      cases heffect
      exact h.insert_ws ⟨i, addr, howner, hk⟩
  | punchTake k =>
      cases heffect
      exact ⟨fun k' y hy => h.1 k' y (lookup_of_lookup_erase hy), h.2⟩
  | punchClose k =>
      cases heffect
      exact ⟨fun k' y hy => h.1 k' y (lookup_of_lookup_erase hy), h.2⟩
  | wsTake k =>
      cases heffect
      exact ⟨h.1, fun k' y hy => h.2 k' y (lookup_of_lookup_erase hy)⟩
  | _ => cases heffect; exact h

theorem start_keyed (At : SocketAddr → ConnId → Prop) (db : Database) :
    (Shared.start db).Keyed At := by
  constructor
  · intro k y h
    cases (AList.lookup_empty k).symm.trans h
  · intro k y h
    cases (AList.lookup_empty k).symm.trans h

variable [DecidableEq ι] {db : Database} {es : List (ι × Event Env Op Shared)}
  {q : Pool ι Env Op Shared fun _ => Unit}

/-- In every run from empty tables every step keeps its contract, and the
tables stay keyed. -/
theorem server_delivers (h : (server cfg jobs (.start db)).Run es q)
    (spared : Option SocketAddr)
    (hspares : ∀ i ev, (i, ev) ∈ es →
      ev.op.Spares cfg (jobs i).owner spared ev.env ev.pre) :
    (∀ i ev, (i, ev) ∈ es → ev.op.effect ev.pre ev.post
      ∧ ev.op.Placed cfg (Reached cfg jobs) (jobs i).owner ∧ ev.op.Avoids cfg spared)
    ∧ ∀ _ : ι, q.shared.Keyed (Reached cfg jobs) := by
  obtain ⟨hguar, hmeets⟩ := h.meets
    (c := fun i => delivery cfg (Reached cfg jobs) (jobs i).owner spared)
    (Q := fun _ _ _ => True) hspares
    (fun i => ⟨start_keyed _ db, Job.task_delivers cfg (jobs i) _⟩)
    (fun i _ _ _ _ _ hkeyed hg => hkeyed.step cfg jobs hg.1 hg.2.1)
    (fun i j _ _ _ s s' _ hkeyed hg => Shared.Keyed.step cfg jobs hkeyed hg.1 hg.2.1)
  refine ⟨hguar, fun i => ?_⟩
  obtain ⟨s, hkeyed, -⟩ := hmeets i
  exact hkeyed

/-- Likewise without an address to spare. -/
theorem server_places (h : (server cfg jobs (.start db)).Run es q) :
    (∀ i ev, (i, ev) ∈ es → ev.op.effect ev.pre ev.post
      ∧ ev.op.Placed cfg (Reached cfg jobs) (jobs i).owner)
    ∧ ∀ _ : ι, q.shared.Keyed (Reached cfg jobs) := by
  obtain ⟨hguar, hkeyed⟩ := server_delivers cfg jobs h none fun _ _ _ => nofun
  exact ⟨fun i ev hev => ⟨(hguar i ev hev).1, (hguar i ev hev).2.1⟩, hkeyed⟩

end runs

end KustDesk
