import KustDesk.Answers

/-!
# KustDesk — AccessGate

What a client without the licence key, or without a login, can make the
server send to other peers. A punch-hole request stops at the check; a
`RequestRelay` is not checked, and is forwarded to every peer in memory.
-/

namespace KustDesk

open Async

/-! ## The two gates -/

/-- What keeps a client out: the server's licence key, or the login. -/
inductive Gate where
  | licence
  | login

/-- The server is configured to ask. -/
def Gate.InForce (cfg : Config) : Gate → Shared → Prop
  | .licence, _ => cfg.key ≠ ""
  | .login, s => s.mustLogin = true ∧ cfg.secret ≠ ""

/-- The step shows no credential for the gate: the request it handles does
not carry the key, the token it checks does not verify. -/
def Gate.Shut (cfg : Config) : Gate → Op → Env → Shared → Prop
  | .licence, .handleTcp _ bytes, _, _ | .licence, .handleUdp bytes, _, _ =>
      ∀ ph, cfg.message bytes = some (.punchHoleRequest ph) → ph.licenceKey ≠ cfg.key
  | .login, .loginCheck token, e, _ =>
      ∀ claims, verifyToken cfg.x cfg.secret e.utc token ≠ .ok claims
  | _, _, _, _ => True

/-- The id that a `RequestRelay` looks up in this step. -/
def Op.relayId : Op → Option String
  | .relayLookup id => some id
  | _ => none

/-- If a `RequestRelay` looks an id up in this step, it has no peer in
memory. -/
abbrev Op.RelayMisses (op : Op) (s : Shared) : Prop :=
  op.relayId.bind s.pm.map.lookup = none

/-- Under a gate that is in force and that the client's steps leave shut,
and as long as its relay requests miss, the client's task forwards nothing. -/
def gateContract (cfg : Config) (gate : Gate) : Contract Env Op Shared where
  rely _ _ := True
  given op e s := gate.InForce cfg s ∧ gate.Shut cfg op e s ∧ op.RelayMisses s
  guar op _ _ _ := op.forwards = false

section gate
variable (cfg : Config) (rs : RendezvousServer) {gate : Gate}

theorem gateContract_answering (gate : Gate) : Answering (gateContract cfg gate) where
  pm _ := liftPm_meets (fun _ _ _ _ => rfl) _
  punch := liftPm_get_meets fun _ _ _ _ => rfl
  looks op _ _ h := by
    cases op <;> simp_all [gateContract, Op.looks, Op.forwards]
    rename_i via _ _ _
    cases via <;> simp_all
  rotate _ _ := rfl
  punchTake _ _ _ := rfl
  reply _ _ _ _ _ _ _ _ _ _ h := h

/-- A token that does not verify is refused wherever a login is asked for. -/
theorem loginCheck_isSome {x : External} {secret token : String} {now : Nat}
    {mustLogin : Bool} (hlogin : mustLogin = true) (hsecret : secret ≠ "")
    (htoken : ∀ claims, verifyToken x secret now token ≠ .ok claims) :
    (loginCheck x secret mustLogin token now).isSome := by
  subst hlogin
  unfold loginCheck
  by_cases hempty : token = ""
  · simp [hempty]
  · cases hverify : verifyToken x secret now token with
    | ok claims => exact (htoken claims hverify).elim
    | error err => simp [hempty, hsecret]

/-- The licence check of a request whose message the gate has seen. -/
def Gate.Refuses (cfg : Config) (ph : PunchHoleRequest) : Gate → Prop
  | .licence => cfg.key ≠ "" ∧ ph.licenceKey ≠ cfg.key
  | .login => True

/-- A request that a gate refuses is answered to the requester. -/
theorem handlePunchHoleRequest_refused (addr : SocketAddr) (ph : PunchHoleRequest)
    (ws : Bool) (hrefuses : gate.Refuses cfg ph) (s : Shared) :
    (handlePunchHoleRequest cfg rs addr ph ws).Meets (gateContract cfg gate)
      (fun r _ => r.1.startsSession = false ∧ r.2 = none) s := by
  unfold handlePunchHoleRequest
  by_cases hkey : cfg.key ≠ "" ∧ ph.licenceKey ≠ cfg.key
  · simp [hkey, Union.startsSession]
  · cases gate with
    | licence => exact (hkey hrefuses).elim
    | login =>
        rw [if_neg (by simpa using hkey)]
        refine Task.Meets.look_bind fun e s' _ hgiven => ⟨rfl, ?_⟩
        obtain ⟨⟨hlogin, hsecret⟩, htoken, _⟩ := hgiven
        obtain ⟨otherFailure, hcheck⟩ := Option.isSome_iff_exists.mp
          (loginCheck_isSome hlogin hsecret htoken)
        rw [hcheck]
        exact ⟨rfl, rfl⟩

theorem handleTcpPunchHoleRequest_refused (addr : SocketAddr)
    (ph : PunchHoleRequest) (ws : Bool) (hrefuses : gate.Refuses cfg ph) (s : Shared) :
    (handleTcpPunchHoleRequest cfg rs addr ph ws).Meets (gateContract cfg gate)
      (fun _ _ => True) s := by
  refine (handlePunchHoleRequest_refused cfg rs addr ph ws hrefuses s).bind ?_
  rintro ⟨msg, toAddr⟩ s ⟨hmsg, rfl⟩
  exact sendToTcp_meets (gateContract_answering cfg gate) _ hmsg _ s

theorem handleUdpPunchHoleRequest_refused (addr : SocketAddr)
    (ph : PunchHoleRequest) (hrefuses : gate.Refuses cfg ph) (s : Shared) :
    (handleUdpPunchHoleRequest cfg rs addr ph).Meets (gateContract cfg gate)
      (fun _ _ => True) s := by
  refine (handlePunchHoleRequest_refused cfg rs addr ph false hrefuses s).bind ?_
  rintro ⟨msg, toAddr⟩ s ⟨hmsg, rfl⟩
  exact txSend_meets (gateContract_answering cfg gate) hmsg _ s

theorem giveAway_forwards_nothing (sink : Option Sink) (addr : SocketAddr) (s : Shared) :
    (giveAway cfg sink addr).Meets (gateContract cfg gate) (fun _ _ => True) s := by
  cases sink with
  | none => trivial
  | some sink => exact fun _ _ _ _ => ⟨rfl, trivial⟩

theorem note_forwards_nothing {op : Op} (h : op.forwards = false) (s : Shared) :
    (note op).Meets (gateContract cfg gate) (fun _ _ => True) s :=
  fun _ _ _ _ => ⟨h, trivial⟩

theorem forwardRelay_forwards_nothing (addr : SocketAddr) (rf : RequestRelay) (s : Shared) :
    (forwardRelay cfg addr rf).Meets (gateContract cfg gate) (fun _ _ => True) s := by
  refine Task.Meets.look_bind fun e s' _ hgiven => ⟨rfl, ?_⟩
  have hmiss : s'.pm.map.lookup rf.id = none := hgiven.2.2
  rw [hmiss]
  trivial

/-- What `handle_tcp` does with any message but a request that passes. -/
theorem handleTcpMessage_forwards_nothing (conn : ConnId) (sink : Option Sink)
    (addr : SocketAddr) (ws : Bool) {msg : Option Union}
    (hmsg : ∀ ph, msg = some (.punchHoleRequest ph) → gate.Refuses cfg ph) (s : Shared) :
    (handleTcpMessage cfg rs conn sink addr ws msg).Meets (gateContract cfg gate)
      (fun _ _ => True) s := by
  have hc := gateContract_answering cfg gate
  have hcases := handleTcpMessage_cases cfg rs conn sink addr ws msg
  generalize handleTcpMessage cfg rs conn sink addr ws msg = t at hcases
  cases hcases with
  | answers _ ht => exact (ht.meets hc s).mono fun _ _ _ => trivial
  | enters _ _ ht =>
      refine (ht.meets hc s).bind fun r s _ => ?_
      exact (enterWs_meets cfg addr r (fun _ _ _ _ => rfl) s).mono fun _ _ _ => trivial
  | forwards hrequest ht =>
      refine (giveAway_forwards_nothing cfg sink addr s).bind fun _ s _ => ?_
      cases ht with
      | punchHole ph =>
          exact (handleTcpPunchHoleRequest_refused cfg rs addr ph ws (hmsg ph hrequest) s).bind
            fun _ _ _ => trivial
      | relay rf =>
          exact (forwardRelay_forwards_nothing cfg addr rf s).bind fun _ _ _ => trivial
  | panics => trivial
  | setsKey => exact (note_forwards_nothing cfg rfl s).bind fun _ _ _ => trivial

/-- The step that hands a request over shows what its check will find. -/
theorem Gate.refuses_of_shut {op : Op} {bytes : Bytes} {e : Env} {s : Shared}
    (hop : (∃ conn, op = .handleTcp conn bytes) ∨ op = .handleUdp bytes)
    (hforce : gate.InForce cfg s) (hshut : gate.Shut cfg op e s) :
    ∀ ph, cfg.message bytes = some (.punchHoleRequest ph) → gate.Refuses cfg ph := by
  intro ph hph
  cases gate with
  | login => trivial
  | licence => obtain ⟨conn, rfl⟩ | rfl := hop <;> exact ⟨hforce, hshut ph hph⟩

theorem handleTcp_forwards_nothing (conn : ConnId) (bytes : Bytes)
    (sink : Option Sink) (addr : SocketAddr) (ws : Bool) (s : Shared) :
    (handleTcp cfg rs conn bytes sink addr ws).Meets (gateContract cfg gate)
      (fun _ _ => True) s := by
  rintro e s' - ⟨hforce, hshut, -⟩
  refine ⟨rfl, handleTcpMessage_forwards_nothing cfg rs conn sink addr ws ?_ s'⟩
  exact Gate.refuses_of_shut cfg (.inl ⟨conn, rfl⟩) hforce hshut

theorem handleUdp_forwards_nothing (bytes : Bytes) (addr : SocketAddr) (s : Shared) :
    (handleUdp cfg rs bytes addr).Meets (gateContract cfg gate)
      (fun _ _ => True) s := by
  have hc := gateContract_answering cfg gate
  rintro e s - ⟨hforce, hshut, -⟩
  refine ⟨rfl, handleUdpMessage_meets cfg rs addr hc (fun ph hph s => ?_) s⟩
  have hrefuses : gate.Refuses cfg ph := Gate.refuses_of_shut cfg (.inr rfl) hforce hshut ph hph
  exact handleUdpPunchHoleRequest_refused cfg rs addr ph hrefuses s

/-- Behind the gate no connection forwards anything, whatever its sink is. -/
theorem gateContract_serving (conn : ConnId) (addr : SocketAddr) :
    Serving (gateContract cfg gate) cfg rs conn addr fun _ => True where
  answering := gateContract_answering cfg gate
  notes op _ _ h := by cases op <;> first | rfl | cases h
  closes _ _ := rfl
  start _ _ := trivial
  same _ _ := trivial
  handles bytes sink ws s _ := by
    refine (handleTcp_forwards_nothing cfg rs conn bytes sink addr ws s).mono ?_
    exact fun _ _ _ _ => trivial

theorem Job.task_forwards_nothing (job : Job) (s : Shared) :
    (job.task cfg).Meets (gateContract cfg gate) (fun _ _ => True) s := by
  cases job with
  | stream rs conn addr stream =>
      exact (gateContract_serving cfg rs conn addr).handleListenerInner stream s
  | datagram rs bytes addr =>
      exact (handleUdp_forwards_nothing cfg rs bytes addr s).bind fun _ _ _ => trivial

end gate

/-! ## The result -/

/-- **Access gate.** In every run, whatever else the server is doing: where
the gate is in force at a client's steps and none of them opens it, none of
them forwards a session, provided its relay requests name no peer that is in
memory. -/
theorem client_forwards_nothing (cfg : Config) {ι : Type} [DecidableEq ι]
    (jobs : ι → Job) (s : Shared) {es} {q} (h : (server cfg jobs s).Run es q)
    (client : ι → Prop) (gate : Gate)
    (hforce : ∀ i ev, (i, ev) ∈ es → client i → gate.InForce cfg ev.pre)
    (hshut : ∀ i ev, (i, ev) ∈ es → client i → gate.Shut cfg ev.op ev.env ev.pre)
    (hmisses : ∀ i ev, (i, ev) ∈ es → client i → ev.op.RelayMisses ev.pre) :
    ∀ i ev, (i, ev) ∈ es → client i → ev.op.forwards = false := by
  intro i ev hev hi
  have hown : ev ∈ own i es := mem_own.mpr hev
  refine Task.Meets.path (c := gateContract cfg gate) (fun _ _ => trivial)
    (h.path i) (Job.task_forwards_nothing cfg (jobs i) s) ?_ ev hown
  intro ev hev
  have hmem := mem_own.mp hev
  exact ⟨hforce i ev hmem hi, hshut i ev hmem hi, hmisses i ev hmem hi⟩

/-! A server that asks for a key and for a login, a peer that registers, and
a client that sends one message with neither. -/

def gateConfig (msg : Union) : Config where
  x := .sample [([0], .registerPk { id := "123456", uuid := [1], pk := [2] }), ([1], msg)]
  key := "key"
  secret := "secret"

def gateServer (msg : Union) : Pool Bool Env Op Shared fun _ => Unit :=
  server (gateConfig msg)
    (fun isClient => if isClient then .stream {} 0 ⟨.v4 2, 50001⟩ (.tcp [[1]])
      else .datagram {} [0] ⟨.v4 1, 50000⟩)
    { Shared.start .empty with mustLogin := true }

/-- The peer registers, then the client is served. -/
def gateSchedule : List (Bool × Env) :=
  List.replicate 13 (false, { now := 0 }) ++ List.replicate 8 (true, { now := 0 })

def gateRun (msg : Union) : List (Bool × Event Env Op Shared) :=
  ((gateServer msg).play gateSchedule).1

theorem gateConfig_shut {msg : Union}
    (hmsg : ∀ ph, msg = .punchHoleRequest ph → ph.licenceKey ≠ "key") (gate : Gate)
    (op : Op) (e : Env) (s : Shared) : gate.Shut (gateConfig msg) op e s := by
  have hkey (bytes : Bytes) (ph : PunchHoleRequest)
      (h : (gateConfig msg).message bytes = some (.punchHoleRequest ph)) :
      ph.licenceKey ≠ "key" := by
    have hmem := Config.mem_of_message_sample h
    simp only [List.mem_cons, Prod.mk.injEq, reduceCtorEq, and_false, false_or,
      List.not_mem_nil, or_false] at hmem
    exact hmsg ph hmem.2.symm
  cases gate with
  | licence => cases op <;> first | trivial | exact fun ph => hkey _ ph
  | login => cases op <;> first | trivial | exact fun claims => nofun

theorem client_forwards_nothing_punchHoleRequest :
    (gateRun (.punchHoleRequest { id := "123456" })).filter
      (fun x => x.1 && x.2.op.forwards) = [] := by
  have hmisses : ∀ y ∈ gateRun (.punchHoleRequest { id := "123456" }),
      y.1 = true → y.2.op.RelayMisses y.2.pre := by decide
  have hnothing := client_forwards_nothing _ _ _
    (Pool.play_run (gateServer (.punchHoleRequest { id := "123456" })) gateSchedule)
    (· = true) .licence (fun _ _ _ _ => (by decide : "key" ≠ ""))
    (fun _ _ _ _ => gateConfig_shut (by rintro ph ⟨⟩; decide) _ _ _ _)
    fun i ev hev => hmisses (i, ev) hev
  rw [List.filter_eq_nil_iff]
  rintro ⟨i, ev⟩ hev hboth
  simp only [Bool.and_eq_true] at hboth
  have hforwards : ev.op.forwards = false := hnothing i ev hev hboth.1
  simp [hforwards] at hboth

/-- A relay request with neither key nor token is sent to the peer. -/
theorem requestRelay_passes_gates :
    ∃ es q, (gateServer (.requestRelay { id := "123456" })).Run es q
      ∧ (∀ (gate : Gate) i ev, (i, ev) ∈ es → i = true →
          gate.InForce (gateConfig (.requestRelay { id := "123456" })) ev.pre
          ∧ gate.Shut (gateConfig (.requestRelay { id := "123456" })) ev.op ev.env ev.pre)
      ∧ ∃ ev, (true, ev) ∈ es ∧ ev.op.forwards = true := by
  refine ⟨_, _, Pool.play_run _ gateSchedule, ?_, ?_⟩
  · intro gate i ev hev _
    refine ⟨?_, gateConfig_shut (fun _ h => by cases h) _ _ _ _⟩
    cases gate with
    | licence => exact (by decide : "key" ≠ "")
    | login =>
        have hlogin : ∀ y ∈ gateRun (.requestRelay { id := "123456" }),
            y.2.pre.mustLogin = true := by decide
        exact ⟨hlogin (i, ev) hev, (by decide : "secret" ≠ "")⟩
  · have hsent : ∃ y ∈ gateRun (.requestRelay { id := "123456" }),
        y.1 = true ∧ y.2.op.forwards = true := by decide
    obtain ⟨⟨i, ev⟩, hev, rfl, hforwards⟩ := hsent
    exact ⟨ev, hev, hforwards⟩

end KustDesk
