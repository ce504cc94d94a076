import KustDesk.Blocking
import KustDesk.RelayCmd
import KustDesk.UsageTable

/-!
# KustDesk — Hbbr

The relay server as a whole: `start`, the connections that `io_loop` accepts,
and what `handle_connection` makes of each. A connection from the host itself
is a command; any other is looked up in `BLOCKLIST` once, and then asks for a
relay. All of them run at the same time.
-/

namespace KustDesk

open Async Codec

/-! ## Start -/

/-- The file of a list: the first word of every line, an empty one too. -/
def readList (contents : String) : Finset String :=
  ((contents.toList.splitOn '\n').filterMap fun x =>
    (cmdWords (String.ofList x)).head?).toFinset

/-- The globals when `start` has read the two files, where they are there. -/
def HbbrShared.start (blacklist blocklist : Option String) : HbbrShared where
  relay :=
    { blacklist := (blacklist.map readList).getD ∅, blocklist := (blocklist.map readList).getD ∅ }

/-- The environment variable of a setting. -/
def RelaySetting.variable : RelaySetting → String
  | .downgradeThreshold => "DOWNGRADE_THRESHOLD"
  | .downgradeStartCheck => "DOWNGRADE_START_CHECK"
  | .limitSpeed => "LIMIT_SPEED"
  | .totalBandwidth => "TOTAL_BANDWIDTH"
  | .singleBandwidth => "SINGLE_BANDWIDTH"

/-- The part of `check_params` for some of the settings. -/
def checkParam (cfg : HbbrConfig) (vars : String → Option String) :
    List RelaySetting → HbbrTask Unit
  | [] => return ()
  | setting :: rest => do
    match (vars setting.variable).bind (setting.parse cfg) with
    | some n => storeSetting setting n
    | none => pure ()
    checkParam cfg vars rest

/-- `check_params`. -/
def checkParams (cfg : HbbrConfig) (vars : String → Option String) : HbbrTask Unit :=
  checkParam cfg vars
    [.downgradeThreshold, .downgradeStartCheck, .limitSpeed, .totalBandwidth, .singleBandwidth]

/-! ## Connections -/

/-- A connection that a listener has accepted. -/
structure Accepted where
  /-- From the listener for WebSockets. -/
  ws : Bool
  addr : SocketAddr
  /-- The headers of the upgrade request. -/
  headers : HeaderMap := []
  /-- What a read yields within a second. -/
  data : Option Bytes := none
  /-- The first message within half a minute. -/
  first : Option Bytes := none
  outcomes : List Select := []

namespace Accepted

/-- Its IP address as text, the form that the blocklist has. -/
def ipText (cfg : HbbrConfig) (c : Accepted) : String := canonicalIp cfg.x c.addr

/-- The connection is taken for one from the host itself. -/
def isLocal (cfg : HbbrConfig) (c : Accepted) : Bool :=
  !c.ws && (cfg.x.tryIntoV4 c.addr).ip.isLoopback

/-- The text of a command, 1024 bytes of it at most. -/
def command (c : Accepted) : Option String := (c.data.map (·.take 1024)).bind fromUtf8

/-- The connection as `make_pair` has it. -/
def job (c : Accepted) : RelayJob where
  isWs := c.ws
  addr := c.addr
  first := c.first
  outcomes := c.outcomes

/-- The connection as `make_pair_` has it. -/
def upgraded (c : Accepted) : RelayJob := { c.job with addr := c.job.upgradedAddr c.headers }

end Accepted

/-- The command, and the reply to it. -/
def runCommand (cfg : HbbrConfig) (cmd : String) : HbbrTask Unit := do
  let res ← relayCheckCmd cfg cmd
  hbbrNote (.reply res)

/-- The task of a connection from the host. -/
def commandTask (cfg : HbbrConfig) (c : Accepted) : HbbrTask Unit := do
  hbbrNote (.read c.data)
  match c.command with
  | some cmd => runCommand cfg cmd
  | none => return ()

/-- `handle_connection`, with the task it spawns. -/
def handleConnection (cfg : HbbrConfig) (conn : ConnId) (c : Accepted) : HbbrTask Unit :=
  if c.isLocal cfg then commandTask cfg c
  else do
    let blocked ← Task.look (.enter (c.ipText cfg)) fun _ s =>
      decide (c.ipText cfg ∈ s.relay.blocklist)
    if blocked then return ()
    else (makePair cfg.toRelayConfig conn c.headers c.job).lift HbbrShared.relayPart .relay

/-- What runs in the process: a connection, or `io_loop` that begins, at first
or because a listener has failed. -/
inductive HbbrJob where
  | connection (c : Accepted)
  | ioLoop (vars : String → Option String)

def HbbrJob.task (cfg : HbbrConfig) (conn : ConnId) : HbbrJob → HbbrTask Unit
  | .connection c => handleConnection cfg conn c
  | .ioLoop vars => checkParams cfg vars

/-- The process. -/
def hbbr (cfg : HbbrConfig) (jobs : ConnId → HbbrJob) (s : HbbrShared) :
    Pool ConnId Env HbbrOp HbbrShared fun _ => Unit where
  tasks conn := (jobs conn).task cfg conn
  shared := s

/-! ## What a connection does -/

/-- A step of the relay server in the process. -/
def HbbrEvent.relay (ev : HbbrEvent) : Option RelayEvent :=
  match ev.op with
  | .relay op => some ⟨op, ev.env, ev.pre.relay, ev.post.relay⟩
  | _ => none

theorem sees_relay : Sees HbbrShared.relayPart HbbrOp.relay HbbrEvent.relay := ⟨fun _ _ _ _ => rfl⟩

/-- The last note of the usage has not been made. -/
def Unfinished (es : List RelayEvent) : Prop := ∀ ev ∈ es, ∀ id, ev.op ≠ .leave id

/-- A step of a relay leaves the lists and the settings alone, asks for no
other address than its own, and is the last note of the usage where the look
before it has found that address in the blocklist. Nothing comes after that
note. -/
structure Curbed (ip : String) (es : List RelayEvent) (ev : RelayEvent) : Prop where
  keeps : ∃ peers usage, ev.post = { ev.pre with peers, usage }
  own : ∀ ip', ev.op = .blocklist ip' → ip' = ip
  barred : Barred ip es → ∃ id, ev.op = .leave id
  unfinished : Unfinished es

/-- The task goes on: it has not found its address, and has not left. -/
def GoesOn (ip : String) (es : List RelayEvent) : Prop := ¬ Barred ip es ∧ Unfinished es

section Curbed
variable {ip : String} {es : List RelayEvent}

theorem Unfinished.snoc {ev : RelayEvent} (hes : Unfinished es) (hev : ∀ id, ev.op ≠ .leave id) :
    Unfinished (es ++ [ev]) := by
  intro ev' hev'
  rcases List.mem_append.mp hev' with hbefore | hlast
  · exact hes ev' hbefore
  · rw [List.mem_singleton.mp hlast]
    exact hev

theorem GoesOn.snoc {ev : RelayEvent} (hes : GoesOn ip es)
    (hblock : ∀ ip', ev.op = .blocklist ip' → ip ∉ ev.pre.blocklist)
    (hleave : ∀ id, ev.op ≠ .leave id) : GoesOn ip (es ++ [ev]) := by
  constructor
  · rw [barred_snoc]
    rintro ⟨ip', hop, hip⟩
    exact hblock ip' hop hip
  · exact hes.2.snoc hleave

theorem curbed_act {β γ : Type} {op : RelayOp} {f : Env → RelayShared → β × RelayShared}
    {g : β → RelayTask γ} {Q : List RelayEvent → γ → Prop}
    (hop : (∀ ip', op ≠ .blocklist ip') ∧ ∀ id, op ≠ .leave id)
    (hkeeps : ∀ e s, ∃ peers usage, (f e s).2 = { s with peers, usage }) (hes : GoesOn ip es)
    (hg : ∀ b es, GoesOn ip es → (g b).Heeds (Curbed ip) Q es) :
    (Task.act op f >>= g).Heeds (Curbed ip) Q es := by
  refine Task.Heeds.act_bind fun e s => ⟨⟨hkeeps e s, ?_, fun h => (hes.1 h).elim, hes.2⟩, ?_⟩
  · exact fun ip' h => (hop.1 ip' h).elim
  · exact hg _ _ (hes.snoc (fun ip' h => (hop.1 ip' h).elim) hop.2)

theorem curbed_look {β γ : Type} {op : RelayOp} {f : Env → RelayShared → β} {g : β → RelayTask γ}
    {Q : List RelayEvent → γ → Prop} (hop : (∀ ip', op ≠ .blocklist ip') ∧ ∀ id, op ≠ .leave id)
    (hes : GoesOn ip es) (hg : ∀ b es, GoesOn ip es → (g b).Heeds (Curbed ip) Q es) :
    (Task.look op f >>= g).Heeds (Curbed ip) Q es :=
  curbed_act hop (fun _ s => ⟨s.peers, s.usage, rfl⟩) hes hg

theorem relayChunk_curbed (wrap : Nat → Nat) (side : Side) (bytes : Bytes) (v : RelayVars)
    (hes : GoesOn ip es) :
    (relayChunk wrap side bytes v).Heeds (Curbed ip) (fun es _ => GoesOn ip es) es := by
  refine curbed_look (by simp) hes fun now es hes => ?_
  refine curbed_look (by simp) hes fun _ es hes => ?_
  refine curbed_look (by simp) hes fun _ es hes => ?_
  split
  · exact curbed_look (by simp) hes fun sent es hes => hes
  · exact hes

/-- A sample after which the loop goes on has not found the address. -/
theorem relaySample_curbed (wrap : Nat → Nat) (id : String) (threshold : Nat) (v : RelayVars)
    (hes : GoesOn ip es) : (relaySample wrap ip id threshold v).Heeds (Curbed ip)
      (fun es o => (o.isSome = true → GoesOn ip es) ∧ Unfinished es) es := by
  refine curbed_look (by simp) hes fun n es hes => ?_
  split
  · refine Task.Heeds.look_bind fun e s =>
      ⟨⟨⟨s.peers, s.usage, rfl⟩, by simp, fun h => (hes.1 h).elim, hes.2⟩, ?_⟩
    by_cases hip : ip ∈ s.blocklist
    · rw [if_pos (decide_eq_true hip)]
      exact ⟨by simp, hes.2.snoc (by simp)⟩
    · rw [if_neg (by simpa using hip)]
      refine curbed_look (by simp) (hes.snoc (fun _ _ => hip) (by simp)) fun y es hes => ?_
      exact curbed_act (by simp) (fun _ s => ⟨s.peers, _, rfl⟩) hes fun start es hes =>
        ⟨fun _ => hes, hes.2⟩
  · exact ⟨fun _ => hes, hes.2⟩

theorem relay_curbed (cfg : RelayConfig) (addr : SocketAddr) (id : String)
    (outcomes : List Select) {es : List RelayEvent} (hes : GoesOn addr.ip.toString es) :
    (relay cfg addr id outcomes).Heeds (Curbed addr.ip.toString) (fun es _ => Unfinished es)
      es := by
  have hfree (op : RelayOp) (hop : (∀ ip', op ≠ .blocklist ip') ∧ ∀ id, op ≠ .leave id)
      (es : List RelayEvent) (e : Env)
      (s : RelayShared) (hes : GoesOn addr.ip.toString es) :
      Curbed addr.ip.toString es ⟨op, e, s, s⟩ ∧ GoesOn addr.ip.toString (es ++ [⟨op, e, s, s⟩]) :=
    curbed_look (Q := fun es _ => GoesOn addr.ip.toString es) (f := fun _ _ => ())
      (g := fun _ => .done ()) hop hes (fun _ _ h => h) e s
  refine curbed_look (by simp) hes fun y es hes => ?_
  refine relayLoop_rule (J := fun es _ => GoesOn addr.ip.toString es) (fun _ _ _ h => h.2)
    ?_ ?_ ?_ ?_ outcomes hes
  · intro es v side bytes hes
    refine (relayChunk_curbed _ side bytes v hes).mono fun es y h => ?_
    split
    · exact h
    · exact h.2
  · intro es v hes
    refine (relaySample_curbed _ id _ v hes).mono fun es o h => ?_
    cases o with
    | none => exact h.2
    | some v' => exact h.1 rfl
  · exact fun es v side e s hes => hfree _ (by simp) es e s hes
  · exact fun es v e s hes => hfree _ (by simp) es e s hes

theorem makePair_curbed (cfg : RelayConfig) (conn : ConnId) (job : RelayJob) :
    (makePair_ cfg conn job).Heeds (Curbed job.addr.ip.toString) (fun _ _ => True) [] := by
  refine curbed_look (by simp) ⟨by simp [Barred], by simp [Unfinished]⟩ fun _ es hes => ?_
  cases job.first.bind cfg.request with
  | none => trivial
  | some rf =>
      show Task.Heeds _ _ (if cfg.key ≠ "" && rf.licenceKey ≠ cfg.key then _ else _) _
      split
      · trivial
      split
      · refine curbed_act (by simp) (fun _ s => ⟨_, s.usage, rfl⟩) hes fun peer es hes => ?_
        cases peer with
        | some peer =>
            refine curbed_act (by simp) (fun _ s => ⟨s.peers, _, rfl⟩) hes fun _ es hes => ?_
            refine curbed_look (by simp) hes fun _ es hes => ?_
            refine (relay_curbed cfg job.addr _ _ hes).bind fun es _ hes e s => ⟨?_, trivial⟩
            exact ⟨⟨s.peers, _, rfl⟩, by simp, fun _ => ⟨_, rfl⟩, hes⟩
        | none =>
            refine curbed_act (by simp) (fun _ s => ⟨_, s.usage, rfl⟩) hes fun _ es hes => ?_
            refine curbed_look (by simp) hes fun _ es hes => ?_
            exact curbed_act (by simp) (fun _ s => ⟨_, s.usage, rfl⟩) hes fun _ es hes => trivial
      · trivial

end Curbed

/-- A step of a connection that has been admitted. -/
def RelayStep (cfg : HbbrConfig) (conn : ConnId) (c : Accepted) (es : List RelayEvent)
    (ev : RelayEvent) : Prop :=
  PairStep cfg.toRelayConfig conn c.upgraded es ev ∧ UsageStep c.upgraded.usageId es ev
    ∧ Curbed c.upgraded.addr.ip.toString es ev

/-- What a connection does next, by the steps it has taken. -/
inductive ConnStep (cfg : HbbrConfig) (conn : ConnId) (c : Accepted) (es : List HbbrEvent)
    (ev : HbbrEvent) : Prop
  | enter (hlocal : c.isLocal cfg = false) (hes : es = []) (hop : ev.op = .enter (c.ipText cfg))
      (hpost : ev.post = ev.pre)
  | relay {look rest} (hlocal : c.isLocal cfg = false) (hes : es = look :: rest)
      (hlook : look.op = .enter (c.ipText cfg))
      (hadmitted : c.ipText cfg ∉ look.pre.relay.blocklist)
      (hstep : Within HbbrShared.relayPart .relay HbbrEvent.relay (RelayStep cfg conn c) es ev)
  | read (hlocal : c.isLocal cfg = true) (hop : ev.op = .read c.data) (hpost : ev.post = ev.pre)
  | command {cmd} (hlocal : c.isLocal cfg = true) (hcmd : c.command = some cmd)
      (hstep : CommandStep cfg cmd es ev)

/-- A step of `check_params`. -/
def ParamStep (cfg : HbbrConfig) (vars : String → Option String) (ev : HbbrEvent) : Prop :=
  ∃ setting n, ev.op = .store setting n ∧ ev.post = ev.pre.store setting n
    ∧ (vars setting.variable).bind (setting.parse cfg) = some n

def JobStep (cfg : HbbrConfig) (conn : ConnId) (job : HbbrJob) (es : List HbbrEvent)
    (ev : HbbrEvent) : Prop :=
  match job with
  | .connection c => ConnStep cfg conn c es ev
  | .ioLoop vars => ParamStep cfg vars ev

/-- A command that is over has made its edits. -/
def JobEnd (cfg : HbbrConfig) (job : HbbrJob) (es : List HbbrEvent) : Prop :=
  ∀ c cmd, job = .connection c → c.isLocal cfg = true → c.command = some cmd →
    ∀ list, editsOf list es = cmdEdits list cmd

section
variable {cfg : HbbrConfig} {conn : ConnId} {c : Accepted} {es : List HbbrEvent} {ev : HbbrEvent}

theorem runCommand_heeds (cfg : HbbrConfig) (cmd : String) (es : List HbbrEvent) :
    (runCommand cfg cmd).Heeds (CommandStep cfg cmd)
      (fun es' _ => ∀ list, editsOf list es' = editsOf list es ++ cmdEdits list cmd) es := by
  have hcommand := relayCheckCmd_heeds cfg cmd es
  unfold runCommand
  generalize relayCheckCmd cfg cmd = t at hcommand ⊢
  refine hcommand.bind fun es' res h e s => ⟨⟨rfl, by simp, by simp, ?_, by simp⟩, fun list => ?_⟩
  · rintro reply hop
    cases hop
    exact h.reported
  · rw [editsOf_snoc_other rfl, h.edited]

theorem commandTask_heeds (hlocal : c.isLocal cfg = true) :
    (commandTask cfg c).Heeds (ConnStep cfg conn c) (fun es _ => JobEnd cfg (.connection c) es)
      [] := by
  refine Task.Heeds.look_bind fun e s => ⟨.read hlocal rfl rfl, ?_⟩
  cases hcmd : c.command with
  | none =>
      rintro c' cmd hc - hcmd'
      cases hc
      rw [hcmd] at hcmd'
      cases hcmd'
  | some cmd =>
      refine (runCommand_heeds cfg cmd _).imp (fun es ev h => .command hlocal hcmd h) ?_
      rintro es - h c' cmd' hc - hcmd' list
      cases hc
      cases hcmd.symm.trans hcmd'
      rw [h list]
      exact List.nil_append _

theorem makePair_relayStep (cfg : HbbrConfig) (conn : ConnId) (c : Accepted) :
    (makePair cfg.toRelayConfig conn c.headers c.job).Heeds (RelayStep cfg conn c)
      (fun _ _ => True) [] :=
  ((makePair_heeds cfg.toRelayConfig conn c.upgraded).and
    ((makePair_usage cfg.toRelayConfig conn c.upgraded).and
      (makePair_curbed cfg.toRelayConfig conn c.upgraded))).mono fun _ _ _ => trivial

theorem handleConnection_heeds (cfg : HbbrConfig) (conn : ConnId) (c : Accepted) :
    (handleConnection cfg conn c).Heeds (ConnStep cfg conn c)
      (fun es _ => JobEnd cfg (.connection c) es) [] := by
  unfold handleConnection
  cases hlocal : c.isLocal cfg with
  | true => exact commandTask_heeds hlocal
  | false =>
      have hend (es : List HbbrEvent) : JobEnd cfg (.connection c) es := by
        rintro c' cmd hc hlocal'
        cases hc
        rw [hlocal] at hlocal'
        cases hlocal'
      refine Task.Heeds.look_bind fun e s => ⟨.enter hlocal rfl rfl rfl, ?_⟩
      by_cases hblocked : c.ipText cfg ∈ s.relay.blocklist
      · rw [if_pos (decide_eq_true hblocked)]
        exact hend _
      · rw [if_neg (by simpa using hblocked)]
        -- from here on the admission is the first step of the history
        have hlift := (Task.Heeds.lift sees_relay (makePair_relayStep cfg conn c) :
          Task.Heeds _ _ _ [⟨.enter (c.ipText cfg), e, s, s⟩])
        refine (hlift.invariant
          (J := fun es => ∃ rest, es = ⟨.enter (c.ipText cfg), e, s, s⟩ :: rest) ⟨[], rfl⟩ ?_).mono
          fun es _ _ => hend es
        rintro es ev ⟨rest, rfl⟩ hstep
        exact ⟨.relay hlocal rfl rfl hblocked hstep, rest ++ [ev], rfl⟩

theorem checkParam_heeds (cfg : HbbrConfig) (vars : String → Option String)
    (settings : List RelaySetting) (es : List HbbrEvent) :
    (checkParam cfg vars settings).Heeds (fun _ ev => ParamStep cfg vars ev) (fun _ _ => True)
      es := by
  induction settings generalizing es with
  | nil => trivial
  | cons setting rest ih =>
      unfold checkParam
      cases hvar : (vars setting.variable).bind (setting.parse cfg) with
      | none => exact ih es
      | some n => exact fun e s => ⟨⟨setting, n, rfl, rfl, hvar⟩, ih _⟩

theorem job_heeds (cfg : HbbrConfig) (conn : ConnId) (job : HbbrJob) :
    (job.task cfg conn).Heeds (JobStep cfg conn job) (fun es _ => JobEnd cfg job es) [] := by
  cases job with
  | connection c => exact handleConnection_heeds cfg conn c
  | ioLoop vars =>
      refine (checkParam_heeds cfg vars _ []).mono fun es _ _ => ?_
      rintro c cmd hc
      cases hc

end

end KustDesk
