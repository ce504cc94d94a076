import KustDesk.Hbbs
import KustDesk.Sinks
import KustDesk.Takeover

/-!
# KustDesk — HbbsSteps

What the tasks of hbbs do, one step at a time: what the label of a step tells,
what a command may do, and what the main task owes to the others.
-/

namespace KustDesk

open Async

/-! ## What a step does -/

/-- What the command makes of the settings, with its other words. -/
def CmdWord.run (e : Env) (s : Shared) : CmdWord → List String → Shared
  | .ipBlocker, fds =>
    { s with pm := { s.pm with ipBlocker := (s.pm.ipBlocker.command e.now fds).2 } }
  | .ipChanges, fds =>
    { s with pm := { s.pm with ipChanges := (s.pm.ipChanges.command e.now fds).2 } }
  | .alwaysUseRelay, arg :: _ => { s with alwaysUseRelay := isYes arg }
  | .mustLogin, arg :: _ => { s with mustLogin := isYes arg }
  | _, _ => s

/-- What a step makes of the process, as far as its label tells. -/
def HbbsOp.effect (x : External) (op : HbbsOp) (e : Env) (w w' : Hbbs) : Prop :=
  match op with
  | .server op => ∃ shared, op.effect w.shared shared
      ∧ w' = (HbbsOp.server op).queues e { w with shared }
  | .setting word => ∃ fds, w' = { w with shared := word.run e w.shared fds }
  | .tell d => w' = if e.fails then w else w.post d
  | .tick => w' = { w with main := w.main.tick }
  | .recv => w' = (w.receive x).2
  | .handled => ∃ rs, w' = { w with main := { w.main with rs } }
  | .failed failure => w' = { w with main := { w.main with failure } }
  | .recreate => ∃ failure recreated, w' = { w with main := { w.main with failure, recreated } }
  | .probed k host ok => w' = { w with main := w.main.probed k host ok }
  | .checked k => w' = { w with main := w.main.checked k }
  | _ => w' = w

@[simp] theorem HbbsOp.queues_shared (op : HbbsOp) (e : Env) (w : Hbbs) :
    (op.queues e w).shared = w.shared := by
  unfold HbbsOp.queues
  split
  · split <;> rfl
  · rfl

/-- The channel is the main task's only field that a server's step may change. -/
theorem HbbsOp.queues_main (op : HbbsOp) (e : Env) (w : Hbbs) :
    ∃ rx, (op.queues e w).main = { w.main with rx } := by
  unfold HbbsOp.queues
  split
  · split
    · exact ⟨w.main.rx, rfl⟩
    · exact ⟨_, rfl⟩
  · exact ⟨w.main.rx, rfl⟩

@[simp] theorem HbbsOp.queues_rs (op : HbbsOp) (e : Env) (w : Hbbs) :
    (op.queues e w).main.rs = w.main.rs := by
  obtain ⟨rx, hmain⟩ := op.queues_main e w
  rw [hmain]

/-- A step does what its label tells. -/
def HbbsEffect (x : External) (ev : HbbsEvent) : Prop := ev.op.effect x ev.env ev.pre ev.post

/-- The step is one of the server, and does what its label tells. -/
structure ServerEffect (ev : HbbsEvent) : Prop where
  label : ∃ op, ev.op = .server op
  effect : ∀ x, HbbsEffect x ev

theorem inHbbs_effect {α : Type} {t : ServerTask α}
    (ht : t.All fun ev => ev.op.effect ev.pre ev.post) : (inHbbs t).All ServerEffect := by
  refine Task.All.also (P := fun ev => ∃ op shared, ev.op = .server op
    ∧ op.effect ev.pre.shared shared ∧ ev.post = { ev.pre with shared }) ?_ ?_
  · induction t with
    | done a => trivial
    | abort why => trivial
    | step op f k ih =>
        intro e w
        obtain ⟨heffect, hk⟩ := ht e w.shared
        exact ⟨⟨op, _, rfl, heffect, rfl⟩, ih e w.shared hk⟩
  · rintro op e w w' ⟨op', shared, rfl, heffect, hpost⟩
    dsimp only at hpost heffect
    subst hpost
    exact ⟨⟨op', rfl⟩, fun x => ⟨shared, heffect, rfl⟩⟩

/-- Without a sink to keep or an address to spare, the contract of the server
tells the effects. -/
theorem effect_of_delivers {α : Type} {cfg : Config} {owner : Option (ConnId × SocketAddr)}
    {Q : α → Shared → Prop} {t : ServerTask α} {s : Shared}
    (ht : t.Meets (delivery cfg (fun _ _ => True) owner none) Q s) :
    t.All fun ev => ev.op.effect ev.pre ev.post := by
  induction t generalizing s with
  | done a => trivial
  | abort why => trivial
  | step op f k ih =>
      intro e s'
      obtain ⟨hguar, hk⟩ := ht e s' ⟨fun _ _ _ => trivial, fun _ _ _ => trivial⟩ nofun
      exact ⟨hguar.1, ih e s' hk⟩

/-! ## What a command does -/

/-- What the command sends to the main task. -/
@[irreducible] def cmdData (cmd : String) : List Data :=
  match cmdWords cmd with
  | word :: arg :: _ =>
    if word ∈ CmdWord.relayServers.names ++ CmdWord.alwaysUseRelay.names then
      [.relayServers0 arg]
    else []
  | _ => []

/-- A step of the command. -/
inductive CmdStep (cmd : String) (ev : Event Env CmdOp Shared) : Prop
  | rotate (hop : ev.op = .server .rotate)
      (hpost : ev.post = { ev.pre with rotationRelayServer := ev.pre.rotationRelayServer.next })
  | setting (word : CmdWord) (fds : List String) (hcmd : CmdIs cmd word fds)
      (hop : ev.op = .setting word) (hpost : ev.post = word.run ev.env ev.pre fds)

theorem getRelayServer_heeds (rs : RendezvousServer) (es : List (Event Env Op Shared)) :
    rs.getRelayServer.Heeds (fun _ ev => ev.op = .rotate
      ∧ ev.post = { ev.pre with rotationRelayServer := ev.pre.rotationRelayServer.next })
      (fun _ _ => True) es := by
  refine Task.All.heeds ?_ (getRelayServer_noAbort rs) es
  unfold RendezvousServer.getRelayServer
  split
  · trivial
  · split
    · exact Task.all_unwrap _ _
    · exact .bind ((Task.all_act _ _).mpr fun e s => ⟨rfl, rfl⟩) fun i => Task.all_unwrap _ _

theorem command_heeds {α : Type} {t : ServerTask α} {es : List (Event Env Op Shared)}
    (ht : t.Heeds (fun _ ev => ev.op = .rotate
      ∧ ev.post = { ev.pre with rotationRelayServer := ev.pre.rotationRelayServer.next })
      (fun _ _ => True) es) {cmd : String} (es' : List (Event Env CmdOp Shared)) :
    t.command.Heeds (fun _ ev => CmdStep cmd ev) (fun _ _ => True) es' := by
  induction t generalizing es es' with
  | done a => trivial
  | abort why => exact ht
  | step op f k ih =>
      intro e s
      obtain ⟨⟨hop, hpost⟩, hk⟩ := ht e s
      exact ⟨.rotate (congrArg CmdOp.server hop) hpost, ih e s hk _⟩

theorem mem_cmdData {cmd : String} {d : Data} : d ∈ cmdData cmd ↔ ∃ arg rest,
    d = .relayServers0 arg
      ∧ (CmdIs cmd .relayServers (arg :: rest) ∨ CmdIs cmd .alwaysUseRelay (arg :: rest)) := by
  unfold cmdData CmdIs
  constructor
  · intro h
    split at h
    · rename_i word arg rest hwords
      rw [List.mem_ite_nil_right, List.mem_append, List.mem_singleton] at h
      obtain ⟨hword, rfl⟩ := h
      exact ⟨arg, rest, rfl, hword.imp (fun h => ⟨word, h, hwords⟩) fun h => ⟨word, h, hwords⟩⟩
    · cases h
  · rintro ⟨arg, rest, rfl, ⟨w, hw, hwords⟩ | ⟨w, hw, hwords⟩⟩
    · rw [hwords]
      simp [hw]
    · rw [hwords]
      simp [hw]

theorem CmdIs.cmdData {cmd : String} {word : CmdWord} {fds : List String} (h : CmdIs cmd word fds) :
    cmdData cmd = if word = .relayServers ∨ word = .alwaysUseRelay then
      fds.head?.toList.map .relayServers0 else [] := by
  obtain ⟨w, hw, hwords⟩ := h
  have hnames (word' : CmdWord) : w ∈ word'.names ↔ word = word' := by
    rw [← CmdWord.ofString_eq_some, CmdWord.ofString_eq_some.mpr hw, Option.some.injEq]
  unfold KustDesk.cmdData
  rw [hwords]
  cases fds with
  | nil => simp
  | cons arg rest => simp [hnames]

theorem checkCmd_heeds {rs : RendezvousServer} {cmd : String} {t : CmdTask (CmdReply × List Data)}
    (ht : checkCmd rs cmd = t) (es : List (Event Env CmdOp Shared)) :
    t.Heeds (fun _ ev => CmdStep cmd ev) (fun _ r => r.2 = cmdData cmd) es := by
  subst ht
  unfold checkCmd
  cases hwords : cmdWords cmd with
  | nil =>
      show [] = cmdData cmd
      rw [cmdData, hwords]
  | cons w fds =>
      dsimp only
      cases hword : CmdWord.ofString w with
      | none =>
          have hnames (word : CmdWord) : w ∉ word.names := fun h => by
            cases hword.symm.trans (CmdWord.ofString_eq_some.mpr h)
          show [] = cmdData cmd
          rw [cmdData, hwords]
          cases fds with
          | nil => rfl
          | cons arg rest => simp [hnames]
      | some word =>
          have his : CmdIs cmd word fds := ⟨w, CmdWord.ofString_eq_some.mp hword, hwords⟩
          have hdata := his.cmdData
          generalize cmdData cmd = data at hdata ⊢
          subst hdata
          cases word with
          | help => rfl
          | relayServers =>
              cases fds with
              | nil => rfl
              | cons arg rest => rfl
          | ipBlocker => exact fun e s => ⟨.setting _ _ his rfl rfl, rfl⟩
          | ipChanges => exact fun e s => ⟨.setting _ _ his rfl rfl, rfl⟩
          | alwaysUseRelay =>
              cases fds with
              | nil => exact fun e s => ⟨.setting _ _ his rfl rfl, rfl⟩
              | cons arg rest => exact fun e s => ⟨.setting _ _ his rfl rfl, rfl⟩
          | mustLogin =>
              cases fds with
              | nil => exact fun e s => ⟨.setting _ _ his rfl rfl, rfl⟩
              | cons arg rest => exact fun e s => ⟨.setting _ _ his rfl rfl, rfl⟩
          | testGeo =>
              rw [if_neg (by simp)]
              dsimp only
              split
              · refine (command_heeds (getRelayServer_heeds rs []) es).bind fun es r _ => rfl
              · rfl

/-- A step of the command, in the process. -/
inductive HbbsCmdStep (cmd : String) (ev : HbbsEvent) : Prop
  | rotate (hop : ev.op = .server .rotate) (hpost : ev.post = { ev.pre with shared :=
      { ev.pre.shared with rotationRelayServer := ev.pre.shared.rotationRelayServer.next } })
  | setting (word : CmdWord) (fds : List String) (hcmd : CmdIs cmd word fds)
      (hop : ev.op = .setting word)
      (hpost : ev.post = { ev.pre with shared := word.run ev.env ev.pre.shared fds })

theorem cmdInHbbs_heeds {cmd : String} {data : List Data} {t : CmdTask (CmdReply × List Data)}
    {es' : List (Event Env CmdOp Shared)}
    (ht : t.Heeds (fun _ ev => CmdStep cmd ev) (fun _ r => r.2 = data) es') (es : List HbbsEvent) :
    ((t.lift Hbbs.sharedPart CmdOp.inHbbs).also HbbsOp.queues).Heeds
      (fun _ ev => HbbsCmdStep cmd ev) (fun _ r => r.2 = data) es := by
  induction t generalizing es es' with
  | done a => exact ht
  | abort why => exact ht
  | step op f k ih =>
      intro e w
      obtain ⟨hstep, hk⟩ := ht e w.shared
      refine ⟨?_, ih e w.shared hk _⟩
      cases hstep with
      | rotate hop hpost =>
          dsimp only at hop hpost
          subst hop
          exact .rotate rfl (congrArg (fun shared => { w with shared }) hpost)
      | setting word fds hcmd hop hpost =>
          dsimp only at hop hpost
          subst hop
          exact .setting word fds hcmd rfl (congrArg (fun shared => { w with shared }) hpost)

theorem hbbsCheckCmd_heeds (rs : RendezvousServer) (cmd : String) (es : List HbbsEvent) :
    (hbbsCheckCmd rs cmd).Heeds (fun _ ev => HbbsCmdStep cmd ev)
      (fun _ r => r.2 = cmdData cmd) es := by
  unfold hbbsCheckCmd
  -- the text of the command is not to be looked into
  generalize hcheck : checkCmd rs cmd = t
  exact cmdInHbbs_heeds (checkCmd_heeds hcheck []) es

/-! ## What runs beside the main task -/

/-- A step of what runs beside the main task. -/
inductive HbbsJobStep (cfg : Config) (job : HbbsJob) (ev : HbbsEvent) : Prop
  | accept (conn : ConnId) (hop : ev.op = .accept conn) (hpost : ev.post = ev.pre)
  | server (c : Connection) (hjob : job = .connection c) (hserver : ServerEffect ev)
  | note (c : NatConnection) (hjob : job = .natPort c)
      (hop : (∃ data, ev.op = .read data) ∨ (∃ bytes, ev.op = .first bytes)
        ∨ ∃ res, ev.op = .reply res) (hpost : ev.post = ev.pre)
  | command (c : NatConnection) (cmd : String) (hjob : job = .natPort c)
      (hlocal : c.isLocal cfg = true) (hcmd : c.command = some cmd) (hstep : HbbsCmdStep cmd ev)
  | tell (c : NatConnection) (cmd : String) (d : Data) (hjob : job = .natPort c)
      (hlocal : c.isLocal cfg = true) (hcmd : c.command = some cmd) (hd : d ∈ cmdData cmd)
      (hop : ev.op = .tell d) (hpost : ev.post = if ev.env.fails then ev.pre else ev.pre.post d)
  | answer (c : NatConnection) (hjob : job = .natPort c) (hforeign : c.isLocal cfg = false)
      (hop : (∃ op, ev.op = .server (.pm op))
        ∨ ∃ conn msg wire, ev.op = .server (.sinkSend .direct conn msg wire))
      (hpost : ev.post = ev.pre)
  | probe (k : Nat) (host : String) (ok : Bool) (hjob : job = .probe k host ok)
      (hop : ev.op = .probed k host ok)
      (hpost : ev.post = { ev.pre with main := ev.pre.main.probed k host ok })
  | check (k : Nat) (hjob : job = .check k) (hop : ev.op = .checked k)
      (hpost : ev.post = { ev.pre with main := ev.pre.main.checked k })

theorem tellAll_all {ds : List Data} {P : HbbsEvent → Prop} (hP : ∀ d ∈ ds, ∀ e w,
    P ⟨.tell d, e, w, if e.fails then w else w.post d⟩) : (tellAll ds).All P := by
  induction ds with
  | nil => trivial
  | cons d rest ih =>
      refine .bind ((Task.all_act _ _).mpr fun e w => hP d (by simp) e w) fun _ => ?_
      exact ih fun d' hd' => hP d' (List.mem_cons_of_mem d hd')

/-- The step looks a peer up or writes to the connection, and changes nothing. -/
structure NatStep (ev : Event Env Op Shared) : Prop where
  op : (∃ op, ev.op = .pm op) ∨ ∃ conn msg wire, ev.op = .sinkSend .direct conn msg wire
  post : ev.post = ev.pre

theorem Sink.send_natStep (x : External) (sink : Sink) (msg : Union) :
    (sink.send x .direct msg).All NatStep := by
  have hnote (conn : ConnId) (wire : Bytes) :
      (note (.sinkSend .direct conn msg wire)).All NatStep :=
    (Task.all_look _ _).mpr fun _ _ => ⟨.inr ⟨conn, msg, wire, rfl⟩, rfl⟩
  obtain hsend | ⟨wire, y, -, hsend⟩ := sink.send_cases x .direct msg
  · rw [hsend]
    trivial
  · rw [hsend]
    exact (hnote sink.conn wire).bind fun _ => trivial

theorem liftPm_natStep {α : Type} {t : PmTask α} (ht : t.All fun ev => ev.post = ev.pre) :
    (liftPm t).All NatStep := by
  induction t with
  | done a => trivial
  | abort why => trivial
  | step op f k ih =>
      intro e s
      obtain ⟨hpost, hk⟩ := ht e s.pm
      exact ⟨⟨.inl ⟨op, rfl⟩, congrArg (fun pm => { s with pm }) hpost⟩, ih e s.pm hk⟩

theorem answerNat_natStep (cfg : Config) (c : NatConnection) (msg : Option Union) :
    (answerNat cfg c msg).All NatStep := by
  unfold answerNat
  split
  · exact .bind (Sink.send_natStep cfg.x _ _) fun _ => trivial
  · refine .bind (liftPm_natStep (peersOnlineState_looks _)) fun states => ?_
    exact .bind (Sink.send_natStep cfg.x _ _) fun _ => trivial
  · trivial

theorem inHbbs_natStep {α : Type} {t : ServerTask α} (ht : t.All NatStep) :
    (inHbbs t).All fun ev => ((∃ op, ev.op = .server (.pm op))
      ∨ ∃ conn msg wire, ev.op = .server (.sinkSend .direct conn msg wire)) ∧ ev.post = ev.pre := by
  unfold inHbbs
  induction t with
  | done a => trivial
  | abort why => trivial
  | step op f k ih =>
      intro e w
      obtain ⟨⟨hop, hpost⟩, hk⟩ := ht e w.shared
      refine ⟨?_, ih e w.shared hk⟩
      have hshared : { w with shared := f e w.shared } = w :=
        congrArg (fun shared => { w with shared }) hpost
      dsimp only at hop
      rcases hop with ⟨op', rfl⟩ | ⟨conn, msg, wire, rfl⟩
      · exact ⟨.inl ⟨op', rfl⟩, hshared⟩
      · exact ⟨.inr ⟨conn, msg, wire, rfl⟩, hshared⟩

theorem hbbsNote_all {op : HbbsOp} {P : HbbsEvent → Prop} (hP : ∀ e w, P ⟨op, e, w, w⟩) :
    (hbbsNote op).All P := (Task.all_look _ _).mpr hP

theorem serveCommand_steps {cfg : Config} {c : NatConnection} {rs : RendezvousServer} {cmd : String}
    (hlocal : c.isLocal cfg = true) (hcmd : c.command = some cmd) :
    (serveCommand rs cmd).All (HbbsJobStep cfg (.natPort c)) := by
  unfold serveCommand
  have hcheck := hbbsCheckCmd_heeds rs cmd []
  generalize hbbsCheckCmd rs cmd = t, ([] : List HbbsEvent) = es at hcheck ⊢
  induction t generalizing es with
  | done r =>
      obtain ⟨res, queued⟩ := r
      replace hcheck : queued = cmdData cmd := hcheck
      have htell : (tellAll queued).All (HbbsJobStep cfg (.natPort c)) :=
        tellAll_all fun d hd e w => .tell c cmd d rfl hlocal hcmd (hcheck ▸ hd) rfl rfl
      refine htell.bind fun _ => ?_
      exact hbbsNote_all fun e w => .note c rfl (.inr (.inr ⟨res, rfl⟩)) rfl
  | abort why => trivial
  | step op f k ih =>
      intro e w
      obtain ⟨hstep, hk⟩ := hcheck e w
      exact ⟨.command c cmd rfl hlocal hcmd hstep, ih e w _ hk⟩

/-- Every task beside the main one takes such steps only. -/
theorem HbbsJob.task_steps (cfg : Config) (job : HbbsJob) :
    (job.task cfg).All (HbbsJobStep cfg job) := by
  cases job with
  | connection c =>
      refine .bind ((Task.all_look _ _).mpr fun e w => .accept c.conn rfl rfl) fun rs => ?_
      have heffect := effect_of_delivers
        ((delivery_serving cfg rs c.conn c.addr).handleListenerInner c.stream (.start .empty))
      refine (inHbbs_effect heffect).mono fun ev hev => .server c rfl hev
  | natPort c =>
      refine .bind ((Task.all_look _ _).mpr fun e w => .accept c.conn rfl rfl) fun rs => ?_
      cases hlocal : c.isLocal cfg with
      | true =>
          rw [if_pos rfl]
          refine .bind (hbbsNote_all fun e w => .note c rfl (.inl ⟨_, rfl⟩) rfl) fun _ => ?_
          cases hcmd : c.command with
          | none => trivial
          | some cmd => exact serveCommand_steps hlocal hcmd
      | false =>
          rw [if_neg (by simp)]
          refine .bind (hbbsNote_all fun e w => .note c rfl (.inr (.inl ⟨_, rfl⟩)) rfl) fun _ => ?_
          have hanswer := inHbbs_natStep (answerNat_natStep cfg c (c.first.bind cfg.message))
          exact hanswer.mono fun ev hev => .answer c rfl hlocal hev.1 hev.2
  | probe k host ok => exact (Task.all_act _ _).mpr fun e w => .probe k host ok rfl rfl rfl
  | check k => exact (Task.all_act _ _).mpr fun e w => .check k rfl rfl rfl

/-! ## The main task -/

/-- A `ConfigureUpdate` from the host itself gives the server a new serial and
new rendezvous servers. -/
def RendezvousServer.Configures (cfg : Config) (addr : SocketAddr) (bytes : Bytes)
    (rs rs' : RendezvousServer) : Prop :=
  ∃ cu, cfg.message bytes = some (.configureUpdate cu)
    ∧ (cfg.x.tryIntoV4 addr).ip.isLoopback = true ∧ rs.inner.serial < cu.serial
    ∧ rs' = { rs with
        inner := { rs.inner with serial := cu.serial }
        rendezvousServers := cu.rendezvousServers.filter fun s =>
          s ≠ "" && testIfValidServer cfg.x s }

/-- What `handle_udp` may return. -/
def Handles (cfg : Config) (addr : SocketAddr) (bytes : Bytes) (rs : RendezvousServer)
    (r : Except Unit RendezvousServer) : Prop :=
  ∀ rs', r = .ok rs' → rs' = rs ∨ rs.Configures cfg addr bytes rs'

theorem handleUdp_handles (cfg : Config) (rs : RendezvousServer) (bytes : Bytes)
    (addr : SocketAddr) (s : Shared) :
    (handleUdp cfg rs bytes addr).Meets (.free Env Op Shared)
      (fun r _ => Handles cfg addr bytes rs r) s := by
  have hok : Handles cfg addr bytes rs (.ok rs) := fun rs' h => .inl (Except.ok.inj h).symm
  have herror : Handles cfg addr bytes rs (.error ()) := fun rs' h => by cases h
  refine (Task.meets_free (note _) s).bind fun _ s _ => ?_
  have hcases := handleUdpMessage_cases cfg rs addr (cfg.message bytes)
  generalize handleUdpMessage cfg rs addr (cfg.message bytes) = t at hcases
  cases hcases with
  | answers ht =>
      refine (ht.meets free_answering s).mono fun r _ hr => ?_
      rcases hr with rfl | rfl
      · exact hok
      · exact herror
  | punches =>
      refine (Task.meets_free _ s).bind fun loaded s _ => ?_
      refine (Task.meets_free _ s).bind fun r s _ => ?_
      cases r with
      | ok _ => exact hok
      | error _ =>
          cases loaded with
          | true => exact herror
          | false => exact hok
  | configures hmsg hlocal hserial =>
      intro rs' h
      exact .inr ⟨_, hmsg, hlocal, hserial, (Except.ok.inj h).symm⟩

/-- What the main task counts on and owes: the server is its own, and where
`handle_udp` is back, another one is due to a datagram. -/
def mainContract (cfg : Config) (turns : List Ready) : Contract Env HbbsOp Hbbs where
  rely w w' := w'.main.rs = w.main.rs
  given _ _ _ := True
  guar op _ w w' := op = .handled → w' = w ∨ ∃ bytes addr rs, .datagram bytes addr ∈ turns
    ∧ w.main.rs.Configures cfg addr bytes rs ∧ w' = { w with main := { w.main with rs } }

theorem inHbbs_mainMeets {α : Type} {cfg : Config} {turns : List Ready} {rs : RendezvousServer}
    {Q : α → Prop} {t : ServerTask α} {s : Shared}
    (ht : t.Meets (.free Env Op Shared) (fun a _ => Q a) s) {w : Hbbs} (hw : w.main.rs = rs) :
    (inHbbs t).Meets (mainContract cfg turns) (fun a w' => Q a ∧ w'.main.rs = rs) w := by
  unfold inHbbs
  induction t generalizing s w with
  | done a => exact ⟨ht, hw⟩
  | abort why => trivial
  | step op f k ih =>
      intro e w' hrely _
      obtain ⟨-, hk⟩ := ht e w'.shared trivial trivial
      refine ⟨fun h => (by cases h), ih e w'.shared hk ?_⟩
      have hrs : w'.main.rs = rs := hrely.trans hw
      exact (HbbsOp.queues_rs _ _ _).trans hrs

theorem restart_meets {cfg : Config} {turns : List Ready} (failure : LoopFailure) (w : Hbbs) :
    (restart failure).Meets (mainContract cfg turns) (fun _ _ => True) w :=
  fun _ _ _ _ => ⟨fun h => (by cases h), fun _ _ _ _ => ⟨fun h => (by cases h), trivial⟩⟩

theorem forward_meets {cfg : Config} {turns : List Ready} (d : Option Data) (w : Hbbs) :
    (forward d).Meets (mainContract cfg turns) (fun _ _ => True) w := by
  unfold forward
  split
  · exact fun e w _ _ => ⟨fun h => (by cases h), trivial⟩
  · trivial

theorem loopTurn_meets {cfg : Config} {turns : List Ready} {ready : Ready} (h : ready ∈ turns)
    (w : Hbbs) : (loopTurn cfg ready).Meets (mainContract cfg turns) (fun _ _ => True) w := by
  cases ready with
  | tick => exact fun e w _ _ => ⟨fun h => (by cases h), trivial⟩
  | recv =>
      intro e w _ _
      exact ⟨fun h => (by cases h), (forward_meets _ _).bind fun _ _ _ => trivial⟩
  | datagram bytes addr =>
      intro e w₁ _ _
      refine ⟨fun h => (by cases h), ?_⟩
      refine (inHbbs_mainMeets (handleUdp_handles cfg w₁.main.rs bytes addr w₁.shared) rfl).bind
        fun r w₂ hr => ?_
      obtain ⟨hhandles, hrs⟩ := hr
      cases r with
      | error _ => exact restart_meets _ w₂
      | ok rs =>
          intro e w₃ hrely _
          have hrs₃ : w₃.main.rs = w₁.main.rs := hrely.trans hrs
          refine ⟨fun _ => ?_, trivial⟩
          rcases hhandles rs rfl with rfl | hconfigures
          · exact .inl (by rw [← hrs₃])
          · exact .inr ⟨bytes, addr, rs, h, hrs₃ ▸ hconfigures, rfl⟩
  | failed failure => exact restart_meets failure w

theorem mainLoop_meets (cfg : Config) {turns rest : List Ready} (h : rest ⊆ turns) (w : Hbbs) :
    (mainLoop cfg rest).Meets (mainContract cfg turns) (fun _ _ => True) w := by
  induction rest generalizing w with
  | nil => trivial
  | cons ready rest ih =>
      obtain ⟨hready, hrest⟩ := List.cons_subset.mp h
      refine (loopTurn_meets hready w).bind fun goesOn w' _ => ?_
      split
      · exact ih hrest w'
      · trivial

/-! ## Effects -/

/-- The labels of the main task. -/
def HbbsOp.ofMain : HbbsOp → Bool
  | .server _ | .tick | .recv | .send .. | .datagram .. | .handled | .failed _ | .recreate => true
  | _ => false

/-- A step of the main task does what its label tells. -/
structure MainEffect (x : External) (ev : HbbsEvent) : Prop where
  ofMain : ev.op.ofMain = true
  effect : HbbsEffect x ev

theorem restart_effect (x : External) (failure : LoopFailure) :
    (restart failure).All (MainEffect x) := by
  refine .bind ((Task.all_act _ _).mpr fun e w => ⟨rfl, rfl⟩) fun _ => ?_
  refine (Task.all_act _ _).mpr fun e w => ⟨rfl, ?_⟩
  cases hfails : e.fails with
  | true => exact ⟨w.main.failure, w.main.recreated, rfl⟩
  | false => exact ⟨none, w.main.recreated ++ [failure], rfl⟩

theorem forward_effect (x : External) (d : Option Data) : (forward d).All (MainEffect x) := by
  unfold forward
  split
  · exact fun e w => ⟨⟨rfl, rfl⟩, trivial⟩
  · trivial

theorem ServerEffect.main {ev : HbbsEvent} (h : ServerEffect ev) (x : External) :
    MainEffect x ev := by
  obtain ⟨op, hop⟩ := h.label
  exact ⟨by rw [hop]; rfl, h.effect x⟩

theorem loopTurn_effect (cfg : Config) (ready : Ready) :
    (loopTurn cfg ready).All (MainEffect cfg.x) := by
  cases ready with
  | tick => exact fun e w => ⟨⟨rfl, rfl⟩, trivial⟩
  | recv => exact fun e w => ⟨⟨rfl, rfl⟩, (forward_effect cfg.x _).bind fun _ => trivial⟩
  | datagram bytes addr =>
      refine .bind ((Task.all_look _ _).mpr fun e w => ⟨rfl, rfl⟩) fun rs => ?_
      have hudp := effect_of_delivers (handleUdp_delivers cfg rs bytes addr (.start .empty))
      refine .bind ((inHbbs_effect hudp).mono fun ev hev => hev.main cfg.x) fun r => ?_
      cases r with
      | ok rs => exact fun e w => ⟨⟨rfl, rs, rfl⟩, trivial⟩
      | error _ => exact restart_effect cfg.x .udpSocket
  | failed failure => exact restart_effect cfg.x failure

theorem mainLoop_effect (cfg : Config) (turns : List Ready) :
    (mainLoop cfg turns).All (MainEffect cfg.x) := by
  induction turns with
  | nil => trivial
  | cons ready rest ih =>
      refine (loopTurn_effect cfg ready).bind fun goesOn => ?_
      split
      · exact ih
      · trivial

theorem HbbsJobStep.effect {cfg : Config} {job : HbbsJob} {ev : HbbsEvent}
    (h : HbbsJobStep cfg job ev) : HbbsEffect cfg.x ev := by
  obtain ⟨op, e, w, w'⟩ := ev
  unfold HbbsEffect
  cases h with
  | accept conn hop hpost =>
      dsimp only at hop
      subst hop
      exact hpost
  | server c hjob hserver => exact hserver.effect cfg.x
  | note c hjob hop hpost =>
      dsimp only at hop
      rcases hop with ⟨_, rfl⟩ | ⟨_, rfl⟩ | ⟨_, rfl⟩
      · exact hpost
      · exact hpost
      · exact hpost
  | command c cmd hjob hlocal hcmd hstep =>
      cases hstep with
      | rotate hop hpost =>
          dsimp only at hop hpost
          subst hop hpost
          exact ⟨_, rfl, rfl⟩
      | setting word fds hcmd hop hpost =>
          dsimp only at hop hpost
          subst hop hpost
          exact ⟨fds, rfl⟩
  | tell c cmd d hjob hlocal hcmd hd hop hpost =>
      dsimp only at hop
      subst hop
      exact hpost
  | answer c hjob hforeign hop hpost =>
      dsimp only at hop hpost
      subst hpost
      rcases hop with ⟨op, rfl⟩ | ⟨conn, msg, wire, rfl⟩
      · exact ⟨w'.shared, ⟨w'.shared.pm, rfl⟩, rfl⟩
      · exact ⟨w'.shared, rfl, rfl⟩
  | probe k host ok hjob hop hpost =>
      dsimp only at hop
      subst hop
      exact hpost
  | check k hjob hop hpost =>
      dsimp only at hop
      subst hop
      exact hpost

theorem ServerEffect.rs {ev : HbbsEvent} (h : ServerEffect ev) :
    ev.post.main.rs = ev.pre.main.rs := by
  obtain ⟨op, hop⟩ := h.label
  have heffect := h.effect (.sample [])
  unfold HbbsEffect at heffect
  rw [hop] at heffect
  obtain ⟨shared, -, hpost⟩ := heffect
  rw [hpost, HbbsOp.queues_rs]

theorem MainTask.probed_checks (m : MainTask) (k : Nat) (host : String) (ok : Bool) :
    ∃ checks, m.probed k host ok = { m with checks } := by
  unfold probed
  split
  · split
    · exact ⟨_, rfl⟩
    · exact ⟨m.checks, rfl⟩
  · exact ⟨m.checks, rfl⟩

/-- A check that ends may put its result into the channel. -/
theorem MainTask.checked_report (m : MainTask) (k : Nat) :
    ∃ checks, m.checked k = { m with checks } ∨ ∃ rs,
      m.checked k = { m with checks, rx := m.rx ++ [.relayServers rs] } := by
  unfold checked
  split
  · split
    · unfold RelayCheck.report
      split
      · exact ⟨m.checks.eraseIdx k, .inl (by simp)⟩
      · exact ⟨_, .inr ⟨_, rfl⟩⟩
    · exact ⟨m.checks, .inl rfl⟩
  · exact ⟨m.checks, .inl rfl⟩

/-- What runs beside the main task leaves the server to it. -/
theorem HbbsJobStep.rs {cfg : Config} {job : HbbsJob} {ev : HbbsEvent}
    (h : HbbsJobStep cfg job ev) : ev.post.main.rs = ev.pre.main.rs := by
  cases h with
  | accept conn hop hpost => rw [hpost]
  | server c hjob hserver => exact hserver.rs
  | note c hjob hop hpost => rw [hpost]
  | command c cmd hjob hlocal hcmd hstep =>
      cases hstep with
      | rotate hop hpost => rw [hpost]
      | setting word fds hcmd hop hpost => rw [hpost]
  | tell c cmd d hjob hlocal hcmd hd hop hpost =>
      rw [hpost]
      split <;> rfl
  | answer c hjob hforeign hop hpost => rw [hpost]
  | probe k host ok hjob hop hpost =>
      obtain ⟨checks, hmain⟩ := ev.pre.main.probed_checks k host ok
      rw [hpost, hmain]
  | check k hjob hop hpost =>
      obtain ⟨checks, hmain | ⟨rs, hmain⟩⟩ := ev.pre.main.checked_report k
      · rw [hpost, hmain]
      · rw [hpost, hmain]

end KustDesk
