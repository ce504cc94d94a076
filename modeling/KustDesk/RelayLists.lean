import KustDesk.Async.Added
import KustDesk.Hbbr

/-!
# KustDesk — RelayLists

Who may do what in the relay server, in every run of the process: relays only
for connections that were let in, lists and limits only by commands from the
host itself. What a command has put on a list stays there, and keeps the
address out, until a command that names it takes it off.
-/

namespace KustDesk

open Async

/-- The connection is from the host itself, with this command. -/
def Commands (cfg : HbbrConfig) (jobs : ConnId → HbbrJob) (i : ConnId) (cmd : String) : Prop :=
  ∃ c, jobs i = .connection c ∧ c.isLocal cfg = true ∧ c.command = some cmd

/-- The connection is not taken for one from the host, as no WebSocket is, even
from loopback; and its address was looked up among these steps and not on the
blocklist. -/
def LetIn (cfg : HbbrConfig) (jobs : ConnId → HbbrJob) (es : List (ConnId × HbbrEvent))
    (i : ConnId) (c : Accepted) : Prop :=
  jobs i = .connection c ∧ c.isLocal cfg = false
    ∧ ∃ look, (i, look) ∈ es ∧ look.op = .enter (c.ipText cfg)
      ∧ c.ipText cfg ∉ look.pre.relay.blocklist

/-! ## What a step does -/

section
variable {cfg : HbbrConfig} {conn : ConnId} {job : HbbrJob} {es : List HbbrEvent} {ev : HbbrEvent}

theorem Within.relayEffect {c : Accepted}
    (h : Within HbbrShared.relayPart .relay HbbrEvent.relay (RelayStep cfg conn c) es ev) :
    ∃ op peers usage, ev.op = .relay op ∧ ev.post = ev.pre.withRelay peers usage := by
  obtain ⟨⟨ev₀, hsee, -, -, hcurbed⟩, ⟨op, hop⟩, ⟨x, hx⟩⟩ := h
  obtain ⟨peers, usage, hkeeps⟩ := hcurbed.keeps
  obtain ⟨op', e, s, s'⟩ := ev
  obtain rfl : op' = .relay op := hop
  obtain rfl : s' = HbbrShared.relayPart.put x s := hx
  cases hsee
  refine ⟨op, peers, usage, rfl, ?_⟩
  rw [HbbrShared.withRelay]
  dsimp only at hkeeps ⊢
  rw [← hkeeps]
  rfl

theorem JobStep.effect (h : JobStep cfg conn job es ev) : HbbrEffect ev := by
  cases job with
  | connection c =>
      cases h with
      | enter _ _ hop hpost => simpa [HbbrEffect, hop] using hpost
      | relay _ _ _ _ hstep =>
          obtain ⟨op, peers, usage, hop, hpost⟩ := Within.relayEffect hstep
          unfold HbbrEffect
          rw [hop]
          exact ⟨peers, usage, hpost⟩
      | read _ hop hpost => simpa [HbbrEffect, hop] using hpost
      | command _ _ hstep => exact hstep.effect
  | ioLoop vars =>
      obtain ⟨setting, n, hop, hpost, -⟩ := h
      simpa [HbbrEffect, hop] using hpost

/-- What a step makes of a list is what its label says. -/
theorem HbbrEffect.edits (h : HbbrEffect ev) (list : IpList) :
    Edits (HbbrOp.editOf list) (fun s => s.list list) ev := by
  obtain ⟨op, e, s, s'⟩ := ev
  cases op with
  | relay op =>
      obtain ⟨peers, usage, hpost⟩ := h
      obtain rfl : s' = s.withRelay peers usage := hpost
      cases list <;> rfl
  | edit l edit =>
      obtain rfl : s' = s.setList l (edit.apply (s.list l)) := h
      cases l <;> cases list <;> simp [Edits, HbbrOp.editOf, HbbrShared.setList, HbbrShared.list]
  | store setting n =>
      obtain rfl : s' = s.store setting n := h
      cases setting <;> cases list <;> rfl
  | _ =>
      obtain rfl : s' = s := h
      rfl

/-- A list that a step changes is edited by it. -/
theorem HbbrEffect.changed_list (h : HbbrEffect ev) {list : IpList}
    (hne : ev.post.list list ≠ ev.pre.list list) :
    ∃ edit, ev.op = .edit list edit ∧ ev.post.list list = edit.apply (ev.pre.list list) := by
  have hedits := h.edits list
  unfold Edits at hedits
  cases hop : ev.op.editOf list with
  | none =>
      rw [hop] at hedits
      exact (hne hedits).elim
  | some edit =>
      rw [hop] at hedits
      exact ⟨edit, HbbrOp.editOf_eq_some.mp hop, hedits⟩

theorem HbbrShared.setting_store (s : HbbrShared) (setting setting' : RelaySetting) (n : Nat) :
    (s.store setting n).setting setting' = if setting = setting' then n else s.setting setting' := by
  cases setting <;> cases setting' <;> rfl

/-- A setting that a step changes is stored by it. -/
theorem HbbrEffect.changed_setting (h : HbbrEffect ev) {setting : RelaySetting}
    (hne : ev.post.setting setting ≠ ev.pre.setting setting) :
    ev.op = .store setting (ev.post.setting setting) := by
  obtain ⟨op, e, s, s'⟩ := ev
  cases op with
  | relay op =>
      obtain ⟨peers, usage, hpost⟩ := h
      obtain rfl : s' = s.withRelay peers usage := hpost
      cases setting <;> exact (hne rfl).elim
  | edit l edit =>
      obtain rfl : s' = s.setList l (edit.apply (s.list l)) := h
      cases l <;> cases setting <;> exact (hne rfl).elim
  | store setting' n =>
      obtain rfl : s' = s.store setting' n := h
      dsimp only at hne ⊢
      rw [HbbrShared.setting_store] at hne ⊢
      by_cases hsame : setting' = setting
      · simp [hsame]
      · simp [hsame] at hne
  | _ =>
      obtain rfl : s' = s := h
      exact (hne rfl).elim

/-- Only a relay changes what the relays share but for lists and settings. -/
theorem HbbrEffect.changed_relay (h : HbbrEffect ev)
    (hne : ev.post.relay.peers ≠ ev.pre.relay.peers ∨ ev.post.relay.usage ≠ ev.pre.relay.usage) :
    ∃ op, ev.op = .relay op := by
  obtain ⟨op, e, s, s'⟩ := ev
  cases op with
  | relay op => exact ⟨op, rfl⟩
  | edit l edit =>
      obtain rfl : s' = s.setList l (edit.apply (s.list l)) := h
      cases l <;> simp [HbbrShared.setList] at hne
  | store setting n =>
      obtain rfl : s' = s.store setting n := h
      cases setting <;> simp [HbbrShared.store] at hne
  | _ =>
      obtain rfl : s' = s := h
      simp at hne

/-- The pairing table is changed only for a request that is accepted. -/
theorem PairStep.accepts_of_changed {rcfg : RelayConfig} {rjob : RelayJob} {res : List RelayEvent}
    {rev : RelayEvent} (h : PairStep rcfg conn rjob res rev) (hne : rev.post.peers ≠ rev.pre.peers) :
    ∃ rf, rcfg.Accepts rjob rf := by
  cases h with
  | first _ hpeers => exact (hne hpeers).elim
  | take haccepts => exact ⟨_, haccepts⟩
  | wait took => exact ⟨_, took.accepts⟩
  | sleep took => exact ⟨_, took.accepts⟩
  | expire took => exact ⟨_, took.accepts⟩
  | enter took => exact ⟨_, took.accepts⟩
  | relay took => exact ⟨_, took.accepts⟩
  | inside hinside => exact (hne hinside.1).elim

/-- A step of a relay is one of a connection that was let in first. -/
theorem JobStep.of_relay {op : RelayOp} (h : JobStep cfg conn job es ev) (hop : ev.op = .relay op) :
    ∃ c look rest, job = .connection c ∧ c.isLocal cfg = false ∧ es = look :: rest
      ∧ look.op = .enter (c.ipText cfg) ∧ c.ipText cfg ∉ look.pre.relay.blocklist
      ∧ RelayStep cfg conn c (es.filterMap HbbrEvent.relay)
        ⟨op, ev.env, ev.pre.relay, ev.post.relay⟩ := by
  cases job with
  | connection c =>
      cases h with
      | enter _ _ hop' => simp [hop] at hop'
      | relay hlocal hes hlook hadmitted hstep =>
          obtain ⟨⟨ev₀, hsee, hrelay⟩, -, -⟩ := hstep
          rw [HbbrEvent.relay, hop] at hsee
          cases hsee
          exact ⟨c, _, _, rfl, hlocal, hes, hlook, hadmitted, hrelay⟩
      | read _ hop' => simp [hop] at hop'
      | command _ _ hstep => exact ((hstep.inside op "" none).1 hop).elim
  | ioLoop vars =>
      obtain ⟨setting, n, hop', -⟩ := h
      simp [hop] at hop'

theorem JobStep.of_edit {list : IpList} {edit : SetEdit String} (h : JobStep cfg conn job es ev)
    (hop : ev.op = .edit list edit) : ∃ c cmd, job = .connection c ∧ c.isLocal cfg = true
      ∧ c.command = some cmd ∧ edit ∈ cmdEdits list cmd := by
  cases job with
  | connection c =>
      cases h with
      | enter _ _ hop' => simp [hop] at hop'
      | relay _ _ _ _ hstep =>
          obtain ⟨op, hop'⟩ := hstep.label
          simp [hop] at hop'
      | read _ hop' => simp [hop] at hop'
      | command hlocal hcmd hstep => exact ⟨c, _, rfl, hlocal, hcmd, hstep.edit list edit hop⟩
  | ioLoop vars =>
      obtain ⟨setting, n, hop', -⟩ := h
      simp [hop] at hop'

theorem JobStep.of_store {setting : RelaySetting} {n : Nat} (h : JobStep cfg conn job es ev)
    (hop : ev.op = .store setting n) :
    (∃ c cmd, job = .connection c ∧ c.isLocal cfg = true ∧ c.command = some cmd
        ∧ CmdSets cfg cmd setting n)
      ∨ ∃ vars, job = .ioLoop vars ∧ (vars setting.variable).bind (setting.parse cfg) = some n := by
  cases job with
  | connection c =>
      cases h with
      | enter _ _ hop' => simp [hop] at hop'
      | relay _ _ _ _ hstep =>
          obtain ⟨op, hop'⟩ := hstep.label
          simp [hop] at hop'
      | read _ hop' => simp [hop] at hop'
      | command hlocal hcmd hstep => exact .inl ⟨c, _, rfl, hlocal, hcmd, hstep.store setting n hop⟩
  | ioLoop vars =>
      obtain ⟨setting', n', hop', -, hvar⟩ := h
      cases hop.symm.trans hop'
      exact .inr ⟨vars, rfl, hvar⟩

theorem JobStep.of_enter {ip : String} (h : JobStep cfg conn job es ev) (hop : ev.op = .enter ip) :
    es = [] ∧ ∃ c, job = .connection c ∧ ip = c.ipText cfg := by
  cases job with
  | connection c =>
      cases h with
      | enter _ hes hop' =>
          cases hop.symm.trans hop'
          exact ⟨hes, c, rfl, rfl⟩
      | relay _ _ _ _ hstep =>
          obtain ⟨op, hop'⟩ := hstep.label
          simp [hop] at hop'
      | read _ hop' => simp [hop] at hop'
      | command _ _ hstep => exact ((hstep.inside (.clock) ip none).2.1 hop).elim
  | ioLoop vars =>
      obtain ⟨setting, n, hop', -⟩ := h
      simp [hop] at hop'

theorem JobStep.of_reply {reply : RelayReply} (h : JobStep cfg conn job es ev)
    (hop : ev.op = .reply reply) : Reported es reply := by
  cases job with
  | connection c =>
      cases h with
      | enter _ _ hop' => simp [hop] at hop'
      | relay _ _ _ _ hstep =>
          obtain ⟨op, hop'⟩ := hstep.label
          simp [hop] at hop'
      | read _ hop' => simp [hop] at hop'
      | command _ _ hstep => exact hstep.reply reply hop
  | ioLoop vars =>
      obtain ⟨setting, n, hop', -⟩ := h
      simp [hop] at hop'

end

/-! ## Who may do what -/

section Run
variable {cfg : HbbrConfig} {jobs : ConnId → HbbrJob} {s : HbbrShared}
  {es es₁ es₂ : List (ConnId × HbbrEvent)} {q q₁ : Pool ConnId Env HbbrOp HbbrShared fun _ => Unit}

theorem hbbr_step (h : (hbbr cfg jobs s).Run es q) {i : ConnId} {ev : HbbrEvent}
    (hes : es = es₁ ++ (i, ev) :: es₂) : JobStep cfg i (jobs i) (own i es₁) ev :=
  (h.heeds fun i => job_heeds cfg i (jobs i)).1 es₁ i ev es₂ hes

/-- **Who may do what.** In every run of hbbr, what the relays share is changed
only by a connection from elsewhere that was looked up before and not on the
blocklist, and the pairing table only where its first message is a request
with the key; a list is edited only by a command from the host that says so;
and a setting takes a new value only from such a command, or from the
environment when `io_loop` begins. -/
theorem hbbr_authority (h : (hbbr cfg jobs s).Run es q) {i : ConnId} {ev : HbbrEvent}
    (hes : es = es₁ ++ (i, ev) :: es₂) :
    (ev.post.relay.peers ≠ ev.pre.relay.peers ∨ ev.post.relay.usage ≠ ev.pre.relay.usage →
      ∃ c, LetIn cfg jobs es₁ i c)
    ∧ (ev.post.relay.peers ≠ ev.pre.relay.peers →
      ∃ c rf, jobs i = .connection c ∧ cfg.toRelayConfig.Accepts c.upgraded rf)
    ∧ (∀ list, ev.post.list list ≠ ev.pre.list list → ∃ cmd, Commands cfg jobs i cmd
      ∧ ∃ edit ∈ cmdEdits list cmd, ev.post.list list = edit.apply (ev.pre.list list))
    ∧ ∀ setting, ev.post.setting setting ≠ ev.pre.setting setting →
      (∃ cmd, Commands cfg jobs i cmd ∧ CmdSets cfg cmd setting (ev.post.setting setting))
      ∨ ∃ vars, jobs i = .ioLoop vars
        ∧ (vars setting.variable).bind (setting.parse cfg) = some (ev.post.setting setting) := by
  have hstep := hbbr_step h hes
  refine ⟨fun hne => ?_, fun hne => ?_, fun list hne => ?_, fun setting hne => ?_⟩
  · obtain ⟨op, hop⟩ := hstep.effect.changed_relay hne
    obtain ⟨c, look, rest, hjob, hlocal, hown, hlook, hadmitted, -⟩ := hstep.of_relay hop
    exact ⟨c, hjob, hlocal, look, mem_own.mp (by simp [hown]), hlook, hadmitted⟩
  · obtain ⟨op, hop⟩ := hstep.effect.changed_relay (.inl hne)
    obtain ⟨c, -, -, hjob, -, -, -, -, hpair, -⟩ := hstep.of_relay hop
    obtain ⟨rf, haccepts⟩ := hpair.accepts_of_changed hne
    exact ⟨c, rf, hjob, haccepts⟩
  · obtain ⟨edit, hop, hpost⟩ := hstep.effect.changed_list hne
    obtain ⟨c, cmd, hjob, hlocal, hcmd, hedit⟩ := hstep.of_edit hop
    exact ⟨cmd, ⟨c, hjob, hlocal, hcmd⟩, edit, hedit, hpost⟩
  · rcases hstep.of_store (hstep.effect.changed_setting hne) with
      ⟨c, cmd, hjob, hlocal, hcmd, hsets⟩ | ⟨vars, hjob, hvar⟩
    · exact .inl ⟨cmd, ⟨c, hjob, hlocal, hcmd⟩, hsets⟩
    · exact .inr ⟨vars, hjob, hvar⟩

/-! A connection that asks for a relay, and commands from the host. -/

def hostConfig : HbbrConfig where
  x := .sample [([0], .requestRelay { uuid := "relay" })]
  downgradeThreshold := fun _ _ => 0
  hundredfold := fun _ => none
  mega := fun _ => none

def hostCommand (text : String) : Accepted :=
  { ws := false, addr := ⟨.v4 0x7F000001#32, 50000⟩, data := some (asciiBytes text) }

/-- A request for a relay, from `1.0.0.1`. -/
def visitor : Accepted :=
  { ws := false, addr := ⟨.v4 0x01000001#32, 50000⟩, first := some [0] }

/-- Two commands that run into one another, and connections from elsewhere. -/
def hostJobs : ConnId → HbbrJob
  | 0 => .connection (hostCommand "Ba 1.0.0.1|1.0.0.2")
  | 1 => .connection (hostCommand "Br 1.0.0.2")
  | _ => .connection visitor

def hosted : Pool ConnId Env HbbrOp HbbrShared fun _ => Unit :=
  hbbr hostConfig hostJobs (.start none none)

/-- Both commands are read, then their edits alternate. -/
def hostSchedule : List (ConnId × Env) :=
  atSeconds [(0, 0), (1, 0), (0, 1), (1, 1), (0, 2), (0, 3), (1, 3)]

/-- The first edit is by a command from the host. -/
theorem hbbr_authority_edit : ∃ es q i ev, hosted.Run (es ++ [(i, ev)]) q
    ∧ ev.post.list .blocklist = {"1.0.0.1"}
    ∧ ∃ cmd, Commands hostConfig hostJobs i cmd ∧ ∃ edit ∈ cmdEdits .blocklist cmd,
        ev.post.list .blocklist = edit.apply (ev.pre.list .blocklist) := by
  have hrun := Pool.play_run hosted (hostSchedule.take 3)
  have hlists : (hosted.play (hostSchedule.take 3)).1.map
      (fun x => (x.2.pre.list .blocklist, x.2.post.list .blocklist))
      = [(∅, ∅), (∅, ∅)] ++ [(∅, {"1.0.0.1"})] := by decide +kernel
  obtain ⟨es, last, hes, -, hlast⟩ := List.map_eq_append_iff.mp hlists
  obtain ⟨⟨i, ev⟩, rest, rfl, hev, hrest⟩ := List.map_eq_cons_iff.mp hlast
  rw [hes, List.map_eq_nil_iff.mp hrest] at hrun
  rw [Prod.mk.injEq] at hev
  have hedit := (hbbr_authority hrun rfl).2.2.1 .blocklist (by rw [hev.1, hev.2]; decide)
  exact ⟨es, _, i, ev, hrun, hev.2, hedit⟩

/-! ## What a command has done lasts -/

/-- No command that takes one of these steps decides so about the address. -/
def Unopposed (cfg : HbbrConfig) (jobs : ConnId → HbbrJob) (list : IpList) (ip : String)
    (inside : Bool) (es : List (ConnId × HbbrEvent)) : Prop :=
  ∀ i ev cmd, (i, ev) ∈ es → Commands cfg jobs i cmd →
    ∀ edit ∈ cmdEdits list cmd, edit.verdict ip ≠ some !inside

/-- A command has begun after these steps, is over, and decides so about the
address. -/
def CarriedOut (cfg : HbbrConfig) (jobs : ConnId → HbbrJob) (list : IpList) (ip : String)
    (inside : Bool) (es : List (ConnId × HbbrEvent))
    (q : Pool ConnId Env HbbrOp HbbrShared fun _ => Unit) : Prop :=
  ∃ i cmd, Commands cfg jobs i cmd ∧ own i es = [] ∧ q.tasks i = .done ()
    ∧ ∃ edit ∈ cmdEdits list cmd, edit.verdict ip = some inside

theorem edits_append (list : IpList) : edits (HbbrOp.editOf list) (es₁ ++ es₂)
    = edits (HbbrOp.editOf list) es₁ ++ edits (HbbrOp.editOf list) es₂ := List.filterMap_append

/-- A list is what the edits since then have made of it. -/
theorem list_eq_replay (h₁ : (hbbr cfg jobs s).Run es₁ q₁)
    (h : (hbbr cfg jobs s).Run (es₁ ++ es₂) q) (list : IpList) : q.shared.list list
      = SetEdit.replay (q₁.shared.list list) (edits (HbbrOp.editOf list) es₂) := by
  have hall (i : ConnId) : ((hbbr cfg jobs s).tasks i).All
      (Edits (HbbrOp.editOf list) fun s => s.list list) :=
    (job_heeds cfg i (jobs i)).all fun es ev hstep => hstep.effect.edits list
  have hafter := h.edited (g := fun s => s.list list) hall
  have hbefore := h₁.edited (g := fun s => s.list list) hall
  rw [hafter, edits_append, SetEdit.replay_append, hbefore]

theorem Unopposed.edits {list : IpList} {ip : String} {inside : Bool}
    (hkept : Unopposed cfg jobs list ip inside es₂) (h : (hbbr cfg jobs s).Run (es₁ ++ es₂) q) :
    ∀ edit ∈ edits (HbbrOp.editOf list) es₂, edit.verdict ip ≠ some !inside := by
  intro edit hedit
  obtain ⟨i, ev, hev, hop⟩ := mem_edits.mp hedit
  obtain ⟨a, b, rfl⟩ := List.append_of_mem hev
  have hes : es₁ ++ (a ++ (i, ev) :: b) = (es₁ ++ a) ++ (i, ev) :: b := by simp
  have hstep : JobStep cfg i (jobs i) (own i (es₁ ++ a)) ev := hbbr_step h hes
  obtain ⟨c, cmd, hjob, hlocal, hcmd, hmem⟩ := hstep.of_edit (HbbrOp.editOf_eq_some.mp hop)
  exact hkept i ev cmd hev ⟨c, hjob, hlocal, hcmd⟩ edit hmem

theorem CarriedOut.edits {list : IpList} {ip : String} {inside : Bool}
    (hcarried : CarriedOut cfg jobs list ip inside es₁ q)
    (h : (hbbr cfg jobs s).Run (es₁ ++ es₂) q) :
    ∃ edit ∈ edits (HbbrOp.editOf list) es₂, edit.verdict ip = some inside := by
  obtain ⟨i, cmd, ⟨c, hjob, hlocal, hcmd⟩, hbefore, hdone, edit, hedit, hverdict⟩ := hcarried
  have hend := (h.heeds fun i => job_heeds cfg i (jobs i)).2 i
  rw [hdone] at hend
  have hmade : editsOf list (own i (es₁ ++ es₂)) = cmdEdits list cmd :=
    hend c cmd hjob hlocal hcmd list
  rw [own_append, hbefore, List.nil_append] at hmade
  rw [← hmade, editsOf, List.mem_filterMap] at hedit
  obtain ⟨ev, hev, hop⟩ := hedit
  exact ⟨edit, mem_edits.mpr ⟨i, ev, mem_own.mp hev, hop⟩, hverdict⟩

/-- An address that no command takes off is still there. -/
theorem mem_of_unopposed (h₁ : (hbbr cfg jobs s).Run es₁ q₁)
    (h : (hbbr cfg jobs s).Run (es₁ ++ es₂) q) {list : IpList} {ip : String}
    (hkept : Unopposed cfg jobs list ip true es₂) (hip : ip ∈ q₁.shared.list list) :
    ip ∈ q.shared.list list := by
  rw [list_eq_replay h₁ h]
  exact SetEdit.mem_replay (hkept.edits h) (.inl hip)

/-- **Edits of other addresses are not lost.** However commands run into one
another, an address is on a list if it was there, or a command that is over
has put it there, and no command meanwhile takes it off; and likewise not on
it if it was not, or was taken off, and no command puts it there. -/
theorem lists_settle (h₁ : (hbbr cfg jobs s).Run es₁ q₁)
    (h : (hbbr cfg jobs s).Run (es₁ ++ es₂) q) (list : IpList) (ip : String) (inside : Bool)
    (hkept : Unopposed cfg jobs list ip inside es₂)
    (hstart : (ip ∈ q₁.shared.list list ↔ inside = true)
      ∨ CarriedOut cfg jobs list ip inside es₁ q) :
    ip ∈ q.shared.list list ↔ inside = true := by
  have hedits := hkept.edits h
  have hmade := hstart.imp_right fun hcarried => hcarried.edits h
  rw [list_eq_replay h₁ h]
  cases inside with
  | true =>
      exact iff_of_true (SetEdit.mem_replay hedits (hmade.imp_left fun hin => hin.mpr rfl)) rfl
  | false =>
      refine iff_of_false ?_ (by simp)
      refine SetEdit.not_mem_replay hedits (hmade.imp_left fun hout hip => ?_)
      simpa using hout.mp hip

theorem hostJobs_commands {i : ConnId} {cmd : String} (h : Commands hostConfig hostJobs i cmd) :
    i = 0 ∧ cmd = "Ba 1.0.0.1|1.0.0.2" ∨ i = 1 ∧ cmd = "Br 1.0.0.2" := by
  obtain ⟨c, hjob, hlocal, hcmd⟩ := h
  unfold hostJobs at hjob
  split at hjob
  · have htext : (hostCommand "Ba 1.0.0.1|1.0.0.2").command = some "Ba 1.0.0.1|1.0.0.2" := by
      decide +kernel
    cases hjob
    cases htext.symm.trans hcmd
    exact .inl ⟨rfl, rfl⟩
  · have htext : (hostCommand "Br 1.0.0.2").command = some "Br 1.0.0.2" := by decide +kernel
    cases hjob
    cases htext.symm.trans hcmd
    exact .inr ⟨rfl, rfl⟩
  · have hforeign : visitor.isLocal hostConfig = false := by decide +kernel
    cases hjob
    cases hforeign.symm.trans hlocal

/-- `1.0.0.1` is on the blocklist after the two commands. -/
theorem lists_settle_block : "1.0.0.1" ∈ (hosted.play hostSchedule).2.shared.list .blocklist := by
  have hrun := Pool.play_run hosted hostSchedule
  have hadds : cmdEdits .blocklist "Ba 1.0.0.1|1.0.0.2"
      = [.insert "1.0.0.1", .insert "1.0.0.2"] := by decide +kernel
  have hremoves : cmdEdits .blocklist "Br 1.0.0.2" = [.erase "1.0.0.2"] := by decide +kernel
  refine (lists_settle .start hrun .blocklist "1.0.0.1" true ?_ (.inr ?_)).mpr rfl
  · intro i ev cmd _ hcmd
    rcases hostJobs_commands hcmd with ⟨-, rfl⟩ | ⟨-, rfl⟩
    · rw [hadds]
      decide
    · rw [hremoves]
      decide
  · have hdone : ((hosted.play hostSchedule).2.tasks 0).result = some () := by decide +kernel
    refine ⟨0, "Ba 1.0.0.1|1.0.0.2", ⟨_, rfl, ?_, ?_⟩, rfl, Task.eq_done_of_result hdone,
      .insert "1.0.0.1", ?_, rfl⟩
    · decide +kernel
    · decide +kernel
    · rw [hadds]
      simp

/-! ## Who is blocked stays out -/

/-- While no command takes the address off, the blocklist has it at every step. -/
theorem blocked_at (h₁ : (hbbr cfg jobs s).Run es₁ q₁)
    (h : (hbbr cfg jobs s).Run (es₁ ++ es₂) q) {ip : String}
    (hblocked : ip ∈ q₁.shared.relay.blocklist)
    (hkept : Unopposed cfg jobs .blocklist ip true es₂) {a b : List (ConnId × HbbrEvent)}
    {i : ConnId} {ev : HbbrEvent} (hes : es₂ = a ++ (i, ev) :: b) :
    ip ∈ ev.pre.relay.blocklist := by
  have hcut : es₁ ++ es₂ = (es₁ ++ a) ++ (i, ev) :: b := by rw [hes, List.append_assoc]
  obtain ⟨q₂, h₂, hpre⟩ := h.cut hcut
  have hsofar : Unopposed cfg jobs .blocklist ip true a := fun j ev' cmd hev' =>
    hkept j ev' cmd (by rw [hes]; exact List.mem_append_left _ hev')
  have hmem : ip ∈ q₂.shared.list .blocklist := mem_of_unopposed h₁ h₂ hsofar hblocked
  rwa [hpre] at hmem

/-- The admission of a connection is its first step. -/
theorem enter_first (h : (hbbr cfg jobs s).Run es q) {i : ConnId} {look ev : HbbrEvent} {ip : String}
    {op : RelayOp} (hlook : (i, look) ∈ es) (henter : look.op = .enter ip) (hev : (i, ev) ∈ es)
    (hop : ev.op = .relay op) : ip ∉ look.pre.relay.blocklist := by
  obtain ⟨a, b, hes⟩ := List.append_of_mem hev
  obtain ⟨c, look', rest, hjob, -, hown, -, hadmitted, -⟩ := (hbbr_step h hes).of_relay hop
  obtain ⟨a', b', hes'⟩ := List.append_of_mem hlook
  obtain ⟨hnil, c', hjob', rfl⟩ := (hbbr_step h hes').of_enter henter
  cases hjob.symm.trans hjob'
  -- both are the first of the connection's own steps
  have hfirst : own i es = look' :: (rest ++ ev :: own i b) := by
    rw [hes, own_split, hown, List.cons_append]
  have hfirst' : own i es = look :: own i b' := by rw [hes', own_split, hnil, List.nil_append]
  obtain ⟨rfl, -⟩ := List.cons.inj (hfirst.symm.trans hfirst')
  exact hadmitted

/-- A relay that has looked the blocklist up takes relay steps only. -/
theorem curbed_after (h : (hbbr cfg jobs s).Run es q) {a b₁ b₂ : List (ConnId × HbbrEvent)}
    {i : ConnId} {c : Accepted} {look ev : HbbrEvent} {ip : String}
    (hes : es = a ++ (i, look) :: (b₁ ++ (i, ev) :: b₂)) (hjob : jobs i = .connection c)
    (hop : look.op = .relay (.blocklist ip)) :
    ∃ op, ev.op = .relay op ∧ Curbed c.upgraded.addr.ip.toString
      ((own i a).filterMap HbbrEvent.relay
        ++ ⟨.blocklist ip, look.env, look.pre.relay, look.post.relay⟩
          :: (own i b₁).filterMap HbbrEvent.relay) ⟨op, ev.env, ev.pre.relay, ev.post.relay⟩ := by
  obtain ⟨c', first, rest, hjob', hlocal, -⟩ := (hbbr_step h hes).of_relay hop
  cases hjob.symm.trans hjob'
  have hsee : HbbrEvent.relay look
      = some ⟨.blocklist ip, look.env, look.pre.relay, look.post.relay⟩ := by
    rw [HbbrEvent.relay, hop]
  have hcut : es = (a ++ (i, look) :: b₁) ++ (i, ev) :: b₂ := by simp [hes]
  have hstep : JobStep cfg i (jobs i) (own i (a ++ (i, look) :: b₁)) ev := hbbr_step h hcut
  have hrelay : ∃ op, ev.op = .relay op := by
    rw [hjob] at hstep
    cases hstep with
    | enter _ hnil =>
        rw [own_split] at hnil
        simp at hnil
    | relay _ _ _ _ hwithin => exact hwithin.label
    | read hlocal' => simp [hlocal] at hlocal'
    | command hlocal' => simp [hlocal] at hlocal'
  obtain ⟨op, hev⟩ := hrelay
  obtain ⟨c'', -, -, hjob'', -, -, -, -, -, -, hcurbed⟩ := hstep.of_relay hev
  cases hjob.symm.trans hjob''
  rw [own_split, List.filterMap_append, List.filterMap_cons_some hsee] at hcurbed
  exact ⟨op, hev, hcurbed⟩

/-- After a look that has found its address, a relay only leaves. -/
theorem leaves_after (h : (hbbr cfg jobs s).Run es q) {a b : List (ConnId × HbbrEvent)}
    {i : ConnId} {c : Accepted} {look ev : HbbrEvent} {ip : String}
    (hes : es = a ++ (i, look) :: b) (hjob : jobs i = .connection c)
    (hop : look.op = .relay (.blocklist ip))
    (hip : c.upgraded.addr.ip.toString ∈ look.pre.relay.blocklist) (hev : (i, ev) ∈ b) :
    ∃ id, ev.op = .relay (.leave id) := by
  -- the next step is the last note of the usage
  have hnext (b₁ b₂ : List (ConnId × HbbrEvent)) (ev : HbbrEvent) (hb : b = b₁ ++ (i, ev) :: b₂)
      (hown : own i b₁ = []) : ∃ id, ev.op = .relay (.leave id) := by
    obtain ⟨op, hev, hcurbed⟩ := curbed_after h (hb ▸ hes) hjob hop
    rw [hown] at hcurbed
    obtain ⟨id, hleave⟩ := hcurbed.barred ⟨_, _, ip, rfl, rfl, hip⟩
    exact ⟨id, hev.trans (congrArg HbbrOp.relay hleave)⟩
  obtain ⟨b₁, b₂, hb⟩ := List.append_of_mem hev
  cases hown : own i b₁ with
  | nil => exact hnext b₁ b₂ ev hb hown
  | cons x xs =>
      -- nothing comes after that note
      obtain ⟨c₁, y, c₂, hb₁, hnone, hy, -⟩ := List.filterMap_eq_cons_iff.mp hown
      rw [Option.ite_none_right_eq_some, Option.some.injEq] at hy
      obtain ⟨hyi, hyx⟩ := hy
      have hfirst : b = c₁ ++ (i, x) :: (c₂ ++ (i, ev) :: b₂) := by
        rw [hb, hb₁, ← hyi, ← hyx]
        simp
      obtain ⟨id, hx⟩ := hnext c₁ _ x hfirst (List.filterMap_eq_nil_iff.mpr hnone)
      obtain ⟨_, -, hcurbed⟩ := curbed_after h (hb ▸ hes) hjob hop
      have hsee : HbbrEvent.relay x = some ⟨.leave id, x.env, x.pre.relay, x.post.relay⟩ := by
        rw [HbbrEvent.relay, hx]
      rw [hown, List.filterMap_cons_some hsee] at hcurbed
      exact (hcurbed.unfinished ⟨.leave id, x.env, x.pre.relay, x.post.relay⟩ (by simp) id rfl).elim

/-- **Who is blocked stays out.** From a moment on at which an address is on the
blocklist, and as long as no command that takes it off takes a step, no
connection that is looked up for the address gets as far as a relay, and a relay
that is run for the address only leaves once it has looked the list up. -/
theorem blocked_stays_out (h₁ : (hbbr cfg jobs s).Run es₁ q₁)
    (h : (hbbr cfg jobs s).Run (es₁ ++ es₂) q) {ip : String}
    (hblocked : ip ∈ q₁.shared.relay.blocklist)
    (hkept : Unopposed cfg jobs .blocklist ip true es₂) :
    (∀ i look ev op, (i, look) ∈ es₂ → look.op = .enter ip → (i, ev) ∈ es₁ ++ es₂ →
      ev.op ≠ .relay op)
    ∧ ∀ a i look b c ip' ev, es₂ = a ++ (i, look) :: b → jobs i = .connection c →
      c.upgraded.addr.ip.toString = ip → look.op = .relay (.blocklist ip') → (i, ev) ∈ b →
      ∃ id, ev.op = .relay (.leave id) := by
  constructor
  · intro i look ev op hlook henter hev hop
    obtain ⟨a, b, hes⟩ := List.append_of_mem hlook
    have hlook' : (i, look) ∈ es₁ ++ es₂ := List.mem_append_right _ hlook
    exact enter_first h hlook' henter hev hop (blocked_at h₁ h hblocked hkept hes)
  · intro a i look b c ip' ev hes hjob hip hop hev
    have hpre := blocked_at h₁ h hblocked hkept hes
    have hsplit : es₁ ++ es₂ = (es₁ ++ a) ++ (i, look) :: b := by rw [hes, List.append_assoc]
    exact leaves_after h hsplit hjob hop (hip ▸ hpre) hev

end Run

/-- Connection 2 comes when its address is blocked. -/
theorem blocked_stays_out_visitor : ∃ es q look, hosted.Run (es ++ [(2, look)]) q
    ∧ ∀ ev op, (2, ev) ∈ es ++ [(2, look)] → ev.op ≠ .relay op := by
  have hbefore := Pool.play_run hosted hostSchedule
  have hrun := Pool.play_run hosted (hostSchedule ++ [(2, { now := 4000000000 })])
  have hgrows := Pool.turn_grows (hosted.play hostSchedule) (2, { now := 4000000000 })
  rw [← Pool.play_concat] at hgrows
  have hops : (hosted.play (hostSchedule ++ [(2, { now := 4000000000 })])).1.map
      (fun x => (x.1, x.2.op)) = (hosted.play hostSchedule).1.map (fun x => (x.1, x.2.op))
        ++ [(2, .enter "1.0.0.1")] := by decide +kernel
  have hblocked : "1.0.0.1" ∈ (hosted.play hostSchedule).2.shared.relay.blocklist := by
    decide +kernel
  obtain ⟨l, hl⟩ := hgrows
  rw [← hl, List.map_append, List.append_cancel_left_eq] at hops
  obtain ⟨⟨i, look⟩, rest, rfl, hlook, hrest⟩ := List.map_eq_cons_iff.mp hops
  obtain ⟨rfl, henter⟩ := Prod.mk.inj hlook
  rw [← hl, List.map_eq_nil_iff.mp hrest] at hrun
  refine ⟨_, _, look, hrun, fun ev op hev => ?_⟩
  refine (blocked_stays_out hbefore hrun hblocked ?_).1 2 look ev op (by simp) henter hev
  intro i ev cmd hev hcmd
  obtain ⟨rfl, rfl⟩ := Prod.mk.inj (List.mem_singleton.mp hev)
  rcases hostJobs_commands hcmd with ⟨h, -⟩ | ⟨h, -⟩ <;> cases h

end KustDesk
