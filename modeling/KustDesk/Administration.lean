import KustDesk.HbbsSteps

/-!
# KustDesk — Administration

Who changes what hbbs is set to, and when. The flags change at once, by a
command from the host; a list of relay servers goes through the channel to the
main task, which takes the lists over in the order in which they were sent.
-/

namespace KustDesk

open Async

/-! ## The steps of a run -/

/-- The others leave the server to the main task. -/
def besideContract : Contract Env HbbsOp Hbbs where
  rely _ _ := True
  given _ _ _ := True
  guar _ _ w w' := w'.main.rs = w.main.rs

def hbbsContract {ι : Type} (cfg : Config) (turns : List Ready) :
    Option ι → Contract Env HbbsOp Hbbs
  | none => mainContract cfg turns
  | some _ => besideContract

section Run
variable {ι : Type} [DecidableEq ι] {cfg : Config} {turns : List Ready} {jobs : ι → HbbsJob}
  {w : Hbbs} {es es₁ es₂ : List (Option ι × HbbsEvent)}
  {q : Pool (Option ι) Env HbbsOp Hbbs fun _ => Unit}

theorem hbbs_job_step (h : (hbbs cfg turns jobs w).Run es q) {j : ι} {ev : HbbsEvent}
    (hev : (some j, ev) ∈ es) : HbbsJobStep cfg (jobs j) ev :=
  ((HbbsJob.task_steps cfg (jobs j)).path (h.path (some j))).1 ev (mem_own.mpr hev)

theorem hbbs_main_effect (h : (hbbs cfg turns jobs w).Run es q) {ev : HbbsEvent}
    (hev : (none, ev) ∈ es) : MainEffect cfg.x ev :=
  ((mainLoop_effect cfg turns).path (h.path none)).1 ev (mem_own.mpr hev)

/-- Every step does what its label tells. -/
theorem hbbs_effect (h : (hbbs cfg turns jobs w).Run es q) {i : Option ι} {ev : HbbsEvent}
    (hev : (i, ev) ∈ es) : HbbsEffect cfg.x ev := by
  cases i with
  | none => exact (hbbs_main_effect h hev).effect
  | some j => exact (hbbs_job_step h hev).effect

theorem hbbs_main_guar (h : (hbbs cfg turns jobs w).Run es q) {ev : HbbsEvent}
    (hev : (none, ev) ∈ es) : (mainContract cfg turns).guar ev.op ev.env ev.pre ev.post := by
  have hstart (i : Option ι) : (hbbsContract cfg turns i).rely w w
      ∧ ((hbbs cfg turns jobs w).tasks i).Meets (hbbsContract cfg turns i) (fun _ _ => True) w := by
    cases i with
    | none => exact ⟨rfl, mainLoop_meets cfg (List.Subset.refl turns) w⟩
    | some j =>
        exact ⟨trivial, (HbbsJob.task_steps cfg (jobs j)).meets
          (fun _ _ _ _ hstep _ => hstep.rs) w⟩
  refine (h.meets (c := hbbsContract cfg turns) (Q := fun _ _ _ => True) (fun i ev _ => ?_) hstart
    (fun i _ _ _ _ _ _ _ => ?_) fun i j _ _ _ _ _ hij hrely hg => ?_).1 none ev hev
  · cases i <;> trivial
  · cases i with
    | none => exact (rfl : _ = _)
    | some _ => trivial
  · cases i with
    | some _ => trivial
    | none =>
        cases j with
        | none => exact (hij rfl).elim
        | some _ => exact Eq.trans hg hrely

/-! ## Who changes the settings -/

/-- The task serves a command from the host itself. -/
def Administers (cfg : Config) (jobs : ι → HbbsJob) (i : Option ι) (cmd : String) : Prop :=
  ∃ j c, i = some j ∧ jobs j = .natPort c ∧ c.isLocal cfg = true ∧ c.command = some cmd

inductive Flag where
  | alwaysUseRelay
  | mustLogin

def Flag.of (s : Shared) : Flag → Bool
  | .alwaysUseRelay => s.alwaysUseRelay
  | .mustLogin => s.mustLogin

def Flag.word : Flag → CmdWord
  | .alwaysUseRelay => .alwaysUseRelay
  | .mustLogin => .mustLogin

/-- No step of the server sets a flag. -/
theorem Op.effect.flag {op : Op} {s s' : Shared} (h : op.effect s s') (flag : Flag) :
    flag.of s' = flag.of s := by
  have hflags : s'.alwaysUseRelay = s.alwaysUseRelay ∧ s'.mustLogin = s.mustLogin := by
    cases op with
    | pm op =>
        obtain ⟨pm, rfl⟩ := h
        exact ⟨rfl, rfl⟩
    | _ =>
        cases h
        exact ⟨rfl, rfl⟩
  cases flag with
  | alwaysUseRelay => exact hflags.1
  | mustLogin => exact hflags.2

/-- A command sets its own flag only, to what its argument says. -/
theorem CmdWord.run_flag {word : CmdWord} {e : Env} {s : Shared} {fds : List String} {flag : Flag}
    (h : flag.of (word.run e s fds) ≠ flag.of s) :
    word = flag.word ∧ ∃ arg rest, fds = arg :: rest ∧ flag.of (word.run e s fds) = isYes arg := by
  cases word with
  | alwaysUseRelay =>
      cases fds with
      | nil => exact (h rfl).elim
      | cons arg rest =>
          cases flag with
          | alwaysUseRelay => exact ⟨rfl, arg, rest, rfl, rfl⟩
          | mustLogin => exact (h rfl).elim
  | mustLogin =>
      cases fds with
      | nil => exact (h rfl).elim
      | cons arg rest =>
          cases flag with
          | alwaysUseRelay => exact (h rfl).elim
          | mustLogin => exact ⟨rfl, arg, rest, rfl, rfl⟩
  | _ => cases flag <;> exact (h rfl).elim

/-- What a step makes of the shared state. -/
theorem HbbsOp.effect.shared {x : External} {op : HbbsOp} {e : Env} {w w' : Hbbs}
    (h : op.effect x e w w') : w'.shared = w.shared
      ∨ (∃ op', op = .server op' ∧ op'.effect w.shared w'.shared)
      ∨ ∃ word fds, op = .setting word ∧ w'.shared = word.run e w.shared fds := by
  cases op with
  | setting word =>
      obtain ⟨fds, rfl⟩ := h
      exact .inr (.inr ⟨word, fds, rfl, rfl⟩)
  | server op =>
      obtain ⟨shared, heffect, rfl⟩ := h
      exact .inr (.inl ⟨op, rfl, by rwa [HbbsOp.queues_shared]⟩)
  | tell d =>
      replace h : w' = if e.fails then w else w.post d := h
      subst h
      exact .inl (by split <;> rfl)
  | recv =>
      replace h : w' = (w.receive x).2 := h
      subst h
      exact .inl (by unfold Hbbs.receive; split <;> rfl)
  | handled =>
      obtain ⟨rs, rfl⟩ := h
      exact .inl rfl
  | recreate =>
      obtain ⟨failure, recreated, rfl⟩ := h
      exact .inl rfl
  | _ =>
      cases h
      exact .inl rfl

/-- What a step makes of the main task: the server and its lists are changed by
`recv` and `handled` only. -/
theorem HbbsOp.effect.main {x : External} {op : HbbsOp} {e : Env} {w w' : Hbbs}
    (h : op.effect x e w w') :
    (∃ rx checks failure recreated, w'.main = { w.main with rx, checks, failure, recreated })
      ∨ (op = .recv ∧ ∃ d rest, w.main.rx = d :: rest
        ∧ w'.main = { w.main with rx := rest }.received x d)
      ∨ (op = .handled ∧ ∃ rs, w'.main = { w.main with rs }) := by
  cases op with
  | recv =>
      replace h : w' = (w.receive x).2 := h
      unfold Hbbs.receive at h
      split at h
      · exact .inl ⟨_, _, _, _, by rw [h]⟩
      · rename_i d rest hrx
        exact .inr (.inl ⟨rfl, d, rest, hrx, by rw [h]⟩)
  | handled =>
      obtain ⟨rs, rfl⟩ := h
      exact .inr (.inr ⟨rfl, rs, rfl⟩)
  | server op =>
      obtain ⟨shared, heffect, rfl⟩ := h
      obtain ⟨rx, hmain⟩ := (HbbsOp.server op).queues_main e { w with shared }
      exact .inl ⟨rx, w.main.checks, w.main.failure, w.main.recreated, hmain⟩
  | setting word =>
      obtain ⟨fds, rfl⟩ := h
      exact .inl ⟨_, _, _, _, rfl⟩
  | tell d =>
      replace h : w' = if e.fails then w else w.post d := h
      subst h
      split
      · exact .inl ⟨_, _, _, _, rfl⟩
      · exact .inl ⟨_, _, _, _, rfl⟩
  | tick =>
      replace h : w' = { w with main := w.main.tick } := h
      subst h
      dsimp only [MainTask.tick]
      split
      · exact .inl ⟨_, _, _, _, rfl⟩
      · exact .inl ⟨_, _, _, _, rfl⟩
  | recreate =>
      obtain ⟨failure, recreated, rfl⟩ := h
      exact .inl ⟨_, _, _, _, rfl⟩
  | probed k host ok =>
      obtain ⟨checks, hmain⟩ := w.main.probed_checks k host ok
      replace h : w' = { w with main := w.main.probed k host ok } := h
      exact .inl ⟨_, _, _, _, by rw [h, hmain]⟩
  | checked k =>
      replace h : w' = { w with main := w.main.checked k } := h
      obtain ⟨checks, hmain | ⟨rs, hmain⟩⟩ := w.main.checked_report k
      · exact .inl ⟨_, _, _, _, by rw [h, hmain]⟩
      · exact .inl ⟨_, _, _, _, by rw [h, hmain]⟩
  | _ =>
      cases h
      exact .inl ⟨_, _, _, _, rfl⟩

/-- Only a command's own step sets a flag. -/
theorem HbbsOp.effect.flag {x : External} {op : HbbsOp} {e : Env} {w w' : Hbbs}
    (h : op.effect x e w w') {flag : Flag} (hne : flag.of w'.shared ≠ flag.of w.shared) :
    ∃ word, op = .setting word := by
  rcases h.shared with hsame | ⟨op', -, heffect⟩ | ⟨word, fds, hop, -⟩
  · exact (hne (congrArg flag.of hsame)).elim
  · exact (hne (heffect.flag flag)).elim
  · exact ⟨word, hop⟩

/-- Only `recv` gives the main task another list of relay servers. -/
theorem HbbsOp.effect.list {x : External} {op : HbbsOp} {e : Env} {w w' : Hbbs}
    (h : op.effect x e w w') (hne : w'.main.relayServers0 ≠ w.main.relayServers0) : op = .recv
      ∧ ∃ arg rest, w.main.rx = .relayServers0 arg :: rest
        ∧ w'.main.relayServers0 = getServers x arg := by
  rcases h.main with ⟨_, _, _, _, hmain⟩ | ⟨hop, d, rest, hrx, hmain⟩ | ⟨-, rs, hmain⟩
  · exact (hne (by rw [hmain])).elim
  · cases d with
    | relayServers0 arg => exact ⟨hop, arg, rest, hrx, by rw [hmain]; rfl⟩
    | _ => exact (hne (by rw [hmain]; rfl)).elim
  · exact (hne (by rw [hmain])).elim

/-- Only `handled` changes what clients are told about the configuration. -/
theorem HbbsOp.effect.config {x : External} {op : HbbsOp} {e : Env} {w w' : Hbbs}
    (h : op.effect x e w w') (hne : ¬ (w'.main.rs.inner = w.main.rs.inner
      ∧ w'.main.rs.rendezvousServers = w.main.rs.rendezvousServers)) : op = .handled := by
  rcases h.main with ⟨_, _, _, _, hmain⟩ | ⟨hop, d, rest, hrx, hmain⟩ | ⟨hop, rs, hmain⟩
  · exact (hne (by simp [hmain])).elim
  · refine (hne ?_).elim
    rw [hmain]
    cases d <;> exact ⟨rfl, rfl⟩
  · exact hop

/-- A setting is looked at or changed by a command that names it. -/
theorem HbbsJobStep.of_setting {job : HbbsJob} {ev : HbbsEvent} (h : HbbsJobStep cfg job ev)
    {word : CmdWord} (hop : ev.op = .setting word) : ∃ c cmd fds, job = .natPort c
      ∧ c.isLocal cfg = true ∧ c.command = some cmd ∧ CmdIs cmd word fds
      ∧ ev.post = { ev.pre with shared := word.run ev.env ev.pre.shared fds } := by
  cases h with
  | command c cmd hjob hlocal hcmd hstep =>
      cases hstep with
      | rotate hop' => simp [hop] at hop'
      | setting word' fds his hop' hpost =>
          cases hop.symm.trans hop'
          exact ⟨c, cmd, fds, hjob, hlocal, hcmd, his, hpost⟩
  | server c hjob hserver =>
      obtain ⟨op, hop'⟩ := hserver.label
      simp [hop] at hop'
  | accept conn hop' => simp [hop] at hop'
  | note c hjob hop' => simp [hop] at hop'
  | tell c cmd d hjob hlocal hcmd hd hop' => simp [hop] at hop'
  | answer c hjob hforeign hop' => simp [hop] at hop'
  | probe k host ok hjob hop' => simp [hop] at hop'
  | check k hjob hop' => simp [hop] at hop'

/-- `recv` and `handled` are steps of the main task. -/
theorem HbbsJobStep.not_main {job : HbbsJob} {ev : HbbsEvent} (h : HbbsJobStep cfg job ev) :
    ev.op ≠ .recv ∧ ev.op ≠ .handled := by
  cases h with
  | accept conn hop => simp [hop]
  | server c hjob hserver =>
      obtain ⟨op, hop⟩ := hserver.label
      simp [hop]
  | note c hjob hop => rcases hop with ⟨_, hop⟩ | ⟨_, hop⟩ | ⟨_, hop⟩ <;> simp [hop]
  | command c cmd hjob hlocal hcmd hstep =>
      cases hstep with
      | rotate hop => simp [hop]
      | setting word fds his hop => simp [hop]
  | tell c cmd d hjob hlocal hcmd hd hop => simp [hop]
  | answer c hjob hforeign hop => rcases hop with ⟨_, hop⟩ | ⟨_, _, _, hop⟩ <;> simp [hop]
  | probe k host ok hjob hop => simp [hop]
  | check k hjob hop => simp [hop]

/-- **Who sets what.** In every run of hbbs, a flag changes only by a command
from the host that names it, and to what its argument says; the configured
relay servers change only when the main task takes a list from the channel, to
that list; and what clients are told about the configuration changes only by
a datagram from the host, to a higher serial. -/
theorem hbbs_authority (h : (hbbs cfg turns jobs w).Run es q) {i : Option ι} {ev : HbbsEvent}
    (hev : (i, ev) ∈ es) :
    (∀ flag : Flag, flag.of ev.post.shared ≠ flag.of ev.pre.shared → ∃ cmd arg rest,
      Administers cfg jobs i cmd ∧ CmdIs cmd flag.word (arg :: rest)
        ∧ flag.of ev.post.shared = isYes arg)
    ∧ (ev.post.main.relayServers0 ≠ ev.pre.main.relayServers0 → i = none ∧ ∃ arg rest,
      ev.pre.main.rx = .relayServers0 arg :: rest
        ∧ ev.post.main.relayServers0 = getServers cfg.x arg)
    ∧ (¬ (ev.post.main.rs.inner = ev.pre.main.rs.inner
        ∧ ev.post.main.rs.rendezvousServers = ev.pre.main.rs.rendezvousServers) →
      i = none ∧ ∃ bytes addr, .datagram bytes addr ∈ turns
        ∧ ev.pre.main.rs.Configures cfg addr bytes ev.post.main.rs) := by
  have heffect : ev.op.effect cfg.x ev.env ev.pre ev.post := hbbs_effect h hev
  refine ⟨fun flag hne => ?_, fun hne => ?_, fun hne => ?_⟩
  · obtain ⟨word, hop⟩ := heffect.flag hne
    cases i with
    | none =>
        have hmain := (hbbs_main_effect h hev).ofMain
        simp [hop, HbbsOp.ofMain] at hmain
    | some j =>
        obtain ⟨c, cmd, fds, hjob, hlocal, hcmd, his, hpost⟩ := (hbbs_job_step h hev).of_setting hop
        rw [hpost] at hne ⊢
        obtain ⟨rfl, arg, rest, rfl, hflag⟩ := CmdWord.run_flag hne
        exact ⟨cmd, arg, rest, ⟨j, c, rfl, hjob, hlocal, hcmd⟩, his, hflag⟩
  · obtain ⟨hop, harg⟩ := heffect.list hne
    refine ⟨?_, harg⟩
    cases i with
    | none => rfl
    | some j => exact ((hbbs_job_step h hev).not_main.1 hop).elim
  · have hop := heffect.config hne
    cases i with
    | some j => exact ((hbbs_job_step h hev).not_main.2 hop).elim
    | none =>
        rcases hbbs_main_guar h hev hop with hsame | ⟨bytes, addr, rs, hturn, hconf, hpost⟩
        · exact (hne (by simp [hsame])).elim
        · exact ⟨rfl, bytes, addr, hturn, by rwa [hpost]⟩

end Run

/-! A command from the host. -/

def hostAsks (text : String) : NatConnection :=
  { conn := 0, addr := ⟨.v4 0x7F000001#32, 50000⟩, data := some (asciiBytes text) }

def adminConfig : Config := { x := dottedNames, key := "", secret := "" }

/-- The process has just started, with one relay server. -/
def adminStart : Hbbs := { shared := .start .empty, main := oneRelay }

/-- One after the other for each task that is named. -/
def adminSchedule {κ : Type} (turns : List κ) : List (κ × Env) :=
  turns.map fun i => (i, { now := 0 })

/-- One command for each text. -/
def administered {κ : Type} (texts : κ → String) (turns : List Ready) :
    Pool (Option κ) Env HbbsOp Hbbs fun _ => Unit :=
  hbbs adminConfig turns (fun i => .natPort (hostAsks (texts i))) adminStart

theorem hbbs_authority_flag : ∃ es q i ev,
    (administered (fun _ : Unit => "aur Y") []).Run (es ++ [(i, ev)]) q
    ∧ ev.post.shared.alwaysUseRelay = true ∧ ∃ cmd arg rest,
      Administers adminConfig (fun _ : Unit => .natPort (hostAsks "aur Y")) i cmd
        ∧ CmdIs cmd .alwaysUseRelay (arg :: rest) ∧ ev.post.shared.alwaysUseRelay = isYes arg := by
  have hrun := Pool.play_run (administered (fun _ : Unit => "aur Y") [])
    (adminSchedule [some (), some (), some ()])
  have hflags : ((administered (fun _ : Unit => "aur Y") []).play
      (adminSchedule [some (), some (), some ()])).1.map
        (fun x => (x.2.pre.shared.alwaysUseRelay, x.2.post.shared.alwaysUseRelay))
      = [(false, false), (false, false)] ++ [(false, true)] := by decide +kernel
  obtain ⟨es, last, hes, -, hlast⟩ := List.map_eq_append_iff.mp hflags
  obtain ⟨⟨i, ev⟩, rest, rfl, hev, hrest⟩ := List.map_eq_cons_iff.mp hlast
  obtain ⟨hpre, hpost⟩ := Prod.mk.inj hev
  rw [hes, List.map_eq_nil_iff.mp hrest] at hrun
  have hne : Flag.of ev.post.shared .alwaysUseRelay ≠ Flag.of ev.pre.shared .alwaysUseRelay :=
    fun h => Bool.false_ne_true (hpre.symm.trans (h.symm.trans hpost))
  have hcommand := (hbbs_authority hrun (List.mem_concat_self ..)).1 .alwaysUseRelay hne
  exact ⟨es, _, i, ev, hrun, hpost, hcommand⟩

end KustDesk
