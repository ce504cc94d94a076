import KustDesk.Administration
import KustDesk.PeerUse

/-!
# KustDesk — HbbsPeers

The peer map in the process as a whole: what its calls keep, all of hbbs keeps.
Beside the calls there are only the commands, which sweep the two tables that
lie with the map.
-/

namespace KustDesk

open Async

/-! ## A step on the peer map -/

/-- The id under which the step puts a new handle into the map. -/
def PmOp.enters (op : PmOp) (s : PeerMap) : Option String :=
  match op with
  | .mapInsert id _ => some id
  | .mapEntry id => if (s.map.lookup id).isSome then none else some id
  | _ => none

/-- One peer is set, or put into the map, or something that lies with the map is
written. -/
theorem PmOp.effect.cases {op : PmOp} {e : Env} {s s' : PeerMap} (h : op.effect e s s') :
    (∃ id p, op.enters s = some id ∧ s' = (s.enter id p).2)
    ∨ (op.enters s = none ∧ ∃ h p, s' = s.set h p)
    ∨ (op.enters s = none ∧ ∃ db ipBlocker, s' = { s with db, ipBlocker })
    ∨ (op = .ipChanges ∧ ∃ ipChanges, s' = { s with ipChanges }) := by
  have hsame (heq : s' = s) : ∃ db ipBlocker, s' = { s with db, ipBlocker } :=
    ⟨s.db, s.ipBlocker, heq⟩
  cases op with
  | mapInsert id since =>
      obtain ⟨p, hp, -⟩ := h
      exact .inl ⟨id, p, rfl, hp⟩
  | mapEntry id =>
      replace h : s' = if (s.map.lookup id).isSome then s
          else (s.enter id (.default e.earliest e.now)).2 := h
      unfold PmOp.enters
      dsimp only
      split at h
      · rename_i hin
        rw [if_pos hin]
        exact .inr (.inr (.inl ⟨rfl, hsame h⟩))
      · rename_i hin
        rw [if_neg hin]
        exact .inl ⟨id, _, rfl, h⟩
  | writePk id peer addr =>
      obtain ⟨p, hp, -⟩ := h
      exact .inr (.inl ⟨rfl, peer, p, hp⟩)
  | writeAddr id peer addr => exact .inr (.inl ⟨rfl, peer, _, h⟩)
  | writeRegPk peer =>
      obtain ⟨p, hp, -⟩ := h
      exact .inr (.inl ⟨rfl, peer, p, hp⟩)
  | writeGuid peer =>
      obtain ⟨p, hp, -⟩ := h
      exact .inr (.inl ⟨rfl, peer, p, hp⟩)
  | insertPeer =>
      obtain ⟨db, hdb⟩ := h
      exact .inr (.inr (.inl ⟨rfl, db, s.ipBlocker, hdb⟩))
  | updatePk =>
      obtain ⟨db, hdb⟩ := h
      exact .inr (.inr (.inl ⟨rfl, db, s.ipBlocker, hdb⟩))
  | ipBlocker =>
      obtain ⟨ipBlocker, hblocker⟩ := h
      exact .inr (.inr (.inl ⟨rfl, s.db, ipBlocker, hblocker⟩))
  | ipChanges => exact .inr (.inr (.inr ⟨rfl, h⟩))
  | _ => exact .inr (.inr (.inl ⟨rfl, hsame h⟩))

/-! ## The contract of the process -/

/-- The step on the peer map. -/
def HbbsOp.onPm : HbbsOp → Option PmOp
  | .server (.pm op) => some op
  | _ => none

theorem HbbsOp.onPm_server (op : Op) : (HbbsOp.server op).onPm = none ↔ op.isPm = false := by
  cases op <;> simp [onPm, Op.isPm]

/-- The two tables that the commands sweep may be others. -/
def PeerMap.Swapped (s s' : PeerMap) : Prop :=
  ∃ ipBlocker ipChanges, s' = { s with ipBlocker, ipChanges }

theorem PeerMap.Swapped.refl (s : PeerMap) : s.Swapped s := ⟨s.ipBlocker, s.ipChanges, rfl⟩

/-- A contract about the peer map, for the process. -/
def onHbbs (d : Contract Env PmOp PeerMap) : Contract Env HbbsOp Hbbs where
  rely w w' := d.rely w.shared.pm w'.shared.pm
  given op e w := ∀ o, op.onPm = some o → d.given o e w.shared.pm
  guar op e w w' := (∀ o, op.onPm = some o → d.guar o e w.shared.pm w'.shared.pm)
    ∧ (op.onPm = none → w.shared.pm.Swapped w'.shared.pm)

section contract
variable {d : Contract Env PmOp PeerMap}

theorem onHbbs_other {op : HbbsOp} (hop : op.onPm = none) (e : Env) {w w' : Hbbs}
    (h : w.shared.pm.Swapped w'.shared.pm) : (onHbbs d).guar op e w w' := by
  refine ⟨fun o ho => ?_, fun _ => h⟩
  rw [hop] at ho
  cases ho

/-- A step that leaves what is shared alone. -/
theorem onHbbs_same {op : HbbsOp} (hop : op.onPm = none) (e : Env) {w w' : Hbbs}
    (h : w'.shared = w.shared) : (onHbbs d).guar op e w w' :=
  onHbbs_other hop e (by rw [h]; exact PeerMap.Swapped.refl _)

theorem look_peers {α : Type} {op : HbbsOp} (hop : op.onPm = none) (f : Env → Hbbs → α) (w : Hbbs) :
    (Task.look op f).Meets (onHbbs d) (fun _ _ => True) w :=
  fun e _ _ _ => ⟨onHbbs_same hop e rfl, trivial⟩

theorem act_peers {α : Type} {op : HbbsOp} (hop : op.onPm = none) {f : Env → Hbbs → α × Hbbs}
    (hf : ∀ e w, (f e w).2.shared = w.shared) (w : Hbbs) :
    (Task.act op f).Meets (onHbbs d) (fun _ _ => True) w :=
  fun e w _ _ => ⟨onHbbs_same hop e (hf e w), trivial⟩

theorem inHbbs_peers {α : Type} {t : ServerTask α} {Q : α → Shared → Prop} {w : Hbbs}
    (ht : t.Meets (onPeers d) Q w.shared) :
    (inHbbs t).Meets (onHbbs d) (fun a w => Q a w.shared) w := by
  unfold inHbbs
  induction t generalizing w with
  | done a => exact ht
  | abort why => trivial
  | step op f k ih =>
      intro e w' hrely hgiven
      obtain ⟨⟨hpm, hother⟩, hk⟩ := ht e w'.shared hrely fun o ho => hgiven o (by rw [ho]; rfl)
      refine ⟨⟨fun o ho => ?_, fun hop => ?_⟩, ih e w'.shared ?_⟩
      · rw [HbbsOp.queues_shared]
        cases op with
        | pm op => exact hpm o (congrArg Op.pm (Option.some.inj ho))
        | _ => cases ho
      · rw [HbbsOp.queues_shared]
        refine ⟨w'.shared.pm.ipBlocker, w'.shared.pm.ipChanges, ?_⟩
        exact hother ((HbbsOp.onPm_server op).mp hop)
      · rw [HbbsOp.queues_shared]
        exact hk

/-! ## The tasks -/

variable (hd : PeersOnly (onPeers d)) (cfg : Config)

include hd

theorem answerNat_peers (c : NatConnection) (msg : Option Union) (s : Shared) :
    (answerNat cfg c msg).Meets (onPeers d) (fun _ _ => True) s := by
  unfold answerNat
  split
  · exact (send_free hd cfg _ _ _ s).bind fun _ _ _ => trivial
  · refine (hd.pm (.peersOnline (x := cfg.x) _) s).bind fun states s _ => ?_
    exact (send_free hd cfg _ _ _ s).bind fun _ _ _ => trivial
  · trivial

omit hd in
/-- A command sweeps the tables at most. -/
theorem CmdWord.run_swapped (word : CmdWord) (e : Env) (s : Shared) (fds : List String) :
    s.pm.Swapped (word.run e s fds).pm := by
  cases word with
  | ipBlocker => exact ⟨_, _, rfl⟩
  | ipChanges => exact ⟨_, _, rfl⟩
  | alwaysUseRelay => cases fds <;> exact PeerMap.Swapped.refl _
  | mustLogin => cases fds <;> exact PeerMap.Swapped.refl _
  | _ => exact PeerMap.Swapped.refl _

omit hd in
theorem HbbsJobStep.command_peers {c : NatConnection} {ev : HbbsEvent}
    (h : HbbsJobStep cfg (.natPort c) ev) (hlocal : c.isLocal cfg = true) :
    (onHbbs d).guar ev.op ev.env ev.pre ev.post := by
  cases h with
  | accept conn hop hpost => exact onHbbs_same (by rw [hop]; rfl) _ (by rw [hpost])
  | server c' hjob => cases hjob
  | note c' hjob hop hpost =>
      rcases hop with ⟨_, hop⟩ | ⟨_, hop⟩ | ⟨_, hop⟩ <;>
        exact onHbbs_same (by rw [hop]; rfl) _ (by rw [hpost])
  | command c' cmd hjob hlocal' hcmd hstep =>
      cases hstep with
      | rotate hop hpost =>
          refine onHbbs_other (by rw [hop]; rfl) _ ?_
          rw [hpost]
          exact PeerMap.Swapped.refl _
      | setting word fds his hop hpost =>
          refine onHbbs_other (by rw [hop]; rfl) _ ?_
          rw [hpost]
          exact word.run_swapped _ _ _
  | tell c' cmd d hjob hlocal' hcmd hd hop hpost =>
      refine onHbbs_same (by rw [hop]; rfl) _ ?_
      rw [hpost]
      split <;> rfl
  | answer c' hjob hforeign =>
      cases hjob
      rw [hlocal] at hforeign
      cases hforeign
  | probe k host ok hjob => cases hjob
  | check k hjob => cases hjob

theorem HbbsJob.task_peers (job : HbbsJob) (w : Hbbs) :
    (job.task cfg).Meets (onHbbs d) (fun _ _ => True) w := by
  cases job with
  | connection c =>
      refine (look_peers rfl _ w).bind fun rs w _ => ?_
      exact inHbbs_peers ((serving_free hd cfg rs c.conn c.addr).handleListenerInner c.stream _)
  | natPort c =>
      refine (look_peers rfl _ w).bind fun rs w _ => ?_
      cases hlocal : c.isLocal cfg with
      | true =>
          rw [if_pos rfl]
          refine (look_peers rfl _ w).bind fun _ w _ => ?_
          cases hcmd : c.command with
          | none => trivial
          | some cmd =>
              exact (serveCommand_steps hlocal hcmd).meets
                (fun _ _ _ _ hstep _ => hstep.command_peers cfg hlocal) w
      | false =>
          rw [if_neg (by simp)]
          refine (look_peers rfl _ w).bind fun _ w _ => ?_
          exact inHbbs_peers (answerNat_peers hd cfg c _ _)
  | probe k host ok => exact act_peers rfl (fun _ _ => rfl) w
  | check k => exact act_peers rfl (fun _ _ => rfl) w

omit hd in
theorem restart_peers (failure : LoopFailure) (w : Hbbs) :
    (restart failure).Meets (onHbbs d) (fun _ _ => True) w := by
  refine (act_peers rfl (fun _ _ => rfl) w).bind fun _ w _ => act_peers rfl (fun e w => ?_) w
  dsimp only
  split <;> rfl

omit hd in
theorem receive_shared (x : External) (w : Hbbs) : (w.receive x).2.shared = w.shared := by
  unfold Hbbs.receive
  split <;> rfl

theorem loopTurn_peers (ready : Ready) (w : Hbbs) :
    (loopTurn cfg ready).Meets (onHbbs d) (fun _ _ => True) w := by
  cases ready with
  | tick => exact (act_peers rfl (fun _ _ => rfl) w).bind fun _ _ _ => trivial
  | recv =>
      refine (act_peers rfl (fun _ w => receive_shared cfg.x w) w).bind fun r w _ => ?_
      refine Task.Meets.bind (Q := fun _ _ => True) ?_ fun _ _ _ => trivial
      unfold forward
      split
      · exact look_peers rfl _ w
      · trivial
  | datagram bytes addr =>
      refine (look_peers rfl _ w).bind fun rs w _ => ?_
      refine (inHbbs_peers (handleUdp_free hd cfg rs bytes addr _)).bind fun r w _ => ?_
      cases r with
      | ok rs => exact (act_peers rfl (fun _ _ => rfl) w).bind fun _ _ _ => trivial
      | error _ => exact restart_peers _ w
  | failed failure => exact restart_peers failure w

theorem mainLoop_peers (turns : List Ready) (w : Hbbs) :
    (mainLoop cfg turns).Meets (onHbbs d) (fun _ _ => True) w := by
  induction turns generalizing w with
  | nil => trivial
  | cons ready rest ih =>
      refine (loopTurn_peers hd cfg ready w).bind fun goesOn w _ => ?_
      split
      · exact ih w
      · trivial

end contract

/-! ## The runs -/

section Run
variable {ι : Type} [DecidableEq ι] {cfg : Config} {turns : List Ready} {jobs : ι → HbbsJob}
  {w : Hbbs} {es : List (Option ι × HbbsEvent)}
  {q : Pool (Option ι) Env HbbsOp Hbbs fun _ => Unit} {d : Contract Env PmOp PeerMap}

/-- **The peer map rule.** Where the calls on the peer map may count on one
another, and a swept table breaks nothing, all steps of the process keep the
contract. -/
theorem hbbs_peers (hd : PeersOnly (onPeers d)) (h : (hbbs cfg turns jobs w).Run es q)
    (hgiven : ∀ i ev, (i, ev) ∈ es → (onHbbs d).given ev.op ev.env ev.pre)
    (hstart : d.rely w.shared.pm w.shared.pm)
    (hguar : ∀ op e s₀ s s', d.rely s₀ s → d.guar op e s s' → d.rely s' s' ∧ d.rely s₀ s')
    (hswap : ∀ s₀ s s', d.rely s₀ s → s.Swapped s' → d.rely s' s' ∧ d.rely s₀ s') :
    (∀ i ev, (i, ev) ∈ es → (onHbbs d).guar ev.op ev.env ev.pre ev.post)
      ∧ ∃ s, d.rely s q.shared.shared.pm := by
  have hstep {op : HbbsOp} {e : Env} {w₀ w w' : Hbbs} (hrely : (onHbbs d).rely w₀ w)
      (hg : (onHbbs d).guar op e w w') : (onHbbs d).rely w' w' ∧ (onHbbs d).rely w₀ w' := by
    cases hop : op.onPm with
    | some o => exact hguar o e _ _ _ hrely (hg.1 o hop)
    | none => exact hswap _ _ _ hrely (hg.2 hop)
  have htask (i : Option ι) :
      ((hbbs cfg turns jobs w).tasks i).Meets (onHbbs d) (fun _ _ => True) w := by
    cases i with
    | none => exact mainLoop_peers hd cfg turns w
    | some j => exact HbbsJob.task_peers hd cfg (jobs j) w
  obtain ⟨hevents, hend⟩ := h.meets (c := fun _ => onHbbs d) (Q := fun _ _ _ => True) hgiven
    (fun i => ⟨hstart, htask i⟩) (fun _ _ _ _ _ _ hrely hg => (hstep hrely hg).1)
    fun _ _ _ _ _ _ _ _ hrely hg => (hstep hrely hg).2
  obtain ⟨s, hrely, -⟩ := hend none
  exact ⟨hevents, s.shared.pm, hrely⟩

/-- What every step of every call satisfies, and the look at the peer that is
asked for. -/
structure PmKeeps (P : Event Env PmOp PeerMap → Prop) : Prop where
  call : ∀ {x : External} {α : Type} {t : PmTask α}, PmCall x t → t.All P
  punch : ∀ id peer e s, P ⟨.readPunch id peer, e, s, s⟩

/-- The rule for what is known of every step by itself. -/
theorem hbbs_pm_all {P : Event Env PmOp PeerMap → Prop} (hP : PmKeeps P)
    (h : (hbbs cfg turns jobs w).Run es q) {i : Option ι} {ev : HbbsEvent} (hev : (i, ev) ∈ es) :
    (∀ op, ev.op.onPm = some op → P ⟨op, ev.env, ev.pre.shared.pm, ev.post.shared.pm⟩)
    ∧ (ev.op.onPm = none → ev.pre.shared.pm.Swapped ev.post.shared.pm) := by
  let d : Contract Env PmOp PeerMap :=
    ⟨fun _ _ => True, fun _ _ _ => True, fun op e s s' => P ⟨op, e, s, s'⟩⟩
  have hcall {x : External} {α : Type} {t : PmTask α} (ht : PmCall x t) (s : PeerMap) :
      t.Meets d (fun _ _ => True) s := (hP.call ht).meets (fun _ _ _ _ hev _ => hev) s
  have hd : PeersOnly (onPeers d) := onPeers_peersOnly hcall fun x id s =>
    (hcall (.get id) s).mono fun _ _ _ peer _ e s' _ _ => hP.punch id peer e s'
  exact (hbbs_peers hd h (fun _ _ _ _ _ => trivial) trivial
    (fun _ _ _ _ _ _ _ => ⟨trivial, trivial⟩) fun _ _ _ _ _ => ⟨trivial, trivial⟩).1 i ev hev

theorem effects_keep : PmKeeps fun ev => ev.op.effect ev.env ev.pre ev.post where
  call h := h.effects
  punch _ _ _ _ := rfl

end Run

end KustDesk
