import KustDesk.Administration

/-!
# KustDesk — MainChannel

The channel behind `tx`, through which connections and commands reach the main
task of hbbs: messages that its UDP socket is to send, and lists of relay
servers. Nothing is lost in it, doubled or overtaken.
-/

namespace KustDesk

open Async

/-! ## The channel -/

/-- What a check that ends has for the main task. -/
def MainTask.reports (m : MainTask) (k : Nat) : List Data :=
  match m.checks[k]? with
  | some c => if c.waiting = [] then c.report.toList else []
  | none => []

/-- What a step puts into the channel. -/
def HbbsEvent.sends (ev : HbbsEvent) : List Data :=
  match ev.op with
  | .server (.queue msg addr) => if ev.env.fails then [] else [.msg msg addr]
  | .tell d => if ev.env.fails then [] else [d]
  | .checked k => ev.pre.main.reports k
  | _ => []

/-- What a step takes out of the channel. -/
def HbbsEvent.takes (ev : HbbsEvent) : List Data :=
  match ev.op with
  | .recv => ev.pre.main.rx.head?.toList
  | _ => []

/-- What a step has done with what was in the channel: a message is sent, and a
list of relay servers is taken over when it is received. -/
def HbbsEvent.handles (ev : HbbsEvent) : List Data :=
  match ev.op with
  | .send msg addr => [.msg msg addr]
  | .recv =>
    match ev.pre.main.rx.head? with
    | some (.msg _ _) | none => []
    | some d => [d]
  | _ => []

/-- The channel behind `tx`. -/
def hbbsChannel : Channel Env HbbsOp Hbbs Data where
  queue w := w.main.rx
  sends := HbbsEvent.sends
  takes := HbbsEvent.takes

theorem MainTask.checked_rx (m : MainTask) (k : Nat) : (m.checked k).rx = m.rx ++ m.reports k := by
  unfold checked reports
  cases m.checks[k]? with
  | none => simp
  | some c =>
      dsimp only
      split
      · rfl
      · simp

theorem HbbsEffect.flows {x : External} {ev : HbbsEvent} (h : HbbsEffect x ev) :
    hbbsChannel.Flows ev := by
  obtain ⟨op, e, w, w'⟩ := ev
  replace h : op.effect x e w w' := h
  show w.main.rx ++ HbbsEvent.sends ⟨op, e, w, w'⟩ = HbbsEvent.takes ⟨op, e, w, w'⟩ ++ w'.main.rx
  cases op with
  | recv =>
      replace h : w' = (w.receive x).2 := h
      unfold Hbbs.receive at h
      split at h
      · rename_i hrx
        simp [HbbsEvent.sends, HbbsEvent.takes, h, hrx]
      · rename_i d rest hrx
        simp [HbbsEvent.sends, HbbsEvent.takes, h, hrx]
  | server op =>
      obtain ⟨shared, heffect, rfl⟩ := h
      cases op with
      | queue msg addr =>
          cases hfails : e.fails <;>
            simp [HbbsEvent.sends, HbbsEvent.takes, HbbsOp.queues, Hbbs.post, hfails]
      | _ => simp [HbbsEvent.sends, HbbsEvent.takes, HbbsOp.queues]
  | tell d =>
      replace h : w' = if e.fails then w else w.post d := h
      cases hfails : e.fails <;> simp [HbbsEvent.sends, HbbsEvent.takes, Hbbs.post, h, hfails]
  | checked k =>
      replace h : w' = { w with main := w.main.checked k } := h
      simp [HbbsEvent.sends, HbbsEvent.takes, h, MainTask.checked_rx]
  | setting word =>
      obtain ⟨fds, rfl⟩ := h
      simp [HbbsEvent.sends, HbbsEvent.takes]
  | tick =>
      replace h : w' = { w with main := w.main.tick } := h
      subst h
      dsimp only [MainTask.tick]
      split <;> simp [HbbsEvent.sends, HbbsEvent.takes]
  | handled =>
      obtain ⟨rs, rfl⟩ := h
      simp [HbbsEvent.sends, HbbsEvent.takes]
  | recreate =>
      obtain ⟨failure, recreated, rfl⟩ := h
      simp [HbbsEvent.sends, HbbsEvent.takes]
  | probed k host ok =>
      obtain ⟨checks, hmain⟩ := w.main.probed_checks k host ok
      replace h : w' = { w with main := w.main.probed k host ok } := h
      simp [HbbsEvent.sends, HbbsEvent.takes, h, hmain]
  | _ =>
      cases h
      simp [HbbsEvent.sends, HbbsEvent.takes]

/-! ## What the main task has in hand -/

/-- The main task has nothing in hand. -/
def HandsFree (es : List HbbsEvent) : Prop := hbbsChannel.Free HbbsEvent.handles es

/-- The main task has one message in hand at most. -/
def InHand (es : List HbbsEvent) : Prop := hbbsChannel.InHand HbbsEvent.handles es

/-- A step that has nothing to do with the channel. -/
def OffChannel (ev : HbbsEvent) : Prop := HbbsEvent.takes ev = [] ∧ HbbsEvent.handles ev = []

/-- The tasks begins and ends with free hands. -/
def Deft {α : Type} (t : HbbsTask α) : Prop :=
  ∀ es, HandsFree es → t.Heeds (fun es ev => InHand (es ++ [ev])) (fun es _ => HandsFree es) es

theorem Deft.bind {α β : Type} {t : HbbsTask α} {g : α → HbbsTask β} (ht : Deft t)
    (hg : ∀ a, Deft (g a)) : Deft (t >>= g) :=
  fun es hes => (ht es hes).bind fun es a hes => hg a es hes

theorem deft_of_offChannel {α : Type} {t : HbbsTask α} (ht : t.All OffChannel)
    (hn : t.NoAbort) : Deft t := by
  intro es hes
  refine (ht.heeds hn []).extend hes fun es ev hes hev => ?_
  have hfree : HandsFree (es ++ [ev]) := hes.snoc_idle hev.1 hev.2
  exact ⟨hfree.inHand, hfree⟩

theorem inHbbs_offChannel {α : Type} (t : ServerTask α) : (inHbbs t).All OffChannel := by
  unfold inHbbs
  induction t with
  | done a => trivial
  | abort why => trivial
  | step op f k ih => exact fun e w => ⟨⟨rfl, rfl⟩, ih e w.shared⟩

theorem restart_deft (failure : LoopFailure) : Deft (restart failure) :=
  deft_of_offChannel (fun _ _ => ⟨⟨rfl, rfl⟩, fun _ _ => ⟨⟨rfl, rfl⟩, trivial⟩⟩)
    fun _ _ _ _ => trivial

theorem recv_deft (x : External) : Deft (Task.act .recv (fun _ w => w.receive x)
    >>= fun d => forward d >>= fun _ => pure true) := by
  intro es hes e w
  let ev : HbbsEvent := ⟨.recv, e, w, (w.receive x).2⟩
  show InHand (es ++ [ev]) ∧ ((forward (w.receive x).1 >>= fun _ => .done true).Heeds
    (fun es ev => InHand (es ++ [ev])) (fun es _ => HandsFree es) (es ++ [ev]))
  -- what is taken over at once leaves the hands free
  have hdone (d : Option Data) (hd : ∀ msg addr, d ≠ some (.msg msg addr))
      (hfree : HandsFree (es ++ [ev])) : (forward d >>= fun _ => .done true).Heeds
        (fun es ev => InHand (es ++ [ev])) (fun es _ => HandsFree es) (es ++ [ev]) := by
    unfold forward
    split
    · exact (hd _ _ rfl).elim
    · exact hfree
  cases hrx : w.main.rx with
  | nil =>
      have hfree : HandsFree (es ++ [ev]) :=
        Channel.Free.snoc_idle hes (by simp [hbbsChannel, HbbsEvent.takes, ev, hrx])
          (by simp [HbbsEvent.handles, ev, hrx])
      refine ⟨hfree.inHand, hdone _ ?_ hfree⟩
      simp [Hbbs.receive, hrx]
  | cons d rest =>
      have htakes : hbbsChannel.takes ev = [d] := by simp [hbbsChannel, HbbsEvent.takes, ev, hrx]
      have hreceived : (w.receive x).1 = some d := by simp [Hbbs.receive, hrx]
      rw [hreceived]
      cases d with
      | msg msg addr =>
          have hnone : HbbsEvent.handles ev = [] := by simp [HbbsEvent.handles, ev, hrx]
          refine ⟨Channel.Free.snoc_takes hes (by simp [htakes]) hnone, fun e' w' => ?_⟩
          have hfree : HandsFree (es ++ [ev] ++ [⟨.send msg addr, e', w', w'⟩]) :=
            Channel.Free.snoc_handles hes hnone rfl (by rw [htakes]; rfl)
          exact ⟨hfree.inHand, hfree⟩
      | relayServers0 rs =>
          have hfree : HandsFree (es ++ [ev]) := Channel.Free.snoc_both hes
            (by rw [htakes]; simp [HbbsEvent.handles, ev, hrx])
          exact ⟨hfree.inHand, hdone _ (by simp) hfree⟩
      | relayServers rs =>
          have hfree : HandsFree (es ++ [ev]) := Channel.Free.snoc_both hes
            (by rw [htakes]; simp [HbbsEvent.handles, ev, hrx])
          exact ⟨hfree.inHand, hdone _ (by simp) hfree⟩

theorem loopTurn_deft (cfg : Config) (ready : Ready) : Deft (loopTurn cfg ready) := by
  cases ready with
  | tick => exact deft_of_offChannel (fun _ _ => ⟨⟨rfl, rfl⟩, trivial⟩) fun _ _ => trivial
  | recv => exact recv_deft cfg.x
  | datagram bytes addr =>
      refine Deft.bind (deft_of_offChannel ((Task.all_look _ _).mpr fun _ _ => ⟨rfl, rfl⟩)
        (Task.noAbort_look _ _)) fun rs => ?_
      have hnoAbort : (inHbbs (handleUdp cfg rs bytes addr)).NoAbort :=
        (handleUdp_noAbort cfg rs bytes addr).lift.also
      refine Deft.bind (deft_of_offChannel (inHbbs_offChannel _) hnoAbort) fun r => ?_
      cases r with
      | ok rs => exact deft_of_offChannel (fun _ _ => ⟨⟨rfl, rfl⟩, trivial⟩) fun _ _ => trivial
      | error _ => exact restart_deft .udpSocket
  | failed failure => exact restart_deft failure

theorem mainLoop_deft (cfg : Config) (turns : List Ready) : Deft (mainLoop cfg turns) := by
  induction turns with
  | nil => exact fun es hes => hes
  | cons ready rest ih =>
      refine (loopTurn_deft cfg ready).bind fun goesOn => ?_
      split
      · exact ih
      · exact fun es hes => hes

theorem hbbs_flows {ι : Type} (cfg : Config) (turns : List Ready) (jobs : ι → HbbsJob) (w : Hbbs)
    (i : Option ι) : ((hbbs cfg turns jobs w).tasks i).All hbbsChannel.Flows := by
  cases i with
  | none => exact (mainLoop_effect cfg turns).mono fun ev hev => hev.effect.flows
  | some j => exact (HbbsJob.task_steps cfg (jobs j)).mono fun ev hev => hev.effect.flows

section Run
variable {ι : Type} [DecidableEq ι] {cfg : Config} {turns : List Ready} {jobs : ι → HbbsJob}
  {w : Hbbs} {es : List (Option ι × HbbsEvent)}
  {q : Pool (Option ι) Env HbbsOp Hbbs fun _ => Unit}

/-- What the main task has done with what came through the channel, in order. -/
def dealtWith (es : List (Option ι × HbbsEvent)) : List Data :=
  Channel.handledBy HbbsEvent.handles (own none es)

/-- Only the main task takes from the channel. -/
theorem taken_eq_takenBy (h : (hbbs cfg turns jobs w).Run es q) :
    hbbsChannel.taken es = hbbsChannel.takenBy (own none es) := by
  refine Channel.taken_eq fun i ev hev hi => ?_
  cases i with
  | none => exact (hi rfl).elim
  | some j =>
      have hop := (hbbs_job_step h hev).not_main.1
      show HbbsEvent.takes ev = []
      unfold HbbsEvent.takes
      split
      · rename_i hrecv
        exact (hop hrecv).elim
      · rfl

/-- **Once each, in order.** Whatever is sent to the main task in a run of hbbs,
by whichever task, it deals with once, and in the order in which it was sent:
what has been sent is what has been dealt with, what the main task has in
hand, which is one message at most, and what still waits. -/
theorem channel_in_order (h : (hbbs cfg turns jobs w).Run es q) (hrx : w.main.rx = []) :
    ∃ hand, hbbsChannel.sent es = dealtWith es ++ hand ++ q.shared.main.rx ∧ hand.length ≤ 1
      ∧ (q.tasks none = .done () → hand = []) := by
  have hconserved := hbbsChannel.conserved h (hbbs_flows cfg turns jobs w)
  have hstart : hbbsChannel.queue (hbbs cfg turns jobs w).shared = [] := hrx
  rw [hstart, List.nil_append, taken_eq_takenBy h] at hconserved
  have hfree : HandsFree [] := rfl
  have hmain := mainLoop_deft cfg turns [] hfree
  by_cases hdone : q.tasks none = .done ()
  · have hend := (hmain.path (h.path none)).2
    rw [hdone] at hend
    replace hend : hbbsChannel.takenBy (own none es) = dealtWith es := hend
    refine ⟨[], ?_, by simp, fun _ => rfl⟩
    rw [hconserved, hend, List.append_nil]
    rfl
  · obtain ⟨hand, htaken, hlen⟩ := h.own_invariant (i := none) hfree.inHand hmain
    refine ⟨hand, ?_, hlen, fun h => (hdone h).elim⟩
    rw [hconserved, htaken]
    rfl

/-! ## The configured list -/

/-- The list that the main task is told to use. -/
def Data.list : Data → Option String
  | .relayServers0 rs => some rs
  | _ => none

theorem HbbsEffect.configured {x : External} {ev : HbbsEvent} (h : HbbsEffect x ev) :
    ev.post.main.relayServers0
      = (((HbbsEvent.takes ev).filterMap Data.list).getLast?.map (getServers x)).getD
        ev.pre.main.relayServers0 := by
  obtain ⟨op, e, w, w'⟩ := ev
  replace h : op.effect x e w w' := h
  show w'.main.relayServers0 = _
  by_cases hrecv : op = .recv
  · subst hrecv
    replace h : w' = (w.receive x).2 := h
    unfold Hbbs.receive at h
    cases hrx : w.main.rx with
    | nil => simp [h, hrx, HbbsEvent.takes]
    | cons d rest =>
        cases d with
        | msg msg addr => simp [h, hrx, HbbsEvent.takes, Data.list, MainTask.received]
        | relayServers0 rs =>
            simp [h, hrx, HbbsEvent.takes, Data.list, MainTask.received, MainTask.parseRelayServers]
        | relayServers rs => simp [h, hrx, HbbsEvent.takes, Data.list, MainTask.received]
  · have hnone : HbbsEvent.takes ⟨op, e, w, w'⟩ = [] := by
      unfold HbbsEvent.takes
      split
      · rename_i hop
        exact (hrecv hop).elim
      · rfl
    rw [hnone]
    by_contra hne
    exact hrecv (h.list hne).1

/-- The configured list is the last that was taken from the channel. -/
theorem configured_last (h : (hbbs cfg turns jobs w).Run es q) : q.shared.main.relayServers0
    = (((hbbsChannel.taken es).filterMap Data.list).getLast?.map (getServers cfg.x)).getD
      w.main.relayServers0 := by
  refine h.invariant (J := fun es s => s.main.relayServers0
    = (((hbbsChannel.taken es).filterMap Data.list).getLast?.map (getServers cfg.x)).getD
      w.main.relayServers0) rfl ?_
  intro es q i e op f k hrun hi ih
  have hstep := (hbbs_effect (hrun.step i e hi) (List.mem_concat_self ..)).configured
  dsimp only at hstep
  rw [hstep, ih, hbbsChannel.taken_snoc, List.filterMap_append, List.getLast?_append]
  show _ = Option.getD (Option.map _ (Option.or
    ((HbbsEvent.takes ⟨op, e, q.shared, f e q.shared⟩).filterMap Data.list).getLast? _)) _
  cases ((HbbsEvent.takes ⟨op, e, q.shared, f e q.shared⟩).filterMap Data.list).getLast? with
  | none => simp
  | some rs => simp

/-- The lists that have been sent to the main task, in order. -/
def listsSent (es : List (Option ι × HbbsEvent)) : List String :=
  (hbbsChannel.sent es).filterMap Data.list

/-- A command sends what it is to send. -/
theorem HbbsJobStep.of_tell {job : HbbsJob} {ev : HbbsEvent} (h : HbbsJobStep cfg job ev) {d : Data}
    (hop : ev.op = .tell d) : ∃ c cmd, job = .natPort c ∧ c.isLocal cfg = true
      ∧ c.command = some cmd ∧ d ∈ cmdData cmd := by
  cases h with
  | tell c cmd d' hjob hlocal hcmd hd hop' =>
      cases hop.symm.trans hop'
      exact ⟨c, cmd, hjob, hlocal, hcmd, hd⟩
  | command c cmd hjob hlocal hcmd hstep =>
      cases hstep with
      | rotate hop' => simp [hop] at hop'
      | setting word fds his hop' => simp [hop] at hop'
  | server c hjob hserver =>
      obtain ⟨op, hop'⟩ := hserver.label
      simp [hop] at hop'
  | accept conn hop' => simp [hop] at hop'
  | note c hjob hop' => simp [hop] at hop'
  | answer c hjob hforeign hop' => simp [hop] at hop'
  | probe k host ok hjob hop' => simp [hop] at hop'
  | check k hjob hop' => simp [hop] at hop'

/-- A list is sent to the main task by a command only. -/
theorem tell_of_sends {ev : HbbsEvent} {arg : String}
    (h : Data.relayServers0 arg ∈ HbbsEvent.sends ev) : ev.op = .tell (.relayServers0 arg) := by
  unfold HbbsEvent.sends at h
  split at h
  · split at h <;> simp at h
  · rename_i d hop
    split at h
    · cases h
    · rw [List.mem_singleton.mp h]
      exact hop
  · unfold MainTask.reports RelayCheck.report at h
    split at h
    · split at h
      · split at h <;> simp at h
      · cases h
    · cases h
  · cases h

theorem administers_of_sent (h : (hbbs cfg turns jobs w).Run es q) {arg : String}
    (harg : arg ∈ listsSent es) : ∃ i cmd, Administers cfg jobs i cmd
      ∧ .relayServers0 arg ∈ cmdData cmd := by
  obtain ⟨d, hd, hlist⟩ := List.mem_filterMap.mp harg
  obtain ⟨⟨i, ev⟩, hev, hsends⟩ := List.mem_flatMap.mp hd
  cases d with
  | relayServers0 rs =>
      cases hlist
      have hop : ev.op = .tell (.relayServers0 arg) := tell_of_sends hsends
      cases i with
      | none =>
          have hmain := (hbbs_main_effect h hev).ofMain
          simp [hop, HbbsOp.ofMain] at hmain
      | some j =>
          obtain ⟨c, cmd, hjob, hlocal, hcmd, hmem⟩ := (hbbs_job_step h hev).of_tell hop
          exact ⟨some j, cmd, ⟨j, c, rfl, hjob, hlocal, hcmd⟩, hmem⟩
  | msg msg addr => cases hlist
  | relayServers rs => cases hlist

/-- What a step sends to the main task, or tries to. -/
def HbbsOp.told : HbbsOp → Option Data
  | .tell d => some d
  | _ => none

def tells (es : List HbbsEvent) : List Data := es.filterMap fun ev => ev.op.told

theorem tells_snoc {es : List HbbsEvent} {ev : HbbsEvent} (h : ev.op.told = none) :
    tells (es ++ [ev]) = tells es := by
  simp [tells, h]

theorem tellAll_tells (ds : List Data) (es : List HbbsEvent) :
    (tellAll ds).Heeds (fun _ _ => True) (fun es' _ => tells es' = tells es ++ ds) es := by
  induction ds generalizing es with
  | nil => exact (List.append_nil _).symm
  | cons d rest ih =>
      intro e w
      refine ⟨trivial, (ih _).mono fun es' _ h => ?_⟩
      rw [h]
      simp [tells, HbbsOp.told]

theorem serveCommand_tells (rs : RendezvousServer) (cmd : String) (es : List HbbsEvent) :
    (serveCommand rs cmd).Heeds (fun _ _ => True) (fun es' _ => tells es' = tells es ++ cmdData cmd)
      es := by
  have hcheck := hbbsCheckCmd_heeds rs cmd []
  unfold serveCommand
  generalize hbbsCheckCmd rs cmd = t, ([] : List HbbsEvent) = es₀ at hcheck ⊢
  induction t generalizing es es₀ with
  | done r =>
      obtain ⟨res, queued⟩ := r
      replace hcheck : queued = cmdData cmd := hcheck
      rw [← hcheck]
      refine (tellAll_tells queued es).bind fun es' _ htells => ?_
      exact fun e w => ⟨trivial, (tells_snoc rfl).trans htells⟩
  | abort why => exact hcheck
  | step op f k ih =>
      intro e w
      obtain ⟨hstep, hk⟩ := hcheck e w
      have hnone : op.told = none := by
        cases hstep with
        | rotate hop => exact congrArg HbbsOp.told hop
        | setting word fds his hop => exact congrArg HbbsOp.told hop
      refine ⟨trivial, (ih e w _ _ hk).mono fun es' _ h => ?_⟩
      rw [h, tells_snoc hnone]

/-- A command that is over has sent all it had to. -/
theorem tells_of_done (h : (hbbs cfg turns jobs w).Run es q) {i : Option ι} {cmd : String}
    (hcmd : Administers cfg jobs i cmd) (hdone : q.tasks i = .done ()) :
    tells (own i es) = cmdData cmd := by
  obtain ⟨j, c, rfl, hjob, hlocal, hcommand⟩ := hcmd
  have htask : ((hbbs cfg turns jobs w).tasks (some j)).Heeds (fun _ _ => True)
      (fun es _ => tells es = cmdData cmd) [] := by
    show ((jobs j).task cfg).Heeds _ _ _
    rw [hjob]
    intro e w
    refine ⟨trivial, ?_⟩
    show (if c.isLocal cfg = true then _ else _ : HbbsTask Unit).Heeds _ _ _
    rw [if_pos hlocal, hcommand]
    intro e' w'
    refine ⟨trivial, ?_⟩
    exact (serveCommand_tells w.main.rs cmd [⟨.accept c.conn, e, w, w⟩,
      ⟨.read c.data, e', w', w'⟩]).mono fun es' _ htells => htells
  have hend := (htask.path (h.path (some j))).2
  rw [hdone] at hend
  exact hend

/-- The lists that have been sent are those that have been taken, the last of
which is configured, and then those that wait. -/
theorem sent_configured (h : (hbbs cfg turns jobs w).Run es q) (hrx : w.main.rx = []) :
    ∃ done, listsSent es = done ++ q.shared.main.rx.filterMap Data.list
      ∧ q.shared.main.relayServers0
        = (done.getLast?.map (getServers cfg.x)).getD w.main.relayServers0 := by
  refine ⟨(hbbsChannel.taken es).filterMap Data.list, ?_, configured_last h⟩
  have hconserved := hbbsChannel.conserved h (hbbs_flows cfg turns jobs w)
  have hstart : hbbsChannel.queue (hbbs cfg turns jobs w).shared = [] := hrx
  rw [hstart, List.nil_append] at hconserved
  rw [listsSent, hconserved, List.filterMap_append]
  rfl

/-- **The last list wins.** In every run of hbbs, the configured relay servers
are those of the last list that has come through the channel. The lists come
in the order in which they were sent, by commands from the host only, and
none of a command that is over is missing. -/
theorem last_list_wins (h : (hbbs cfg turns jobs w).Run es q) (hrx : w.main.rx = []) :
    (∃ done, listsSent es = done ++ q.shared.main.rx.filterMap Data.list
      ∧ q.shared.main.relayServers0
        = (done.getLast?.map (getServers cfg.x)).getD w.main.relayServers0)
    ∧ (∀ arg ∈ listsSent es, ∃ i cmd, Administers cfg jobs i cmd
      ∧ .relayServers0 arg ∈ cmdData cmd)
    ∧ ∀ i cmd arg, Administers cfg jobs i cmd → q.tasks i = .done () →
      .relayServers0 arg ∈ cmdData cmd → (∀ ev, (i, ev) ∈ es → ev.env.fails = false) →
      arg ∈ listsSent es := by
  refine ⟨sent_configured h hrx, fun arg harg => administers_of_sent h harg,
    fun i cmd arg hcmd hdone hmem hopen => ?_⟩
  rw [← tells_of_done h hcmd hdone] at hmem
  obtain ⟨ev, hev, htold⟩ := List.mem_filterMap.mp hmem
  rw [mem_own] at hev
  refine List.mem_filterMap.mpr ⟨.relayServers0 arg, ?_, rfl⟩
  refine List.mem_flatMap.mpr ⟨(i, ev), hev, ?_⟩
  have hop : ev.op = .tell (.relayServers0 arg) := by
    cases hop : ev.op with
    | tell d =>
        rw [hop] at htold
        rw [Option.some.inj htold]
    | _ =>
        rw [hop] at htold
        cases htold
  show Data.relayServers0 arg ∈ HbbsEvent.sends ev
  simp [HbbsEvent.sends, hop, hopen ev hev]

end Run

/-! Two commands that run into one another, and the main task that takes one
list, then the other. -/

def twoTexts : Bool → String
  | false => "rs relay.example.org"
  | true => "aur N"

def channelled : Pool (Option Bool) Env HbbsOp Hbbs fun _ => Unit :=
  administered twoTexts [.recv, .recv]

/-- Both commands are over, and one list has been taken. -/
def channelSchedule : List (Option Bool × Env) :=
  adminSchedule [some false, some true, some true, some false, some true, some false, some true,
    none, some false, some true]

theorem channel_in_order_commands : ∃ es q hand, channelled.Run es q
    ∧ hbbsChannel.sent es = [.relayServers0 "relay.example.org", .relayServers0 "N"]
    ∧ q.shared.main.rx = [.relayServers0 "N"]
    ∧ hbbsChannel.sent es = dealtWith es ++ hand ++ q.shared.main.rx := by
  have hrun := Pool.play_run channelled channelSchedule
  obtain ⟨hand, hsent, -, -⟩ := channel_in_order hrun rfl
  exact ⟨_, _, hand, hrun, by decide +kernel, by decide +kernel, hsent⟩

/-- The list of the first command has been sent, and is the one in use. -/
theorem last_list_wins_commands : ∃ es q, channelled.Run es q ∧ q.tasks (some false) = .done ()
    ∧ "relay.example.org" ∈ listsSent es
    ∧ ∃ done, listsSent es = done ++ q.shared.main.rx.filterMap Data.list
      ∧ q.shared.main.relayServers0 = (done.getLast?.map (getServers dottedNames)).getD
        ["relay.example.com"] := by
  have hrun := Pool.play_run channelled channelSchedule
  have hdone : ((channelled.play channelSchedule).2.tasks (some false)).result = some () := by
    decide +kernel
  obtain ⟨hlast, -, hsent⟩ := last_list_wins hrun rfl
  refine ⟨_, _, hrun, Task.eq_done_of_result hdone, hsent (some false) "rs relay.example.org" _ ?_
    (Task.eq_done_of_result hdone) ?_ fun ev hev => ?_, hlast⟩
  · exact ⟨false, hostAsks "rs relay.example.org", rfl, rfl, by decide +kernel, by decide +kernel⟩
  · have his : CmdIs "rs relay.example.org" .relayServers ["relay.example.org"] :=
      ⟨"rs", by decide, by decide +kernel⟩
    exact mem_cmdData.mpr ⟨_, _, rfl, .inl his⟩
  · have hopen : (channelled.play channelSchedule).1.all (fun x => !x.2.env.fails) = true := by
      decide +kernel
    simpa using List.all_eq_true.mp hopen _ hev

end KustDesk
