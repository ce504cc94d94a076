import KustDesk.RelayLists

/-!
# KustDesk — UsageReport

What the command `usage` tells of the relays: in every run, one line for each
relay that is running when the table is looked at and has been sampled by
then, with its own numbers, most traffic first.
-/

namespace KustDesk

open Async

/-- The connections as `make_pair_` has them. -/
def relayJobs (jobs : ConnId → HbbrJob) (i : ConnId) : RelayJob :=
  match jobs i with
  | .connection c => c.upgraded
  | .ioLoop _ => { isWs := false, addr := .unspecified, first := none, outcomes := [] }

/-- The steps of the relays. -/
abbrev relaySteps (es : List (ConnId × HbbrEvent)) : List (ConnId × RelayEvent) :=
  component HbbrEvent.relay es

/-! ## The report of a table -/

theorem moreTraffic_trans (a b c : String × Usage) (hab : moreTraffic a b = true)
    (hbc : moreTraffic b c = true) : moreTraffic a c = true := by
  simp only [moreTraffic, decide_eq_true_eq] at *
  omega

theorem moreTraffic_total (a b : String × Usage) : (moreTraffic a b || moreTraffic b a) = true := by
  simp only [moreTraffic, Bool.or_eq_true, decide_eq_true_eq]
  omega

/-- A line is that of its entry. -/
theorem usageLine_eq_some {entry : String × Usage} {line : UsageLine}
    (h : usageLine entry = some line) : line.ip = entry.1 ∧ line.total = entry.2.2.1 := by
  obtain ⟨ip, elapsed, total, highest, speed⟩ := entry
  rw [usageLine] at h
  split at h
  · cases h
  · cases h
    exact ⟨rfl, rfl⟩

/-- Most traffic first. -/
theorem usageReport_pairwise (usage : HashMap String Usage) :
    (usageReport usage).Pairwise fun a b => b.total ≤ a.total := by
  rw [usageReport, List.pairwise_filterMap]
  refine (List.pairwise_mergeSort moreTraffic_trans moreTraffic_total _).imp ?_
  intro a b hab line hline line' hline'
  rw [(usageLine_eq_some hline).2, (usageLine_eq_some hline').2]
  simpa [moreTraffic] using hab

/-- One line for an entry at most. -/
theorem usageReport_nodup (usage : HashMap String Usage) :
    ((usageReport usage).map (·.ip)).Nodup := by
  have hkeys : ((usage.entries.map fun x => (x.1, x.2)).map Prod.fst).Nodup := by
    rw [List.map_map]
    exact usage.nodupKeys
  have hsorted : (((usage.entries.map fun x => (x.1, x.2)).mergeSort moreTraffic).map
      Prod.fst).Nodup := ((List.mergeSort_perm _ _).map Prod.fst).nodup_iff.mpr hkeys
  have hsublist : ((usageReport usage).map (·.ip)).Sublist
      (((usage.entries.map fun x => (x.1, x.2)).mergeSort moreTraffic).map Prod.fst) := by
    unfold usageReport
    induction (usage.entries.map fun x => (x.1, x.2)).mergeSort moreTraffic with
    | nil => simp
    | cons entry rest ih =>
        cases hline : usageLine entry with
        | none =>
            rw [List.filterMap_cons_none hline]
            exact ih.cons entry.1
        | some line =>
            rw [List.filterMap_cons_some hline, List.map_cons, (usageLine_eq_some hline).1]
            exact ih.cons_cons entry.1
  exact hsorted.sublist hsublist

theorem mem_usageReport {usage : HashMap String Usage} {line : UsageLine} :
    line ∈ usageReport usage ↔ ∃ id u, usage.lookup id = some u ∧ usageLine (id, u) = some line := by
  simp only [usageReport, List.mem_filterMap, List.mem_mergeSort, List.mem_map]
  constructor
  · rintro ⟨-, ⟨x, hx, rfl⟩, hline⟩
    exact ⟨x.1, x.2, AList.mem_lookup_iff.mpr hx, hline⟩
  · rintro ⟨id, u, hu, hline⟩
    exact ⟨(id, u), ⟨⟨id, u⟩, AList.mem_lookup_iff.mp hu, rfl⟩, hline⟩

/-! ## The table in a run -/

section Run
variable {cfg : HbbrConfig} {jobs : ConnId → HbbrJob} {s : HbbrShared}
  {es es₁ es₂ : List (ConnId × HbbrEvent)} {q : Pool ConnId Env HbbrOp HbbrShared fun _ => Unit}
  {i : ConnId} {ev : HbbrEvent}

theorem relaySteps_append : relaySteps (es₁ ++ es₂) = relaySteps es₁ ++ relaySteps es₂ :=
  List.filterMap_append

/-- With commands in between, too, the table mirrors the relays that run. -/
theorem hbbr_mirrors (h : (hbbr cfg jobs s).Run es q) (hs : s.relay.usage = ∅)
    (hapart : KeysApart (relayJobs jobs) (relaySteps es)) :
    Mirrors (relayJobs jobs) (relaySteps es) q.shared.relay.usage := by
  refine h.heeds_invariant (fun i => job_heeds cfg i (jobs i))
    (J := fun es s => KeysApart (relayJobs jobs) (relaySteps es) →
      Mirrors (relayJobs jobs) (relaySteps es) s.relay.usage) ?_ ?_ hapart
  · intro _
    show Mirrors (relayJobs jobs) [] s.relay.usage
    rw [hs]
    exact ⟨fun id u => by simp, fun i j hi => by simp at hi⟩
  · intro es i ev hheeded ih hapart
    have hstep : JobStep cfg i (jobs i) (own i es) ev := hheeded es i ev [] rfl
    unfold relaySteps at hapart ih ⊢
    cases hsee : HbbrEvent.relay ev with
    | none =>
        have hsame : ev.post.relay.usage = ev.pre.relay.usage := by
          by_contra hne
          obtain ⟨op, hop⟩ := hstep.effect.changed_relay (.inr hne)
          simp [HbbrEvent.relay, hop] at hsee
        rw [component_snoc_none es hsee] at hapart ⊢
        rw [hsame]
        exact ih hapart
    | some ev₀ =>
        obtain ⟨op, hop⟩ : ∃ op, ev.op = .relay op := by
          unfold HbbrEvent.relay at hsee
          split at hsee
          · rename_i op hop
            exact ⟨op, hop⟩
          · cases hsee
        obtain ⟨c, -, -, hjob, -, -, -, -, -, husage, -⟩ := hstep.of_relay hop
        rw [HbbrEvent.relay, hop] at hsee
        cases hsee
        have hsee : HbbrEvent.relay ev = some ⟨op, ev.env, ev.pre.relay, ev.post.relay⟩ := by
          rw [HbbrEvent.relay, hop]
        rw [← own_component] at husage
        have hkey : (relayJobs jobs i).usageId = c.upgraded.usageId := by rw [relayJobs, hjob]
        rw [component_snoc_some es hsee] at hapart ⊢
        rw [← hkey] at husage
        exact (ih hapart.take).usageStep husage hapart

/-- **The usage report.** In every run of hbbr in which no relay is entered under
the address of one that is running, a report that is sent has been made from
one look at the table: it has one line for each relay that was running then
and had been sampled, with the relay's own last numbers, and no other, most
traffic first. -/
theorem usage_report (h : (hbbr cfg jobs s).Run es q) (hs : s.relay.usage = ∅)
    (hapart : KeysApart (relayJobs jobs) (relaySteps es)) {lines : List UsageLine}
    (hes : es = es₁ ++ (i, ev) :: es₂) (hop : ev.op = .reply (.usage lines)) :
    ∃ a look b, es₁ = a ++ (i, look) :: b ∧ look.op = .usage
      ∧ lines.Pairwise (fun x y => y.total ≤ x.total) ∧ (lines.map (·.ip)).Nodup
      ∧ ∀ line, line ∈ lines ↔ ∃ j u, relayUsage (own j (relaySteps a)) = some u
        ∧ usageLine ((relayJobs jobs j).usageId, u) = some line := by
  have hreported : Reported (own i es₁) (.usage lines) := (hbbr_step h hes).of_reply hop
  obtain ⟨look, hlook, hlabel, rfl⟩ := hreported lines rfl
  obtain ⟨a, b, rfl⟩ := List.append_of_mem (mem_own.mp hlook)
  have hcut : es = a ++ (i, look) :: (b ++ (i, ev) :: es₂) := by simp [hes]
  obtain ⟨q₁, h₁, hpre⟩ := h.cut hcut
  have hmirrors : Mirrors (relayJobs jobs) (relaySteps a) look.pre.relay.usage := by
    rw [← hpre]
    rw [hcut, relaySteps_append] at hapart
    exact hbbr_mirrors h₁ hs hapart.take
  refine ⟨a, look, b, rfl, hlabel, usageReport_pairwise _, usageReport_nodup _, fun line => ?_⟩
  rw [mem_usageReport]
  constructor
  · rintro ⟨id, u, hu, hline⟩
    obtain ⟨j, rfl, hj⟩ := (hmirrors.entry id u).mp hu
    exact ⟨j, u, hj, hline⟩
  · rintro ⟨j, u, hj, hline⟩
    exact ⟨_, u, (hmirrors.entry _ u).mpr ⟨j, rfl, hj⟩, hline⟩

end Run

/-! A relay that has been sampled once, and a report. -/

def reportJobs : ConnId → HbbrJob
  | 0 => .connection visitor
  | 1 => .connection { visitor with
      addr := ⟨.v4 0x01000002#32, 50000⟩, outcomes := [.recv .peer (.binary [1, 2])] }
  | _ => .connection (hostCommand "u")

def reporting : Pool ConnId Env HbbrOp HbbrShared fun _ => Unit := hbbr hostConfig reportJobs {}

/-- The first connection waits, the second finds it and relays a chunk. -/
def reportSchedule : List (ConnId × Env) :=
  atSeconds (List.replicate 4 (0, 0) ++ List.replicate 6 (1, 1) ++ List.replicate 8 (1, 3)
    ++ List.replicate 3 (2, 4))

/-- Where one relay only is entered, its key is its own. -/
theorem keysApart_of_once {rjobs : ConnId → RelayJob} {before after : List (ConnId × RelayEvent)}
    {y : ConnId × RelayEvent}
    (hbefore : ∀ x ∈ before, ∀ id,
      x.2.op ≠ .enter id ∧ x.2.op ≠ .usage id ∧ x.2.op ≠ .leave id)
    (hafter : ∀ x ∈ after, ∀ id, x.2.op ≠ .enter id) :
    KeysApart rjobs (before ++ y :: after) := by
  intro es₁ i ev es₂ id hes hop j hj
  have hidle : relayUsage (own j before) = none := relayUsage_none_of_other fun ev' hev' =>
    hbefore (j, ev') (mem_own.mp hev')
  rcases List.append_eq_append_iff.mp hes with ⟨c, rfl, hc⟩ | ⟨c, rfl, hc⟩
  · cases c with
    | nil =>
        rw [List.append_nil, hidle] at hj
        cases hj
    | cons x c =>
        obtain ⟨-, rfl⟩ := List.cons.inj hc
        exact (hafter (i, ev) (by simp) id hop).elim
  · cases c with
    | nil =>
        rw [List.append_nil] at hidle
        rw [hidle] at hj
        cases hj
    | cons x c =>
        obtain ⟨rfl, -⟩ := List.cons.inj hc
        exact ((hbefore (i, ev) (by simp) id).1 hop).elim

theorem usage_report_sampled : ∃ es q ev, reporting.Run (es ++ [(2, ev)]) q
    ∧ ev.op = .reply (.usage [⟨"1.0.0.2:50000", 2, 16, 0, 0, 0⟩])
    ∧ ∃ a look, look.op = .usage ∧ (∃ b, es = a ++ (2, look) :: b)
      ∧ ∃ j u, relayUsage (own j (relaySteps a)) = some u
        ∧ usageLine ((relayJobs reportJobs j).usageId, u)
          = some ⟨"1.0.0.2:50000", 2, 16, 0, 0, 0⟩ := by
  have hrun := Pool.play_run reporting reportSchedule
  have hrelays : (relaySteps (reporting.play reportSchedule).1).map (fun x => x.2.op)
      = [.first (some [0]), .take "relay", .wait "relay" ⟨0, false, false⟩, .first (some [0]),
          .take "relay"] ++ (.enter "1.0.0.2:50000" :: [.relay ⟨1, false, true⟩ ⟨0, false, true⟩,
          .settings, .recv .peer [1, 2], .throttle false 16, .throttleTotal 16,
          .send .stream [1, 2], .clock, .blocklist "1.0.0.2", .blacklist "1.0.0.2",
          .usage "1.0.0.2:50000"]) := by decide +kernel
  have hlast : (reporting.play reportSchedule).1.getLast?.map (fun x => (x.1, x.2.op))
      = some (2, .reply (.usage [⟨"1.0.0.2:50000", 2, 16, 0, 0, 0⟩])) := by decide +kernel
  have hapart : KeysApart (relayJobs reportJobs) (relaySteps (reporting.play reportSchedule).1) := by
    obtain ⟨before, rest, hsplit, hbefore, hrest⟩ := List.map_eq_append_iff.mp hrelays
    obtain ⟨y, after, rfl, -, hafter⟩ := List.map_eq_cons_iff.mp hrest
    rw [hsplit]
    refine keysApart_of_once (fun x hx id => ?_) fun x hx id => ?_
    · have hop := List.mem_map_of_mem (f := fun x => x.2.op) hx
      rw [hbefore] at hop
      simp only [List.mem_cons, List.not_mem_nil, or_false] at hop
      rcases hop with hop | hop | hop | hop | hop <;> simp [hop]
    · have hop := List.mem_map_of_mem (f := fun x => x.2.op) hx
      rw [hafter] at hop
      intro henter
      simp [henter] at hop
  obtain ⟨⟨i, ev⟩, hget, hev⟩ := Option.map_eq_some_iff.mp hlast
  obtain ⟨rfl, hop⟩ := Prod.mk.inj hev
  obtain ⟨es, hes⟩ := List.getLast?_eq_some_iff.mp hget
  obtain ⟨a, look, b, hsplit, hlook, -, -, hlines⟩ := usage_report hrun rfl hapart hes hop
  rw [hes] at hrun
  exact ⟨es, _, ev, hrun, hop, a, look, hlook, ⟨b, hsplit⟩,
    (hlines ⟨"1.0.0.2:50000", 2, 16, 0, 0, 0⟩).mp (by simp)⟩

end KustDesk
