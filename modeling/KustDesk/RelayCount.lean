import KustDesk.Blocking
import KustDesk.Pipe

/-!
# KustDesk — RelayCount

What the loop of `relay` counts where its arithmetic is exact: the bits that
have come in, the time up to the last sample, and when the downgrade comes.
-/

namespace KustDesk

open Async

/-! ## What is to be counted -/

/-- The milliseconds that a step adds: those since the last sample, where the
clock is read for one that is due. -/
def sampleMillis (last : Instant) (ev : RelayEvent) : Nat :=
  match ev.op with
  | .clock =>
      let n := Instant.asMillis (Instant.elapsed ev.env.now last)
      if n ≥ 1000 then n else 0
  | _ => 0

/-- The milliseconds of all samples, each counted from the one before. -/
def sampledMillis (es : List RelayEvent) : Nat :=
  (es.foldl (fun r ev => ((sampledAt ev).getD r.1, r.2 + sampleMillis r.1 ev)) (0, 0)).2

def countSince (bits : Nat) (ev : RelayEvent) : Nat :=
  match ev.op with
  | .recv _ bytes => bits + 8 * bytes.length
  | .usage _ => 0
  | _ => bits

/-- The bits that have come in since the usage was noted last. -/
def bitsSinceSample (es : List RelayEvent) : Nat := es.foldl countSince 0

/-- At a step that notes the usage, the time is past `DOWNGRADE_START_CHECK`
and the bits are more than the threshold allows. -/
def IsPast (threshold : Nat) (es : List RelayEvent) (ev : RelayEvent) : Prop :=
  (∃ id, ev.op = .usage id) ∧ sampledMillis es > ev.pre.downgradeStartCheck
    ∧ 8 * bytesReceived es > sampledMillis es * threshold

/-- There has been such a step. -/
def PastThreshold (threshold : Nat) (es : List RelayEvent) : Prop :=
  ∃ es₁ ev es₂, es = es₁ ++ ev :: es₂ ∧ IsPast threshold es₁ ev

section Snoc
variable {threshold : Nat} {es : List RelayEvent} {ev : RelayEvent}

theorem sampledMillis_snoc :
    sampledMillis (es ++ [ev]) = sampledMillis es + sampleMillis (lastSample es) ev := by
  have hlast : ∀ es : List RelayEvent,
      (es.foldl (fun r ev => ((sampledAt ev).getD r.1, r.2 + sampleMillis r.1 ev)) (0, 0)).1
        = lastSample es := by
    intro es
    induction es using List.reverseRecOn with
    | nil => rfl
    | append_singleton es ev ih =>
        rw [lastSample_snoc, List.foldl_append]
        simp only [List.foldl_cons, List.foldl_nil, ih]
  rw [sampledMillis, List.foldl_append]
  simp only [List.foldl_cons, List.foldl_nil, hlast, sampledMillis]

theorem bitsSinceSample_snoc : bitsSinceSample (es ++ [ev]) = countSince (bitsSinceSample es) ev := by
  rw [bitsSinceSample, List.foldl_append]
  rfl

theorem pastThreshold_snoc :
    PastThreshold threshold (es ++ [ev]) ↔ PastThreshold threshold es ∨ IsPast threshold es ev := by
  constructor
  · intro ⟨es₁, ev', es₂, hes, hpast⟩
    rcases snoc_eq_split hes with ⟨rfl, rfl, -⟩ | ⟨es₃, hold, -⟩
    · exact .inr hpast
    · exact .inl ⟨es₁, ev', es₃, hold, hpast⟩
  · intro h
    rcases h with ⟨es₁, ev', es₂, hes, hpast⟩ | hpast
    · exact ⟨es₁, ev', es₂ ++ [ev], by simp [hes], hpast⟩
    · exact ⟨es, ev, [], rfl, hpast⟩

theorem not_isPast (h : ∀ id, ev.op ≠ .usage id) : ¬ IsPast threshold es ev := by
  intro ⟨⟨id, hop⟩, _⟩
  exact h id hop

theorem bitsSinceSample_le : bitsSinceSample es ≤ 8 * bytesReceived es := by
  induction es using List.reverseRecOn with
  | nil => exact Nat.zero_le _
  | append_singleton es ev ih =>
      rw [bitsSinceSample_snoc, bytesReceived, List.filterMap_append, List.map_append,
        List.sum_append, ← bytesReceived]
      cases hop : ev.op with
      | recv side bytes =>
          simp [countSince, arrival, hop]
          omega
      | usage id => simp [countSince, arrival, hop]
      | _ =>
          simp [countSince, arrival, hop]
          omega

end Snoc

/-- The clock does not run backwards. -/
def TimeOrdered (es : List RelayEvent) : Prop := es.Pairwise fun a b => a.env.now ≤ b.env.now

/-- The samples so far and one of `n` milliseconds lie before the next step. -/
theorem span_add {first tm now now' millis n k : Nat} (hbefore : first + millis * k ≤ tm)
    (hspent : n * k ≤ now - tm) (hread : tm ≤ now) (hlater : now ≤ now') :
    first + (millis + n) * k ≤ now' := by
  rw [Nat.add_mul]
  omega

theorem timeOrdered_snoc {es : List RelayEvent} {ev : RelayEvent} :
    TimeOrdered (es ++ [ev]) ↔ TimeOrdered es ∧ ∀ a ∈ es, a.env.now ≤ ev.env.now := by
  simp [TimeOrdered, List.pairwise_append]

/-! ## The variables of the loop -/

/-- The samples lie between the first step and the last one of them. -/
structure Spanned (es : List RelayEvent) : Prop where
  seen : ∃ ev ∈ es, ev.env.now = lastSample es
  span : ∃ first ∈ es, TimeOrdered es →
    first.env.now + sampledMillis es * 1000000 ≤ lastSample es

/-- A step after which the samples are the same. -/
theorem Spanned.snoc {es : List RelayEvent} {ev : RelayEvent} (h : Spanned es)
    (hlast : lastSample (es ++ [ev]) = lastSample es)
    (hmillis : sampledMillis (es ++ [ev]) = sampledMillis es) : Spanned (es ++ [ev]) where
  seen := by
    obtain ⟨last, hmem, hnow⟩ := h.seen
    exact ⟨last, List.mem_append_left _ hmem, hnow.trans hlast.symm⟩
  span := by
    obtain ⟨first, hfirst, hspan⟩ := h.span
    refine ⟨first, List.mem_append_left _ hfirst, fun horder => ?_⟩
    rw [hmillis, hlast]
    exact hspan (timeOrdered_snoc.mp horder).1

/-- The variables that a sample sets, outside of one. -/
structure Timed (threshold : Nat) (es : List RelayEvent) (v : RelayVars) : Prop where
  tm : v.tm = lastSample es
  elapsed : v.elapsed = sampledMillis es
  downgrade : v.downgrade = true ↔ PastThreshold threshold es
  spanned : Spanned es

structure Counted (threshold : Nat) (es : List RelayEvent) (v : RelayVars) : Prop
    extends Timed threshold es v where
  total : v.total = 8 * bytesReceived es
  totalS : v.totalS = bitsSinceSample es

/-- A step that is no part of a sample. -/
def Unsampled (ev : RelayEvent) : Prop :=
  sampledAt ev = none ∧ ev.op ≠ .clock ∧ ∀ id, ev.op ≠ .usage id

/-- What is noted of the usage is exact, and the samples lie within the run. -/
def Noting (es : List RelayEvent) (ev : RelayEvent) : Prop :=
  ∀ id, ev.op = .usage id → Spanned es ∧ ∃ highest speed,
    ev.post.usage.lookup id = some (sampledMillis es, 8 * bytesReceived es, highest, speed)

section Loop
variable {threshold : Nat} {es : List RelayEvent} {v v' : RelayVars} {ev : RelayEvent}

theorem noting_of_ne (h : ∀ id, ev.op ≠ .usage id) : Noting es ev :=
  fun id hop => (h id hop).elim

theorem Unsampled.lastSample_eq (h : Unsampled ev) : lastSample (es ++ [ev]) = lastSample es := by
  rw [lastSample_snoc, h.1, Option.getD_none]

theorem Unsampled.sampledMillis_eq (h : Unsampled ev) :
    sampledMillis (es ++ [ev]) = sampledMillis es := by
  have hclock := h.2.1
  rw [sampledMillis_snoc]
  cases hop : ev.op with
  | clock => exact (hclock hop).elim
  | _ => simp [sampleMillis, hop]

theorem Timed.snoc (h : Timed threshold es v) (hev : Unsampled ev) (htm : v'.tm = v.tm)
    (helapsed : v'.elapsed = v.elapsed) (hdowngrade : v'.downgrade = v.downgrade) :
    Timed threshold (es ++ [ev]) v' where
  tm := by rw [hev.lastSample_eq, htm, h.tm]
  elapsed := by rw [hev.sampledMillis_eq, helapsed, h.elapsed]
  downgrade := by rw [pastThreshold_snoc, or_iff_left (not_isPast hev.2.2), hdowngrade, h.downgrade]
  spanned := h.spanned.snoc hev.lastSample_eq hev.sampledMillis_eq

/-- A step that brings no chunk either. -/
theorem Counted.snoc (h : Counted threshold es v) (hev : Unsampled ev) (hnone : arrival ev = none) :
    Counted threshold (es ++ [ev]) v where
  toTimed := h.toTimed.snoc hev rfl rfl rfl
  total := by
    rw [h.total]
    simp [bytesReceived, List.filterMap_append, hnone]
  totalS := by
    have husage := hev.2.2
    rw [bitsSinceSample_snoc, h.totalS]
    cases hop : ev.op with
    | recv side bytes => simp [arrival, hop] at hnone
    | usage id => exact (husage id hop).elim
    | _ => simp [countSince, hop]

/-- A chunk comes in. -/
theorem Counted.recv (h : Counted threshold es v) {side : Side} {bytes : Bytes}
    (hop : ev.op = .recv side bytes) (now : Instant) :
    Counted threshold (es ++ [ev]) { v with
      lastRecvTime := now
      total := v.total + bytes.length * 8
      totalS := v.totalS + bytes.length * 8 } where
  toTimed := h.toTimed.snoc (by simp [Unsampled, sampledAt, hop]) rfl rfl rfl
  total := by
    have hbytes : bytesReceived (es ++ [ev]) = bytesReceived es + bytes.length := by
      simp [bytesReceived, List.filterMap_append, arrival, hop]
    have htotal := h.total
    dsimp only
    omega
  totalS := by
    rw [bitsSinceSample_snoc, countSince, hop]
    have htotalS := h.totalS
    dsimp only
    omega

theorem relayChunk_counts (side : Side) (bytes : Bytes) (h : Counted threshold es v) :
    (relayChunk id side bytes v).Heeds Noting (fun es y => Counted threshold es y.1) es := by
  intro e s
  have hrecv : Counted threshold (es ++ [⟨.recv side bytes, e, s, s⟩]) { v with
      lastRecvTime := e.now
      total := v.total + bytes.length * 8
      totalS := v.totalS + bytes.length * 8 } := h.recv rfl e.now
  refine ⟨noting_of_ne (by simp), fun e₁ s₁ =>
    ⟨noting_of_ne (by simp), fun e₂ s₂ => ⟨noting_of_ne (by simp), ?_⟩⟩⟩
  have hthrottle : Counted threshold
      (_ ++ [⟨.throttle (v.blacked || v.downgrade) (bytes.length * 8), e₁, s₁, s₁⟩]) _ :=
    hrecv.snoc (by simp [Unsampled, sampledAt]) rfl
  have htotal : Counted threshold (_ ++ [⟨.throttleTotal (bytes.length * 8), e₂, s₂, s₂⟩]) _ :=
    hthrottle.snoc (by simp [Unsampled, sampledAt]) rfl
  dsimp only
  by_cases hbytes : bytes = []
  · rw [if_neg (not_not.mpr hbytes)]
    exact htotal
  · rw [if_pos hbytes]
    intro e₃ s₃
    exact ⟨noting_of_ne (by simp), htotal.snoc (by simp [Unsampled, sampledAt]) rfl⟩

/-- What the clock shows is less than a second, or it is counted. -/
theorem Counted.clock_millis (h : Counted threshold es v) (e : Env) (s s' : RelayShared) :
    Instant.asMillis (Instant.elapsed e.now v.tm) < 1000
    ∨ sampledMillis (es ++ [⟨.clock, e, s, s'⟩])
      = v.elapsed + Instant.asMillis (Instant.elapsed e.now v.tm) := by
  rw [sampledMillis_snoc, sampleMillis, ← h.tm, ← h.elapsed]
  dsimp only
  by_cases hdue : Instant.asMillis (Instant.elapsed e.now v.tm) ≥ 1000
  · rw [if_pos hdue]
    exact .inr rfl
  · exact .inl (Nat.lt_of_not_le hdue)

/-- A sample that was not due counts nothing. -/
theorem Counted.clock (h : Counted threshold es v) (hop : ev.op = .clock)
    (hn : ¬ Instant.asMillis (Instant.elapsed ev.env.now v.tm) ≥ 1000) :
    Counted threshold (es ++ [ev]) v := by
  have hlast : lastSample (es ++ [ev]) = lastSample es := by
    rw [lastSample_snoc, sampledAt, hop, Option.getD_none]
  have hsampled : sampledMillis (es ++ [ev]) = sampledMillis es := by
    rw [h.tm] at hn
    rw [sampledMillis_snoc, sampleMillis, hop]
    exact congrArg _ (if_neg hn)
  constructor
  · constructor
    · rw [hlast, h.tm]
    · rw [hsampled, h.elapsed]
    · rw [pastThreshold_snoc, or_iff_left (not_isPast (by simp [hop])), h.downgrade]
    · exact h.spanned.snoc hlast hsampled
  · rw [bytesReceived_still (by simp [Still, arrival, hop]), h.total]
  · rw [bitsSinceSample_snoc, countSince, hop, h.totalS]

/-- A sample of `n` milliseconds is due, and the lists have been looked at. -/
structure Sampled (threshold : Nat) (es : List RelayEvent) (v : RelayVars) (n : Nat)
    (now : Instant) : Prop where
  elapsed : sampledMillis es = v.elapsed + n
  total : v.total = 8 * bytesReceived es
  downgrade : v.downgrade = true ↔ PastThreshold threshold es
  last : lastSample es = now
  spanned : Spanned es

theorem Counted.sampled (h : Counted threshold es v) (ip : String) {n : Nat} {e e₁ e₂ : Env}
    {s s₁ s₂ : RelayShared} (hn : n = Instant.asMillis (Instant.elapsed e.now v.tm))
    (hdue : n ≥ 1000) :
    Sampled threshold (es ++ [⟨.clock, e, s, s⟩] ++ [⟨.blocklist ip, e₁, s₁, s₁⟩]
      ++ [⟨.blacklist ip, e₂, s₂, s₂⟩]) v n e₂.now := by
  have hsampled : sampledMillis (es ++ [⟨.clock, e, s, s⟩] ++ [⟨.blocklist ip, e₁, s₁, s₁⟩]
      ++ [⟨.blacklist ip, e₂, s₂, s₂⟩]) = v.elapsed + n := by
    have hclock : sampledMillis (es ++ [⟨.clock, e, s, s⟩]) = v.elapsed + n := by
      rcases h.clock_millis e s s with hlt | heq
      · rw [← hn] at hlt
        omega
      · rw [heq, hn]
    rw [sampledMillis_snoc, sampledMillis_snoc, hclock]
    rfl
  have hlast : lastSample (es ++ [⟨.clock, e, s, s⟩] ++ [⟨.blocklist ip, e₁, s₁, s₁⟩]
      ++ [⟨.blacklist ip, e₂, s₂, s₂⟩]) = e₂.now := by
    rw [lastSample_snoc]
    rfl
  constructor
  · exact hsampled
  · rw [bytesReceived_still (by simp [Still, arrival]),
      bytesReceived_still (by simp [Still, arrival]),
      bytesReceived_still (by simp [Still, arrival]), h.total]
  · rw [pastThreshold_snoc, or_iff_left (not_isPast (by simp)), pastThreshold_snoc,
      or_iff_left (not_isPast (by simp)), pastThreshold_snoc, or_iff_left (not_isPast (by simp)),
      h.downgrade]
  · exact hlast
  · constructor
    · exact ⟨⟨.blacklist ip, e₂, s₂, s₂⟩, by simp, hlast.symm⟩
    obtain ⟨first, hfirst, hspan⟩ := h.spanned.span
    refine ⟨first, by simp [hfirst], fun horder => ?_⟩
    rw [timeOrdered_snoc, timeOrdered_snoc, timeOrdered_snoc] at horder
    have hbefore := hspan horder.1.1.1
    have hlater : e.now ≤ e₂.now := horder.2 ⟨.clock, e, s, s⟩ (by simp)
    have hspent : n * 1000000 ≤ e.now - v.tm := by
      rw [hn]
      exact Nat.div_mul_le_self _ _
    have hread : v.tm ≤ e.now := by
      obtain ⟨last, hmem, hnow⟩ := h.spanned.seen
      rw [h.tm, ← hnow]
      exact horder.1.1.2 last hmem
    rw [← h.tm, ← h.elapsed] at hbefore
    rw [hsampled, hlast]
    exact span_add hbefore hspent hread hlater

/-- The usage is noted, and all variables of the sample are set. -/
theorem Sampled.counted {n : Nat} {now : Instant} (h : Sampled threshold es v n now) (id : String)
    {e : Env} {s s' : RelayShared} (highestS : Nat) (blacked : Bool) :
    Counted threshold (es ++ [⟨.usage id, e, s, s'⟩]) { v with
      tm := now
      elapsed := v.elapsed + n
      totalS := 0
      highestS, blacked
      downgrade := v.downgrade || decide (v.elapsed + n > s.downgradeStartCheck
        ∧ v.total > (v.elapsed + n) * threshold) } := by
  have hsampled : sampledMillis (es ++ [⟨.usage id, e, s, s'⟩]) = sampledMillis es := by
    rw [sampledMillis_snoc]
    rfl
  have hlast : lastSample (es ++ [⟨.usage id, e, s, s'⟩]) = lastSample es := by
    rw [lastSample_snoc]
    rfl
  constructor
  · constructor
    · rw [hlast, h.last]
    · rw [hsampled, h.elapsed]
    · rw [pastThreshold_snoc, IsPast, h.elapsed, ← h.total, Bool.or_eq_true, h.downgrade,
        decide_eq_true_eq]
      simp
    · exact h.spanned.snoc hlast hsampled
  · rw [bytesReceived_still (by simp [Still, arrival])]
    exact h.total
  · rw [bitsSinceSample_snoc]
    rfl

theorem relaySample_counts (ip uid : String) (h : Counted threshold es v) :
    (relaySample id ip uid threshold v).Heeds Noting
      (fun es o => ∀ v', o = some v' → Counted threshold es v') es := by
  intro e s
  refine ⟨noting_of_ne (by simp), ?_⟩
  show Task.Heeds _ _ (if Instant.asMillis (Instant.elapsed e.now v.tm) ≥ 1000 then _ else _) _
  by_cases hn : Instant.asMillis (Instant.elapsed e.now v.tm) ≥ 1000
  · rw [if_pos hn]
    intro e₁ s₁
    refine ⟨noting_of_ne (by simp), ?_⟩
    show Task.Heeds _ _ (if decide (ip ∈ s₁.blocklist) = true then _ else _) _
    by_cases hblocked : ip ∈ s₁.blocklist
    · rw [if_pos (decide_eq_true hblocked)]
      intro v' hv
      cases hv
    · rw [if_neg (by simpa using hblocked)]
      intro e₂ s₂
      refine ⟨noting_of_ne (by simp), fun e₃ s₃ => ?_⟩
      have hsampled : Sampled threshold (es ++ [⟨.clock, e, s, s⟩] ++ [⟨.blocklist ip, e₁, s₁, s₁⟩]
          ++ [⟨.blacklist ip, e₂, s₂, s₂⟩]) v _ e₂.now := h.sampled ip rfl hn
      constructor
      · intro id' hid
        cases hid
        rw [hsampled.elapsed, ← hsampled.total]
        exact ⟨hsampled.spanned, _, _, AList.lookup_insert _⟩
      · intro v' hv
        cases hv
        exact hsampled.counted uid _ _
  · rw [if_neg hn]
    intro v' hv
    cases hv
    exact h.clock rfl hn

theorem relayLoop_counts (ip uid : String) (outcomes : List Select) (h : Counted threshold es v) :
    (relayLoop id ip uid threshold v outcomes).Heeds Noting
      (fun es y => y.2 = none → Counted threshold es y.1) es := by
  refine relayLoop_rule (J := Counted threshold) (fun es v r h _ => h) ?_ ?_ ?_ ?_ outcomes h
  · intro es v side bytes h
    refine (relayChunk_counts side bytes h).mono fun es y h => ?_
    obtain ⟨v', sent⟩ := y
    cases sent with
    | error =>
        intro hnone
        cases hnone
    | ok => exact h
  · intro es v h
    refine (relaySample_counts ip uid h).mono fun es o h => ?_
    cases o with
    | none =>
        intro hnone
        cases hnone
    | some v' => exact h v' rfl
  · intro es v side e s h
    exact ⟨noting_of_ne (by simp), h.snoc (by simp [Unsampled, sampledAt]) rfl⟩
  · intro es v e s h
    exact ⟨noting_of_ne (by simp), h.snoc (by simp [Unsampled, sampledAt]) rfl⟩

/-- The variables that a relay starts with. -/
theorem counted_start (threshold : Nat) (e : Env) (s s' : RelayShared) :
    Counted threshold [⟨.settings, e, s, s'⟩] { tm := e.now, lastRecvTime := e.now } where
  tm := rfl
  elapsed := rfl
  downgrade := by
    rw [show [(⟨.settings, e, s, s'⟩ : RelayEvent)] = [] ++ [⟨.settings, e, s, s'⟩] from rfl,
      pastThreshold_snoc, or_iff_left (not_isPast (by simp))]
    simp [PastThreshold]
  spanned := by
    refine ⟨⟨_, List.mem_singleton.mpr rfl, rfl⟩, ?_⟩
    have hsampled : sampledMillis [⟨.settings, e, s, s'⟩] = 0 := rfl
    refine ⟨_, List.mem_singleton.mpr rfl, fun _ => ?_⟩
    rw [hsampled, Nat.zero_mul]
    rfl
  total := rfl
  totalS := rfl

end Loop

variable {cfg : RelayConfig} {a : SocketAddr} {uid : String} {outcomes : List Select}
  {es : List RelayEvent} {t : RelayTask (RelayVars × Option (Except Unit Unit))}

/-- **Exact accounting.** What a relay notes of its usage is exact, and so are
its variables, whenever it waits. -/
theorem relay_counts (h : (relayWith cfg id a uid outcomes).Path es t) :
    (∀ es₁ ev es₂, es = es₁ ++ ev :: es₂ → Noting es₁ ev)
      ∧ ∀ v, t.result = some (v, none) → Counted (cfg.loadedThreshold es) es v := by
  cases h with
  | nil =>
      constructor
      · simp
      · intro v hv
        cases hv
  | @cons _ _ _ es _ e s h =>
      have hloop := (relayLoop_counts a.ip.toString uid outcomes (counted_start
        (cfg.downgradeThreshold s.singleBandwidth s.downgradeThreshold100) e s s)).path h
      constructor
      · intro es₁ ev es₂ hes
        cases es₁ with
        | nil =>
            obtain ⟨rfl, -⟩ := List.cons.inj hes
            exact noting_of_ne (by simp)
        | cons ev₁ es₁ =>
            obtain ⟨rfl, htail⟩ := List.cons.inj hes
            exact hloop.1 es₁ ev es₂ htail
      · intro v hv
        cases t with
        | done y =>
            cases hv
            exact hloop.2 rfl
        | abort why => cases hv
        | step op f k => cases hv

/-- The downgrade as it is noted is the one that is due. -/
theorem pastThreshold_iff_downgrades {threshold : Nat}
    (h : ∀ es₁ ev es₂, es = es₁ ++ ev :: es₂ → Noting es₁ ev) :
    PastThreshold threshold es ↔ es.any (downgrades id threshold) = true := by
  have hstep {es₁ es₂ : List RelayEvent} {ev : RelayEvent} (hes : es = es₁ ++ ev :: es₂) :
      IsPast threshold es₁ ev ↔ downgrades id threshold ev = true := by
    unfold IsPast downgrades
    cases hop : ev.op with
    | usage id =>
        obtain ⟨-, highest, speed, hnoted⟩ := h es₁ ev es₂ hes id hop
        simp [hnoted]
    | _ => simp
  rw [List.any_eq_true]
  constructor
  · rintro ⟨es₁, ev, es₂, hes, hpast⟩
    exact ⟨ev, by simp [hes], (hstep hes).mp hpast⟩
  · rintro ⟨ev, hmem, hdown⟩
    obtain ⟨es₁, es₂, hes⟩ := List.append_of_mem hmem
    exact ⟨es₁, ev, es₂, hes, (hstep hes).mpr hdown⟩

end KustDesk
