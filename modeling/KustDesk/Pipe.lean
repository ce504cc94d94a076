import KustDesk.Relay
import KustDesk.Async.Alone

/-!
# KustDesk — Pipe

The loop of `relay` as a pipe in both directions: what is written to one side
is what came from the other, whatever else happens in the loop.
-/

namespace KustDesk

open Async

/-! ## What is seen of a relay -/

/-- Any chunk that arrives, and where. -/
def arrival (ev : RelayEvent) : Option (Side × Bytes) :=
  match ev.op with
  | .recv side bytes => some (side, bytes)
  | _ => none

/-- A chunk that arrives at the side and is not empty. -/
def received (side : Side) (ev : RelayEvent) : Option Bytes :=
  match arrival ev with
  | some (side', bytes) => if side' = side ∧ bytes ≠ [] then some bytes else none
  | none => none

/-- A chunk that is written to the side. -/
def written (side : Side) (ev : RelayEvent) : Option Bytes :=
  match ev.op with
  | .send side' bytes => if side' = side ∧ ev.env.fails = false then some bytes else none
  | _ => none

/-- The number of bytes that have arrived on both sides. -/
def bytesReceived (es : List RelayEvent) : Nat :=
  ((es.filterMap arrival).map fun y => y.2.length).sum

/-- Every chunk that is sent is the one that arrived last, at the other
side. -/
def NoEcho (es : List RelayEvent) : Prop :=
  ∀ es₁ ev es₂ side bytes, es = es₁ ++ ev :: es₂ → ev.op = .send side bytes →
    (es₁.filterMap arrival).getLast? = some (side.other, bytes)

@[simp] theorem Side.other_other (side : Side) : side.other.other = side := by
  cases side <;> rfl

theorem Side.other_inj {side side' : Side} : side.other = side'.other ↔ side = side' := by
  cases side <;> cases side' <;> decide

/-- A step of the limiters. -/
def OfLimiter (ev : RelayEvent) : Prop :=
  ∃ black nb, ev.op = .throttle black nb ∨ ev.op = .throttleTotal nb

/-- The chunk came in last and is held up by the limiters. -/
def Throttled (es : List RelayEvent) (side : Side) (bytes : Bytes) : Prop :=
  ∃ es₁ ev es₂, es = es₁ ++ ev :: es₂ ∧ arrival ev = some (side, bytes)
    ∧ ∀ ev' ∈ es₂, OfLimiter ev'

/-- The last step is a failed attempt to write the chunk to the side. -/
def SendFailed (es : List RelayEvent) (side : Side) (bytes : Bytes) : Prop :=
  ∃ ev, es.getLast? = some ev ∧ ev.op = .send side bytes ∧ ev.env.fails = true

/-- One more step, which sends nothing but the chunk that came in last. -/
theorem NoEcho.snoc {es : List RelayEvent} (h : NoEcho es) {ev : RelayEvent}
    (hev : ∀ side bytes, ev.op = .send side bytes →
      (es.filterMap arrival).getLast? = some (side.other, bytes)) : NoEcho (es ++ [ev]) := by
  intro es₁ ev' es₂ side bytes hes hop
  rcases snoc_eq_split hes with ⟨rfl, rfl, -⟩ | ⟨es₃, hold, -⟩
  · exact hev side bytes hop
  · exact h es₁ ev' es₃ side bytes hold hop

/-- The chunk that is on its way from the side. -/
def pendingFrom (side : Side) (pending : Option (Side × Bytes)) : List Bytes :=
  pending.toList.filterMap fun y => if y.1 = side then some y.2 else none

/-- All that has come in is written to the other side, in order, but for the
chunk on its way. -/
structure Piped (es : List RelayEvent) (pending : Option (Side × Bytes)) : Prop where
  forwarded : ∀ side, es.filterMap (received side)
    = es.filterMap (written side.other) ++ pendingFrom side pending
  noEcho : NoEcho es

/-- A step that neither takes a chunk in nor sends one. -/
def Still (ev : RelayEvent) : Prop := arrival ev = none ∧ ∀ side bytes, ev.op ≠ .send side bytes

namespace Still

theorem received_eq {ev : RelayEvent} (h : Still ev) (side : Side) : received side ev = none := by
  rw [received, h.1]

theorem written_eq {ev : RelayEvent} (h : Still ev) (side : Side) : written side ev = none := by
  have hunsent := h.2
  unfold written
  split
  · rename_i hop
    exact (hunsent _ _ hop).elim
  · rfl

end Still

theorem OfLimiter.still {ev : RelayEvent} (h : OfLimiter ev) : Still ev := by
  obtain ⟨black, nb, hop | hop⟩ := h <;> simp [Still, arrival, hop]

namespace Piped

theorem nil : Piped [] none where
  forwarded _ := rfl
  noEcho _ _ _ _ _ hes := by simp at hes

variable {es : List RelayEvent} {ev : RelayEvent} {side : Side} {bytes : Bytes}

theorem still {pending : Option (Side × Bytes)} (h : Piped es pending) (hev : Still ev) :
    Piped (es ++ [ev]) pending where
  forwarded side := by
    simp [List.filterMap_append, h.forwarded, hev.received_eq, hev.written_eq]
  noEcho := h.noEcho.snoc fun side bytes hop => (hev.2 side bytes hop).elim

/-- A chunk comes in. -/
theorem recv (h : Piped es none) (hop : ev.op = .recv side bytes) :
    Piped (es ++ [ev]) (if bytes = [] then none else some (side, bytes)) where
  forwarded side' := by
    have hwritten : written side'.other ev = none := by simp [written, hop]
    have hreceived : received side' ev = if side = side' ∧ bytes ≠ [] then some bytes else none := by
      simp [received, arrival, hop]
    rw [List.filterMap_append, List.filterMap_append, h.forwarded]
    by_cases hbytes : bytes = []
    · simp [hwritten, hreceived, hbytes, pendingFrom]
    · by_cases hside : side = side'
      · simp [hwritten, hreceived, hbytes, hside, pendingFrom]
      · simp [hwritten, hreceived, hbytes, hside, pendingFrom]
  noEcho := h.noEcho.snoc fun side' bytes' hsend => by
    rw [hop] at hsend
    cases hsend

/-- The chunk on its way is sent, or not. -/
theorem send (h : Piped es (some (side, bytes))) (hop : ev.op = .send side.other bytes)
    (hlast : (es.filterMap arrival).getLast? = some (side, bytes)) :
    Piped (es ++ [ev]) (if ev.env.fails then some (side, bytes) else none) where
  forwarded side' := by
    have hreceived : received side' ev = none := by simp [received, arrival, hop]
    have hwritten : written side'.other ev
        = if side = side' ∧ ev.env.fails = false then some bytes else none := by
      simp [written, hop, Side.other_inj]
    rw [List.filterMap_append, List.filterMap_append, h.forwarded]
    by_cases hside : side = side'
    · cases hfails : ev.env.fails <;> simp [hreceived, hwritten, hside, hfails, pendingFrom]
    · cases hfails : ev.env.fails <;> simp [hreceived, hwritten, hside, hfails, pendingFrom]
  noEcho := h.noEcho.snoc fun side' bytes' hsend => by
    rw [hop] at hsend
    cases hsend
    rw [Side.other_other]
    exact hlast

end Piped

/-! ## The parts of the loop -/

/-- How the loop can stand: a chunk is held up by the limiters; nothing is on
its way; a chunk could not be written, which has ended the loop. -/
inductive Piping (w : Nat) (es : List RelayEvent) :
    Option (RelayVars × Option (Except Unit Unit)) → Prop where
  | held {side bytes} (piped : Piped es (some (side, bytes)))
      (throttled : Throttled es side bytes) : Piping w es none
  | idle {o} (piped : Piped es none)
      (total : ∀ v r, o = some (v, r) → v.total = usizeOf w (8 * bytesReceived es)) :
      Piping w es o
  | lost {side bytes v} (piped : Piped es (some (side, bytes)))
      (failed : SendFailed es side.other bytes)
      (total : v.total = usizeOf w (8 * bytesReceived es)) : Piping w es (some (v, some (.error ())))

/-- Each time round the loop. -/
structure Drained (w : Nat) (es : List RelayEvent) (v : RelayVars) : Prop where
  piped : Piped es none
  total : v.total = usizeOf w (8 * bytesReceived es)

/-- From the time a chunk comes in to the time it is sent. -/
structure Carrying (w : Nat) (es : List RelayEvent) (side : Side) (bytes : Bytes)
    (total : Nat) : Prop where
  piped : Piped es (if bytes = [] then none else some (side, bytes))
  throttled : Throttled es side bytes
  total : total = usizeOf w (8 * bytesReceived es)

section Steps
variable {w : Nat} {es : List RelayEvent} {v v' : RelayVars} {ev : RelayEvent} {side : Side}
  {bytes : Bytes} {total : Nat}

theorem Drained.before (h : Drained w es v) : Piping w es none := .idle h.piped nofun

theorem Drained.stop (h : Drained w es v) (r : Option (Except Unit Unit)) :
    Piping w es (some (v, r)) := by
  refine .idle h.piped fun v' r ho => ?_
  cases ho
  exact h.total

theorem bytesReceived_still (h : Still ev) : bytesReceived (es ++ [ev]) = bytesReceived es := by
  simp [bytesReceived, List.filterMap_append, h.1]

theorem Drained.still (h : Drained w es v) (hev : Still ev) (htotal : v'.total = v.total) :
    Drained w (es ++ [ev]) v' where
  piped := h.piped.still hev
  total := by rw [bytesReceived_still hev, htotal, h.total]

theorem Drained.recv (h : Drained w es v) (hop : ev.op = .recv side bytes) :
    Carrying w (es ++ [ev]) side bytes
      (usizeOf w (v.total + usizeOf w (bytes.length * 8))) where
  piped := h.piped.recv hop
  throttled := ⟨es, ev, [], rfl, by rw [arrival, hop], by simp⟩
  total := by
    have hev : bytesReceived (es ++ [ev]) = bytesReceived es + bytes.length := by
      simp [bytesReceived, List.filterMap_append, arrival, hop]
    rw [hev, h.total, usizeOf_add]
    congr 1
    omega

theorem Carrying.limiter (h : Carrying w es side bytes total) (hev : OfLimiter ev) :
    Carrying w (es ++ [ev]) side bytes total where
  piped := h.piped.still hev.still
  throttled := by
    obtain ⟨es₁, recv, es₂, rfl, hrecv, hes₂⟩ := h.throttled
    refine ⟨es₁, recv, es₂ ++ [ev], by simp, hrecv, ?_⟩
    intro ev' hev'
    rcases List.mem_append.mp hev' with hmem | hmem
    · exact hes₂ ev' hmem
    · rw [List.mem_singleton] at hmem
      rwa [hmem]
  total := by rw [bytesReceived_still hev.still, h.total]

theorem Carrying.before (h : Carrying w es side bytes total) : Piping w es none := by
  have hpiped := h.piped
  by_cases hbytes : bytes = []
  · rw [if_pos hbytes] at hpiped
    exact .idle hpiped nofun
  · rw [if_neg hbytes] at hpiped
    exact .held hpiped h.throttled

theorem Throttled.last (h : Throttled es side bytes) :
    (es.filterMap arrival).getLast? = some (side, bytes) := by
  obtain ⟨es₁, recv, es₂, rfl, hrecv, hes₂⟩ := h
  have hrest : es₂.filterMap arrival = [] :=
    List.filterMap_eq_nil_iff.mpr fun ev hev => (hes₂ ev hev).still.1
  simp [List.filterMap_append, hrecv, hrest]

/-- An empty chunk is not sent. -/
theorem Carrying.skip (h : Carrying w es side bytes total) (hbytes : bytes = [])
    (hv : v.total = total) : Drained w es v where
  piped := by
    have hpiped := h.piped
    rwa [if_pos hbytes] at hpiped
  total := hv.trans h.total

theorem bytesReceived_send (hop : ev.op = .send side.other bytes) :
    bytesReceived (es ++ [ev]) = bytesReceived es := by
  simp [bytesReceived, List.filterMap_append, arrival, hop]

theorem Carrying.send (h : Carrying w es side bytes total) (hbytes : bytes ≠ [])
    (hop : ev.op = .send side.other bytes) (hfails : ev.env.fails = false) (hv : v.total = total) :
    Drained w (es ++ [ev]) v where
  piped := by
    have hpiped := h.piped
    rw [if_neg hbytes] at hpiped
    have hsent := hpiped.send hop h.throttled.last
    rwa [hfails] at hsent
  total := by rw [bytesReceived_send hop, hv, h.total]

theorem Carrying.lose (h : Carrying w es side bytes total) (hbytes : bytes ≠ [])
    (hop : ev.op = .send side.other bytes) (hfails : ev.env.fails = true) (hv : v.total = total) :
    Piping w (es ++ [ev]) (some (v, some (.error ()))) := by
  have hpiped := h.piped
  rw [if_neg hbytes] at hpiped
  have hsent := hpiped.send hop h.throttled.last
  rw [if_pos hfails] at hsent
  have htotal : v.total = usizeOf w (8 * bytesReceived (es ++ [ev])) := by
    rw [bytesReceived_send hop, hv, h.total]
  exact .lost hsent ⟨ev, by simp, hop, hfails⟩ htotal

end Steps

/-- What is shown of every step, and of the end. -/
theorem relayChunk_pipes {w : Nat} (side : Side) (bytes : Bytes) {es : List RelayEvent}
    {v : RelayVars}
    (h : Drained w es v) : (relayChunk (usizeOf w) side bytes v).Heeds (fun es _ => Piping w es none)
      (fun es y => match y.2 with
        | .ok _ => Drained w es y.1
        | .error _ => Piping w es (some (y.1, some (.error ())))) es := by
  intro e s
  have hrecv : Carrying w (es ++ [⟨.recv side bytes, e, s, s⟩]) side bytes _ := h.recv rfl
  refine ⟨h.before, fun e₁ s₁ => ?_⟩
  have hblack : Carrying w (_ ++ [⟨.throttle (v.blacked || v.downgrade)
      (usizeOf w (bytes.length * 8)), e₁, s₁, s₁⟩]) side bytes _ :=
    hrecv.limiter ⟨_, _, .inl rfl⟩
  refine ⟨hrecv.before, fun e₂ s₂ => ?_⟩
  have htotal : Carrying w (_ ++ [⟨.throttleTotal (usizeOf w (bytes.length * 8)), e₂, s₂, s₂⟩])
      side bytes _ :=
    hblack.limiter ⟨false, _, .inr rfl⟩
  refine ⟨hblack.before, ?_⟩
  dsimp only
  by_cases hbytes : bytes = []
  · rw [if_neg (not_not.mpr hbytes)]
    exact htotal.skip hbytes rfl
  · rw [if_pos hbytes]
    intro e₃ s₃
    refine ⟨htotal.before, ?_⟩
    show Task.Heeds _ _ (Task.done (_, if e₃.fails then Except.error () else Except.ok ())) _
    cases hfails : e₃.fails with
    | true => exact htotal.lose hbytes rfl hfails rfl
    | false => exact htotal.send hbytes rfl hfails rfl

theorem relaySample_still {w : Nat} (ip id : String) (threshold : Nat) {es : List RelayEvent}
    {v : RelayVars} (h : Drained w es v) :
    (relaySample (usizeOf w) ip id threshold v).Heeds (fun es _ => Piping w es none)
      (fun es o => Drained w es (o.getD v)) es := by
  intro e s
  have hclock : Drained w (es ++ [⟨.clock, e, s, s⟩]) v := h.still (by simp [Still, arrival]) rfl
  refine ⟨h.before, ?_⟩
  show Task.Heeds _ _
    (if usizeOf w (Instant.asMillis (Instant.elapsed e.now v.tm)) ≥ 1000 then _ else _) _
  split
  · intro e₁ s₁
    have hblock : Drained w (_ ++ [⟨.blocklist ip, e₁, s₁, s₁⟩]) v :=
      hclock.still (by simp [Still, arrival]) rfl
    refine ⟨hclock.before, ?_⟩
    show Task.Heeds _ _ (if decide (ip ∈ s₁.blocklist) = true then _ else _) _
    split
    · exact hblock
    · intro e₂ s₂
      have hblack : Drained w (_ ++ [⟨.blacklist ip, e₂, s₂, s₂⟩]) v :=
        hblock.still (by simp [Still, arrival]) rfl
      refine ⟨hblock.before, fun e₃ s₃ => ⟨hblack.before, ?_⟩⟩
      exact hblack.still (by simp [Still, arrival]) rfl
  · exact hclock

theorem relay_piping (cfg : RelayConfig) (addr : SocketAddr) (id : String)
    (outcomes : List Select) : (relay cfg addr id outcomes).Heeds
      (fun es _ => Piping cfg.x.usizeBits es none)
      (fun es y => Piping cfg.x.usizeBits es (some y)) [] := by
  intro e s
  have hnil : Drained cfg.x.usizeBits [] { tm := e.now, lastRecvTime := e.now } :=
    ⟨.nil, (Nat.zero_mod _).symm⟩
  refine ⟨hnil.before, relayLoop_rule (J := Drained cfg.x.usizeBits) (fun es v r h => h.stop r)
    (fun es v side bytes h => relayChunk_pipes side bytes h) ?_ ?_ ?_ outcomes
    (hnil.still (by simp [Still, arrival]) rfl)⟩
  · intro es v h
    refine (relaySample_still _ _ _ h).mono fun es o h => ?_
    cases o with
    | none => exact h.stop _
    | some v' => exact h
  · exact fun es v side e s h => ⟨h.before, h.still (by simp [Still, arrival]) rfl⟩
  · exact fun es v e s h => ⟨h.before, h.still (by simp [Still, arrival]) rfl⟩

/-- What has been written to a side is what has come from the other, in order,
but for one chunk at most: the one that the limiters hold up, or the one whose
write has failed and ended the loop. What is sent is what came in last, at the
other side. -/
structure Conveyed (es : List RelayEvent) (o : Option (RelayVars × Option (Except Unit Unit))) :
    Prop where
  forwarded : ∃ pending, (∀ side, es.filterMap (received side)
      = es.filterMap (written side.other) ++ pendingFrom side pending)
    ∧ ∀ side bytes, pending = some (side, bytes) →
      (o = none ∧ Throttled es side bytes)
        ∨ (SendFailed es side.other bytes ∧ ∃ v, o = some (v, some (.error ())))
  noEcho : NoEcho es

/-- And all that came in is counted. -/
structure Faithful (es : List RelayEvent) (o : Option (RelayVars × Option (Except Unit Unit))) :
    Prop extends Conveyed es o where
  total : ∀ v r, o = some (v, r) → v.total = 8 * bytesReceived es

theorem Piping.conveyed {w : Nat} {es : List RelayEvent}
    {o : Option (RelayVars × Option (Except Unit Unit))} (h : Piping w es o) : Conveyed es o := by
  cases h with
  | @held side bytes piped throttled =>
      refine ⟨⟨some (side, bytes), piped.forwarded, ?_⟩, piped.noEcho⟩
      intro side' bytes' hpending
      cases hpending
      exact .inl ⟨rfl, throttled⟩
  | idle piped total => exact ⟨⟨none, piped.forwarded, nofun⟩, piped.noEcho⟩
  | @lost side bytes v piped failed total =>
      refine ⟨⟨some (side, bytes), piped.forwarded, ?_⟩, piped.noEcho⟩
      intro side' bytes' hpending
      cases hpending
      exact .inr ⟨failed, v, rfl⟩

theorem Piping.total_eq {w : Nat} {es : List RelayEvent} {v : RelayVars}
    {r : Option (Except Unit Unit)} (h : Piping w es (some (v, r))) :
    v.total = usizeOf w (8 * bytesReceived es) := by
  cases h with
  | idle piped total => exact total v r rfl
  | lost piped failed total => exact total

variable {cfg : RelayConfig} {addr : SocketAddr} {id : String} {outcomes : List Select}
  {es : List RelayEvent} {t : RelayTask (RelayVars × Option (Except Unit Unit))}

/-- **The relay is a pipe in both directions,** at any time, whatever the
outcomes, the times and the lists are. The total is right as long as the bits
that came in fit into a `usize`, and no longer. -/
theorem relay_pipes (h : (relay cfg addr id outcomes).Path es t) :
    Conveyed es t.result
      ∧ (∀ v r, t.result = some (v, r) →
        v.total = usizeOf cfg.x.usizeBits (8 * bytesReceived es))
      ∧ (Faithful es t.result
        ↔ (t.result ≠ none → 8 * bytesReceived es < 2 ^ cfg.x.usizeBits)) := by
  obtain ⟨-, hheeds⟩ := (relay_piping cfg addr id outcomes).path h
  have hpiping : Piping cfg.x.usizeBits es t.result :=
    hheeds.now (R := Piping cfg.x.usizeBits) { now := 0 } {}
  have htotal : ∀ v r, t.result = some (v, r) →
      v.total = usizeOf cfg.x.usizeBits (8 * bytesReceived es) := by
    intro v r hresult
    rw [hresult] at hpiping
    exact hpiping.total_eq
  refine ⟨hpiping.conveyed, htotal, ?_⟩
  constructor
  · intro hfaithful hresult
    obtain ⟨⟨v, r⟩, hv⟩ := Option.ne_none_iff_exists'.mp hresult
    rw [← usizeOf_eq_iff, ← htotal v r hv]
    exact hfaithful.total v r hv
  · intro hfits
    refine ⟨hpiping.conveyed, fun v r hv => ?_⟩
    rw [htotal v r hv]
    exact usizeOf_eq_iff.mpr (hfits (by simp [hv]))

/-! A chunk that passes, and one that cannot be written. -/

def pipeInputs (n : Nat) : Env := { now := 0, fails := decide (n = 9) }

def pipeRelay : RelayTask (RelayVars × Option (Except Unit Unit)) :=
  relay { x := .sample [], downgradeThreshold := fun _ _ => 0 } ⟨.v4 1, 50000⟩ "0.0.0.1:50000"
    [.recv .peer (.binary [1, 2]), .recv .stream (.binary [3]), .recv .peer (.binary [4])]

theorem relay_pipes_brokenPipe :
    ∃ es v, pipeRelay.Path es (.done (v, some (.error ())))
      ∧ es.filterMap (written .stream) = [[1, 2]] ∧ es.filterMap (written .peer) = []
      ∧ es.filterMap (received .stream) = [[3]] ∧ v.total = 24 := by
  have hrun := Task.path_trace (t := pipeRelay) (η := pipeInputs) (s := {}) rfl
  obtain ⟨-, -, hfaithful⟩ := relay_pipes hrun
  refine ⟨_, _, hrun, by decide, by decide, by decide, ?_⟩
  rw [(hfaithful.mpr fun _ => by decide).total _ _ rfl]
  decide

/-! ## A chunk of 512 MiB -/

def narrowConfig : RelayConfig where
  x := { External.sample [] with usizeBits := 32 }
  downgradeThreshold _ _ := 0

/-- The steps for one chunk, all at the start. -/
def bulkSteps (bytes : Bytes) : List RelayEvent :=
  [RelayOp.settings, .recv .stream bytes, .throttle false (usizeOf 32 (bytes.length * 8)),
    .throttleTotal (usizeOf 32 (bytes.length * 8)), .send .peer bytes, .clock].map
      fun op => ⟨op, { now := 0 }, {}, {}⟩

/-- The variables after it. -/
def bulkVars (bytes : Bytes) : RelayVars where
  tm := 0
  lastRecvTime := 0
  total := usizeOf 32 (0 + usizeOf 32 (bytes.length * 8))
  totalS := usizeOf 32 (0 + usizeOf 32 (bytes.length * 8))

theorem bulk_path {bytes : Bytes} (hbytes : bytes ≠ []) :
    (relay narrowConfig ⟨.v4 1, 50000⟩ "0.0.0.1:50000" [.recv .stream (.binary bytes)]).Path
      (bulkSteps bytes) (.done (bulkVars bytes, none)) := by
  have hn : usizeOf narrowConfig.x.usizeBits (Instant.asMillis (Instant.elapsed 0 0)) = 0 := rfl
  iterate 4 apply Task.Path.cons
  dsimp only
  rw [if_pos hbytes]
  iterate 2 apply Task.Path.cons
  simp only [hn]
  exact .nil _

/-- With 32 bits, the total of a chunk of 512 MiB is zero. -/
theorem total_wraps :
    ¬ ∀ (cfg : RelayConfig) (addr : SocketAddr) (id : String) (outcomes : List Select)
      (es : List RelayEvent) (t : RelayTask (RelayVars × Option (Except Unit Unit))),
      cfg.x.usizeBits = 32 ∨ cfg.x.usizeBits = 64 → (relay cfg addr id outcomes).Path es t →
      Faithful es t.result := by
  intro hall
  have hnone (bytes : Bytes) (hlength : bytes.length = 2 ^ 29) : False := by
    have hne : bytes ≠ [] := by
      intro hnil
      rw [hnil] at hlength
      cases hlength
    have htotal := (hall _ _ _ _ _ _ (.inl rfl) (bulk_path hne)).total _ none rfl
    have hreceived : bytesReceived (bulkSteps bytes) = bytes.length := by
      simp [bytesReceived, bulkSteps, List.filterMap_cons, arrival]
    rw [hreceived, bulkVars, hlength] at htotal
    exact absurd htotal (by decide)
  exact hnone (List.replicate (2 ^ 29) 0) List.length_replicate

end KustDesk
