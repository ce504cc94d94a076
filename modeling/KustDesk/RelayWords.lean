import KustDesk.RelayCount
import KustDesk.Async.Tracks

/-!
# KustDesk — RelayWords

The counters of `relay` are machine words, which wrap. As long as they fit, its
runs are those of the loop with exact arithmetic, so the usage is exact and the
downgrade comes when it is due.
-/

namespace KustDesk

open Async

/-! ## Where the words are wide enough -/

/-- The default settings of a relay, and the threshold that they come to, in
bits for each millisecond. -/
def RelayShared.DefaultBandwidth (s : RelayShared) : Prop :=
  s.singleBandwidth = 16 * 1024 * 1024 ∧ s.downgradeThreshold100 = 66

def defaultThreshold : Nat := 11072

/-- The run has the default settings, moves less than 2^50 bytes and lasts less
than 2^40 milliseconds. -/
structure Moderate (es : List RelayEvent) : Prop where
  settings : ∀ ev ∈ es, ev.op = .settings → ev.pre.DefaultBandwidth
  order : TimeOrdered es
  bytes : bytesReceived es < 2 ^ 50
  millis : ∀ first ∈ es, ∀ last ∈ es,
    Instant.asMillis (Instant.elapsed last.env.now first.env.now) < 2 ^ 40

/-- A step for which 32 bits are enough: less than 512 MiB so far, less than
2^32 milliseconds of samples, and, without a downgrade, no sample that is past
the start of the check by more than 387912 milliseconds. -/
structure Narrow (threshold : Nat) (es : List RelayEvent) (ev : RelayEvent) : Prop where
  bytes : bytesReceived (es ++ [ev]) < 2 ^ 29
  millis : sampledMillis (es ++ [ev]) < 2 ^ 32
  check : ∀ id, ev.op = .usage id → sampledMillis es ≤ ev.pre.downgradeStartCheck
    ∨ PastThreshold threshold es ∨ sampledMillis es ≤ 387912

/-- The run is moderate, and the words have 64 bits or the 32 that they have
are enough. -/
def Fits (w : Nat) (es : List RelayEvent) : Prop :=
  Moderate es ∧ (w = 64 ∨ w = 32
    ∧ ∀ es₁ ev es₂, es = es₁ ++ ev :: es₂ → Narrow defaultThreshold es₁ ev)

theorem bytesReceived_append (es₁ es₂ : List RelayEvent) :
    bytesReceived (es₁ ++ es₂) = bytesReceived es₁ + bytesReceived es₂ := by
  simp [bytesReceived, List.filterMap_append]

theorem Moderate.before {es₁ es₂ : List RelayEvent} (h : Moderate (es₁ ++ es₂)) :
    Moderate es₁ where
  settings ev hev := h.settings ev (List.mem_append_left _ hev)
  order := (List.pairwise_append.mp h.order).1
  bytes := by
    have hbytes := h.bytes
    rw [bytesReceived_append] at hbytes
    omega
  millis first hfirst last hlast :=
    h.millis first (List.mem_append_left _ hfirst) last (List.mem_append_left _ hlast)

theorem Fits.before {w : Nat} {es₁ es₂ : List RelayEvent} (h : Fits w (es₁ ++ es₂)) :
    Fits w es₁ := by
  obtain ⟨hmoderate, hword⟩ := h
  refine ⟨hmoderate.before, hword.imp_right fun hnarrow => ⟨hnarrow.1, ?_⟩⟩
  intro es₃ ev es₄ hes
  exact hnarrow.2 es₃ ev (es₄ ++ es₂) (by simp [hes])

section Loop
variable {w threshold : Nat} {es : List RelayEvent} {v : RelayVars} {ev : RelayEvent} {uid : String}

theorem Fits.bits_lt (h : Fits w (es ++ [ev])) : 8 * bytesReceived (es ++ [ev]) < 2 ^ w := by
  obtain ⟨hmoderate, rfl | ⟨rfl, hnarrow⟩⟩ := h
  · have hbytes := hmoderate.bytes
    omega
  · have hbytes := (hnarrow es ev [] rfl).bytes
    omega

/-- The time between two steps, the later of which stands after the samples. -/
theorem Moderate.millis_lt (h : Moderate es) {first last : RelayEvent} (hfirst : first ∈ es)
    (hlast : last ∈ es) {n : Nat} (hspan : first.env.now + n * 1000000 ≤ last.env.now) :
    n < 2 ^ 40 := by
  have hspent : n ≤ Instant.asMillis (Instant.elapsed last.env.now first.env.now) := by
    rw [Instant.asMillis, Nat.le_div_iff_mul_le (by decide)]
    exact Nat.le_sub_of_add_le' hspan
  exact Nat.lt_of_le_of_lt hspent (h.millis first hfirst last hlast)

theorem Spanned.millis_lt (h : Spanned es) (hmoderate : Moderate es) : sampledMillis es < 2 ^ 40 := by
  obtain ⟨first, hfirst, hspan⟩ := h.span
  obtain ⟨last, hlast, hnow⟩ := h.seen
  have hends := hspan hmoderate.order
  rw [← hnow] at hends
  exact hmoderate.millis_lt hfirst hlast hends

theorem Counted.millis_lt (h : Counted threshold es v) (hop : ev.op = .clock)
    (hfits : Fits w (es ++ [ev])) : sampledMillis (es ++ [ev]) < 2 ^ 40 := by
  have hmoderate := hfits.1
  obtain ⟨hbefore, hlater⟩ := timeOrdered_snoc.mp hmoderate.order
  obtain ⟨first, hfirst, hspan⟩ := h.spanned.span
  have hread : lastSample es ≤ ev.env.now := by
    obtain ⟨last, hlast, hnow⟩ := h.spanned.seen
    rw [← hnow]
    exact hlater last hlast
  have hends : first.env.now + sampledMillis (es ++ [ev]) * 1000000 ≤ ev.env.now := by
    rw [sampledMillis_snoc]
    refine span_add (hspan hbefore) ?_ hread (Nat.le_refl _)
    rw [sampleMillis, hop]
    dsimp only
    split
    · exact Nat.div_mul_le_self _ _
    · exact Nat.le_trans (Nat.le_of_eq (Nat.zero_mul _)) (Nat.zero_le _)
  exact hmoderate.millis_lt (List.mem_append_left _ hfirst) (by simp) hends

/-- Where the time decides, the product with the threshold fits. -/
theorem Fits.product_lt (h : Fits w (es ++ [ev])) (hop : ev.op = .usage uid)
    (hlt : sampledMillis es < 2 ^ 40) (hstart : sampledMillis es > ev.pre.downgradeStartCheck)
    (hpast : ¬ PastThreshold defaultThreshold es) : sampledMillis es * defaultThreshold < 2 ^ w := by
  unfold defaultThreshold
  obtain ⟨-, rfl | ⟨rfl, hnarrow⟩⟩ := h
  · omega
  · rcases (hnarrow es ev [] rfl).check uid hop with hle | hpast' | hle
    · omega
    · exact (hpast hpast').elim
    · omega

theorem Fits.millis_lt (h : Fits w (es ++ [ev])) (hlt : sampledMillis (es ++ [ev]) < 2 ^ 40) :
    sampledMillis (es ++ [ev]) < 2 ^ w := by
  obtain ⟨-, rfl | ⟨rfl, hnarrow⟩⟩ := h
  · omega
  · exact (hnarrow es ev [] rfl).millis

theorem Fits.thousand_lt (h : Fits w es) : 1000 < 2 ^ w := by
  obtain ⟨-, rfl | ⟨rfl, -⟩⟩ := h
  · decide
  · decide

theorem relayChunk_tracks (side : Side) (bytes : Bytes) (h : Counted threshold es v) :
    (relayChunk (usizeOf w) side bytes v).Tracks (Fits w) (fun _ y y' => y = y')
      (relayChunk id side bytes v) es := by
  refine Task.Tracks.look_bind fun e s hfits => ?_
  have hbytes : bytesReceived (es ++ [⟨.recv side bytes, e, s, s⟩])
      = bytesReceived es + bytes.length := by
    simp [bytesReceived, List.filterMap_append, arrival]
  have hlt : 8 * (bytesReceived es + bytes.length) < 2 ^ w := by
    rw [← hbytes]
    exact hfits.bits_lt
  have htotal := h.total
  have htotalS := h.totalS
  have hsince : bitsSinceSample es ≤ 8 * bytesReceived es := bitsSinceSample_le
  have hnb : usizeOf w (bytes.length * 8) = bytes.length * 8 := usizeOf_eq_iff.mpr (by omega)
  have hsum : usizeOf w (v.total + bytes.length * 8) = v.total + bytes.length * 8 :=
    usizeOf_eq_iff.mpr (by omega)
  have hsumS : usizeOf w (v.totalS + bytes.length * 8) = v.totalS + bytes.length * 8 :=
    usizeOf_eq_iff.mpr (by omega)
  dsimp only
  rw [hnb, hsum, hsumS]
  exact Task.Tracks.refl (fun _ _ => rfl) _

theorem Sampled.downgrade_eq {n : Nat} {now : Instant} (h : Sampled defaultThreshold es v n now)
    (hop : ev.op = .usage uid) (hfits : Fits w (es ++ [ev])) (hlt : v.elapsed + n < 2 ^ 40) :
    (v.downgrade || decide (v.elapsed + n > ev.pre.downgradeStartCheck
        ∧ v.total > usizeOf w ((v.elapsed + n) * defaultThreshold)))
      = (v.downgrade || decide (v.elapsed + n > ev.pre.downgradeStartCheck
        ∧ v.total > (v.elapsed + n) * defaultThreshold)) := by
  cases hdown : v.downgrade with
  | true => rfl
  | false =>
      by_cases hstart : v.elapsed + n > ev.pre.downgradeStartCheck
      · have hpast : ¬ PastThreshold defaultThreshold es := by simp [← h.downgrade, hdown]
        rw [← h.elapsed] at hlt hstart
        rw [← h.elapsed, usizeOf_eq_iff.mpr (hfits.product_lt hop hlt hstart hpast)]
      · simp [hstart]

theorem relaySample_tracks (ip : String) (h : Counted defaultThreshold es v) :
    (relaySample (usizeOf w) ip uid defaultThreshold v).Tracks (Fits w) (fun _ o o' => o = o')
      (relaySample id ip uid defaultThreshold v) es := by
  refine Task.Tracks.look_bind fun e s hclock => ?_
  have hmillis := h.millis_lt rfl hclock
  have hword := hclock.millis_lt hmillis
  have hcounted := h.clock_millis e s s
  have hn : usizeOf w (Instant.asMillis (Instant.elapsed e.now v.tm))
      = Instant.asMillis (Instant.elapsed e.now v.tm) := by
    apply usizeOf_eq_iff.mpr
    rcases hcounted with hlt | heq
    · exact Nat.lt_trans hlt hclock.thousand_lt
    · exact Nat.lt_of_le_of_lt (Nat.le_add_left _ v.elapsed) (heq ▸ hword)
  -- from here on, the number of milliseconds is exact
  clear hclock
  dsimp only
  generalize usizeOf w (Instant.asMillis (Instant.elapsed e.now v.tm)) = n at hn ⊢
  subst hn
  show Task.Tracks _ _ (if Instant.asMillis (Instant.elapsed e.now v.tm) ≥ 1000 then _ else _)
    (if Instant.asMillis (Instant.elapsed e.now v.tm) ≥ 1000 then _ else _) _
  by_cases hdue : Instant.asMillis (Instant.elapsed e.now v.tm) ≥ 1000
  · rw [if_pos hdue, if_pos hdue]
    refine Task.Tracks.look_bind fun e₁ s₁ _ => ?_
    show Task.Tracks _ _ (if decide (ip ∈ s₁.blocklist) = true then _ else _)
      (if decide (ip ∈ s₁.blocklist) = true then _ else _) _
    by_cases hblocked : ip ∈ s₁.blocklist
    · rw [if_pos (decide_eq_true hblocked), if_pos (decide_eq_true hblocked)]
      exact Task.Tracks.refl (fun _ _ => rfl) _
    · have hgoes : ¬ decide (ip ∈ s₁.blocklist) = true := by simpa using hblocked
      rw [if_neg hgoes, if_neg hgoes]
      refine Task.Tracks.look_bind fun e₂ s₂ _ => ?_
      have hsampled : Sampled defaultThreshold (es ++ [⟨.clock, e, s, s⟩]
          ++ [⟨.blocklist ip, e₁, s₁, s₁⟩] ++ [⟨.blacklist ip, e₂, s₂, s₂⟩]) v _ e₂.now :=
        h.sampled ip rfl hdue
      have heq := hcounted.resolve_left (Nat.not_lt.mpr hdue)
      rw [heq] at hmillis hword
      have helapsed := usizeOf_eq_iff.mpr hword
      refine Task.Tracks.act_bind fun e₃ s₃ husage => ?_
      dsimp only [id_eq] at husage ⊢
      rw [helapsed] at husage ⊢
      exact ⟨rfl, _, rfl, by rw [hsampled.downgrade_eq rfl husage hmillis]⟩
  · rw [if_neg hdue, if_neg hdue]
    exact Task.Tracks.refl (fun _ _ => rfl) _

/-- A sample, and what the two loops go on with. -/
theorem relaySample_bind {β : Type} {g g' : Option RelayVars → RelayTask β} {ip : String}
    (h : Counted defaultThreshold es v) (hnone : g none = g' none)
    (hsome : ∀ es v', Counted defaultThreshold es v' →
      (g (some v')).Tracks (Fits w) (fun _ y y' => y = y') (g' (some v')) es) :
    (relaySample (usizeOf w) ip uid defaultThreshold v >>= g).Tracks (Fits w)
      (fun _ y y' => y = y') (relaySample id ip uid defaultThreshold v >>= g') es := by
  refine ((relaySample_tracks ip h).heeds (relaySample_counts ip uid h)).bind fun es o o' ho => ?_
  obtain ⟨rfl, hcounted⟩ := ho
  cases o with
  | none =>
      rw [hnone]
      exact Task.Tracks.refl (fun _ _ => rfl) _
  | some v' => exact hsome es v' (hcounted v' rfl)

/-- **Refinement.** The loop on words takes the steps of the exact one. -/
theorem relayLoop_tracks (ip : String) (outcomes : List Select)
    (h : Counted defaultThreshold es v) :
    (relayLoop (usizeOf w) ip uid defaultThreshold v outcomes).Tracks (Fits w)
      (fun _ y y' => y = y') (relayLoop id ip uid defaultThreshold v outcomes) es := by
  induction outcomes generalizing v es with
  | nil => exact Task.Tracks.refl (fun _ _ => rfl) _
  | cons outcome rest ih =>
      cases outcome with
      | recv side incoming =>
          unfold relayLoop
          cases incoming.recv with
          | none => exact Task.Tracks.refl (fun _ _ => rfl) _
          | some bytes =>
              refine ((relayChunk_tracks side bytes h).heeds
                (relayChunk_counts side bytes h)).bind fun es y y' hy => ?_
              obtain ⟨rfl, hcounted⟩ := hy
              obtain ⟨v', sent⟩ := y
              cases sent with
              | error => exact Task.Tracks.refl (fun _ _ => rfl) _
              | ok => exact relaySample_bind hcounted rfl fun es v'' h => ih h
      | tick =>
          unfold relayLoop
          refine ⟨_, _, rfl, fun e s _ => ⟨rfl, ?_⟩⟩
          have htick : Counted defaultThreshold (es ++ [⟨.tick, e, s, s⟩]) v :=
            h.snoc (by simp [Unsampled, sampledAt]) rfl
          show Task.Tracks _ _ (if decide _ = true then _ else _)
            (if decide _ = true then _ else _) _
          split
          · exact Task.Tracks.refl (fun _ _ => rfl) _
          · exact relaySample_bind htick rfl fun es v' h => ih h

end Loop

variable {cfg : RelayConfig} {a : SocketAddr} {uid : String} {outcomes : List Select}
  {es : List RelayEvent} {t : RelayTask (RelayVars × Option (Except Unit Unit))}

theorem relay_tracks
    (hthreshold : cfg.downgradeThreshold (16 * 1024 * 1024) 66 = defaultThreshold) :
    (relay cfg a uid outcomes).Tracks (Fits cfg.x.usizeBits) (fun _ y y' => y = y')
      (relayWith cfg id a uid outcomes) [] := by
  refine Task.Tracks.look_bind fun e s hfits => ?_
  obtain ⟨hsingle, hthreshold100⟩ := hfits.1.settings ⟨.settings, e, s, s⟩ (by simp) rfl
  have hloaded : cfg.downgradeThreshold s.singleBandwidth s.downgradeThreshold100
      = defaultThreshold := by
    dsimp only at hsingle hthreshold100
    rw [hsingle, hthreshold100, hthreshold]
  show Task.Tracks _ _ (relayLoop _ _ _ (cfg.downgradeThreshold _ _) _ _)
    (relayLoop _ _ _ (cfg.downgradeThreshold _ _) _ _) _
  rw [hloaded]
  exact relayLoop_tracks _ outcomes (counted_start defaultThreshold e s s)

theorem loadedThreshold_eq (h : (relayWith cfg id a uid outcomes).Path es t) (hne : es ≠ [])
    (hthreshold : cfg.downgradeThreshold (16 * 1024 * 1024) 66 = defaultThreshold)
    (hmoderate : Moderate es) : cfg.loadedThreshold es = defaultThreshold := by
  cases h with
  | nil => exact (hne rfl).elim
  | @cons _ _ _ es _ e s h =>
      obtain ⟨hsingle, hthreshold100⟩ := hmoderate.settings ⟨.settings, e, s, s⟩ (by simp) rfl
      dsimp only at hsingle hthreshold100
      show cfg.downgradeThreshold s.singleBandwidth s.downgradeThreshold100 = _
      rw [hsingle, hthreshold100, hthreshold]

/-- The counters of a relay on words of `w` bits: none of them wraps, the usage
that is noted is exact, the variables are whenever the loop waits, and the
limiter is the one of a listed address, or of a downgrade from the first sample
on at which one is due. -/
structure Accounted (w threshold : Nat) (ip : String) (es : List RelayEvent)
    (o : Option (RelayVars × Option (Except Unit Unit))) : Prop where
  totalFits : 8 * bytesReceived es < 2 ^ w
  totalSFits : bitsSinceSample es < 2 ^ w
  elapsedFits : ∀ es₁ ev es₂ id, es = es₁ ++ ev :: es₂ → ev.op = .usage id →
    sampledMillis es₁ < 2 ^ w
  productFits : ∀ es₁ ev es₂ id, es = es₁ ++ ev :: es₂ → ev.op = .usage id →
    sampledMillis es₁ > ev.pre.downgradeStartCheck → ¬ PastThreshold threshold es₁ →
    sampledMillis es₁ * threshold < 2 ^ w
  usage : ∀ es₁ ev es₂ id, es = es₁ ++ ev :: es₂ → ev.op = .usage id → ∃ highest speed,
    ev.post.usage.lookup id = some (sampledMillis es₁, 8 * bytesReceived es₁, highest, speed)
  vars : ∀ v, o = some (v, none) → v.total = 8 * bytesReceived es
    ∧ v.totalS = bitsSinceSample es ∧ v.elapsed = sampledMillis es
    ∧ (v.downgrade = true ↔ PastThreshold threshold es)
  limits : ∀ es₁ ev es₂ black nb, es = es₁ ++ ev :: es₂ → ev.op = .throttle black nb →
    (black = true ↔ (∃ list, sampledBlacklist es₁ = some list ∧ ip ∈ list)
      ∨ PastThreshold threshold es₁)

/-- **Accounting on words.** No counter wraps in a moderate run on 64 bits, or
on 32 as long as all its steps are narrow ones. -/
theorem relay_accounted (h : (relay cfg a uid outcomes).Path es t)
    (hthreshold : cfg.downgradeThreshold (16 * 1024 * 1024) 66 = defaultThreshold)
    (hrun : Moderate es)
    (hword : cfg.x.usizeBits = 64 ∨ cfg.x.usizeBits = 32
      ∧ ∀ es₁ ev es₂, es = es₁ ++ ev :: es₂ → Narrow defaultThreshold es₁ ev) :
    Accounted cfg.x.usizeBits defaultThreshold a.ip.toString es t.result := by
  have hfits : Fits cfg.x.usizeBits es := ⟨hrun, hword⟩
  obtain ⟨t', ht', htracks⟩ := (relay_tracks hthreshold).path h fun es₁ es₂ hes =>
    (hes ▸ hfits : Fits cfg.x.usizeBits (es₁ ++ es₂)).before
  obtain ⟨hnoting, hvars⟩ := relay_counts ht'
  have hfits_snoc {es₁ es₂ : List RelayEvent} {ev : RelayEvent} (hes : es = es₁ ++ ev :: es₂) :
      Fits cfg.x.usizeBits (es₁ ++ [ev]) := by
    have hcut : Fits cfg.x.usizeBits ((es₁ ++ [ev]) ++ es₂) := by simpa [← hes] using hfits
    exact hcut.before
  have hmillis {es₁ es₂ : List RelayEvent} {ev : RelayEvent} {id : String}
      (hes : es = es₁ ++ ev :: es₂) (hop : ev.op = .usage id) : sampledMillis es₁ < 2 ^ 40 :=
    (hnoting es₁ ev es₂ hes id hop).1.millis_lt (hfits_snoc hes).1.before
  have htotal : 8 * bytesReceived es < 2 ^ cfg.x.usizeBits := by
    rcases List.eq_nil_or_concat es with rfl | ⟨es₁, ev, rfl⟩
    · exact Nat.two_pow_pos _
    · rw [List.concat_eq_append] at hfits ⊢
      exact hfits.bits_lt
  have hloaded (hne : es ≠ []) := loadedThreshold_eq ht' hne hthreshold hfits.1
  constructor
  · exact htotal
  · exact Nat.lt_of_le_of_lt bitsSinceSample_le htotal
  · intro es₁ ev es₂ id hes hop
    have hsame : sampledMillis (es₁ ++ [ev]) = sampledMillis es₁ := by
      simp [sampledMillis_snoc, sampleMillis, hop]
    have hlt := (hfits_snoc hes).millis_lt (by rw [hsame]; exact hmillis hes hop)
    rwa [hsame] at hlt
  · intro es₁ ev es₂ id hes hop hstart hpast
    exact (hfits_snoc hes).product_lt hop (hmillis hes hop) hstart hpast
  · intro es₁ ev es₂ id hes hop
    exact (hnoting es₁ ev es₂ hes id hop).2
  · intro v hv
    have hne : es ≠ [] := by
      intro hnil
      subst hnil
      cases h
      cases hv
    obtain ⟨y, hy, rfl⟩ := htracks.result hv
    have hcounted := hvars v hy
    rw [hloaded hne] at hcounted
    exact ⟨hcounted.total, hcounted.totalS, hcounted.elapsed, hcounted.downgrade⟩
  · intro es₁ ev es₂ black nb hes hop
    have hblack := ((relay_heeds ht').1 es₁ ev es₂ hes).2.2 black nb hop
    have hdown : PastThreshold defaultThreshold es₁
        ↔ es₁.any (downgrades id defaultThreshold) = true :=
      pastThreshold_iff_downgrades fun es₃ ev' es₄ hes' =>
        hnoting es₃ ev' (es₄ ++ ev :: es₂) (by simp [hes, hes'])
    rw [hloaded (by simp [hes])] at hblack
    rw [hblack, limited, Bool.or_eq_true, hdown]
    simp [Option.any_eq_true]

/-! ## A single chunk -/

def wordConfig (bits : Nat) : RelayConfig where
  x := { External.sample [] with usizeBits := bits }
  downgradeThreshold single threshold := single * threshold / 100 / 1000

/-- A relay to which one chunk comes, where `usize` has `w` bits. -/
def chunkRelay (w : Nat) (bytes : Bytes) : RelayTask (RelayVars × Option (Except Unit Unit)) :=
  relay (wordConfig w) ⟨.v4 1, 50000⟩ "0.0.0.1:50000" [.recv .stream (.binary bytes)]

/-- At the start, and a second later. -/
def chunkInputs : Env := { now := 0 }

def sampleInputs : Env := { now := 1000000000 }

def freshRelay : RelayShared := {}

/-- What is noted, on words of `w` bits, once `total` bits have come in. -/
def notedUsage (w total : Nat) : Usage :=
  (usizeOf w (0 + 1000), total, if total / 1000 > 0 then total / 1000 else 0, total / 1000)

/-- The steps before the usage is noted, and that step. -/
def chunkSteps (w : Nat) (bytes : Bytes) : List RelayEvent :=
  [⟨.settings, chunkInputs, freshRelay, freshRelay⟩,
    ⟨.recv .stream bytes, chunkInputs, freshRelay, freshRelay⟩,
    ⟨.throttle false (usizeOf w (bytes.length * 8)), chunkInputs, freshRelay, freshRelay⟩,
    ⟨.throttleTotal (usizeOf w (bytes.length * 8)), chunkInputs, freshRelay, freshRelay⟩,
    ⟨.send .peer bytes, chunkInputs, freshRelay, freshRelay⟩,
    ⟨.clock, sampleInputs, freshRelay, freshRelay⟩,
    ⟨.blocklist "0.0.0.1", sampleInputs, freshRelay, freshRelay⟩,
    ⟨.blacklist "0.0.0.1", sampleInputs, freshRelay, freshRelay⟩]

def usageStep (w : Nat) (bytes : Bytes) : RelayEvent where
  op := .usage "0.0.0.1:50000"
  env := sampleInputs
  pre := freshRelay
  post := { freshRelay with
    usage := freshRelay.usage.insert "0.0.0.1:50000"
      (notedUsage w (usizeOf w (0 + usizeOf w (bytes.length * 8)))) }

theorem chunkRelay_path (w : Nat) {bytes : Bytes} (hbytes : bytes ≠ []) (hw : 1000 < 2 ^ w) :
    ∃ t, (chunkRelay w bytes).Path (chunkSteps w bytes ++ [usageStep w bytes]) t := by
  have hn : usizeOf (wordConfig w).x.usizeBits
      (Instant.asMillis (Instant.elapsed sampleInputs.now chunkInputs.now)) = 1000 :=
    usizeOf_eq_iff.mpr hw
  unfold usageStep notedUsage
  apply Exists.intro
  iterate 4 apply Task.Path.cons
  dsimp only
  rw [if_pos hbytes]
  iterate 2 apply Task.Path.cons
  simp only [hn]
  iterate 3 apply Task.Path.cons
  exact .nil _

theorem bytesReceived_chunkSteps (w : Nat) (bytes : Bytes) :
    bytesReceived (chunkSteps w bytes) = bytes.length := by
  simp [bytesReceived, chunkSteps, List.filterMap_cons, arrival]

theorem moderate_chunk (w : Nat) {bytes : Bytes} (hbytes : bytes.length < 2 ^ 50) :
    Moderate (chunkSteps w bytes ++ [usageStep w bytes]) := by
  have hsteps : ∀ ev ∈ chunkSteps w bytes ++ [usageStep w bytes],
      ev.pre = freshRelay ∧ ev.env.now ≤ 1000000000 := by
    simp [chunkSteps, usageStep, chunkInputs, sampleInputs]
  constructor
  · intro ev hev _
    rw [(hsteps ev hev).1]
    exact ⟨rfl, rfl⟩
  · simp [TimeOrdered, chunkSteps, usageStep, chunkInputs, sampleInputs]
  · rw [bytesReceived_still (by simp [Still, usageStep, arrival]), bytesReceived_chunkSteps]
    exact hbytes
  · intro first _ last hlast
    have hlate := (Nat.sub_le _ first.env.now).trans (hsteps last hlast).2
    exact Nat.lt_of_le_of_lt (Nat.div_le_div_right hlate) (by decide)

/-- The usage of a relay on 64 bits. -/
theorem relay_accounted_word64 :
    ∃ t, (chunkRelay 64 [1]).Path (chunkSteps 64 [1] ++ [usageStep 64 [1]]) t
      ∧ Accounted 64 defaultThreshold "0.0.0.1" (chunkSteps 64 [1] ++ [usageStep 64 [1]])
        t.result := by
  have hne : ([1] : Bytes) ≠ [] := by decide
  obtain ⟨t, hrun⟩ := chunkRelay_path 64 hne (by decide)
  exact ⟨t, hrun, relay_accounted hrun rfl (moderate_chunk 64 (by decide)) (.inl rfl)⟩

/-- On 32 bits, 512 MiB are not noted at all. -/
theorem word32_wraps :
    ¬ ∀ (cfg : RelayConfig) (a : SocketAddr) (id : String) (outcomes : List Select)
      (es : List RelayEvent) (t : RelayTask (RelayVars × Option (Except Unit Unit))),
      cfg.x.usizeBits = 32 ∨ cfg.x.usizeBits = 64 → (relay cfg a id outcomes).Path es t →
      cfg.downgradeThreshold (16 * 1024 * 1024) 66 = defaultThreshold → Moderate es →
      Accounted cfg.x.usizeBits defaultThreshold a.ip.toString es t.result := by
  intro hall
  have hnoted (bytes : Bytes) (hlength : bytes.length = 2 ^ 29) : False := by
    have hne : bytes ≠ [] := by
      intro hnil
      rw [hnil] at hlength
      cases hlength
    obtain ⟨t, hrun⟩ := chunkRelay_path 32 hne (by decide)
    have haccounted := hall (wordConfig 32) _ _ _ _ _ (.inl rfl) hrun rfl
      (moderate_chunk 32 (by rw [hlength]; decide))
    obtain ⟨highest, speed, hlookup⟩ :=
      haccounted.usage (chunkSteps 32 bytes) (usageStep 32 bytes) [] "0.0.0.1:50000" rfl rfl
    rw [usageStep, AList.lookup_insert] at hlookup
    have htotal : usizeOf 32 (0 + usizeOf 32 (bytes.length * 8))
        = 8 * bytesReceived (chunkSteps 32 bytes) :=
      congrArg (fun u : Usage => u.2.1) (Option.some.inj hlookup)
    rw [bytesReceived_chunkSteps, hlength] at htotal
    exact absurd htotal (by decide)
  exact hnoted (List.replicate (2 ^ 29) 0) List.length_replicate

end KustDesk
