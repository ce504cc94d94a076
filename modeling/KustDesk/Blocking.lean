import KustDesk.Relay
import KustDesk.Async.Alone

/-!
# KustDesk — Blocking

What `BLOCKLIST` and `BLACKLIST` do to a relay that is running. The loop
looks up the address of the one connection it knows, as it came; admission
looks up the canonical form of every address.
-/

namespace KustDesk

open Async

/-! ## Samples -/

/-- When the lists were last looked at, or the loop was entered. -/
def sampledAt (ev : RelayEvent) : Option Instant :=
  match ev.op with
  | .settings | .blacklist _ => some ev.env.now
  | _ => none

def lastSample (es : List RelayEvent) : Instant := (es.filterMap sampledAt).getLast?.getD 0

/-- A sampling point: the clock has just been read, and the milliseconds since
the last sample, as a `usize`, are a second or more. -/
def SampleDue (wrap : Nat → Nat) (es : List RelayEvent) : Prop :=
  ∃ es₁ last, es = es₁ ++ [last] ∧ last.op = .clock
    ∧ 1000 ≤ wrap (Instant.asMillis (Instant.elapsed last.env.now (lastSample es₁)))

def blacklistSeen (ev : RelayEvent) : Option (Finset String) :=
  match ev.op with
  | .blacklist _ => some ev.pre.blacklist
  | _ => none

/-- `BLACKLIST` as the last sample has seen it. -/
def sampledBlacklist (es : List RelayEvent) : Option (Finset String) :=
  (es.filterMap blacklistSeen).getLast?

/-- The usage noted is past the threshold for a downgrade. -/
def downgrades (wrap : Nat → Nat) (threshold : Nat) (ev : RelayEvent) : Bool :=
  match ev.op with
  | .usage id => (ev.post.usage.lookup id).any fun u =>
      decide (u.1 > ev.pre.downgradeStartCheck ∧ u.2.1 > wrap (u.1 * threshold))
  | _ => false

/-- The list was just looked at, and has the address. -/
def Barred (ip : String) (es : List RelayEvent) : Prop :=
  ∃ es₁ last ip', es = es₁ ++ [last] ∧ last.op = .blocklist ip' ∧ ip ∈ last.pre.blocklist

/-! ## What the loop does -/

/-- The limiter that the loop picks. -/
def limited (wrap : Nat → Nat) (ip : String) (threshold : Nat) (es : List RelayEvent) : Bool :=
  (sampledBlacklist es).any (fun list => decide (ip ∈ list)) || es.any (downgrades wrap threshold)

/-- A step after the steps `es`: a sample that is due looks at the blocklist,
a blocked address ends the loop, and a chunk goes through the limiter that
the last sample has picked. -/
def Sampling (wrap : Nat → Nat) (ip : String) (threshold : Nat) (es : List RelayEvent)
    (ev : RelayEvent) : Prop :=
  (SampleDue wrap es → ∃ ip', ev.op = .blocklist ip') ∧ ¬ Barred ip es
    ∧ ∀ black nb, ev.op = .throttle black nb → black = limited wrap ip threshold es

/-- The variables that a sample sets, outside of one. -/
structure AtSelect (wrap : Nat → Nat) (ip : String) (threshold : Nat) (es : List RelayEvent)
    (v : RelayVars) : Prop where
  tm : v.tm = lastSample es
  blacked : v.blacked = (sampledBlacklist es).any fun list => decide (ip ∈ list)
  downgrade : v.downgrade = es.any (downgrades wrap threshold)
  notDue : ¬ SampleDue wrap es
  looked : ∀ es₁ last ip', es = es₁ ++ [last] → last.op ≠ .blocklist ip'

/-- A step that is no part of a sample. -/
def Between (ev : RelayEvent) : Prop :=
  sampledAt ev = none ∧ blacklistSeen ev = none ∧ (∀ id, ev.op ≠ .usage id) ∧ ev.op ≠ .clock
    ∧ ∀ ip', ev.op ≠ .blocklist ip'

theorem not_sampleDue_snoc {wrap : Nat → Nat} {es : List RelayEvent}
    {ev : RelayEvent} (h : ev.op ≠ .clock) : ¬ SampleDue wrap (es ++ [ev]) := by
  intro ⟨es₁, last, hes, hop, _⟩
  obtain ⟨-, rfl⟩ := List.append_singleton_inj.mp hes
  exact h hop

theorem sampleDue_snoc {wrap : Nat → Nat} {es : List RelayEvent} {ev : RelayEvent}
    (h : ev.op = .clock) : SampleDue wrap (es ++ [ev])
      ↔ 1000 ≤ wrap (Instant.asMillis (Instant.elapsed ev.env.now (lastSample es))) := by
  constructor
  · intro ⟨es₁, last, hes, _, hn⟩
    obtain ⟨rfl, rfl⟩ := List.append_singleton_inj.mp hes
    exact hn
  · intro hn
    exact ⟨es, ev, rfl, h, hn⟩

theorem not_looked_snoc {es : List RelayEvent} {ev : RelayEvent}
    (h : ∀ ip', ev.op ≠ .blocklist ip') (es₁ : List RelayEvent) (last : RelayEvent) (ip' : String)
    (hes : es ++ [ev] = es₁ ++ [last]) : last.op ≠ .blocklist ip' := by
  obtain ⟨-, rfl⟩ := List.append_singleton_inj.mp hes
  exact h ip'

theorem barred_snoc {ip : String} {es : List RelayEvent} {ev : RelayEvent} :
    Barred ip (es ++ [ev]) ↔ ∃ ip', ev.op = .blocklist ip' ∧ ip ∈ ev.pre.blocklist := by
  constructor
  · intro ⟨es₁, last, ip', hes, hop, hip⟩
    obtain ⟨-, rfl⟩ := List.append_singleton_inj.mp hes
    exact ⟨ip', hop, hip⟩
  · intro ⟨ip', hop, hip⟩
    exact ⟨es, ev, ip', rfl, hop, hip⟩

theorem lastSample_snoc {es : List RelayEvent} {ev : RelayEvent} :
    lastSample (es ++ [ev]) = (sampledAt ev).getD (lastSample es) := by
  cases h : sampledAt ev <;> simp [lastSample, List.filterMap_append, h]

theorem sampledBlacklist_snoc {es : List RelayEvent} {ev : RelayEvent} :
    sampledBlacklist (es ++ [ev]) = (blacklistSeen ev).or (sampledBlacklist es) := by
  cases h : blacklistSeen ev <;> simp [sampledBlacklist, List.filterMap_append, h]

section Loop
variable {wrap : Nat → Nat} {ip : String} {threshold : Nat} {es : List RelayEvent}
  {v v' : RelayVars}

theorem AtSelect.not_barred (h : AtSelect wrap ip threshold es v) : ¬ Barred ip es := by
  intro ⟨es₁, last, ip', hes, hop, _⟩
  exact h.looked es₁ last ip' hes hop

theorem AtSelect.sampling (h : AtSelect wrap ip threshold es v) {ev : RelayEvent}
    (hev : ∀ black nb, ev.op = .throttle black nb → black = (v.blacked || v.downgrade)) :
    Sampling wrap ip threshold es ev := by
  refine ⟨fun hdue => (h.notDue hdue).elim, h.not_barred, fun black nb hop => ?_⟩
  rw [hev black nb hop, h.blacked, h.downgrade, limited]

theorem AtSelect.congr (h : AtSelect wrap ip threshold es v) (htm : v'.tm = v.tm)
    (hblacked : v'.blacked = v.blacked) (hdowngrade : v'.downgrade = v.downgrade) :
    AtSelect wrap ip threshold es v' where
  tm := htm.trans h.tm
  blacked := hblacked.trans h.blacked
  downgrade := hdowngrade.trans h.downgrade
  notDue := h.notDue
  looked := h.looked

theorem downgrades_eq_false {ev : RelayEvent} (h : ∀ id, ev.op ≠ .usage id) :
    downgrades wrap threshold ev = false := by
  unfold downgrades
  split
  · rename_i id hop
    exact (h id hop).elim
  · rfl

theorem AtSelect.snoc (h : AtSelect wrap ip threshold es v) {ev : RelayEvent} (hev : Between ev) :
    AtSelect wrap ip threshold (es ++ [ev]) v where
  tm := by rw [lastSample_snoc, hev.1, Option.getD_none, h.tm]
  blacked := by rw [sampledBlacklist_snoc, hev.2.1, Option.none_or, h.blacked]
  downgrade := by
    rw [List.any_append, h.downgrade]
    simp [downgrades_eq_false hev.2.2.1]
  notDue := not_sampleDue_snoc hev.2.2.2.1
  looked := not_looked_snoc hev.2.2.2.2

theorem relayChunk_heeds (side : Side) (bytes : Bytes) (h : AtSelect wrap ip threshold es v) :
    (relayChunk wrap side bytes v).Heeds (Sampling wrap ip threshold)
      (fun es y => AtSelect wrap ip threshold es y.1) es := by
  intro e s
  have hrecv : AtSelect wrap ip threshold (es ++ [⟨.recv side bytes, e, s, s⟩]) v :=
    h.snoc (by simp [Between, sampledAt, blacklistSeen])
  refine ⟨h.sampling (by simp), fun e₁ s₁ => ?_⟩
  have hthrottle : AtSelect wrap ip threshold
      (_ ++ [⟨.throttle (v.blacked || v.downgrade) (wrap (bytes.length * 8)), e₁, s₁, s₁⟩]) v :=
    hrecv.snoc (by simp [Between, sampledAt, blacklistSeen])
  refine ⟨hrecv.sampling (by simp), fun e₂ s₂ => ?_⟩
  have htotal : AtSelect wrap ip threshold
      (_ ++ [⟨.throttleTotal (wrap (bytes.length * 8)), e₂, s₂, s₂⟩]) v :=
    hthrottle.snoc (by simp [Between, sampledAt, blacklistSeen])
  refine ⟨hthrottle.sampling (by simp), ?_⟩
  dsimp only
  by_cases hbytes : bytes = []
  · rw [if_neg (not_not.mpr hbytes)]
    exact htotal.congr rfl rfl rfl
  · rw [if_pos hbytes]
    intro e₃ s₃
    have hsend : AtSelect wrap ip threshold (_ ++ [⟨.send side.other bytes, e₃, s₃, s₃⟩]) v :=
      htotal.snoc (by simp [Between, sampledAt, blacklistSeen])
    exact ⟨htotal.sampling (by simp), hsend.congr rfl rfl rfl⟩

/-- A sample that was not due leaves the loop as it was. -/
theorem AtSelect.clock (h : AtSelect wrap ip threshold es v) {ev : RelayEvent}
    (hop : ev.op = .clock) (hn : ¬ 1000 ≤ wrap (Instant.asMillis (Instant.elapsed ev.env.now v.tm))) :
    AtSelect wrap ip threshold (es ++ [ev]) v where
  tm := by rw [lastSample_snoc, h.tm, sampledAt, hop, Option.getD_none]
  blacked := by rw [sampledBlacklist_snoc, blacklistSeen, hop, Option.none_or, h.blacked]
  downgrade := by
    rw [List.any_append, h.downgrade]
    simp [downgrades, hop]
  notDue := by rwa [sampleDue_snoc hop, ← h.tm]
  looked := not_looked_snoc (by simp [hop])

theorem relaySample_heeds (id : String) (h : AtSelect wrap ip threshold es v) :
    (relaySample wrap ip id threshold v).Heeds (Sampling wrap ip threshold)
      (fun es o => match o with
        | none => Barred ip es
        | some v' => AtSelect wrap ip threshold es v') es := by
  intro e s
  refine ⟨h.sampling (by simp), ?_⟩
  show Task.Heeds _ _
    (if wrap (Instant.asMillis (Instant.elapsed e.now v.tm)) ≥ 1000 then _ else _) _
  by_cases hn : wrap (Instant.asMillis (Instant.elapsed e.now v.tm)) ≥ 1000
  · rw [if_pos hn]
    intro e₁ s₁
    have hclock : ¬ Barred ip (es ++ [⟨.clock, e, s, s⟩]) := by simp [barred_snoc]
    refine ⟨⟨fun _ => ⟨ip, rfl⟩, hclock, nofun⟩, ?_⟩
    show Task.Heeds _ _ (if decide (ip ∈ s₁.blocklist) = true then _ else _) _
    by_cases hblocked : ip ∈ s₁.blocklist
    · rw [if_pos (decide_eq_true hblocked)]
      exact barred_snoc.mpr ⟨ip, rfl, hblocked⟩
    · rw [if_neg (by simpa using hblocked)]
      intro e₂ s₂
      have hlook : ¬ Barred ip (es ++ [⟨.clock, e, s, s⟩] ++ [⟨.blocklist ip, e₁, s₁, s₁⟩]) := by
        rw [barred_snoc]
        rintro ⟨ip', -, hip⟩
        exact hblocked hip
      refine ⟨⟨fun hdue => (not_sampleDue_snoc (by simp) hdue).elim, hlook, nofun⟩, ?_⟩
      intro e₃ s₃
      have hseen : ¬ Barred ip (es ++ [⟨.clock, e, s, s⟩] ++ [⟨.blocklist ip, e₁, s₁, s₁⟩]
          ++ [⟨.blacklist ip, e₂, s₂, s₂⟩]) := by
        rw [barred_snoc]
        nofun
      refine ⟨⟨fun hdue => (not_sampleDue_snoc (by simp) hdue).elim, hseen, nofun⟩, ?_⟩
      exact {
        tm := by
          rw [lastSample_snoc, lastSample_snoc]
          rfl
        blacked := by
          rw [sampledBlacklist_snoc, sampledBlacklist_snoc]
          rfl
        downgrade := by simp [downgrades, h.downgrade]
        notDue := not_sampleDue_snoc (by simp)
        looked := not_looked_snoc (by simp) }
  · rw [if_neg hn]
    exact h.clock rfl hn

/-- Where the loop was left right after a look at the blocklist, it was
because of what that look has found. -/
def Closing (ip : String) (es : List RelayEvent)
    (y : RelayVars × Option (Except Unit Unit)) : Prop :=
  ∀ es₁ last ip', es = es₁ ++ [last] → last.op = .blocklist ip' →
    ip ∈ last.pre.blocklist ∧ y.2 = some (.ok ())

theorem AtSelect.closing (h : AtSelect wrap ip threshold es v)
    (y : RelayVars × Option (Except Unit Unit)) : Closing ip es y :=
  fun es₁ last ip' hes hop => (h.looked es₁ last ip' hes hop).elim

theorem Barred.closing (h : Barred ip es) (v : RelayVars) : Closing ip es (v, some (.ok ())) := by
  obtain ⟨es₁, last, ip', rfl, hop, hip⟩ := h
  intro es₂ last' ip'' hes _
  obtain ⟨-, rfl⟩ := List.append_singleton_inj.mp hes
  exact ⟨hip, rfl⟩

theorem relayLoop_heeds (id : String) (outcomes : List Select)
    (h : AtSelect wrap ip threshold es v) : (relayLoop wrap ip id threshold v outcomes).Heeds
      (Sampling wrap ip threshold) (Closing ip) es := by
  refine relayLoop_rule (J := AtSelect wrap ip threshold) (fun es v r h => h.closing (v, r))
    ?_ ?_ ?_ ?_ outcomes h
  · intro es v side bytes h
    refine (relayChunk_heeds side bytes h).mono fun es y h => ?_
    obtain ⟨v', sent⟩ := y
    cases sent with
    | error => exact h.closing _
    | ok => exact h
  · intro es v h
    refine (relaySample_heeds id h).mono fun es o h => ?_
    cases o with
    | none => exact h.closing v
    | some v' => exact h
  · exact fun es v side e s h =>
      ⟨h.sampling (by simp), h.snoc (by simp [Between, sampledAt, blacklistSeen])⟩
  · exact fun es v e s h =>
      ⟨h.sampling (by simp), h.snoc (by simp [Between, sampledAt, blacklistSeen])⟩

end Loop

/-- The threshold that the first step of a relay has loaded. -/
def RelayConfig.loadedThreshold (cfg : RelayConfig) (es : List RelayEvent) : Nat :=
  (es.head?.map fun ev =>
    cfg.downgradeThreshold ev.pre.singleBandwidth ev.pre.downgradeThreshold100).getD 0

variable {cfg : RelayConfig} {a : SocketAddr} {id : String} {outcomes : List Select}
  {es : List RelayEvent} {t : RelayTask (RelayVars × Option (Except Unit Unit))}

theorem relay_heeds {wrap : Nat → Nat} (h : (relayWith cfg wrap a id outcomes).Path es t) :
    (∀ es₁ ev es₂, es = es₁ ++ ev :: es₂ →
        Sampling wrap a.ip.toString (cfg.loadedThreshold es) es₁ ev)
      ∧ (es ≠ [] → t.Heeds (Sampling wrap a.ip.toString (cfg.loadedThreshold es))
        (Closing a.ip.toString) es) := by
  cases h with
  | nil => exact ⟨by simp, by simp⟩
  | @cons _ _ _ es _ e s h =>
      have hnil : ¬ SampleDue wrap [] ∧ ¬ Barred a.ip.toString [] := by simp [SampleDue, Barred]
      have hstart : AtSelect wrap a.ip.toString
          (cfg.downgradeThreshold s.singleBandwidth s.downgradeThreshold100)
          [⟨.settings, e, s, s⟩] { tm := e.now, lastRecvTime := e.now } := {
        tm := rfl
        blacked := rfl
        downgrade := rfl
        notDue := @not_sampleDue_snoc _ [] _ (by simp)
        looked := @not_looked_snoc [] _ (by simp) }
      have hloop := (relayLoop_heeds id outcomes hstart).path h
      refine ⟨fun es₁ ev es₂ hes => ?_, fun _ => hloop.2⟩
      cases es₁ with
      | nil =>
          obtain ⟨rfl, -⟩ := List.cons.inj hes
          exact ⟨fun hdue => (hnil.1 hdue).elim, hnil.2, nofun⟩
      | cons ev₁ es₁ =>
          obtain ⟨rfl, htail⟩ := List.cons.inj hes
          exact hloop.1 es₁ ev es₂ htail

/-! ## What it is to do -/

/-- The text under which `handle_connection` looks an address up. -/
def canonicalIp (x : External) (addr : SocketAddr) : String := (x.tryIntoV4 addr).ip.toString

/-- One of the two endpoints is on the list. -/
def Listed (x : External) (a b : SocketAddr) (list : Finset String) : Prop :=
  canonicalIp x a ∈ list ∨ canonicalIp x b ∈ list

/-- A sample has noted a usage past the threshold. -/
def Downgraded (wrap : Nat → Nat) (threshold : Nat) (es : List RelayEvent) : Prop :=
  ∃ ev ∈ es, downgrades wrap threshold ev = true

/-- The lists govern the relay between `a` and `b`: each sample looks at the
blocklist, the relay ends where an endpoint is on it, and until the next
sample the blacklist limiter is the one for a listed endpoint, or after a
downgrade. -/
structure Enforced (cfg : RelayConfig) (a b : SocketAddr) (es : List RelayEvent)
    (o : Option (RelayVars × Option (Except Unit Unit))) : Prop where
  samples : ∀ es₁ ev es₂, es = es₁ ++ ev :: es₂ →
    SampleDue (usizeOf cfg.x.usizeBits) es₁ → ∃ ip, ev.op = .blocklist ip
  stops : ∀ es₁ ev es₂ ip, es = es₁ ++ ev :: es₂ → ev.op = .blocklist ip →
    Listed cfg.x a b ev.pre.blocklist → es₂ = [] ∧ ∃ v, o = some (v, some (.ok ()))
  limits : ∀ es₁ ev es₂ black nb list, es = es₁ ++ ev :: es₂ → ev.op = .throttle black nb →
    sampledBlacklist es₁ = some list →
    (black = true ↔ Listed cfg.x a b list
      ∨ Downgraded (usizeOf cfg.x.usizeBits) (cfg.loadedThreshold es) es₁)

/-- Where the lists matter, the pairing connection's address as it came is on
them for both endpoints. -/
structure Covered (cfg : RelayConfig) (a b : SocketAddr) (es : List RelayEvent) : Prop where
  block : ∀ ev ∈ es, ∀ ip, ev.op = .blocklist ip → Listed cfg.x a b ev.pre.blocklist →
    a.ip.toString ∈ ev.pre.blocklist
  black : ∀ es₁ ev es₂ black nb list, es = es₁ ++ ev :: es₂ → ev.op = .throttle black nb →
    sampledBlacklist es₁ = some list →
    Downgraded (usizeOf cfg.x.usizeBits) (cfg.loadedThreshold es) es₁
      ∨ (a.ip.toString ∈ list ↔ Listed cfg.x a b list)

theorem limited_iff {wrap : Nat → Nat} {ip : String} {threshold : Nat} {es : List RelayEvent}
    {list : Finset String} (h : sampledBlacklist es = some list) :
    limited wrap ip threshold es = true ↔ ip ∈ list ∨ Downgraded wrap threshold es := by
  simp [limited, h, Downgraded]

/-- A look at the blocklist ends the relay exactly where the address as it
came is listed. -/
theorem relay_stops_iff (h : (relay cfg a id outcomes).Path es t) {es₁ es₂ : List RelayEvent}
    {ev : RelayEvent} {ip : String} (hes : es = es₁ ++ ev :: es₂) (hop : ev.op = .blocklist ip) :
    (es₂ = [] ∧ ∃ v, t.result = some (v, some (.ok ()))) ↔ a.ip.toString ∈ ev.pre.blocklist := by
  obtain ⟨hsteps, hrest⟩ := relay_heeds h
  cases es₂ with
  | nil =>
      have hheeds := hrest (by simp [hes])
      constructor
      · rintro ⟨-, v, hresult⟩
        cases t with
        | done y => exact (hheeds es₁ ev ip hes hop).1
        | abort why => cases hresult
        | step op f k => cases hresult
      · intro hip
        have hbarred : Barred a.ip.toString es := ⟨es₁, ev, ip, hes, hop, hip⟩
        cases t with
        | done y =>
            obtain ⟨v, r⟩ := y
            obtain ⟨-, hr⟩ := hheeds es₁ ev ip hes hop
            cases hr
            exact ⟨rfl, v, rfl⟩
        | abort why => exact hheeds.elim
        | step op f k => exact ((hheeds { now := 0 } {}).1.2.1 hbarred).elim
  | cons next rest =>
      constructor
      · rintro ⟨hnil, -⟩
        cases hnil
      · intro hip
        have hsampling := hsteps (es₁ ++ [ev]) next rest (by simp [hes])
        exact (hsampling.2.1 ⟨es₁, ev, ip, rfl, hop, hip⟩).elim

/-- **Blocking a running relay.** The lists govern a relay exactly where the
address of the pairing connection, as it came, is on them for both
endpoints. -/
theorem blocking_enforced_iff (h : (relay cfg a id outcomes).Path es t) (b : SocketAddr) :
    Enforced cfg a b es t.result ↔ Covered cfg a b es := by
  obtain ⟨hsteps, -⟩ := relay_heeds h
  constructor
  · intro henforced
    constructor
    · intro ev hev ip hop hlisted
      obtain ⟨es₁, es₂, hes⟩ := List.append_of_mem hev
      exact (relay_stops_iff h hes hop).mp (henforced.stops es₁ ev es₂ ip hes hop hlisted)
    · intro es₁ ev es₂ black nb list hes hop hlist
      have hcode := (hsteps es₁ ev es₂ hes).2.2 black nb hop
      have hclaim := henforced.limits es₁ ev es₂ black nb list hes hop hlist
      rw [hcode, limited_iff hlist] at hclaim
      by_cases hdowngraded : Downgraded (usizeOf cfg.x.usizeBits) (cfg.loadedThreshold es) es₁
      · exact .inl hdowngraded
      · simp only [hdowngraded, or_false] at hclaim
        exact .inr hclaim
  · intro hcovered
    constructor
    · exact fun es₁ ev es₂ hes => (hsteps es₁ ev es₂ hes).1
    · intro es₁ ev es₂ ip hes hop hlisted
      exact (relay_stops_iff h hes hop).mpr (hcovered.block ev (by simp [hes]) ip hop hlisted)
    · intro es₁ ev es₂ black nb list hes hop hlist
      have hcode := (hsteps es₁ ev es₂ hes).2.2 black nb hop
      have hcover := hcovered.black es₁ ev es₂ black nb list hes hop hlist
      rw [hcode, limited_iff hlist]
      rcases hcover with hdowngraded | hsame
      · simp [hdowngraded]
      · rw [hsame]

/-! A relay whose second endpoint is blocked, one whose pairing connection
came in on a dual-stack listener, and one that is ended. -/

def blockConfig : RelayConfig := { x := .sample [], downgradeThreshold := fun _ _ => 0 }

def blockInputs (n : Nat) : Env := { now := n * 1000000000 }

def blocking (text : String) : RelayShared := { blocklist := {text} }

def blockRelay (a : SocketAddr) : RelayTask (RelayVars × Option (Except Unit Unit)) :=
  relay blockConfig a "relay" [.tick, .tick]

theorem not_enforced_of_goes_on {b : SocketAddr} {v : RelayVars}
    {ev : RelayEvent} {ip : String} (hev : ev ∈ es) (hop : ev.op = .blocklist ip)
    (hlisted : Listed cfg.x a b ev.pre.blocklist) : ¬ Enforced cfg a b es (some (v, none)) := by
  intro h
  obtain ⟨es₁, es₂, hes⟩ := List.append_of_mem hev
  obtain ⟨-, v', hv'⟩ := h.stops es₁ ev es₂ ip hes hop hlisted
  cases hv'

theorem blocked_relay_goes_on :
    (∃ es v, (blockRelay ⟨.v4 0x01000001#32, 50000⟩).Path es (.done (v, none))
      ∧ ¬ Enforced blockConfig ⟨.v4 0x01000001#32, 50000⟩ ⟨.v4 0x01000002#32, 50000⟩ es
        (some (v, none)))
    ∧ ∃ es v, (blockRelay ⟨.v6 0xFFFF01000001#128, 50000⟩).Path es (.done (v, none))
      ∧ ¬ Enforced blockConfig ⟨.v6 0xFFFF01000001#128, 50000⟩ ⟨.v4 0x01000002#32, 50000⟩ es
        (some (v, none)) := by
  have hpeer := Task.path_trace (t := blockRelay ⟨.v4 0x01000001#32, 50000⟩) (η := blockInputs)
    (s := blocking "1.0.0.2") rfl
  have hmapped := Task.path_trace (t := blockRelay ⟨.v6 0xFFFF01000001#128, 50000⟩)
    (η := blockInputs) (s := blocking "1.0.0.1") rfl
  refine ⟨⟨_, _, hpeer, ?_⟩, ⟨_, _, hmapped, ?_⟩⟩
  · exact not_enforced_of_goes_on (.tail _ (.tail _ (.tail _ (.head _)))) rfl (.inr (by decide))
  · exact not_enforced_of_goes_on (.tail _ (.tail _ (.tail _ (.head _)))) rfl (.inl (by decide))

theorem blocking_enforced_iff_ended :
    ∃ es t, (blockRelay ⟨.v4 0x01000001#32, 50000⟩).Path es t
      ∧ Enforced blockConfig ⟨.v4 0x01000001#32, 50000⟩ ⟨.v4 0x01000002#32, 50000⟩ es t.result
      ∧ ∃ v, t.result = some (v, some (.ok ())) := by
  have hrun := Task.path_trace (t := blockRelay ⟨.v4 0x01000001#32, 50000⟩) (η := blockInputs)
    (s := blocking "1.0.0.1") rfl
  refine ⟨_, _, hrun, (blocking_enforced_iff hrun _).mpr ⟨?_, ?_⟩, _, rfl⟩
  · have hlisted : ∀ ev ∈ (blockRelay ⟨.v4 0x01000001#32, 50000⟩).trace blockInputs
        (blocking "1.0.0.1"), "1.0.0.1" ∈ ev.pre.blocklist := by decide
    exact fun ev hev _ _ _ => hlisted ev hev
  · -- no blacklist is looked at
    have hseen : ((blockRelay ⟨.v4 0x01000001#32, 50000⟩).trace blockInputs
        (blocking "1.0.0.1")).filterMap blacklistSeen = [] := rfl
    intro es₁ ev es₂ black nb list hes _ hlist
    rw [hes, List.filterMap_append, List.append_eq_nil_iff] at hseen
    rw [sampledBlacklist, hseen.1] at hlist
    cases hlist

end KustDesk
