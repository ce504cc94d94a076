import KustDesk.Relay
import KustDesk.Async.Alone

/-!
# KustDesk — Pairing

What a connection to the relay server does, one step after the other, and who
is paired with whom: any number of connections, repeated uuids and timeouts
included, only pair where both have asked for the same relay.
-/

namespace KustDesk

open Async

/-! ## The steps of a connection -/

/-- The request that the first message makes, where `make_pair_` goes on
with it. -/
def RelayConfig.Accepts (cfg : RelayConfig) (job : RelayJob) (rf : RequestRelay) : Prop :=
  job.first.bind cfg.request = some rf ∧ (cfg.key ≠ "" → rf.licenceKey = cfg.key) ∧ rf.uuid ≠ ""

theorem RelayConfig.Accepts.unique {cfg : RelayConfig} {job : RelayJob} {rf rf' : RequestRelay}
    (h : cfg.Accepts job rf) (h' : cfg.Accepts job rf') : rf = rf' := by
  have hsame := h.1.symm.trans h'.1
  exact Option.some.inj hsame

/-- The stream that a connection has until it is paired. -/
def RelayJob.stream (job : RelayJob) (conn : ConnId) : RelayStream := { conn, isWs := job.isWs }

/-- A stream as it is in a relay with the other. -/
def RelayStream.besides (stream other : RelayStream) : RelayStream :=
  if !stream.isWs && !other.isWs then stream.setRaw else stream

/-- No step of `make_pair_` itself. -/
def Inside (ev : RelayEvent) : Prop :=
  ev.post.peers = ev.pre.peers ∧ match ev.op with
    | .first _ | .take _ | .wait .. | .sleep _ | .expire _ | .relay .. => False
    | _ => True

/-- The first two steps: the request comes in, and `PEERS` is asked for its
other half. -/
structure Took (cfg : RelayConfig) (job : RelayJob) (rf : RequestRelay)
    (first take : RelayEvent) (peer : Option RelayStream) : Prop where
  accepts : cfg.Accepts job rf
  firstOp : first.op = .first job.first
  takeOp : take.op = .take rf.uuid
  found : take.pre.peers.lookup rf.uuid = peer

/-- What `make_pair_` does next, by the steps it has taken. -/
inductive PairStep (cfg : RelayConfig) (conn : ConnId) (job : RelayJob) :
    List RelayEvent → RelayEvent → Prop where
  | first {ev} (hop : ev.op = .first job.first) (hpeers : ev.post.peers = ev.pre.peers) :
      PairStep cfg conn job [] ev
  | take {rf first ev} (haccepts : cfg.Accepts job rf) (hfirst : first.op = .first job.first)
      (hop : ev.op = .take rf.uuid) (hpeers : ev.post.peers = ev.pre.peers.erase rf.uuid) :
      PairStep cfg conn job [first] ev
  | wait {rf first take ev} (took : Took cfg job rf first take none)
      (hop : ev.op = .wait rf.uuid (job.stream conn))
      (hpeers : ev.post.peers = ev.pre.peers.insert rf.uuid (job.stream conn)) :
      PairStep cfg conn job [first, take] ev
  | sleep {rf first take wait ev} (took : Took cfg job rf first take none)
      (hwait : wait.op = .wait rf.uuid (job.stream conn)) (hop : ev.op = .sleep rf.uuid)
      (hpeers : ev.post.peers = ev.pre.peers) : PairStep cfg conn job [first, take, wait] ev
  | expire {rf first take wait sleep ev} (took : Took cfg job rf first take none)
      (hwait : wait.op = .wait rf.uuid (job.stream conn)) (hsleep : sleep.op = .sleep rf.uuid)
      (hop : ev.op = .expire rf.uuid) (hpeers : ev.post.peers = ev.pre.peers.erase rf.uuid) :
      PairStep cfg conn job [first, take, wait, sleep] ev
  | enter {rf first take peer ev} (took : Took cfg job rf first take (some peer))
      (hinside : Inside ev) : PairStep cfg conn job [first, take] ev
  | relay {rf first take enter peer ev} (took : Took cfg job rf first take (some peer))
      (henter : Inside enter)
      (hop : ev.op = .relay ((job.stream conn).besides peer) (peer.besides (job.stream conn)))
      (hpeers : ev.post.peers = ev.pre.peers) : PairStep cfg conn job [first, take, enter] ev
  | inside {first take enter relay rest ev} (hinside : Inside ev) :
      PairStep cfg conn job (first :: take :: enter :: relay :: rest) ev

/-- How `make_pair_` ends. -/
inductive PairEnd (cfg : RelayConfig) (conn : ConnId) (job : RelayJob) :
    List RelayEvent → Prop where
  | refused {first} (hrefused : ∀ rf, ¬ cfg.Accepts job rf) : PairEnd cfg conn job [first]
  | expired {rf first take wait sleep expire} (took : Took cfg job rf first take none) :
      PairEnd cfg conn job [first, take, wait, sleep, expire]
  | relayed {rf first take enter relay peer rest} (took : Took cfg job rf first take (some peer))
      (hop : relay.op
        = .relay ((job.stream conn).besides peer) (peer.besides (job.stream conn))) :
      PairEnd cfg conn job (first :: take :: enter :: relay :: rest)

/-! ## The steps of the relay -/

/-- A step of the loop, which at most notes the usage of the relay. -/
def InLoop (id : String) (ev : RelayEvent) : Prop :=
  match ev.op with
  | .first _ | .take _ | .wait .. | .sleep _ | .expire _ | .relay .. | .enter _ | .leave _ => False
  | .usage id' => id' = id
      ∧ ∃ u, ev.post = { ev.pre with usage := ev.pre.usage.insert id u }
  | _ => ev.post = ev.pre

/-- Nothing that the relay itself does is a step of the pairing. -/
theorem InLoop.inside {id : String} {ev : RelayEvent} (h : InLoop id ev) : Inside ev := by
  obtain ⟨op, e, s, s'⟩ := ev
  cases op with
  | usage id' =>
      obtain ⟨-, u, hpost⟩ := h
      dsimp only at hpost
      subst hpost
      exact ⟨rfl, trivial⟩
  | _ =>
      first
        | exact h.elim
        | exact ⟨congrArg RelayShared.peers h, trivial⟩

theorem relayChunk_steps (wrap : Nat → Nat) (id : String) (side : Side) (bytes : Bytes)
    (v : RelayVars) (es : List RelayEvent) :
    (relayChunk wrap side bytes v).Heeds (fun _ ev => InLoop id ev) (fun _ _ => True) es := by
  refine fun e s => ⟨rfl, fun e₁ s₁ => ⟨rfl, fun e₂ s₂ => ⟨rfl, ?_⟩⟩⟩
  dsimp only
  split
  · exact fun e₃ s₃ => ⟨rfl, trivial⟩
  · trivial

theorem relaySample_steps (wrap : Nat → Nat) (ip id : String) (threshold : Nat) (v : RelayVars)
    (es : List RelayEvent) : (relaySample wrap ip id threshold v).Heeds (fun _ ev => InLoop id ev)
      (fun _ _ => True) es := by
  refine fun e s => ⟨rfl, ?_⟩
  show Task.Heeds _ _
    (if wrap (Instant.asMillis (Instant.elapsed e.now v.tm)) ≥ 1000 then _ else _) _
  split
  · refine fun e₁ s₁ => ⟨rfl, ?_⟩
    show Task.Heeds _ _ (if decide (ip ∈ s₁.blocklist) = true then _ else _) _
    split
    · trivial
    · exact fun e₂ s₂ => ⟨rfl, fun e₃ s₃ => ⟨⟨rfl, _, rfl⟩, trivial⟩⟩
  · trivial

theorem relayLoop_steps (wrap : Nat → Nat) (ip id : String) (threshold : Nat) (v : RelayVars)
    (outcomes : List Select) (es : List RelayEvent) :
    (relayLoop wrap ip id threshold v outcomes).Heeds (fun _ ev => InLoop id ev)
      (fun _ _ => True) es := by
  refine relayLoop_rule (J := fun _ _ => True) (fun _ _ _ _ => trivial) ?_ ?_ ?_ ?_ outcomes trivial
  · intro es v side bytes _
    refine (relayChunk_steps wrap id side bytes v es).mono fun es y _ => ?_
    split <;> trivial
  · intro es v _
    refine (relaySample_steps wrap ip id threshold v es).mono fun es o _ => ?_
    cases o <;> trivial
  · exact fun es v side e s _ => ⟨rfl, trivial⟩
  · exact fun es v e s _ => ⟨rfl, trivial⟩

theorem relay_steps (cfg : RelayConfig) (addr : SocketAddr) (id : String)
    (outcomes : List Select) (es : List RelayEvent) : (relay cfg addr id outcomes).Heeds
      (fun _ ev => InLoop id ev) (fun _ _ => True) es :=
  fun _ _ => ⟨rfl, relayLoop_steps _ _ _ _ _ outcomes _⟩

section Steps
variable {cfg : RelayConfig} {conn : ConnId} {job : RelayJob} {rf : RequestRelay}
  {first take : RelayEvent}

/-- The relay with the peer has been entered. -/
def Entered (conn : ConnId) (job : RelayJob) (first take : RelayEvent) (peer : RelayStream)
    (es : List RelayEvent) : Prop :=
  ∃ enter relay rest, es = first :: take :: enter :: relay :: rest
    ∧ relay.op = .relay ((job.stream conn).besides peer) (peer.besides (job.stream conn))

theorem Entered.step {peer : RelayStream} {es : List RelayEvent} {ev : RelayEvent}
    (h : Entered conn job first take peer es) (hinside : Inside ev) :
    PairStep cfg conn job es ev ∧ Entered conn job first take peer (es ++ [ev]) := by
  obtain ⟨enter, relay, rest, rfl, hop⟩ := h
  exact ⟨.inside hinside, enter, relay, rest ++ [ev], rfl, hop⟩

theorem Entered.ends {peer : RelayStream} {es : List RelayEvent}
    (h : Entered conn job first take peer es) (took : Took cfg job rf first take (some peer)) :
    PairEnd cfg conn job es := by
  obtain ⟨enter, relay, rest, rfl, hop⟩ := h
  exact .relayed took hop

theorem runRelay_heeds {peer : RelayStream} (took : Took cfg job rf first take (some peer)) :
    (runRelay cfg job.addr job.outcomes (job.stream conn) peer).Heeds (PairStep cfg conn job)
      (fun es _ => PairEnd cfg conn job es) [first, take] := by
  refine fun e s => ⟨.enter took (by simp [Inside]), fun e₁ s₁ => ?_⟩
  have hop : RelayOp.relay
      (if !job.isWs && !peer.isWs then (job.stream conn).setRaw else job.stream conn)
      (if !job.isWs && !peer.isWs then peer.setRaw else peer)
      = .relay ((job.stream conn).besides peer) (peer.besides (job.stream conn)) := by
    rw [RelayStream.besides, RelayStream.besides, Bool.and_comm (!peer.isWs)]
    rfl
  refine ⟨.relay took (by simp [Inside]) hop rfl, ?_⟩
  -- what is left is the relay, and a last note of its usage
  refine ((relay_steps cfg _ _ _ []).extend (J := Entered conn job first take peer)
    ⟨_, _, [], rfl, hop⟩ fun es ev h hev => h.step hev.inside).bind fun es _ hentered => ?_
  intro e₂ s₂
  exact And.imp_right (fun hleft => Entered.ends hleft took) (hentered.step (by simp [Inside]))

theorem waitForPeer_heeds (took : Took cfg job rf first take none) :
    (waitForPeer rf.uuid (job.stream conn)).Heeds (PairStep cfg conn job)
      (fun es _ => PairEnd cfg conn job es) [first, take] :=
  fun _ _ => ⟨.wait took rfl rfl, fun _ _ => ⟨.sleep took rfl rfl rfl, fun _ _ =>
    ⟨.expire took rfl rfl rfl rfl, .expired took⟩⟩⟩

theorem makePair_heeds (cfg : RelayConfig) (conn : ConnId) (job : RelayJob) :
    (makePair_ cfg conn job).Heeds (PairStep cfg conn job)
      (fun es _ => PairEnd cfg conn job es) [] := by
  refine Task.Heeds.look_bind fun e s => ⟨.first rfl rfl, ?_⟩
  cases hrequest : job.first.bind cfg.request with
  | none =>
      refine .refused fun rf h => ?_
      rw [h.1] at hrequest
      cases hrequest
  | some rf =>
      show Task.Heeds _ _ (if cfg.key ≠ "" && rf.licenceKey ≠ cfg.key then _ else _) _
      by_cases hkey : (decide (cfg.key ≠ "") && decide (rf.licenceKey ≠ cfg.key)) = true
      · rw [if_pos hkey]
        refine .refused fun rf' h => ?_
        have hrf : rf = rf' := Option.some.inj (hrequest.symm.trans h.1)
        subst hrf
        simp only [Bool.and_eq_true, decide_eq_true_eq] at hkey
        exact hkey.2 (h.2.1 hkey.1)
      · rw [if_neg hkey]
        by_cases huuid : rf.uuid = ""
        · rw [if_neg (not_not.mpr huuid)]
          refine .refused fun rf' h => ?_
          have hrf : rf = rf' := Option.some.inj (hrequest.symm.trans h.1)
          subst hrf
          exact h.2.2 huuid
        · rw [if_pos huuid]
          have haccepts : cfg.Accepts job rf := by
            refine ⟨hrequest, fun hne => ?_, huuid⟩
            simpa [hne] using hkey
          refine Task.Heeds.act_bind fun e₁ s₁ => ⟨.take haccepts rfl rfl rfl, ?_⟩
          cases hpeer : s₁.peers.lookup rf.uuid with
          | some peer => exact runRelay_heeds ⟨haccepts, rfl, rfl, hpeer⟩
          | none => exact waitForPeer_heeds ⟨haccepts, rfl, rfl, hpeer⟩

/-! ## What a step says of the ones before it -/

theorem PairStep.of_wait {es : List RelayEvent} {ev : RelayEvent} {uuid : String}
    {stream : RelayStream} (h : PairStep cfg conn job es ev) (hop : ev.op = .wait uuid stream) :
    stream = job.stream conn ∧ ∃ rf first take, rf.uuid = uuid ∧ es = [first, take]
      ∧ Took cfg job rf first take none := by
  cases h with
  | wait took hwait =>
      rw [hop] at hwait
      cases hwait
      exact ⟨rfl, _, _, _, rfl, rfl, took⟩
  | enter _ hinside => simp [Inside, hop] at hinside
  | inside hinside => simp [Inside, hop] at hinside
  | _ => simp_all

theorem PairStep.of_relay {es : List RelayEvent} {ev : RelayEvent} {stream peer : RelayStream}
    (h : PairStep cfg conn job es ev) (hop : ev.op = .relay stream peer) :
    ∃ rf first take enter peer', es = [first, take, enter] ∧ Inside enter
      ∧ Took cfg job rf first take (some peer') ∧ stream = (job.stream conn).besides peer'
      ∧ peer = peer'.besides (job.stream conn) := by
  cases h with
  | relay took henter hrelay =>
      rw [hop] at hrelay
      cases hrelay
      exact ⟨_, _, _, _, _, rfl, henter, took, rfl, rfl⟩
  | enter _ hinside => simp [Inside, hop] at hinside
  | inside hinside => simp [Inside, hop] at hinside
  | _ => simp_all

theorem PairStep.of_take {es : List RelayEvent} {ev : RelayEvent} {uuid : String}
    (h : PairStep cfg conn job es ev) (hop : ev.op = .take uuid) :
    ∃ rf first, es = [first] ∧ first.op = .first job.first ∧ cfg.Accepts job rf
      ∧ rf.uuid = uuid := by
  cases h with
  | take haccepts hfirst htake =>
      rw [hop] at htake
      cases htake
      exact ⟨_, _, rfl, hfirst, haccepts, rfl⟩
  | enter _ hinside => simp [Inside, hop] at hinside
  | inside hinside => simp [Inside, hop] at hinside
  | _ => simp_all

end Steps

/-! ## What `PEERS` holds -/

/-- What is under the uuid after a step. -/
def held (uuid : String) (before : Option RelayStream) (ev : RelayEvent) : Option RelayStream :=
  match ev.op with
  | .take uuid' | .expire uuid' => if uuid' = uuid then none else before
  | .wait uuid' stream => if uuid' = uuid then some stream else before
  | _ => before

/-- What is under the uuid after the steps of a run, from an empty `PEERS`. -/
def replay (uuid : String) (es : List (ConnId × RelayEvent)) : Option RelayStream :=
  es.foldl (fun before x => held uuid before x.2) none

@[simp] theorem replay_snoc (uuid : String) (es : List (ConnId × RelayEvent))
    (x : ConnId × RelayEvent) : replay uuid (es ++ [x]) = held uuid (replay uuid es) x.2 := by
  simp [replay]

/-- The step says what is under the uuid. -/
def Touches (uuid : String) (ev : RelayEvent) : Prop :=
  ev.op = .take uuid ∨ ev.op = .expire uuid ∨ ∃ stream, ev.op = .wait uuid stream

theorem held_of_not_touches {uuid : String} {ev : RelayEvent} (h : ¬ Touches uuid ev)
    (before : Option RelayStream) : held uuid before ev = before := by
  unfold held
  split
  all_goals rename_i hop
  · rw [if_neg]
    rintro rfl
    exact h (.inl hop)
  · rw [if_neg]
    rintro rfl
    exact h (.inr (.inl hop))
  · rw [if_neg]
    rintro rfl
    exact h (.inr (.inr ⟨_, hop⟩))
  · rfl

theorem held_of_touches {uuid : String} {ev : RelayEvent} (h : Touches uuid ev)
    (before : Option RelayStream) (stream : RelayStream) :
    held uuid before ev = some stream ↔ ev.op = .wait uuid stream := by
  rcases h with hop | hop | ⟨stream', hop⟩ <;> simp [held, hop]

/-- A stream is there where it was put, and nothing has been said of its uuid
since. -/
theorem replay_eq_some {uuid : String} {es : List (ConnId × RelayEvent)} {stream : RelayStream} :
    replay uuid es = some stream ↔ ∃ es₁ i ev es₂, es = es₁ ++ (i, ev) :: es₂
      ∧ ev.op = .wait uuid stream ∧ ∀ x ∈ es₂, ¬ Touches uuid x.2 := by
  induction es using List.reverseRecOn with
  | nil => simp [replay]
  | append_singleton es x ih =>
      rw [replay_snoc]
      by_cases hx : Touches uuid x.2
      · rw [held_of_touches hx]
        constructor
        · intro hop
          exact ⟨es, x.1, x.2, [], rfl, hop, by simp⟩
        · rintro ⟨es₁, i, ev, es₂, hes, hop, hrest⟩
          rcases snoc_eq_split hes with ⟨-, rfl, -⟩ | ⟨es₃, -, rfl⟩
          · exact hop
          · exact (hrest x (by simp) hx).elim
      · rw [held_of_not_touches hx, ih]
        constructor
        · rintro ⟨es₁, i, ev, es₂, rfl, hop, hrest⟩
          refine ⟨es₁, i, ev, es₂ ++ [x], by simp, hop, fun y hy => ?_⟩
          rcases List.mem_append.mp hy with hy | hy
          · exact hrest y hy
          · rw [List.mem_singleton] at hy
            rwa [hy]
        · rintro ⟨es₁, i, ev, es₂, hes, hop, hrest⟩
          rcases snoc_eq_split hes with ⟨-, rfl, -⟩ | ⟨es₃, hold, rfl⟩
          · exact (hx (.inr (.inr ⟨stream, hop⟩))).elim
          · exact ⟨es₁, i, ev, es₃, hold, hop, fun z hz => hrest z (by simp [hz])⟩

theorem Inside.not_touches {ev : RelayEvent} (h : Inside ev) (uuid : String) : ¬ Touches uuid ev := by
  intro htouches
  rcases htouches with hop | hop | ⟨stream, hop⟩ <;> simp [Inside, hop] at h

/-! ## Runs -/

theorem PairStep.peers {cfg : RelayConfig} {conn : ConnId} {job : RelayJob}
    {es : List RelayEvent} {ev : RelayEvent} (h : PairStep cfg conn job es ev) (uuid : String) :
    ev.post.peers.lookup uuid = held uuid (ev.pre.peers.lookup uuid) ev := by
  have herase (uuid' : String) : (ev.pre.peers.erase uuid').lookup uuid
      = if uuid' = uuid then none else ev.pre.peers.lookup uuid := by
    by_cases huuid : uuid' = uuid
    · rw [if_pos huuid, huuid, AList.lookup_erase]
    · rw [if_neg huuid, AList.lookup_erase_ne (Ne.symm huuid)]
  have hstill (hpeers : ev.post.peers = ev.pre.peers) (hop : ¬ Touches uuid ev) :
      ev.post.peers.lookup uuid = held uuid (ev.pre.peers.lookup uuid) ev := by
    rw [held_of_not_touches hop, hpeers]
  cases h with
  | first hop hpeers => exact hstill hpeers (by simp [Touches, hop])
  | take _ _ hop hpeers => rw [hpeers, held, hop, herase]
  | wait _ hop hpeers =>
      rw [hpeers, held, hop]
      dsimp only
      split
      · rename_i huuid
        rw [huuid, AList.lookup_insert]
      · rename_i huuid
        rw [AList.lookup_insert_ne (Ne.symm huuid)]
  | sleep _ _ hop hpeers => exact hstill hpeers (by simp [Touches, hop])
  | expire _ _ _ hop hpeers => rw [hpeers, held, hop, herase]
  | enter _ hinside => exact hstill hinside.1 (hinside.not_touches uuid)
  | relay _ _ hop hpeers => exact hstill hpeers (by simp [Touches, hop])
  | inside hinside => exact hstill hinside.1 (hinside.not_touches uuid)

section Run
variable {cfg : RelayConfig} {jobs : ConnId → RelayJob} {s : RelayShared}
  {es : List (ConnId × RelayEvent)} {q : Pool ConnId Env RelayOp RelayShared fun _ => Unit}

/-- Every connection of the run keeps to its steps. -/
abbrev Paced (cfg : RelayConfig) (jobs : ConnId → RelayJob) (es : List (ConnId × RelayEvent)) :
    Prop := Pool.Heeded (fun i => PairStep cfg i (jobs i)) es

theorem relayServer_paced (h : (relayServer cfg jobs s).Run es q) : Paced cfg jobs es :=
  (h.heeds fun i => makePair_heeds cfg i (jobs i)).1

theorem relayServer_ends (h : (relayServer cfg jobs s).Run es q) {i : ConnId}
    (hi : q.tasks i = .done ()) : PairEnd cfg i (jobs i) (own i es) := by
  have hheeds := (h.heeds fun i => makePair_heeds cfg i (jobs i)).2 i
  rw [hi] at hheeds
  exact hheeds

theorem peers_eq_replay (h : (relayServer cfg jobs s).Run es q) {uuid : String}
    (hs : s.peers.lookup uuid = none) : q.shared.peers.lookup uuid = replay uuid es := by
  refine h.heeds_invariant (fun i => makePair_heeds cfg i (jobs i))
    (J := fun es s => s.peers.lookup uuid = replay uuid es) hs ?_
  intro es i ev hpaced hpre
  have hstep : PairStep cfg i (jobs i) (own i es) ev := hpaced es i ev [] rfl
  rw [hstep.peers, hpre, replay_snoc]

/-- What a connection that looks into `PEERS` sees. -/
theorem pre_eq_replay (h : (relayServer cfg jobs s).Run es q) {uuid : String}
    (hs : s.peers.lookup uuid = none) {es₁ es₂ : List (ConnId × RelayEvent)} {i : ConnId}
    {ev : RelayEvent} (hes : es = es₁ ++ (i, ev) :: es₂) :
    ev.pre.peers.lookup uuid = replay uuid es₁ := by
  obtain ⟨q₁, h₁, hpre⟩ := h.cut hes
  rw [← hpre, peers_eq_replay h₁ hs]

/-- The connection has sent, as its first message, a request for the relay,
with the key of the server if there is one. -/
def Asked (cfg : RelayConfig) (es : List (ConnId × RelayEvent)) (conn : ConnId)
    (uuid : String) : Prop :=
  ∃ ev bytes rf, (conn, ev) ∈ es ∧ ev.op = .first (some bytes) ∧ cfg.request bytes = some rf
    ∧ rf.uuid = uuid ∧ uuid ≠ "" ∧ (cfg.key ≠ "" → rf.licenceKey = cfg.key)

theorem Took.asked {conn : ConnId} {rf : RequestRelay} {first take : RelayEvent}
    {peer : Option RelayStream} {rest : List RelayEvent}
    (h : Took cfg (jobs conn) rf first take peer) (hown : own conn es = first :: take :: rest) :
    Asked cfg es conn rf.uuid := by
  obtain ⟨hrequest, hkey, huuid⟩ := h.accepts
  obtain ⟨bytes, hbytes, hrf⟩ := Option.bind_eq_some_iff.mp hrequest
  have hmem : (conn, first) ∈ es := mem_own.mp (hown ▸ List.mem_cons_self)
  exact ⟨first, bytes, rf, hmem, by rw [h.firstOp, hbytes], hrf, rfl, huuid, hkey⟩

/-- A stream that was put into `PEERS` is its connection's own, which has
found nobody there. -/
theorem Paced.wait (h : Paced cfg jobs es) {i : ConnId} {ev : RelayEvent} {uuid : String}
    {stream : RelayStream} (hev : (i, ev) ∈ es) (hop : ev.op = .wait uuid stream) :
    stream = (jobs i).stream i ∧ ∃ rf first take rest, rf.uuid = uuid
      ∧ own i es = first :: take :: rest ∧ Took cfg (jobs i) rf first take none := by
  obtain ⟨es₁, es₂, hes⟩ := List.append_of_mem hev
  obtain ⟨hstream, rf, first, take, huuid, hown, took⟩ := (h es₁ i ev es₂ hes).of_wait hop
  refine ⟨hstream, rf, first, take, ev :: own i es₂, huuid, ?_, took⟩
  rw [hes, own_split, hown]
  rfl

/-- A connection that enters a relay has taken its peer out of `PEERS`. -/
theorem Paced.relay (h : Paced cfg jobs es) {i : ConnId} {ev : RelayEvent}
    {stream peer : RelayStream} (hev : (i, ev) ∈ es) (hop : ev.op = .relay stream peer) :
    ∃ rf first take rest peer', own i es = first :: take :: rest
      ∧ Took cfg (jobs i) rf first take (some peer')
      ∧ stream = ((jobs i).stream i).besides peer' ∧ peer = peer'.besides ((jobs i).stream i) := by
  obtain ⟨es₁, es₂, hes⟩ := List.append_of_mem hev
  obtain ⟨rf, first, take, enter, peer', hown, -, took, hstream, hpeer⟩ :=
    (h es₁ i ev es₂ hes).of_relay hop
  refine ⟨rf, first, take, enter :: ev :: own i es₂, peer', ?_, took, hstream, hpeer⟩
  rw [hes, own_split, hown]
  rfl

/-- Who waits does not enter a relay of its own. -/
theorem Paced.wait_or_relay (h : Paced cfg jobs es) {i : ConnId} {w ev : RelayEvent}
    {uuid : String} {st stream peer : RelayStream} (hw : (i, w) ∈ es)
    (hwop : w.op = .wait uuid st) (hev : (i, ev) ∈ es) (hop : ev.op = .relay stream peer) :
    False := by
  obtain ⟨-, rf, first, take, rest, -, hown, took⟩ := h.wait hw hwop
  obtain ⟨rf', first', take', rest', peer', hown', took', -⟩ := h.relay hev hop
  rw [hown] at hown'
  cases hown'
  have hrf : rf = rf' := took.accepts.unique took'.accepts
  have hfound := took'.found
  rw [← hrf, took.found] at hfound
  cases hfound

/-- Nobody puts two streams into `PEERS`. -/
theorem Paced.wait_once (h : Paced cfg jobs es) {es₁ es₂ : List (ConnId × RelayEvent)}
    {i : ConnId} {w w' : RelayEvent} {uuid uuid' : String} {st st' : RelayStream}
    (hes : es = es₁ ++ (i, w') :: es₂) (hw : (i, w) ∈ es₁) (hwop : w.op = .wait uuid st)
    (hwop' : w'.op = .wait uuid' st') : False := by
  obtain ⟨-, rf, first, take, -, hown, took⟩ := (h es₁ i w' es₂ hes).of_wait hwop'
  have hmem : w ∈ own i es₁ := mem_own.mpr hw
  rw [hown, List.mem_cons, List.mem_singleton] at hmem
  rcases hmem with rfl | rfl
  · rw [took.firstOp] at hwop
    cases hwop
  · rw [took.takeOp] at hwop
    cases hwop

/-- A stream that is taken out was put in before. -/
theorem taken_waited (h : (relayServer cfg jobs s).Run es q) {uuid : String}
    (hs : s.peers.lookup uuid = none) {es₁ es₂ : List (ConnId × RelayEvent)} {i : ConnId}
    {take : RelayEvent} {peer : RelayStream} (hes : es = es₁ ++ (i, take) :: es₂)
    (hpeer : take.pre.peers.lookup uuid = some peer) :
    ∃ es₃ w es₄, es₁ = es₃ ++ (peer.conn, w) :: es₄ ∧ w.op = .wait uuid peer
      ∧ ∀ x ∈ es₄, ¬ Touches uuid x.2 := by
  rw [pre_eq_replay h hs hes, replay_eq_some] at hpeer
  obtain ⟨es₃, j, w, es₄, rfl, hop, hrest⟩ := hpeer
  have hmem : (j, w) ∈ es := by simp [hes]
  obtain ⟨hstream, -⟩ := (relayServer_paced h).wait hmem hop
  have hj : peer.conn = j := by rw [hstream]; rfl
  exact ⟨es₃, w, es₄, by rw [hj], hop, hrest⟩

/-- A stream that was taken out is not taken out again. -/
theorem taken_before (h : (relayServer cfg jobs s).Run es q) (hs : s.peers = ∅)
    {es₁ es₂ es₃ : List (ConnId × RelayEvent)} {i j : ConnId} {t t' : RelayEvent}
    {uuid uuid' : String} {st st' : RelayStream}
    (hes : es = es₁ ++ (i, t) :: es₂ ++ (j, t') :: es₃) (hop : t.op = .take uuid)
    (hst : t.pre.peers.lookup uuid = some st) (hst' : t'.pre.peers.lookup uuid' = some st') :
    st.conn ≠ st'.conn := by
  intro hconn
  have hpaced := relayServer_paced h
  have hfirst : es = es₁ ++ (i, t) :: (es₂ ++ (j, t') :: es₃) := by simp [hes]
  obtain ⟨a₁, w, a₂, rfl, hw, -⟩ := taken_waited h (hs ▸ rfl) hfirst hst
  obtain ⟨b₁, w', b₂, hb, hw', hquiet⟩ := taken_waited h (hs ▸ rfl) hes hst'
  rw [hconn] at hb
  have hes' : es = b₁ ++ (st'.conn, w') :: (b₂ ++ (j, t') :: es₃) := by
    rw [hes, hconn, hb]
    simp
  have hmem' : (st'.conn, w') ∈ es := by simp [hes']
  have hmem : (st'.conn, w) ∈ es := by simp [hes, hconn]
  -- the two were put in under one uuid, as its connection has one request
  have huuid : uuid = uuid' := by
    obtain ⟨-, rf, _, _, _, rfl, -, took⟩ := hpaced.wait hmem hw
    obtain ⟨-, rf', _, _, _, rfl, -, took'⟩ := hpaced.wait hmem' hw'
    rw [took.accepts.unique took'.accepts]
  rcases List.append_eq_append_iff.mp hb with ⟨c, rfl, hc⟩ | ⟨c, hc, htail⟩
  · -- put in again, after it was taken
    exact hpaced.wait_once hes' (by simp) hw hw'
  · -- put in before, so that the first to take it has cleared the uuid
    cases c with
    | nil =>
        cases htail
        rw [hop] at hw'
        cases hw'
    | cons x c =>
        cases htail
        exact hquiet (i, t) (by simp) (.inl (huuid ▸ hop))

/-! ## Only authorised partners -/

/-- A relay that the connection takes part in is entered. -/
def Joins (conn : ConnId) (ev : RelayEvent) : Prop :=
  ∃ stream peer, ev.op = .relay stream peer ∧ (stream.conn = conn ∨ peer.conn = conn)

@[simp] theorem RelayStream.besides_conn (stream other : RelayStream) :
    (stream.besides other).conn = stream.conn := by
  unfold RelayStream.besides
  split
  · exact stream.setRaw_conn
  · rfl

/-- Of two streams that were not raw, either both become raw or none. -/
theorem RelayStream.besides_raw {stream other : RelayStream} (h : stream.raw = false)
    (h' : other.raw = false) : (stream.besides other).raw = (other.besides stream).raw := by
  cases hws : stream.isWs <;> cases hws' : other.isWs <;>
    simp [RelayStream.besides, RelayStream.setRaw, h, h', hws, hws']

/-- No stream is taken out twice. -/
theorem taken_once (h : (relayServer cfg jobs s).Run es q) (hs : s.peers = ∅) {i j : ConnId}
    {t t' : RelayEvent} {uuid uuid' : String} {st st' : RelayStream} (hij : i ≠ j)
    (ht : (i, t) ∈ es) (ht' : (j, t') ∈ es) (hop : t.op = .take uuid) (hop' : t'.op = .take uuid')
    (hst : t.pre.peers.lookup uuid = some st) (hst' : t'.pre.peers.lookup uuid' = some st') :
    st.conn ≠ st'.conn := by
  obtain ⟨es₁, es₂, hes⟩ := List.append_of_mem ht
  rw [hes, List.mem_append, List.mem_cons] at ht'
  rcases ht' with hbefore | hsame | hafter
  · obtain ⟨a₁, a₂, rfl⟩ := List.append_of_mem hbefore
    exact (taken_before h hs hes hop' hst' hst).symm
  · cases hsame
    exact (hij rfl).elim
  · obtain ⟨a₁, a₂, rfl⟩ := List.append_of_mem hafter
    have hsplit : es = es₁ ++ (i, t) :: a₁ ++ (j, t') :: a₂ := by simp [hes]
    exact taken_before h hs hsplit hop hst hst'

/-- What a connection that enters a relay has done, and its peer before. -/
theorem relay_took (h : (relayServer cfg jobs s).Run es q) (hs : s.peers = ∅) {i : ConnId}
    {ev : RelayEvent} {stream peer : RelayStream} (hev : (i, ev) ∈ es)
    (hop : ev.op = .relay stream peer) :
    ∃ uuid take st w, (i, take) ∈ es ∧ take.op = .take uuid
      ∧ take.pre.peers.lookup uuid = some st ∧ (st.conn, w) ∈ es ∧ w.op = .wait uuid st
      ∧ Asked cfg es i uuid ∧ stream = ((jobs i).stream i).besides st
      ∧ peer = st.besides ((jobs i).stream i) := by
  obtain ⟨rf, first, take, rest, st, hown, took, hstream, hpeer⟩ :=
    (relayServer_paced h).relay hev hop
  have htake : (i, take) ∈ es := mem_own.mp (by simp [hown])
  obtain ⟨es₁, es₂, hes⟩ := List.append_of_mem htake
  obtain ⟨es₃, w, es₄, rfl, hw, -⟩ := taken_waited h (hs ▸ rfl) hes took.found
  exact ⟨rf.uuid, take, st, w, htake, took.takeOp, took.found, by simp [hes], hw,
    took.asked hown, hstream, hpeer⟩

/-- The partners of a relay are two, and both have asked for it. -/
theorem partners_asked (h : (relayServer cfg jobs s).Run es q) (hs : s.peers = ∅) {i : ConnId}
    {ev : RelayEvent} {stream peer : RelayStream} (hev : (i, ev) ∈ es)
    (hop : ev.op = .relay stream peer) :
    stream.conn = i ∧ peer.conn ≠ i ∧ stream.raw = peer.raw
      ∧ ∃ uuid, Asked cfg es i uuid ∧ Asked cfg es peer.conn uuid := by
  have hpaced := relayServer_paced h
  obtain ⟨uuid, take, st, w, -, -, -, hwmem, hw, hasked, rfl, rfl⟩ := relay_took h hs hev hop
  obtain ⟨hst, rf, first, take', rest, rfl, hown, took⟩ := hpaced.wait hwmem hw
  have hraw : st.raw = false := by rw [hst]; rfl
  rw [RelayStream.besides_conn, RelayStream.besides_conn]
  refine ⟨rfl, fun hconn => ?_, RelayStream.besides_raw rfl hraw, rf.uuid, hasked, took.asked hown⟩
  exact hpaced.wait_or_relay (hconn ▸ hwmem) hw hev hop

/-- Of two relays that are entered, no connection is in both. -/
theorem partners_apart (h : (relayServer cfg jobs s).Run es q) (hs : s.peers = ∅)
    {es₁ es₂ es₃ : List (ConnId × RelayEvent)} {x y : ConnId × RelayEvent}
    (hes : es = es₁ ++ x :: es₂ ++ y :: es₃) (conn : ConnId) :
    ¬ (Joins conn x.2 ∧ Joins conn y.2) := by
  intro ⟨⟨stream, peer, hop, hx⟩, stream', peer', hop', hy⟩
  obtain ⟨i, ev⟩ := x
  obtain ⟨j, ev'⟩ := y
  dsimp only at hop hop'
  have hpaced := relayServer_paced h
  have hev : (i, ev) ∈ es := by simp [hes]
  have hev' : (j, ev') ∈ es := by simp [hes]
  by_cases hij : i = j
  · -- a connection enters one relay of its own at most
    subst hij
    obtain ⟨rf, first, take, enter, _, hown, henter, took, -⟩ :=
      (hpaced _ i ev' es₃ hes).of_relay hop'
    have hmem : ev ∈ own i (es₁ ++ (i, ev) :: es₂) := mem_own.mpr (by simp)
    rw [hown] at hmem
    simp only [List.mem_cons, List.not_mem_nil, or_false] at hmem
    rcases hmem with rfl | rfl | rfl
    · rw [took.firstOp] at hop
      cases hop
    · rw [took.takeOp] at hop
      cases hop
    · simp [Inside, hop] at henter
  · obtain ⟨uuid, take, st, w, htake, htop, hst, hwmem, hw, -, rfl, rfl⟩ := relay_took h hs hev hop
    obtain ⟨uuid', take', st', w', htake', htop', hst', hwmem', hw', -, rfl, rfl⟩ :=
      relay_took h hs hev' hop'
    rw [RelayStream.besides_conn, RelayStream.besides_conn] at hx hy
    change i = conn ∨ st.conn = conn at hx
    change j = conn ∨ st'.conn = conn at hy
    rcases hx with rfl | rfl
    · rcases hy with hy | hy
      · exact hij hy.symm
      · exact hpaced.wait_or_relay (hy ▸ hwmem') hw' hev hop
    · rcases hy with hy | hy
      · exact hpaced.wait_or_relay (hy ▸ hwmem) hw hev' hop'
      · exact taken_once h hs hij htake htake' htop htop' hst hst' hy.symm

theorem pairwise_of_split {α : Type} {R : α → α → Prop} {l : List α}
    (h : ∀ l₁ x l₂ y l₃, l = l₁ ++ x :: l₂ ++ y :: l₃ → R x y) : l.Pairwise R := by
  induction l with
  | nil => exact .nil
  | cons x l ih =>
      refine .cons (fun y hy => ?_) (ih fun l₁ x' l₂ y l₃ hl => h (x :: l₁) x' l₂ y l₃ (by simp [hl]))
      obtain ⟨l₂, l₃, rfl⟩ := List.append_of_mem hy
      exact h [] x l₂ y l₃ rfl

/-- **Only authorised partners are paired.** Whatever connections there are
and however their steps interleave, a relay is entered for two connections
that have both asked for it, both of its streams are raw or none, and no
connection is in two relays. -/
theorem only_partners (h : (relayServer cfg jobs s).Run es q) (hs : s.peers = ∅) :
    (∀ i ev stream peer, (i, ev) ∈ es → ev.op = .relay stream peer →
      stream.conn = i ∧ peer.conn ≠ i ∧ stream.raw = peer.raw
        ∧ ∃ uuid, Asked cfg es i uuid ∧ Asked cfg es peer.conn uuid)
    ∧ ∀ conn, es.Pairwise fun x y => ¬ (Joins conn x.2 ∧ Joins conn y.2) := by
  constructor
  · exact fun i ev stream peer hev hop => partners_asked h hs hev hop
  · exact fun conn => pairwise_of_split fun es₁ x es₂ y es₃ hes => partners_apart h hs hes conn

end Run

/-! Two connections that meet. -/

def meetConfig : RelayConfig where
  x := .sample [([0], .requestRelay { uuid := "relay" })]
  downgradeThreshold := fun _ _ => 0

def meetJob : RelayJob where
  isWs := false
  addr := ⟨.v4 1, 50000⟩
  first := some [0]
  outcomes := []

def meeting : Pool ConnId Env RelayOp RelayShared fun _ => Unit :=
  relayServer meetConfig (fun _ => meetJob) {}

/-- A schedule: who takes a step, and at how many seconds. -/
def atSeconds (turns : List (ConnId × Nat)) : List (ConnId × Env) :=
  turns.map fun x => (x.1, { now := x.2 * 1000000000 })

def metSchedule : List (ConnId × Env) :=
  atSeconds [(0, 0), (0, 0), (0, 0), (1, 5), (1, 5), (1, 5), (1, 5)]

theorem only_partners_pair :
    ∃ es q ev stream peer, meeting.Run es q ∧ (1, ev) ∈ es ∧ ev.op = .relay stream peer
      ∧ stream.raw = true ∧ peer.raw = true ∧ peer.conn = 0
      ∧ ∃ uuid, Asked meetConfig es 1 uuid ∧ Asked meetConfig es 0 uuid := by
  have hrun := Pool.play_run meeting metSchedule
  have hev : (meeting.play metSchedule).1.getLast? = some (1, _) := rfl
  obtain ⟨-, -, -, hasked⟩ :=
    (only_partners hrun rfl).1 1 _ _ _ (List.mem_of_getLast? hev) rfl
  exact ⟨_, _, _, _, _, hrun, List.mem_of_getLast? hev, rfl, rfl, rfl, rfl, hasked⟩

end KustDesk
