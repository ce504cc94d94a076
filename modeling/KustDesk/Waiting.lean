import KustDesk.Pairing

/-!
# KustDesk — Waiting

What becomes of a stream that waits in `PEERS`, and of two connections that
ask for the same relay. A connection looks for its other half and puts its
stream in at two times, and after its sleep removes whatever is under the
uuid.
-/

namespace KustDesk

open Async

variable {cfg : RelayConfig} {jobs : ConnId → RelayJob} {s : RelayShared}
  {es : List (ConnId × RelayEvent)} {q : Pool ConnId Env RelayOp RelayShared fun _ => Unit}

/-! ## Until it is taken, or has slept -/

/-- The connection has slept its 30 seconds. -/
def Slept (es : List (ConnId × RelayEvent)) (conn : ConnId) (uuid : String) : Prop :=
  ∃ ev, (conn, ev) ∈ es ∧ ev.op = .sleep uuid

/-- Another connection that looked for the uuid has got the stream. -/
def TakenByOther (es : List (ConnId × RelayEvent)) (uuid : String) (stream : RelayStream) : Prop :=
  ∃ j ev, (j, ev) ∈ es ∧ j ≠ stream.conn ∧ ev.op = .take uuid
    ∧ ev.pre.peers.lookup uuid = some stream

/-- Every stream that was put into `PEERS` is still there, or was taken by
another connection, or its own has slept. -/
def Kept (es : List (ConnId × RelayEvent)) (peers : HashMap String RelayStream) : Prop :=
  ∀ i ev uuid stream, (i, ev) ∈ es → ev.op = .wait uuid stream →
    peers.lookup uuid = some stream ∨ TakenByOther es uuid stream ∨ Slept es i uuid

/-- The step neither removes nor replaces the stream of another connection
that is asleep. -/
def Careful (es : List (ConnId × RelayEvent)) (j : ConnId) (ev : RelayEvent) : Prop :=
  ∀ uuid stream, ev.pre.peers.lookup uuid = some stream →
    (ev.op = .expire uuid ∨ ∃ stream', ev.op = .wait uuid stream') →
    stream.conn = j ∨ Slept es stream.conn uuid

theorem Slept.mono {conn : ConnId} {uuid : String} (h : Slept es conn uuid)
    (es' : List (ConnId × RelayEvent)) : Slept (es ++ es') conn uuid := by
  obtain ⟨ev, hev, hop⟩ := h
  exact ⟨ev, List.mem_append_left _ hev, hop⟩

theorem TakenByOther.mono {uuid : String} {stream : RelayStream} (h : TakenByOther es uuid stream)
    (es' : List (ConnId × RelayEvent)) : TakenByOther (es ++ es') uuid stream := by
  obtain ⟨j, ev, hev, hop⟩ := h
  exact ⟨j, ev, List.mem_append_left _ hev, hop⟩

theorem PairStep.of_expire {conn : ConnId} {job : RelayJob} {es : List RelayEvent}
    {ev : RelayEvent} {uuid : String} (h : PairStep cfg conn job es ev)
    (hop : ev.op = .expire uuid) : ∃ sleep ∈ es, sleep.op = .sleep uuid := by
  cases h with
  | expire _ _ hsleep hexpire =>
      rw [hop] at hexpire
      cases hexpire
      exact ⟨_, by simp, hsleep⟩
  | enter _ hinside => simp [Inside, hop] at hinside
  | inside hinside => simp [Inside, hop] at hinside
  | _ => simp_all

/-- A connection that has put its stream in does not look again, nor put it in
again. -/
theorem Paced.waited (h : Paced cfg jobs es) {es₁ es₂ : List (ConnId × RelayEvent)} {i : ConnId}
    {w ev : RelayEvent} {uuid : String} {stream : RelayStream} (hes : es = es₁ ++ (i, ev) :: es₂)
    (hw : (i, w) ∈ es₁) (hwop : w.op = .wait uuid stream) :
    (∀ uuid', ev.op ≠ .take uuid') ∧ ∀ uuid' stream', ev.op ≠ .wait uuid' stream' := by
  constructor
  · intro uuid' hop
    obtain ⟨-, first, hown, hfirst, -⟩ := (h es₁ i ev es₂ hes).of_take hop
    have hmem : w ∈ own i es₁ := mem_own.mpr hw
    rw [hown, List.mem_singleton] at hmem
    rw [hmem, hfirst] at hwop
    cases hwop
  · exact fun uuid' stream' hop => h.wait_once hes hw hwop hop

/-- **Step.** A careful step keeps every stream. -/
theorem Kept.step {j : ConnId} {ev : RelayEvent} (h : Paced cfg jobs (es ++ [(j, ev)]))
    (hkept : Kept es ev.pre.peers) (hcareful : Careful es j ev) :
    Kept (es ++ [(j, ev)]) ev.post.peers := by
  have hstep : PairStep cfg j (jobs j) (own j es) ev := h es j ev [] rfl
  intro i w uuid stream hmem hwop
  rw [hstep.peers]
  rcases List.mem_append.mp hmem with hw | hw
  · have hstream : stream = (jobs i).stream i := (h.wait (List.mem_append_left _ hw) hwop).1
    have hconn : stream.conn = i := by rw [hstream]; rfl
    rcases hkept i w uuid stream hw hwop with hpresent | htaken | hslept
    · by_cases htouches : Touches uuid ev
      · rcases htouches with hop | hop | ⟨stream', hop⟩
        · -- taken, by somebody else as its connection does not look again
          refine .inr (.inl ⟨j, ev, by simp, ?_, hop, hpresent⟩)
          rintro rfl
          exact (h.waited rfl (hconn ▸ hw) hwop).1 uuid hop
        · -- cleared, by its own connection after its sleep
          rcases hcareful uuid stream hpresent (.inl hop) with hown | hslept
          · obtain ⟨sleep, hsleep, hslop⟩ := hstep.of_expire hop
            have hslept : (i, sleep) ∈ es := by
              rw [← hconn, hown]
              exact mem_own.mp hsleep
            exact .inr (.inr ⟨sleep, List.mem_append_left _ hslept, hslop⟩)
          · exact .inr (.inr (hconn ▸ hslept.mono _))
        · -- replaced, and nobody puts two streams in
          rcases hcareful uuid stream hpresent (.inr ⟨stream', hop⟩) with hown | hslept
          · have hij : i = j := hconn.symm.trans hown
            exact ((h.waited rfl (hij ▸ hw) hwop).2 uuid stream' hop).elim
          · exact .inr (.inr (hconn ▸ hslept.mono _))
      · rw [held_of_not_touches htouches]
        exact .inl hpresent
    · exact .inr (.inl (htaken.mono _))
    · exact .inr (.inr (hslept.mono _))
  · rw [List.mem_singleton] at hw
    cases hw
    refine .inl ?_
    rw [held_of_touches (.inr (.inr ⟨stream, hwop⟩))]
    exact hwop

theorem kept_of_careful (h : (relayServer cfg jobs s).Run es q)
    (hcareful : ∀ es₁ j ev es₂, es = es₁ ++ (j, ev) :: es₂ → Careful es₁ j ev) :
    Kept es q.shared.peers := by
  refine h.heeds_invariant (fun i => makePair_heeds cfg i (jobs i))
    (J := fun es s => (∀ es₁ j ev es₂, es = es₁ ++ (j, ev) :: es₂ → Careful es₁ j ev) →
      Kept es s.peers) ?_ ?_ hcareful
  · intro _ i ev uuid stream hev
    cases hev
  · intro es i ev hpaced ih hcareful
    refine (ih fun es₁ j ev' es₂ hes => ?_).step hpaced
      (hcareful es i ev [] rfl)
    exact hcareful es₁ j ev' (es₂ ++ [(i, ev)]) (by simp [hes])

/-- A step that is not careful leaves a stream neither there, nor taken, nor
at the end of its sleep. -/
theorem careful_of_kept (h : (relayServer cfg jobs s).Run es q) (hs : s.peers = ∅)
    {es₁ es₂ : List (ConnId × RelayEvent)} {j : ConnId} {ev : RelayEvent}
    (hes : es = es₁ ++ (j, ev) :: es₂) (hkept : Kept (es₁ ++ [(j, ev)]) ev.post.peers) :
    Careful es₁ j ev := by
  intro uuid stream hpresent hop
  have htouches : Touches uuid ev := .inr hop
  obtain ⟨es₃, w, es₄, rfl, hw, -⟩ := taken_waited h (hs ▸ rfl) hes hpresent
  have hstep : PairStep cfg j (jobs j) _ ev := relayServer_paced h _ j ev es₂ hes
  rcases hkept stream.conn w uuid stream (by simp) hw with hpost | htaken | hslept
  · -- put in at this very step
    rw [hstep.peers, held_of_touches htouches] at hpost
    have hstream : stream = (jobs j).stream j := (hstep.of_wait hpost).1
    exact .inl (by rw [hstream]; rfl)
  · -- taken before, and yet there
    obtain ⟨i, t, ht, -, htop, hfound⟩ := htaken
    rcases List.mem_append.mp ht with ht | ht
    · obtain ⟨a₁, a₂, ha⟩ := List.append_of_mem ht
      have hsplit : es = a₁ ++ (i, t) :: a₂ ++ (j, ev) :: es₂ := by rw [hes, ha]
      exact (taken_before h hs hsplit htop hfound hpresent rfl).elim
    · rw [List.mem_singleton] at ht
      cases ht
      rcases hop with hop | ⟨stream', hop⟩ <;> rw [htop] at hop <;> cases hop
  · obtain ⟨sleep, hsleep, hslop⟩ := hslept
    rcases List.mem_append.mp hsleep with hsleep | hsleep
    · exact .inr ⟨sleep, hsleep, hslop⟩
    · rw [List.mem_singleton] at hsleep
      cases hsleep
      rcases hop with hop | ⟨stream', hop⟩ <;> rw [hslop] at hop <;> cases hop

/-- **A waiting stream.** In every state of a run each stream that was put in
is there until it is taken or has slept, exactly where every step of the run
is careful. -/
theorem waiting_kept_iff (h : (relayServer cfg jobs s).Run es q) (hs : s.peers = ∅) :
    (∀ es₁ es₂ q₁, es = es₁ ++ es₂ → (relayServer cfg jobs s).Run es₁ q₁ →
      Kept es₁ q₁.shared.peers)
    ↔ ∀ es₁ j ev es₂, es = es₁ ++ (j, ev) :: es₂ → Careful es₁ j ev := by
  constructor
  · intro hkept es₁ j ev es₂ hes
    have hes' : es = (es₁ ++ [(j, ev)]) ++ es₂ := by simp [hes]
    obtain ⟨q₁, h₁⟩ := (hes' ▸ h).take
    have hkept₁ := hkept _ _ q₁ hes' h₁
    rw [h₁.shared_snoc] at hkept₁
    exact careful_of_kept h hs hes hkept₁
  · intro hcareful es₁ es₂ q₁ hes h₁
    refine kept_of_careful h₁ fun es₃ j ev es₄ hes₁ => ?_
    exact hcareful es₃ j ev (es₄ ++ es₂) (by simp [hes, hes₁])

/-- Where a stream is put in, or the uuid cleared after a sleep, nothing is
there. -/
def RelayEvent.clear (ev : RelayEvent) : Bool :=
  match ev.op with
  | .wait uuid _ | .expire uuid => (ev.pre.peers.lookup uuid).isNone
  | _ => true

theorem careful_of_clear {j : ConnId} {ev : RelayEvent} (h : RelayEvent.clear ev = true) :
    Careful es j ev := by
  intro uuid stream hpresent hop
  rcases hop with hop | ⟨stream', hop⟩ <;> simp [RelayEvent.clear, hop, hpresent] at h

/-- Where a stream is put in and taken. -/
theorem waiting_kept_iff_taken :
    ∃ es q, meeting.Run es q ∧ Kept es q.shared.peers
      ∧ q.shared.peers.lookup "relay" = none := by
  have hrun := Pool.play_run meeting metSchedule
  have hclear : ∀ x ∈ (meeting.play metSchedule).1, RelayEvent.clear x.2 = true := by decide
  have hkept := (waiting_kept_iff hrun rfl).mpr fun es₁ j ev es₂ hes =>
    careful_of_clear (hclear (j, ev) (by simp [hes]))
  exact ⟨_, _, hrun, hkept _ [] _ (List.append_nil _).symm hrun, rfl⟩

/-- The first two connections meet. A third puts its stream in, under the same
uuid, before the first one wakes up and clears it. -/
def reuseSchedule : List (ConnId × Env) :=
  atSeconds [(0, 0), (0, 0), (0, 0), (1, 5), (1, 5), (2, 20), (2, 20), (2, 20), (0, 30), (0, 30)]

theorem waiting_removed :
    ∃ es q, meeting.Run es q ∧ ¬ Kept es q.shared.peers := by
  have hrun := Pool.play_run meeting reuseSchedule
  have hput : (2, _) ∈ (meeting.play reuseSchedule).1 := List.mem_of_getElem? (i := 7) rfl
  refine ⟨_, _, hrun, fun hkept => ?_⟩
  rcases hkept 2 _ "relay" _ hput rfl with hpresent | ⟨j, ev, hev, -, hop, hfound⟩ | ⟨ev, hev, hop⟩
  · cases hpresent
  · have htaken : ∀ x ∈ (meeting.play reuseSchedule).1, x.2.op = .take "relay" →
        x.2.pre.peers.lookup "relay" ≠ some (meetJob.stream 2) := by decide
    exact htaken (j, ev) hev hop hfound
  · have hslept : ∀ x ∈ (meeting.play reuseSchedule).1, x.1 = 2 → x.2.op ≠ .sleep "relay" := by
      decide
    exact hslept (2, ev) hev rfl hop

/-! ## Two connections that ask for one relay -/

/-- The connection's request is accepted, and is for the uuid. -/
def RelayConfig.Wants (cfg : RelayConfig) (job : RelayJob) (uuid : String) : Prop :=
  ∃ rf, cfg.Accepts job rf ∧ rf.uuid = uuid

/-- The first connection has taken the other's stream out of `PEERS`, and
entered the relay of the two. -/
def Relays (es : List (ConnId × RelayEvent)) (uuid : String) (i j : ConnId) : Prop :=
  (∃ take st, (i, take) ∈ es ∧ take.op = .take uuid ∧ take.pre.peers.lookup uuid = some st
    ∧ st.conn = j)
  ∧ ∃ ev stream peer, (i, ev) ∈ es ∧ ev.op = .relay stream peer ∧ stream.conn = i
    ∧ peer.conn = j

/-- The first connection looks after the other has put its stream in, and
before the other clears the uuid. -/
def InTime (es : List (ConnId × RelayEvent)) (uuid : String) (i j : ConnId) : Prop :=
  ∃ es₁ w es₂ take es₃ stream, es = es₁ ++ (j, w) :: es₂ ++ (i, take) :: es₃
    ∧ w.op = .wait uuid stream ∧ take.op = .take uuid
    ∧ ∀ ev, (j, ev) ∈ es₂ → ev.op ≠ .expire uuid

theorem PairStep.wants {conn : ConnId} {job : RelayJob} {es : List RelayEvent}
    {ev : RelayEvent} {uuid : String} (h : PairStep cfg conn job es ev)
    (htouches : Touches uuid ev) : cfg.Wants job uuid := by
  cases h with
  | take haccepts _ hop =>
      simp [Touches, hop] at htouches
      exact ⟨_, haccepts, htouches⟩
  | wait took hop =>
      simp [Touches, hop] at htouches
      exact ⟨_, took.accepts, htouches⟩
  | expire took _ _ hop =>
      simp [Touches, hop] at htouches
      exact ⟨_, took.accepts, htouches⟩
  | first hop => simp [Touches, hop] at htouches
  | sleep _ _ hop => simp [Touches, hop] at htouches
  | relay _ _ hop => simp [Touches, hop] at htouches
  | enter _ hinside => exact (hinside.not_touches uuid htouches).elim
  | inside hinside => exact (hinside.not_touches uuid htouches).elim

/-- Before it looks, a connection has only been heard. -/
theorem Paced.unlooked (h : Paced cfg jobs es) {es₁ es₂ : List (ConnId × RelayEvent)} {i : ConnId}
    {take ev : RelayEvent} {uuid uuid' : String} (hes : es = es₁ ++ (i, take) :: es₂)
    (hop : take.op = .take uuid) (hev : (i, ev) ∈ es₁) : ¬ Touches uuid' ev := by
  obtain ⟨-, first, hown, hfirst, -⟩ := (h es₁ i take es₂ hes).of_take hop
  have hmem : ev ∈ own i es₁ := mem_own.mpr hev
  rw [hown, List.mem_singleton] at hmem
  simp [Touches, hmem, hfirst]

theorem Relays.inTime {uuid : String} {i j : ConnId} (h : (relayServer cfg jobs s).Run es q)
    (hs : s.peers.lookup uuid = none) (hrelays : Relays es uuid i j) : InTime es uuid i j := by
  obtain ⟨⟨take, st, htake, htop, hst, rfl⟩, -⟩ := hrelays
  obtain ⟨es₁, es₂, hes⟩ := List.append_of_mem htake
  obtain ⟨es₃, w, es₄, rfl, hw, hquiet⟩ := taken_waited h hs hes hst
  refine ⟨es₃, w, es₄, take, es₂, st, hes, hw, htop, fun ev hev hop => ?_⟩
  exact hquiet _ hev (.inr (.inl hop))

/-- Who looks in time finds the other: nobody else has touched the uuid. -/
theorem InTime.finds {uuid : String} {i j : ConnId} (h : (relayServer cfg jobs s).Run es q)
    (hs : s.peers.lookup uuid = none)
    (hothers : ∀ k, k ≠ i → k ≠ j → ¬ cfg.Wants (jobs k) uuid) (hin : InTime es uuid i j) :
    ∃ es₁ take es₂, es = es₁ ++ (i, take) :: es₂ ∧ take.op = .take uuid
      ∧ take.pre.peers.lookup uuid = some ((jobs j).stream j) := by
  obtain ⟨es₁, w, es₂, take, es₃, stream, hes, hw, htop, hunexpired⟩ := hin
  have hpaced := relayServer_paced h
  have hstream : stream = (jobs j).stream j := (hpaced.wait (i := j) (by simp [hes]) hw).1
  refine ⟨es₁ ++ (j, w) :: es₂, take, es₃, hes, htop, ?_⟩
  rw [pre_eq_replay h hs hes, replay_eq_some, ← hstream]
  refine ⟨es₁, j, w, es₂, rfl, hw, fun x hx htouches => ?_⟩
  -- nobody can have touched the uuid since
  obtain ⟨k, ev⟩ := x
  obtain ⟨a₁, a₂, rfl⟩ := List.append_of_mem hx
  have hsplit : es = (es₁ ++ (j, w) :: a₁) ++ (k, ev) :: (a₂ ++ (i, take) :: es₃) := by
    simp [hes]
  by_cases hki : k = i
  · subst hki
    exact hpaced.unlooked hes htop (by simp) htouches
  · by_cases hkj : k = j
    · subst hkj
      obtain ⟨hlooks, hwaits⟩ := hpaced.waited hsplit (by simp) hw
      rcases htouches with hop | hop | ⟨stream', hop⟩
      · exact hlooks uuid hop
      · exact hunexpired ev hx hop
      · exact hwaits uuid stream' hop
    · exact hothers k hki hkj ((hpaced _ k ev _ hsplit).wants htouches)

/-- Who has found a stream, and is at its end, has entered the relay. -/
theorem relayed_of_found {uuid : String} {i : ConnId} {stream : RelayStream}
    (h : (relayServer cfg jobs s).Run es q) (hdone : q.tasks i = .done ())
    {es₁ es₂ : List (ConnId × RelayEvent)} {take : RelayEvent}
    (hes : es = es₁ ++ (i, take) :: es₂) (hop : take.op = .take uuid)
    (hfound : take.pre.peers.lookup uuid = some stream) :
    ∃ ev, (i, ev) ∈ es
      ∧ ev.op = .relay (((jobs i).stream i).besides stream) (stream.besides ((jobs i).stream i)) := by
  obtain ⟨rf, first, hbefore, -, haccepts, huuid⟩ :=
    (relayServer_paced h es₁ i take es₂ hes).of_take hop
  obtain ⟨after, hown⟩ : ∃ after, own i es = first :: take :: after :=
    ⟨own i es₂, by rw [hes, own_split, hbefore]; rfl⟩
  have hends := relayServer_ends h hdone
  generalize hsteps : own i es = steps at hends
  rw [hsteps] at hown
  -- of the three ways to end, two need an empty lookup
  cases hends with
  | refused => cases hown
  | expired took =>
      cases hown
      have hnone := took.found
      rw [took.accepts.unique haccepts, huuid, hfound] at hnone
      cases hnone
  | @relayed rf' _ _ enter relay peer rest took hrelay =>
      cases hown
      have hsome := took.found
      rw [took.accepts.unique haccepts, huuid, hfound] at hsome
      cases hsome
      exact ⟨relay, mem_own.mp (by simp [hsteps]), hrelay⟩

theorem InTime.relays {uuid : String} {i j : ConnId} (h : (relayServer cfg jobs s).Run es q)
    (hs : s.peers.lookup uuid = none)
    (hothers : ∀ k, k ≠ i → k ≠ j → ¬ cfg.Wants (jobs k) uuid)
    (hdone : q.tasks i = .done ()) (hin : InTime es uuid i j) :
    Relays es uuid i j ∧ ¬ Relays es uuid j i := by
  obtain ⟨es₁, take, es₂, hes, htop, hfound⟩ := hin.finds h hs hothers
  obtain ⟨ev, hev, hop⟩ := relayed_of_found h hdone hes htop hfound
  refine ⟨⟨⟨take, _, by simp [hes], htop, hfound, rfl⟩, ev, _, _, hev, hop, ?_, ?_⟩, ?_⟩
  · rw [RelayStream.besides_conn]
    rfl
  · rw [RelayStream.besides_conn]
    rfl
  · -- the other one waits
    obtain ⟨es₃, w, es₄, take', es₅, stream, hes', hw, -⟩ := hin
    rintro ⟨-, ev', stream', peer', hev', hop', -⟩
    exact (relayServer_paced h).wait_or_relay (w := w) (by simp [hes']) hw hev' hop'

/-- **No lost pairing, where one looks in time.** Two connections, alone with
their uuid: exactly one of them takes the other and starts the relay exactly
where one has looked while the other's stream was in. -/
theorem paired_iff {uuid : String} {i j : ConnId} (h : (relayServer cfg jobs s).Run es q)
    (hs : s.peers.lookup uuid = none)
    (hothers : ∀ k, k ≠ i → k ≠ j → ¬ cfg.Wants (jobs k) uuid)
    (hidone : q.tasks i = .done ()) (hjdone : q.tasks j = .done ()) :
    (Relays es uuid i j ∧ ¬ Relays es uuid j i ∨ Relays es uuid j i ∧ ¬ Relays es uuid i j)
      ↔ InTime es uuid i j ∨ InTime es uuid j i := by
  constructor
  · rintro (⟨hrelays, -⟩ | ⟨hrelays, -⟩)
    · exact .inl (hrelays.inTime h hs)
    · exact .inr (hrelays.inTime h hs)
  · rintro (hin | hin)
    · exact .inl (hin.relays h hs hothers hidone)
    · exact .inr (hin.relays h hs (fun k hkj hki => hothers k hki hkj) hjdone)

/-! Two connections, and no third. -/

def twoJobs (conn : ConnId) : RelayJob :=
  if conn < 2 then meetJob else { meetJob with first := none }

def twoMeeting : Pool ConnId Env RelayOp RelayShared fun _ => Unit :=
  relayServer meetConfig twoJobs {}

theorem twoJobs_others (conn : Nat) (h : conn ≠ 0) (h' : conn ≠ 1) :
    ¬ meetConfig.Wants (twoJobs conn) "relay" := by
  rintro ⟨rf, ⟨hrequest, -⟩, -⟩
  have hlate : ¬ conn < 2 := by omega
  simp [twoJobs, hlate] at hrequest

/-- The second connection looks in time. -/
def inTimeSchedule : List (ConnId × Env) :=
  atSeconds [(0, 0), (0, 0), (0, 0), (1, 5), (1, 5), (1, 5), (1, 5), (1, 5), (1, 6), (1, 6),
    (0, 30), (0, 30)]

theorem paired_iff_inTime :
    ∃ es q, twoMeeting.Run es q
      ∧ (Relays es "relay" 0 1 ∧ ¬ Relays es "relay" 1 0
        ∨ Relays es "relay" 1 0 ∧ ¬ Relays es "relay" 0 1) := by
  have hrun := Pool.play_run twoMeeting inTimeSchedule
  have hiff := paired_iff (i := 0) (j := 1) hrun rfl twoJobs_others rfl rfl
  refine ⟨_, _, hrun, hiff.mpr (.inr ?_)⟩
  exact ⟨[_, _], _, [_], _, _, _, rfl, rfl, rfl, by simp⟩

/-- Both look before either has put its stream in. -/
def bothEarlySchedule : List (ConnId × Env) :=
  atSeconds [(0, 0), (1, 0), (0, 0), (1, 0), (0, 0), (1, 0), (0, 30), (1, 30), (0, 30), (1, 30)]

theorem pairing_lost :
    ∃ es q, twoMeeting.Run es q
      ∧ meetConfig.Wants (twoJobs 0) "relay" ∧ meetConfig.Wants (twoJobs 1) "relay"
      ∧ (∀ conn, conn ≠ 0 → conn ≠ 1 → ¬ meetConfig.Wants (twoJobs conn) "relay")
      ∧ (∀ x ∈ es, x.2.op = .first (some [0]) → x.2.env.now = 0)
      ∧ q.tasks 0 = .done () ∧ q.tasks 1 = .done ()
      ∧ ¬ (Relays es "relay" 0 1 ∧ ¬ Relays es "relay" 1 0
        ∨ Relays es "relay" 1 0 ∧ ¬ Relays es "relay" 0 1) := by
  have hrun := Pool.play_run twoMeeting bothEarlySchedule
  have hwants (conn : ConnId) (h : conn < 2) : meetConfig.Wants (twoJobs conn) "relay" := by
    rw [twoJobs, if_pos h]
    exact ⟨{ uuid := "relay" }, ⟨rfl, nofun, by decide⟩, rfl⟩
  have hnobody : ∀ x ∈ (twoMeeting.play bothEarlySchedule).1, x.2.op = .take "relay" →
      x.2.pre.peers.lookup "relay" = none := by decide
  have hunpaired (i j : ConnId) : ¬ Relays (twoMeeting.play bothEarlySchedule).1 "relay" i j := by
    rintro ⟨⟨take, st, htake, hop, hst, -⟩, -⟩
    rw [hnobody _ htake hop] at hst
    cases hst
  refine ⟨_, _, hrun, hwants 0 (by decide), hwants 1 (by decide), twoJobs_others, by decide, rfl,
    rfl, ?_⟩
  simp [hunpaired]

end KustDesk
