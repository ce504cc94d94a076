import KustDesk.Pairing

/-!
# KustDesk — UsageTable

`USAGE`, the table of the relays that are running, under the addresses of the
connections that run them. Two relays whose connections have one address, as
behind a forwarding header without a port, share an entry: each overwrites
the other's numbers, and the first to end removes it for both.
-/

namespace KustDesk

open Async

/-- The key of the job's relay in `USAGE`. -/
def RelayJob.usageId (job : RelayJob) : String :=
  job.addr.ip.toString ++ ":" ++ toString job.addr.port.toNat

/-! ## The relay of a connection -/

/-- The usage of the relay after a step, by what it was before. -/
def noted (before : Option Usage) (ev : RelayEvent) : Option Usage :=
  match ev.op with
  | .enter _ => some (0, 0, 0, 0)
  | .usage id => ev.post.usage.lookup id
  | .leave _ => none
  | _ => before

/-- The last numbers of the relay that a connection is running, between its
first step on `USAGE` and its last. -/
def relayUsage (es : List RelayEvent) : Option Usage := es.foldl noted none

@[simp] theorem relayUsage_nil : relayUsage [] = none := rfl

@[simp] theorem relayUsage_snoc (es : List RelayEvent) (ev : RelayEvent) :
    relayUsage (es ++ [ev]) = noted (relayUsage es) ev := by simp [relayUsage]

/-- What a connection does to `USAGE`, by the steps it has taken. -/
inductive UsageStep (id : String) (es : List RelayEvent) (ev : RelayEvent) : Prop where
  | enter (hidle : relayUsage es = none) (hop : ev.op = .enter id)
      (hpost : ev.post.usage = ev.pre.usage.insert id (0, 0, 0, 0))
  | sample {u} (hrunning : (relayUsage es).isSome) (hop : ev.op = .usage id)
      (hpost : ev.post.usage = ev.pre.usage.insert id u)
  | leave (hrunning : (relayUsage es).isSome) (hop : ev.op = .leave id)
      (hpost : ev.post.usage = ev.pre.usage.erase id)
  | other (hop : ∀ id', ev.op ≠ .enter id' ∧ ev.op ≠ .usage id' ∧ ev.op ≠ .leave id')
      (hpost : ev.post.usage = ev.pre.usage)

section
variable {id : String} {es : List RelayEvent} {ev : RelayEvent}

theorem noted_of_other (hop : ∀ id', ev.op ≠ .enter id' ∧ ev.op ≠ .usage id' ∧ ev.op ≠ .leave id')
    (before : Option Usage) : noted before ev = before := by
  unfold noted
  split
  · rename_i id' h
    exact ((hop id').1 h).elim
  · rename_i id' h
    exact ((hop id').2.1 h).elim
  · rename_i id' h
    exact ((hop id').2.2 h).elim
  · rfl

/-- A step of the loop, while the relay is running. -/
theorem InLoop.usageStep (h : InLoop id ev) (hrunning : (relayUsage es).isSome) :
    UsageStep id es ev ∧ (relayUsage (es ++ [ev])).isSome := by
  obtain ⟨op, e, s, s'⟩ := ev
  rw [relayUsage_snoc]
  cases op with
  | usage id' =>
      obtain ⟨rfl, u, hpost⟩ := h
      dsimp only at hpost
      subst hpost
      exact ⟨.sample hrunning rfl rfl, by simp [noted]⟩
  | _ =>
      first
        | exact h.elim
        | exact ⟨.other (by simp) (congrArg RelayShared.usage h), hrunning⟩

end

theorem runRelay_usage (cfg : RelayConfig) (job : RelayJob) (stream peer : RelayStream)
    {es : List RelayEvent} (hidle : relayUsage es = none) :
    (runRelay cfg job.addr job.outcomes stream peer).Heeds (UsageStep job.usageId)
      (fun es _ => relayUsage es = none) es := by
  refine fun e s => ⟨.enter hidle rfl rfl, fun e₁ s₁ => ⟨.other (by simp) rfl, ?_⟩⟩
  refine ((relay_steps cfg job.addr job.usageId _ []).extend
    (J := fun es => (relayUsage es).isSome) ?_ fun es ev hrunning hev =>
      hev.usageStep hrunning).bind fun es _ hrunning e₂ s₂ => ⟨.leave hrunning rfl rfl, ?_⟩
  · rw [relayUsage_snoc, relayUsage_snoc]
    rfl
  · show relayUsage (es ++ [_]) = none
    rw [relayUsage_snoc]
    rfl

theorem makePair_usage (cfg : RelayConfig) (conn : ConnId) (job : RelayJob) :
    (makePair_ cfg conn job).Heeds (UsageStep job.usageId)
      (fun es _ => relayUsage es = none) [] := by
  refine Task.Heeds.look_bind fun e s => ⟨.other (by simp) rfl, ?_⟩
  cases job.first.bind cfg.request with
  | none => rfl
  | some rf =>
      show Task.Heeds _ _ (if cfg.key ≠ "" && rf.licenceKey ≠ cfg.key then _ else _) _
      split
      · rfl
      · split
        · refine Task.Heeds.act_bind fun e₁ s₁ => ⟨.other (by simp) rfl, ?_⟩
          cases s₁.peers.lookup rf.uuid with
          | some peer => exact runRelay_usage cfg job _ peer rfl
          | none =>
              refine fun e₂ s₂ => ⟨.other (by simp) rfl, fun e₃ s₃ => ⟨.other (by simp) rfl,
                fun e₄ s₄ => ⟨.other (by simp) rfl, ?_⟩⟩⟩
              rfl
        · rfl

/-! ## The table in a run -/

/-- The table has exactly one entry for each relay that is running, with the
relay's own last numbers. -/
structure Mirrors (jobs : ConnId → RelayJob) (es : List (ConnId × RelayEvent))
    (usage : HashMap String Usage) : Prop where
  entry : ∀ id u, usage.lookup id = some u
    ↔ ∃ i, (jobs i).usageId = id ∧ relayUsage (own i es) = some u
  one : ∀ i j, (relayUsage (own i es)).isSome → (relayUsage (own j es)).isSome →
    (jobs i).usageId = (jobs j).usageId → i = j

/-- No relay is entered under the key of one that is running. -/
def KeysApart (jobs : ConnId → RelayJob) (es : List (ConnId × RelayEvent)) : Prop :=
  ∀ es₁ i ev es₂ id, es = es₁ ++ (i, ev) :: es₂ → ev.op = .enter id →
    ∀ j, (relayUsage (own j es₁)).isSome → (jobs j).usageId ≠ id

section
variable {cfg : RelayConfig} {jobs : ConnId → RelayJob} {s : RelayShared}
  {es es' : List (ConnId × RelayEvent)} {q : Pool ConnId Env RelayOp RelayShared fun _ => Unit}
  {i : ConnId} {ev : RelayEvent}

theorem KeysApart.take (h : KeysApart jobs (es ++ es')) : KeysApart jobs es :=
  fun es₁ i ev es₂ id hes => h es₁ i ev (es₂ ++ es') id (by simp [hes])

theorem relayUsage_own (j i : ConnId) (es : List (ConnId × RelayEvent)) (ev : RelayEvent) :
    relayUsage (own j (es ++ [(i, ev)]))
      = if j = i then noted (relayUsage (own i es)) ev else relayUsage (own j es) := by
  by_cases hij : j = i
  · subst hij
    simp
  · simp [own_other (Ne.symm hij), hij]

/-- A step of `i` on its own entry, which no other relay that is running
has. -/
theorem Mirrors.step (h : Mirrors jobs es ev.pre.usage)
    (hothers : ∀ id, id ≠ (jobs i).usageId →
      ev.post.usage.lookup id = ev.pre.usage.lookup id)
    (hself : ev.post.usage.lookup (jobs i).usageId = noted (relayUsage (own i es)) ev)
    (hapart : ∀ j, j ≠ i → (relayUsage (own j es)).isSome →
      (jobs j).usageId ≠ (jobs i).usageId) :
    Mirrors jobs (es ++ [(i, ev)]) ev.post.usage := by
  constructor
  · intro id u
    by_cases hid : id = (jobs i).usageId
    · -- the entry of connection `i`: no other running relay has its key
      subst hid
      rw [hself]
      constructor
      · intro hu
        exact ⟨i, rfl, by rw [relayUsage_own, if_pos rfl, hu]⟩
      · rintro ⟨j, hj, hu⟩
        rw [relayUsage_own] at hu
        split at hu
        · exact hu
        · rename_i hij
          exact (hapart j hij (by rw [hu]; rfl) hj).elim
    · rw [hothers id hid, h.entry id u]
      apply exists_congr
      intro j
      rw [relayUsage_own]
      split
      · rename_i hij
        subst hij
        simp [Ne.symm hid]
      · exact Iff.rfl
  · intro j j' hj hj' hkey
    rw [relayUsage_own] at hj hj'
    split at hj
    · rename_i hji
      subst hji
      split at hj'
      · rename_i hj'i
        exact hj'i.symm
      · rename_i hj'i
        exact (hapart j' hj'i hj' hkey.symm).elim
    · rename_i hji
      split at hj'
      · rename_i hj'i
        subst hj'i
        exact (hapart j hji hj hkey).elim
      · exact h.one j j' hj hj' hkey

/-- **The step.** -/
theorem Mirrors.usageStep (h : Mirrors jobs es ev.pre.usage)
    (hstep : UsageStep (jobs i).usageId (own i es) ev)
    (hapart : KeysApart jobs (es ++ [(i, ev)])) :
    Mirrors jobs (es ++ [(i, ev)]) ev.post.usage := by
  have hone (hrunning : (relayUsage (own i es)).isSome) (j : ConnId) (hij : j ≠ i)
      (hj : (relayUsage (own j es)).isSome) : (jobs j).usageId ≠ (jobs i).usageId :=
    fun hkey => hij (h.one j i hj hrunning hkey)
  cases hstep with
  | enter hidle hop hpost =>
      refine h.step (fun id hid => ?_) ?_ fun j _ hj => hapart es i ev [] _ rfl hop j hj
      · rw [hpost, AList.lookup_insert_ne hid]
      · rw [hpost, AList.lookup_insert, noted, hop]
  | sample hrunning hop hpost =>
      refine h.step (fun id hid => ?_) ?_ (hone hrunning)
      · rw [hpost, AList.lookup_insert_ne hid]
      · rw [noted, hop]
  | leave hrunning hop hpost =>
      refine h.step (fun id hid => ?_) ?_ (hone hrunning)
      · rw [hpost, AList.lookup_erase_ne hid]
      · rw [hpost, AList.lookup_erase, noted, hop]
  | other hop hpost =>
      have hsame (j : ConnId) : relayUsage (own j (es ++ [(i, ev)])) = relayUsage (own j es) := by
        rw [relayUsage_own, noted_of_other hop]
        split
        · rename_i hij
          rw [hij]
        · rfl
      constructor
      · intro id u
        simp only [hsame, hpost]
        exact h.entry id u
      · intro j j'
        simp only [hsame]
        exact h.one j j'

theorem mirrors_of_keysApart (h : (relayServer cfg jobs s).Run es q) (hs : s.usage = ∅)
    (hapart : KeysApart jobs es) : Mirrors jobs es q.shared.usage := by
  refine h.heeds_invariant (J := fun es s => KeysApart jobs es → Mirrors jobs es s.usage)
    (fun i => makePair_usage cfg i (jobs i)) ?_ ?_ hapart
  · intro _
    show Mirrors jobs [] s.usage
    rw [hs]
    exact ⟨fun id u => by simp, fun i j hi => by simp at hi⟩
  · intro es i ev hheeded ih hapart
    exact (ih hapart.take).usageStep (hheeded es i ev [] rfl) hapart

theorem relayUsage_none_of_other {es : List RelayEvent}
    (h : ∀ ev ∈ es, ∀ id, ev.op ≠ .enter id ∧ ev.op ≠ .usage id ∧ ev.op ≠ .leave id) :
    relayUsage es = none := by
  induction es using List.reverseRecOn with
  | nil => rfl
  | append_singleton es ev ih =>
      rw [relayUsage_snoc, noted_of_other (h ev (by simp))]
      exact ih fun ev' hev' => h ev' (by simp [hev'])

/-- The first relay of a server is entered under no other's key. -/
theorem keysApart_of_first
    (h : ∀ x ∈ es, ∀ id, x.2.op ≠ .enter id ∧ x.2.op ≠ .usage id ∧ x.2.op ≠ .leave id) :
    KeysApart jobs (es ++ [(i, ev)]) := by
  intro es₁ i' ev' es₂ id hes hop j hj
  have hprefix : ∃ es₃, es = es₁ ++ es₃ := by
    cases es₂ using List.reverseRecOn with
    | nil => exact ⟨[], by simpa using (List.append_inj_left' hes rfl)⟩
    | append_singleton es₂ y =>
        rw [← List.cons_append, ← List.append_assoc] at hes
        exact ⟨_, List.append_inj_left' hes rfl⟩
  obtain ⟨es₃, rfl⟩ := hprefix
  rw [relayUsage_none_of_other] at hj
  · simp at hj
  · intro ev'' hev''
    exact h (j, ev'') (List.mem_append_left _ (mem_own.mp hev''))

end

def proxyConfig : RelayConfig where
  x := .sample [([0], .requestRelay { uuid := "one" }), ([1], .requestRelay { uuid := "other" })]
  downgradeThreshold := fun _ _ => 0

def proxyJobs (conn : ConnId) : RelayJob where
  isWs := true
  addr := ⟨.v4 1, 0⟩
  first := some (if conn < 2 then [0] else [1])
  outcomes := []

/-- Both relays start, and the first one ends. -/
def proxySchedule : List (ConnId × Env) :=
  atSeconds [(0, 0), (0, 0), (0, 0), (2, 0), (2, 0), (2, 0), (1, 1), (1, 1), (1, 1), (3, 2), (3, 2),
    (3, 2), (1, 3), (1, 3), (1, 3), (1, 3)]

end KustDesk
