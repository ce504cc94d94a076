import KustDesk.IpLimits

/-!
# KustDesk — IdQuota

The quota of ids, in the period from the call that makes or clears the set of
an IP to the next one that clears it. All calls of a period record the id they
admit, but for the one that opens it.
-/

namespace KustDesk

open Async

/-- The ids recorded for an IP. -/
def IpBlockMap.ids (m : IpBlockMap) (ip : String) : Finset String :=
  ((m.lookup ip).map fun v => v.2.1).getD ∅

/-- The attempts are not what refuses this call. -/
def IpBlockMap.Lets (m : IpBlockMap) (now : Instant) (ip : String) : Prop :=
  ∃ n last ids, m.lookup ip = some ((n, last), ids) ∧ (Rested last now ∨ n ≤ 30)

namespace BlockerCall

/-- The call clears the set of ids of this IP. -/
def Clears (ip : String) (y : IpBlockMap × BlockerCall) : Prop :=
  ∃ now id n last ids since, y.2 = check now ip id
    ∧ y.1.lookup ip = some ((n, last), (ids, since)) ∧ (Rested last now ∨ n ≤ 30)
    ∧ dayOver since now

/-- The call makes the set of ids of this IP, or clears it. -/
def Opens (ip : String) (y : IpBlockMap × BlockerCall) : Prop :=
  (∃ now id, y.2 = check now ip id ∧ y.1.lookup ip = none) ∨ Clears ip y

/-- The call clears a set that does not have its own id. -/
def OpensRecorded (ip : String) (y : IpBlockMap × BlockerCall) : Prop :=
  Clears ip y ∧ ∃ now id, y.2 = check now ip id ∧ id ∉ y.1.ids ip

/-- The id of a call for this IP that returns true. -/
def admitted (ip : String) (y : IpBlockMap × BlockerCall) : Option String :=
  match y.2 with
  | check now ip' id => if ip' = ip ∧ (y.1.check now ip' id).1 = true then some id else none
  | command .. => none

theorem admitted_check {m : IpBlockMap} {now : Instant} {ip id : String}
    (hok : (m.check now ip id).1 = true) : admitted ip (m, check now ip id) = some id :=
  if_pos ⟨rfl, hok⟩

theorem admitted_eq_some {ip id : String} {y : IpBlockMap × BlockerCall}
    (h : admitted ip y = some id) :
    ∃ now, y.2 = check now ip id ∧ (y.1.check now ip id).1 = true := by
  obtain ⟨m, c⟩ := y
  cases c with
  | command now fds => cases h
  | check now ip' id' =>
      by_cases hok : ip' = ip ∧ (m.check now ip' id').1 = true
      · have hsome : admitted ip (m, check now ip' id') = some id' := if_pos hok
        obtain ⟨rfl, hok⟩ := hok
        cases hsome.symm.trans h
        exact ⟨now, rfl, hok⟩
      · have hnone : admitted ip (m, check now ip' id') = none := if_neg hok
        cases hnone.symm.trans h

end BlockerCall

/-- A period of an IP: the call that opens it, and calls that do not clear. -/
structure IdPeriod (ip : String) (y : IpBlockMap × BlockerCall)
    (rest : List (IpBlockMap × BlockerCall)) : Prop where
  opens : BlockerCall.Opens ip y
  checks : ∀ y' ∈ rest, ∃ now ip' id, y'.2 = .check now ip' id
  same : ∀ y' ∈ rest, ¬ BlockerCall.Clears ip y'

/-- What the quota is to do in a period. -/
structure QuotaKept (ip : String) (period : List (IpBlockMap × BlockerCall)) : Prop where
  /-- An id is recorded when the call returns that admits it. -/
  recorded : ∀ m now id, (m, BlockerCall.check now ip id) ∈ period →
    (m.check now ip id).1 = true → id ∈ (m.check now ip id).2.ids ip
  distinct : (period.filterMap (BlockerCall.admitted ip)).toFinset.card ≤ 301
  /-- An id that was admitted is not refused for the quota. -/
  stays : ∀ l₁ m now id l₂ m' now', period = l₁ ++ (m, BlockerCall.check now ip id) :: l₂ →
    (m.check now ip id).1 = true → (m', BlockerCall.check now' ip id) ∈ l₂ →
    m'.Lets now' ip → (m'.check now' ip id).1 = true

/-! ## A call within a period -/

@[simp] theorem IpBlockMap.ids_insert (m : IpBlockMap) (ip : String) (v : Nat × Instant)
    (ids : Finset String) (since : Instant) :
    IpBlockMap.ids (m.insert ip (v, (ids, since))) ip = ids := by
  rw [IpBlockMap.ids, AList.lookup_insert]
  rfl

theorem IpBlockMap.ids_of_lookup {m : IpBlockMap} {ip : String} {v : Nat × Instant}
    {ids : Finset String} {since : Instant} (h : m.lookup ip = some (v, (ids, since))) :
    m.ids ip = ids := by
  rw [IpBlockMap.ids, h]
  rfl

/-- All ids that were admitted are in the set, and it is not too large. -/
structure Recorded (ip : String) (log : List (IpBlockMap × BlockerCall)) (m : IpBlockMap) :
    Prop where
  made : m.lookup ip ≠ none
  card : (m.ids ip).card ≤ 301
  mem : ∀ id ∈ log.filterMap (BlockerCall.admitted ip), id ∈ m.ids ip

namespace Recorded

variable {ip ip' id : String} {log : List (IpBlockMap × BlockerCall)} {m m' : IpBlockMap}
  {now : Instant} {ok : Bool}

theorem check (h : Recorded ip log m) (hcheck : m.Checked now ip id ok m')
    (hclears : ¬ BlockerCall.Clears ip (m, .check now ip id)) :
    m'.lookup ip ≠ none ∧ (m'.ids ip).card ≤ 301 ∧ m.ids ip ⊆ m'.ids ip
      ∧ (ok = true → id ∈ m'.ids ip) ∧ (id ∈ m.ids ip → m.Lets now ip → ok = true) := by
  have hcard := h.card
  cases hcheck with
  | created hlookup => exact (h.made hlookup).elim
  | @refused n last ids hlookup hlast hn =>
      refine ⟨h.made, hcard, subset_rfl, by simp, fun _ hlets => ?_⟩
      obtain ⟨n', last', ids', hlookup', hgo⟩ := hlets
      cases hlookup.symm.trans hlookup'
      rcases hgo with hrested | hle
      · exact (hlast hrested).elim
      · omega
  | @cleared n last ids since hlookup hgo hday =>
      exact (hclears ⟨now, id, n, last, ids, since, rfl, hlookup, hgo, hday⟩).elim
  | @full n last ids since hlookup =>
      rw [IpBlockMap.ids_of_lookup hlookup] at hcard ⊢
      rw [IpBlockMap.ids_insert]
      refine ⟨by simp, hcard, subset_rfl, by simp, fun hmem _ => by simpa using hmem⟩
  | @recorded n last ids since hlookup _ _ hroom =>
      rw [IpBlockMap.ids_of_lookup hlookup, IpBlockMap.ids_insert]
      have hinsert := Finset.card_insert_le id ids
      refine ⟨by simp, by omega, Finset.subset_insert _ _, by simp, fun _ _ => rfl⟩

/-- The set covers all that was admitted, so the quota is kept. -/
theorem distinct (h : Recorded ip log m) :
    (log.filterMap (BlockerCall.admitted ip)).toFinset.card ≤ 301 := by
  refine (Finset.card_le_card fun id hid => ?_).trans h.card
  exact h.mem id (List.mem_toFinset.mp hid)

theorem snoc (h : Recorded ip log m) (hquota : QuotaKept ip log)
    (hclears : ¬ BlockerCall.Clears ip (m, .check now ip' id)) :
    Recorded ip (log ++ [(m, .check now ip' id)]) (m.check now ip' id).2
      ∧ QuotaKept ip (log ++ [(m, .check now ip' id)]) := by
  have hchecked := m.check_checked now ip' id
  -- what the call does to the set of this IP, whichever IP it is for
  have hset : (m.check now ip' id).2.lookup ip ≠ none ∧ ((m.check now ip' id).2.ids ip).card ≤ 301
      ∧ m.ids ip ⊆ (m.check now ip' id).2.ids ip := by
    by_cases hip : ip' = ip
    · subst hip
      obtain ⟨hmade, hcard, hsub, -, -⟩ := h.check hchecked hclears
      exact ⟨hmade, hcard, hsub⟩
    · have hlookup := hchecked.lookup_ne (Ne.symm hip)
      rw [IpBlockMap.ids, hlookup]
      exact ⟨h.made, h.card, subset_rfl⟩
  have hown (hip : ip' = ip) (hok : (m.check now ip' id).1 = true) :
      id ∈ (m.check now ip' id).2.ids ip := by
    subst hip
    obtain ⟨-, -, -, hmem, -⟩ := h.check hchecked hclears
    exact hmem hok
  have hrecorded : Recorded ip (log ++ [(m, .check now ip' id)]) (m.check now ip' id).2 := by
    refine ⟨hset.1, hset.2.1, fun id' hid' => ?_⟩
    rw [List.filterMap_append, List.mem_append] at hid'
    rcases hid' with hid' | hid'
    · exact hset.2.2 (h.mem id' hid')
    · obtain ⟨y, hy, hadmitted⟩ := List.mem_filterMap.mp hid'
      cases List.mem_singleton.mp hy
      obtain ⟨now', hcall, hok⟩ := BlockerCall.admitted_eq_some hadmitted
      cases hcall
      exact hown rfl hok
  refine ⟨hrecorded, ?_, hrecorded.distinct, ?_⟩
  · intro m' now' id' hmem hok
    rcases List.mem_append.mp hmem with hmem | hmem
    · exact hquota.recorded m' now' id' hmem hok
    · cases List.mem_singleton.mp hmem
      exact hown rfl hok
  · intro l₁ m₁ now₁ id₁ l₂ m₂ now₂ hsplit hok hmem hlets
    rcases snoc_eq_split hsplit with ⟨-, -, rfl⟩ | ⟨l₃, hlog, rfl⟩
    · simp at hmem
    · rcases List.mem_append.mp hmem with hmem | hmem
      · exact hquota.stays l₁ m₁ now₁ id₁ l₃ m₂ now₂ hlog hok hmem hlets
      · -- the id was admitted before, so it is in the set by now
        cases List.mem_singleton.mp hmem
        obtain ⟨-, -, -, -, hstays⟩ := h.check hchecked hclears
        refine hstays (h.mem _ ?_) hlets
        rw [hlog]
        exact List.mem_filterMap.mpr ⟨_, by simp, BlockerCall.admitted_check hok⟩

end Recorded

/-! ## The whole period -/

/-- What the opening call leaves: its own id, or nothing. -/
theorem BlockerCall.Opens.checked {ip id : String} {m : IpBlockMap} {now : Instant}
    (h : Opens ip (m, check now ip id)) :
    (m.check now ip id).1 = true ∧ (m.check now ip id).2.lookup ip ≠ none
      ∧ ((m.check now ip id).2.ids ip ⊆ {id})
      ∧ (id ∈ (m.check now ip id).2.ids ip ↔ OpensRecorded ip (m, check now ip id)) := by
  have hopens : m.lookup ip = none ∨ ∃ n last ids since,
      m.lookup ip = some ((n, last), (ids, since)) ∧ (Rested last now ∨ n ≤ 30)
        ∧ dayOver since now := by
    rcases h with ⟨_, _, hcall, hnone⟩ | ⟨_, _, n, last, ids, since, hcall, hlookup, hgo, hday⟩
    · exact .inl hnone
    · cases hcall
      exact .inr ⟨n, last, ids, since, hlookup, hgo, hday⟩
  have hchecked := m.check_checked now ip id
  generalize (m.check now ip id).1 = ok at hchecked ⊢
  generalize (m.check now ip id).2 = m' at hchecked ⊢
  cases hchecked with
  | created hlookup =>
      rw [IpBlockMap.ids_insert]
      refine ⟨rfl, by simp, by simp, ?_⟩
      constructor
      · intro hmem
        simp at hmem
      · rintro ⟨⟨now', id', n, last, ids, since, -, hlookup', -⟩, -⟩
        cases hlookup.symm.trans hlookup'
  | @cleared n last ids since hlookup hgo hday =>
      rw [IpBlockMap.ids_insert]
      refine ⟨rfl, by simp, by split <;> simp, ?_⟩
      have hiff : OpensRecorded ip (m, check now ip id) ↔ id ∉ ids := by
        rw [← IpBlockMap.ids_of_lookup hlookup]
        constructor
        · rintro ⟨-, now', id', hcall, hid⟩
          cases hcall
          exact hid
        · exact fun hid => ⟨⟨now, id, n, last, ids, since, rfl, hlookup, hgo, hday⟩,
            now, id, rfl, hid⟩
      rw [hiff]
      split
      · simpa
      · simpa
  | refused hlookup hlast hn =>
      rcases hopens with hnone | ⟨n', last', ids', since', hlookup', hgo, -⟩
      · cases hlookup.symm.trans hnone
      · cases hlookup.symm.trans hlookup'
        rcases hgo with hrested | hle
        · exact (hlast hrested).elim
        · omega
  | full hlookup hgo hday =>
      rcases hopens with hnone | ⟨n', last', ids', since', hlookup', -, hday'⟩
      · cases hlookup.symm.trans hnone
      · cases hlookup.symm.trans hlookup'
        exact (hday hday').elim
  | recorded hlookup hgo hday =>
      rcases hopens with hnone | ⟨n', last', ids', since', hlookup', -, hday'⟩
      · cases hlookup.symm.trans hnone
      · cases hlookup.symm.trans hlookup'
        exact (hday hday').elim

/-- Behind an opening call that has recorded its id, a run of calls that do not
clear keeps the quota. -/
theorem Recorded.run {ip : String} {log₁ log₂ : List (IpBlockMap × BlockerCall)}
    {m m' : IpBlockMap} (h : Recorded ip log₁ m) (hquota : QuotaKept ip log₁)
    (hrun : Logged BlockerCall.Step m log₂ m')
    (hchecks : ∀ y ∈ log₂, ∃ now ip' id, y.2 = .check now ip' id)
    (hsame : ∀ y ∈ log₂, ¬ BlockerCall.Clears ip y) : QuotaKept ip (log₁ ++ log₂) := by
  suffices hJ : Recorded ip (log₁ ++ log₂) m' ∧ QuotaKept ip (log₁ ++ log₂) from hJ.2
  induction hrun with
  | start => simpa using ⟨h, hquota⟩
  | @step log₂ m₂ c m₃ hrun hstep ih =>
      obtain ⟨hrecorded, hquota'⟩ := ih (fun y hy => hchecks y (by simp [hy]))
        fun y hy => hsame y (by simp [hy])
      obtain ⟨now, ip', id, hcall⟩ := hchecks (m₂, c) (by simp)
      dsimp only at hcall
      subst hcall
      rw [show m₃ = (m₂.check now ip' id).2 from hstep, ← List.append_assoc]
      exact hrecorded.snoc hquota' (hsame _ (by simp))

/-- **The quota of ids.** In a period of a run, the ids admitted are those
recorded, so that they are 301 at most and none is refused later, just if the
period opens with a call that clears a set without its own id. -/
theorem quota_kept_iff {m m' : IpBlockMap} {log log₁ period log₂ : List (IpBlockMap × BlockerCall)}
    {y : IpBlockMap × BlockerCall} {ip : String} (hrun : Logged BlockerCall.Step m log m')
    (hlog : log = log₁ ++ (y :: period ++ log₂)) (hperiod : IdPeriod ip y period) :
    QuotaKept ip (y :: period) ↔ BlockerCall.OpensRecorded ip y := by
  subst hlog
  obtain ⟨m₁, -, hrun⟩ := hrun.split
  obtain ⟨m₂, hrun, -⟩ := hrun.split
  obtain ⟨m₃, hfirst, hrest⟩ :=
    (show Logged BlockerCall.Step m₁ ([y] ++ period) m₂ from hrun).split
  obtain ⟨m₀, c⟩ := y
  obtain ⟨rfl, hstep⟩ := hfirst.single
  have hcall : ∃ now id, c = .check now ip id := by
    rcases hperiod.opens with ⟨now, id, hcall, -⟩ | ⟨now, id, _, _, _, _, hcall, -⟩
    · exact ⟨now, id, hcall⟩
    · exact ⟨now, id, hcall⟩
  obtain ⟨now, id, rfl⟩ := hcall
  obtain ⟨hok, hmade, hsub, hiff⟩ := hperiod.opens.checked
  have hm₃ : m₃ = (m₀.check now ip id).2 := hstep
  constructor
  · intro hkept
    exact hiff.mp (hkept.recorded m₀ now id (by simp) hok)
  · intro hopens
    have hfirst : Recorded ip [(m₀, .check now ip id)] m₃ := by
      rw [hm₃]
      refine ⟨hmade, (Finset.card_le_card hsub).trans (by simp), fun id' hid' => ?_⟩
      rw [List.filterMap_cons_some (BlockerCall.admitted_check hok)] at hid'
      cases List.mem_singleton.mp hid'
      exact hiff.mpr hopens
    refine hfirst.run ⟨?_, hfirst.distinct, ?_⟩ hrest hperiod.checks hperiod.same
    · intro m' now' id' hmem _
      cases List.mem_singleton.mp hmem
      exact hiff.mpr hopens
    · intro l₁ m' now' id' l₂ m'' now'' hsplit _ hmem _
      -- nothing comes after the only call
      have hlength := congrArg List.length hsplit
      cases l₂ with
      | nil => simp at hmem
      | cons y l₂ =>
          simp only [List.length_cons, List.length_nil, List.length_append] at hlength
          omega

theorem not_clears {m : IpBlockMap} {now : Instant} {ip id : String} (since : Instant)
    (h : (m.lookup ip).map (fun v => v.2.2) = some since) (hday : ¬ dayOver since now) :
    ¬ BlockerCall.Clears ip (m, .check now ip id) := by
  rintro ⟨now', id', n, last, ids, since', hcall, hlookup, -, hday'⟩
  cases hcall
  rw [hlookup] at h
  cases h
  exact hday hday'

/-- An id, more than a day later another one, then a third one and the second
again. -/
def twoDays : List (IpBlockMap × BlockerCall) :=
  (blockerLog ∅ [.check 0 "0.0.0.1" "123456", .check 86401000000000 "0.0.0.1" "654321",
    .check 86402000000000 "0.0.0.1" "111111", .check 86403000000000 "0.0.0.1" "654321"]).1

/-- The second call clears the set and records its id, as do those after it. -/
theorem quota_kept_iff_second : ∃ y later, twoDays = [(∅, .check 0 "0.0.0.1" "123456")]
      ++ (y :: later ++ [])
    ∧ later.filterMap (BlockerCall.admitted "0.0.0.1") = ["111111", "654321"]
    ∧ QuotaKept "0.0.0.1" (y :: later) := by
  refine ⟨_, [_, _], rfl, rfl, (quota_kept_iff (blockerLog_run ∅ _)
    (show twoDays = [(∅, .check 0 "0.0.0.1" "123456")] ++ (_ :: [_, _] ++ []) from rfl)
    ⟨.inr ?_, ?_, ?_⟩).mpr ⟨?_, ?_⟩⟩
  · exact ⟨_, _, _, _, _, _, rfl, rfl, .inl (by decide), by unfold dayOver; decide⟩
  · rw [List.forall_mem_cons, List.forall_mem_singleton]
    exact ⟨⟨_, _, _, rfl⟩, _, _, _, rfl⟩
  · rw [List.forall_mem_cons, List.forall_mem_singleton]
    constructor
    · exact not_clears 86401000000000 rfl (by unfold dayOver; decide)
    · exact not_clears 86402000000000 rfl (by unfold dayOver; decide)
  · exact ⟨_, _, _, _, _, _, rfl, rfl, .inl (by decide), by unfold dayOver; decide⟩
  · exact ⟨_, _, rfl, by decide⟩

/-- The very first id of an IP is admitted and not recorded. -/
theorem first_id_unrecorded :
    Logged BlockerCall.Step ∅ [(∅, .check 0 "0.0.0.1" "123456")]
        (IpBlockMap.check ∅ 0 "0.0.0.1" "123456").2
      ∧ IdPeriod "0.0.0.1" (∅, .check 0 "0.0.0.1" "123456") []
      ∧ (IpBlockMap.check ∅ 0 "0.0.0.1" "123456").1 = true
      ∧ (IpBlockMap.check ∅ 0 "0.0.0.1" "123456").2.ids "0.0.0.1" = ∅
      ∧ ¬ QuotaKept "0.0.0.1" [(∅, .check 0 "0.0.0.1" "123456")] := by
  refine ⟨Logged.start.step rfl, ⟨.inl ⟨_, _, rfl, rfl⟩, by simp, by simp⟩, rfl, rfl, fun h => ?_⟩
  have hmem := h.recorded ∅ 0 "123456" (by simp) rfl
  have hempty : (IpBlockMap.check ∅ 0 "0.0.0.1" "123456").2.ids "0.0.0.1" = ∅ := rfl
  rw [hempty] at hmem
  exact Finset.notMem_empty _ hmem

end KustDesk
