import KustDesk.CheckCmd
import KustDesk.Async.Limiter

/-!
# KustDesk — IpLimits

The two limits of `check_ip_blocker`: how often an IP may try, and how many
ids it may register in a day. The first holds over any run of calls and
queries. The second counts an id where it is recorded, and the call that opens
a period need not record its own.
-/

namespace KustDesk

open Async

/-- 61 seconds. -/
def blockPause : Nat := 61000000000

/-- `as_secs() > IP_BLOCK_DUR` of the time since the last attempt. -/
def Rested (last now : Nat) : Prop := last + blockPause ≤ now

instance (last now : Nat) : Decidable (Rested last now) :=
  inferInstanceAs (Decidable (last + blockPause ≤ now))

/-- `as_secs() > DAY_SECONDS` of the time since. -/
def dayOver (since now : Instant) : Prop :=
  Instant.asSecs (Instant.elapsed now since) > daySeconds

/-- The attempts of an IP, with the one at `now`. -/
def tally (n last now : Nat) : Nat := (if Rested last now then 0 else n) + 1

theorem rested_iff (last now : Nat) :
    Instant.asSecs (Instant.elapsed now last) > ipBlockDur ↔ Rested last now := by
  unfold Instant.asSecs Instant.elapsed ipBlockDur Rested blockPause
  omega

/-! ## One call -/

/-- What `check_ip_blocker` comes to. -/
inductive IpBlockMap.Checked (m : IpBlockMap) (now : Instant) (ip id : String) :
    Bool → IpBlockMap → Prop
  | created (h : m.lookup ip = none) :
      Checked m now ip id true (m.insert ip ((0, now), (∅, now)))
  | refused {n last ids} (h : m.lookup ip = some ((n, last), ids)) (hlast : ¬ Rested last now)
      (hn : 30 < n) : Checked m now ip id false m
  | cleared {n last ids since} (h : m.lookup ip = some ((n, last), (ids, since)))
      (hgo : Rested last now ∨ n ≤ 30) (hday : dayOver since now) :
      Checked m now ip id true
        (m.insert ip ((tally n last now, now), (if id ∈ ids then ∅ else {id}, now)))
  | full {n last ids since} (h : m.lookup ip = some ((n, last), (ids, since)))
      (hgo : Rested last now ∨ n ≤ 30) (hday : ¬ dayOver since now)
      (hfull : 300 < ids.card) :
      Checked m now ip id (decide (id ∈ ids))
        (m.insert ip ((tally n last now, now), (ids, since)))
  | recorded {n last ids since} (h : m.lookup ip = some ((n, last), (ids, since)))
      (hgo : Rested last now ∨ n ≤ 30) (hday : ¬ dayOver since now)
      (hroom : ids.card ≤ 300) :
      Checked m now ip id true
        (m.insert ip ((tally n last now, now), (insert id ids, now)))

theorem IpBlockMap.check_checked (m : IpBlockMap) (now : Instant) (ip id : String) :
    m.Checked now ip id (m.check now ip id).1 (m.check now ip id).2 := by
  unfold check
  cases hlookup : m.lookup ip with
  | none => exact .created hlookup
  | some v =>
      obtain ⟨⟨n, last⟩, ids, since⟩ := v
      simp only [rested_iff]
      by_cases hrefused : ¬ Rested last now ∧ n > 30
      · rw [if_pos hrefused]
        exact .refused hlookup hrefused.1 hrefused.2
      · rw [if_neg hrefused]
        have hgo : Rested last now ∨ n ≤ 30 := by
          by_cases hrested : Rested last now
          · exact .inl hrested
          · exact .inr (Nat.le_of_not_lt fun hn => hrefused ⟨hrested, hn⟩)
        by_cases hday : Instant.asSecs (Instant.elapsed now since) > daySeconds
        · rw [if_pos hday]
          exact .cleared hlookup hgo hday
        · rw [if_neg hday]
          by_cases hfull : ids.card > 300
          · rw [if_pos hfull]
            exact .full hlookup hgo hday hfull
          · rw [if_neg hfull]
            exact .recorded hlookup hgo hday (by omega)

/-- Other IPs are left alone. -/
theorem IpBlockMap.Checked.lookup_ne {m m' : IpBlockMap} {now : Instant} {ip ip' id : String}
    {ok : Bool} (h : m.Checked now ip id ok m') (hne : ip' ≠ ip) : m'.lookup ip' = m.lookup ip' := by
  cases h with
  | refused => rfl
  | created => exact AList.lookup_insert_ne hne
  | cleared => exact AList.lookup_insert_ne hne
  | full => exact AList.lookup_insert_ne hne
  | recorded => exact AList.lookup_insert_ne hne

/-! ## Runs of calls and commands -/

/-- What is done to `IP_BLOCKER`: a call of `check_ip_blocker`, or the command
`ip-blocker` with its arguments. -/
inductive BlockerCall where
  | check (now : Instant) (ip id : String)
  | command (now : Instant) (fds : List String)

namespace BlockerCall

def now : BlockerCall → Instant
  | check now _ _ => now
  | command now _ => now

/-- A command has no `-` behind its key. -/
def Queries : BlockerCall → Prop
  | check .. => True
  | command _ fds => fds[1]? ≠ some "-"

instance : DecidablePred Queries
  | check .. => isTrue trivial
  | command _ fds => inferInstanceAs (Decidable (fds[1]? ≠ some "-"))

/-- The table after it. -/
def apply (m : IpBlockMap) : BlockerCall → IpBlockMap
  | check now ip id => (m.check now ip id).2
  | command now fds => (m.command now fds).2

def Step (m : IpBlockMap) (c : BlockerCall) (m' : IpBlockMap) : Prop := m' = c.apply m

/-- The time of a call for this IP that returns true. -/
def admits (ip : String) (y : IpBlockMap × BlockerCall) : Option Instant :=
  match y.2 with
  | check now ip' id => if ip' = ip ∧ (y.1.check now ip' id).1 = true then some now else none
  | command .. => none

theorem admits_check (m : IpBlockMap) (now : Instant) (ip ip' id : String) :
    [(m, check now ip' id)].filterMap (admits ip)
      = if ip' = ip ∧ (m.check now ip' id).1 = true then [now] else [] := by
  by_cases hok : ip' = ip ∧ (m.check now ip' id).1 = true
  · have hsome : admits ip (m, check now ip' id) = some now := if_pos hok
    rw [List.filterMap_cons_some hsome, if_pos hok]
    rfl
  · have hnone : admits ip (m, check now ip' id) = none := if_neg hok
    rw [List.filterMap_cons_none hnone, if_neg hok]
    rfl

/-- The times do not decrease. -/
def Clocked (log : List (IpBlockMap × BlockerCall)) : Prop :=
  log.Pairwise fun y y' => y.2.now ≤ y'.2.now

end BlockerCall

/-- What a table says of the calls counted for an IP, seen from `now` on. -/
structure Attempts (ip : String) (counted : List Nat) (m : IpBlockMap) (now : Nat) : Prop where
  past : ∀ t ∈ counted, t ≤ now
  /-- The call that makes the entry is not counted in it. -/
  entry : ∀ n last ids, m.lookup ip = some ((n, last), ids) →
    Limited 32 blockPause counted (n + 1, last)
  absent : m.lookup ip = none → ∃ counter, Limited 32 blockPause counted counter
    ∧ ∀ now' : Nat, now ≤ now' → grant 32 blockPause counter now' = some (1, now')

namespace Attempts

variable {ip : String} {counted : List Nat} {m m' : IpBlockMap} {now now' : Nat}

theorem nil (ip : String) (m : IpBlockMap) (now : Nat) : Attempts ip [] m now where
  past := by simp
  entry n last ids _ := .nil _
  absent _ := by
    refine ⟨(0, 0), .nil _, fun now' _ => ?_⟩
    unfold grant
    split <;> rfl

theorem mono (h : Attempts ip counted m now) (hnow : now ≤ now') : Attempts ip counted m now' where
  past t ht := Nat.le_trans (h.past t ht) hnow
  entry := h.entry
  absent hnone := by
    obtain ⟨counter, hlimited, hgrant⟩ := h.absent hnone
    exact ⟨counter, hlimited, fun now'' hnow' => hgrant now'' (Nat.le_trans hnow hnow')⟩

theorem congr (h : Attempts ip counted m now) (hlookup : m'.lookup ip = m.lookup ip) :
    Attempts ip counted m' now where
  past := h.past
  entry := by
    rw [hlookup]
    exact h.entry
  absent := by
    rw [hlookup]
    exact h.absent

/-- A call that is counted. -/
theorem insert (h : Attempts ip counted m now) {n last : Nat}
    {ids ids' : Finset String × Instant} (hlookup : m.lookup ip = some ((n, last), ids))
    (hgo : Rested last now ∨ n ≤ 30) :
    Attempts ip (counted ++ [now]) (m.insert ip ((tally n last now, now), ids')) now := by
  have hcounter : Limited 32 blockPause (counted ++ [now]) (tally n last now + 1, now) := by
    have hold := h.entry n last ids hlookup
    by_cases hrested : Rested last now
    · have hgrant : grant 32 blockPause (n + 1, last) now = some (1, now) := if_pos hrested
      rw [tally, if_pos hrested]
      exact (hold.grant (by omega) h.past hgrant).mono (by omega)
    · have hgrant : grant 32 blockPause (n + 1, last) now = some (n + 1 + 1, now) := by
        have hn := hgo.resolve_left hrested
        exact (if_neg hrested).trans (if_neg (by omega))
      rw [tally, if_neg hrested]
      exact hold.grant (by omega) h.past hgrant
  constructor
  · intro t ht
    rcases List.mem_append.mp ht with ht | ht
    · exact h.past t ht
    · exact Nat.le_of_eq (List.mem_singleton.mp ht)
  · intro n' last' ids'' hlookup'
    rw [AList.lookup_insert] at hlookup'
    cases hlookup'
    exact hcounter
  · intro hnone
    rw [AList.lookup_insert] at hnone
    cases hnone

/-- The call that makes the entry. -/
theorem create (h : Attempts ip counted m now) (hlookup : m.lookup ip = none)
    (ids : Finset String × Instant) :
    Attempts ip (counted ++ [now]) (m.insert ip ((0, now), ids)) now := by
  obtain ⟨counter, hlimited, hgrant⟩ := h.absent hlookup
  have hcounter := hlimited.grant (by omega) h.past (hgrant now (Nat.le_refl _))
  constructor
  · intro t ht
    rcases List.mem_append.mp ht with ht | ht
    · exact h.past t ht
    · exact Nat.le_of_eq (List.mem_singleton.mp ht)
  · intro n' last' ids' hlookup'
    rw [AList.lookup_insert] at hlookup'
    cases hlookup'
    exact hcounter
  · intro hnone
    rw [AList.lookup_insert] at hnone
    cases hnone

/-- A call for this IP: if it returns true, it is counted. -/
theorem check (h : Attempts ip counted m now) {id : String} {ok : Bool}
    (hcheck : m.Checked now ip id ok m') :
    ∃ counted', ((if ok then counted ++ [now] else counted) : List Nat).Sublist counted'
      ∧ Attempts ip counted' m' now := by
  have hsub (ok : Bool) :
      ((if ok then counted ++ [now] else counted) : List Nat).Sublist (counted ++ [now]) := by
    cases ok with
    | true => exact List.Sublist.refl _
    | false => exact List.sublist_append_left _ _
  cases hcheck with
  | created hlookup => exact ⟨_, hsub _, h.create hlookup _⟩
  | refused hlookup => exact ⟨counted, List.Sublist.refl _, h⟩
  | cleared hlookup hgo => exact ⟨_, hsub _, h.insert hlookup hgo⟩
  | full hlookup hgo => exact ⟨_, hsub _, h.insert hlookup hgo⟩
  | recorded hlookup hgo => exact ⟨_, hsub _, h.insert hlookup hgo⟩

/-- A sweep drops the entry only after the pause. -/
theorem sweep (h : Attempts ip counted m now) : Attempts ip counted (m.sweep now) now := by
  constructor
  · exact h.past
  · intro n last ids hlookup
    rw [IpBlockMap.sweep, HashMap.lookup_retain] at hlookup
    exact h.entry n last ids (Option.filter_eq_some_iff.mp hlookup).1
  · intro hnone
    rw [IpBlockMap.sweep, HashMap.lookup_retain] at hnone
    cases hlookup : m.lookup ip with
    | none => exact h.absent hlookup
    | some v =>
        obtain ⟨⟨n, last⟩, ids, since⟩ := v
        refine ⟨_, h.entry n last (ids, since) hlookup, fun now' hnow => ?_⟩
        rw [hlookup] at hnone
        have hdead : ¬ blockerLive now ((n, last), (ids, since)) = true := by
          intro hlive
          simp [hlive] at hnone
        have hrested : Rested last now := by
          rw [← rested_iff]
          simp only [blockerLive, Bool.or_eq_true, decide_eq_true_eq, not_or] at hdead
          exact Nat.lt_of_not_le hdead.1
        exact if_pos (Nat.le_trans hrested hnow)

end Attempts

/-- **Attempts.** In any run of calls and queries, at most 32 calls for an IP
return true within a span shorter than 61 seconds: the one that makes the entry
and 31 that are counted. -/
theorem attempts_limited {m m' : IpBlockMap} {log : List (IpBlockMap × BlockerCall)}
    (hrun : Logged BlockerCall.Step m log m') (hclock : BlockerCall.Clocked log)
    (hqueries : ∀ y ∈ log, y.2.Queries) (ip : String) (start : Nat) :
    inWindow blockPause (log.filterMap (BlockerCall.admits ip)) start ≤ 32 := by
  suffices hJ : BlockerCall.Clocked log → (∀ y ∈ log, y.2.Queries) →
      ∃ counted, (log.filterMap (BlockerCall.admits ip)).Sublist counted
        ∧ ∀ now : Nat, (∀ y ∈ log, y.2.now ≤ now) → Attempts ip counted m' now by
    obtain ⟨counted, hsub, hattempts⟩ := hJ hclock hqueries
    have hbound : inWindow blockPause counted start ≤ 32 := by
      have hlast : ∃ now : Nat, ∀ y ∈ log, y.2.now ≤ now := by
        rcases List.eq_nil_or_concat log with rfl | ⟨log, y, rfl⟩
        · exact ⟨0, by simp⟩
        · refine ⟨y.2.now, fun y' hy' => ?_⟩
          rw [List.concat_eq_append] at hclock hy'
          rcases List.mem_append.mp hy' with hy' | hy'
          · exact (List.pairwise_append.mp hclock).2.2 y' hy' y (by simp)
          · rw [List.mem_singleton.mp hy']
      obtain ⟨now, hnow⟩ := hlast
      have h := hattempts now hnow
      cases hlookup : m'.lookup ip with
      | some v => exact (h.entry v.1.1 v.1.2 v.2 hlookup).window start
      | none =>
          obtain ⟨counter, hlimited, -⟩ := h.absent hlookup
          exact hlimited.window start
    exact (hsub.countP_le).trans hbound
  refine hrun.invariant (J := fun log m' => BlockerCall.Clocked log → (∀ y ∈ log, y.2.Queries) →
    ∃ counted, (log.filterMap (BlockerCall.admits ip)).Sublist counted
      ∧ ∀ now : Nat, (∀ y ∈ log, y.2.now ≤ now) → Attempts ip counted m' now)
    (fun _ _ => ⟨[], List.Sublist.refl _, fun now _ => .nil ip m now⟩) ?_
  intro log m₁ c m₂ ih hstep hclock hqueries
  obtain ⟨hbefore, -, hlast⟩ := List.pairwise_append.mp hclock
  obtain ⟨counted, hsub, hattempts⟩ :=
    ih hbefore fun y hy => hqueries y (List.mem_append_left _ hy)
  have h : Attempts ip counted m₁ c.now :=
    hattempts c.now fun y hy => hlast y hy (m₁, c) (by simp)
  have hlater (now : Nat) (hnow : ∀ y ∈ log ++ [(m₁, c)], y.2.now ≤ now) : c.now ≤ now :=
    hnow (m₁, c) (by simp)
  rw [List.filterMap_append]
  cases c with
  | command now fds =>
      have hquery : fds[1]? ≠ some "-" := hqueries (m₁, .command now fds) (by simp)
      have hm : m₂ = m₁.sweep now := hstep.trans (m₁.command_snd now hquery)
      refine ⟨counted, ?_, fun now' hnow => ?_⟩
      · rw [show [(m₁, BlockerCall.command now fds)].filterMap (BlockerCall.admits ip) = [] from rfl,
          List.append_nil]
        exact hsub
      rw [hm]
      exact h.sweep.mono (hlater now' hnow)
  | check now ip' id =>
      have hchecked : m₁.Checked now ip' id (m₁.check now ip' id).1 m₂ := by
        rw [show m₂ = (m₁.check now ip' id).2 from hstep]
        exact m₁.check_checked now ip' id
      by_cases hip : ip' = ip
      · subst hip
        obtain ⟨counted', hsub', hcounted'⟩ := h.check hchecked
        refine ⟨counted', .trans ?_ hsub', fun now' hnow => hcounted'.mono (hlater now' hnow)⟩
        rw [BlockerCall.admits_check]
        cases (m₁.check now ip' id).1 with
        | true =>
            rw [if_pos ⟨rfl, rfl⟩]
            exact hsub.append (List.Sublist.refl [now])
        | false =>
            rw [if_neg (by simp), List.append_nil]
            exact hsub
      · refine ⟨counted, ?_, fun now' hnow => ?_⟩
        · rw [BlockerCall.admits_check, if_neg fun hboth => hip hboth.1, List.append_nil]
          exact hsub
        · exact (h.congr (hchecked.lookup_ne (Ne.symm hip))).mono (hlater now' hnow)

/-- The log of these calls, one after the other, and the table at the end. -/
def blockerLog (m : IpBlockMap) (calls : List BlockerCall) :
    List (IpBlockMap × BlockerCall) × IpBlockMap :=
  calls.foldl (fun r c => (r.1 ++ [(r.2, c)], c.apply r.2)) ([], m)

theorem blockerLog_run (m : IpBlockMap) (calls : List BlockerCall) :
    Logged BlockerCall.Step m (blockerLog m calls).1 (blockerLog m calls).2 := by
  have hfold (r : List (IpBlockMap × BlockerCall) × IpBlockMap)
      (h : Logged BlockerCall.Step m r.1 r.2) :
      Logged BlockerCall.Step m (calls.foldl (fun r c => (r.1 ++ [(r.2, c)], c.apply r.2)) r).1
        (calls.foldl (fun r c => (r.1 ++ [(r.2, c)], c.apply r.2)) r).2 := by
    induction calls generalizing r with
    | nil => exact h
    | cons c calls ih => exact ih _ (h.step rfl)
  exact hfold ([], m) .start

/-- Two attempts, with a look at the table in between. -/
def twoAttempts : List (IpBlockMap × BlockerCall) :=
  (blockerLog ∅ [.check 0 "0.0.0.1" "123456", .command 1000000000 [],
    .check 2000000000 "0.0.0.1" "654321"]).1

/-- Both are admitted. -/
theorem attempts_limited_two :
    inWindow blockPause (twoAttempts.filterMap (BlockerCall.admits "0.0.0.1")) 0 ≤ 32 := by
  refine attempts_limited (blockerLog_run _ _) ?_ ?_ _ _
  · unfold BlockerCall.Clocked
    decide
  · decide

end KustDesk
