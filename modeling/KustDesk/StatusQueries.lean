import KustDesk.CheckCmd
import KustDesk.SameResults
import KustDesk.Async.Added

/-!
# KustDesk — StatusQueries

`ip-blocker` and `ip-changes` sweep their tables before they answer. Runs of
registrations and commands are compared with the same runs without some of
these queries: as long as no registration misses an entry that a query has
swept, and that still counts, the answers are the same.
-/

namespace KustDesk

open Async

/-! ## Swept tables -/

namespace HashMap

variable {κ ν : Type} {live live' : ν → Bool} {m m' : HashMap κ ν}

/-- `m` is `m'` without some entries that are not live. -/
structure Swept (live : ν → Bool) (m m' : HashMap κ ν) : Prop where
  sub : m.entries.Sublist m'.entries
  same : HashMap.retain m live = HashMap.retain m' live

theorem Swept.refl (live : ν → Bool) (m : HashMap κ ν) : Swept live m m := ⟨.refl _, rfl⟩

theorem retain_retain (h : ∀ v, live' v = true → live v = true) (m : HashMap κ ν) :
    HashMap.retain (HashMap.retain m live) live' = HashMap.retain m live' := by
  apply AList.ext
  show (m.entries.filter _).filter _ = m.entries.filter _
  rw [List.filter_filter]
  refine List.filter_congr fun x _ => ?_
  cases hlive : live' x.2 with
  | false => simp
  | true => simp [h _ hlive]

/-- What is not live does not become so again. -/
theorem Swept.mono (h : Swept live m m') (hlive : ∀ v, live' v = true → live v = true) :
    Swept live' m m' where
  sub := h.sub
  same := by rw [← retain_retain hlive m, h.same, retain_retain hlive m']

/-- A sweep. -/
theorem Swept.retain (h : Swept live m m') : Swept live (HashMap.retain m live) m' where
  sub := List.filter_sublist.trans h.sub
  same := (retain_retain (fun _ hv => hv) m).trans h.same

variable [DecidableEq κ]

theorem Swept.lookup (h : Swept live m m') {k : κ} {v : ν} (hk : m.lookup k = some v) :
    m'.lookup k = some v :=
  AList.mem_lookup_iff.mpr (h.sub.subset (AList.mem_lookup_iff.mp hk))

/-- An entry that has been found is there in both. -/
theorem Swept.lookup_eq (h : Swept live m m') {k : κ}
    (hk : m'.lookup k ≠ none → m.lookup k ≠ none) : m.lookup k = m'.lookup k := by
  cases hlookup : m.lookup k with
  | some v => exact (h.lookup hlookup).symm
  | none =>
      by_contra hne
      exact hk (Ne.symm hne) hlookup

theorem filter_kerase (p : (Σ _ : κ, ν) → Bool) (k : κ) {l : List (Σ _ : κ, ν)}
    (hl : l.NodupKeys) : (l.kerase k).filter p = (l.filter p).kerase k := by
  induction l with
  | nil => rfl
  | cons x l ih =>
      obtain ⟨hx, hl⟩ := List.nodupKeys_cons.mp hl
      by_cases hk : k = x.1
      · have hnone : k ∉ (l.filter p).keys := by
          rw [hk]
          exact fun hmem => hx ((List.filter_sublist.map Sigma.fst).subset hmem)
        rw [List.kerase_cons_eq hk, List.filter_cons]
        split
        · rw [List.kerase_cons_eq hk]
        · rw [List.kerase_of_notMem_keys hnone]
      · rw [List.kerase_cons_ne hk, List.filter_cons, List.filter_cons, ih hl]
        split
        · rw [List.kerase_cons_ne hk]
        · rfl

theorem entries_retain_insert (live : ν → Bool) (m : HashMap κ ν) (k : κ) (v : ν) :
    (HashMap.retain (AList.insert k v m) live).entries
      = if live v then ⟨k, v⟩ :: (HashMap.retain m live).entries.kerase k
        else (HashMap.retain m live).entries.kerase k := by
  show List.filter (fun x => live x.2) (⟨k, v⟩ :: m.entries.kerase k) = _
  rw [List.filter_cons, filter_kerase _ k m.nodupKeys]
  rfl

/-- The same entry is written in both. -/
theorem Swept.insert (h : Swept live m m') (k : κ) (v : ν) :
    Swept live (AList.insert k v m) (AList.insert k v m') where
  sub := (h.sub.eraseP).cons_cons _
  same := by
    apply AList.ext
    rw [entries_retain_insert, entries_retain_insert, h.same]

end HashMap

theorem asSecs_elapsed_mono {now now' : Instant} (h : now ≤ now') (t : Instant) :
    Instant.asSecs (Instant.elapsed now t) ≤ Instant.asSecs (Instant.elapsed now' t) :=
  Nat.div_le_div_right (Nat.sub_le_sub_right h t)

theorem blockerLive_of_le {now now' : Instant} (h : now ≤ now')
    (v : (Nat × Instant) × (Finset String × Instant)) (hv : blockerLive now' v = true) :
    blockerLive now v = true := by
  simp only [blockerLive, Bool.or_eq_true, decide_eq_true_eq] at hv ⊢
  exact hv.imp (asSecs_elapsed_mono h _).trans (asSecs_elapsed_mono h _).trans

theorem changesLive_of_le {now now' : Instant} (h : now ≤ now')
    (v : Instant × HashMap String Nat) (hv : changesLive now' v = true) :
    changesLive now v = true := by
  simp only [changesLive, Bool.and_eq_true, decide_eq_true_eq] at hv ⊢
  exact ⟨(asSecs_elapsed_mono h _).trans_lt hv.1, hv.2⟩

/-! ## The tables in a registration -/

/-- Where the entry of the IP has not been swept, it is checked alike. -/
theorem IpBlockMap.check_swept {live : (Nat × Instant) × (Finset String × Instant) → Bool}
    {m m' : IpBlockMap} (h : HashMap.Swept live m m') (now : Instant) (ip id : String)
    (hkept : m'.lookup ip ≠ none → m.lookup ip ≠ none) :
    (m.check now ip id).1 = (m'.check now ip id).1
      ∧ HashMap.Swept live (m.check now ip id).2 (m'.check now ip id).2 := by
  unfold check
  rw [h.lookup_eq hkept]
  cases m'.lookup ip with
  | none => exact ⟨rfl, h.insert ip _⟩
  | some entry =>
      obtain ⟨⟨n, last⟩, ids, since⟩ := entry
      dsimp only
      split
      · exact ⟨rfl, h⟩
      · split
        · exact ⟨rfl, h.insert ip _⟩
        · split
          · exact ⟨rfl, h.insert ip _⟩
          · exact ⟨rfl, h.insert ip _⟩

/-- Where a sweep takes the entry of the IP, the attempt that makes it anew is not
counted, and would have been. -/
theorem IpBlockMap.check_sweep {m : IpBlockMap} {now : Instant} {ip : String}
    {v : (Nat × Instant) × (Finset String × Instant)} (h : m.lookup ip = some v)
    (hv : blockerLive now v = false) (id : String) :
    ((m.check now ip id).2.lookup ip).map Prod.fst = some (1, now)
      ∧ (((m.sweep now).check now ip id).2.lookup ip).map Prod.fst = some (0, now) := by
  obtain ⟨⟨n, last⟩, ids, since⟩ := v
  simp only [blockerLive, Bool.or_eq_false_iff, decide_eq_false_iff_not, not_le] at hv
  obtain ⟨hlast, hsince⟩ := hv
  have hgone : (m.sweep now).lookup ip = none := by
    rw [sweep, HashMap.lookup_retain, h]
    simp [blockerLive, hlast, hsince]
  constructor
  · unfold check
    simp [h, hlast, hsince]
  · unfold check
    simp [hgone]

/-- Where the entry of the id has not been swept, or starts again anyway, a
change is counted alike. -/
theorem IpChangesMap.record_swept {live : Instant × HashMap String Nat → Bool}
    {m m' : IpChangesMap} (h : HashMap.Swept live m m') (now : Instant) (id ip : String)
    (hkept : ∀ v ∈ m'.lookup id,
      Instant.asSecs (Instant.elapsed now v.1) ≤ ipChangeDur → m.lookup id ≠ none) :
    HashMap.Swept live (m.record now id ip) (m'.record now id ip) := by
  unfold record
  cases hlookup : m.lookup id with
  | some v =>
      rw [h.lookup hlookup]
      obtain ⟨tm, ips⟩ := v
      dsimp only
      split
      · exact h.insert id _
      · cases ips.lookup ip with
        | none => exact h.insert id _
        | some n => exact h.insert id _
  | none =>
      cases hlookup' : m'.lookup id with
      | none => exact h.insert id _
      | some v =>
          obtain ⟨tm, ips⟩ := v
          have hold : Instant.asSecs (Instant.elapsed now tm) > ipChangeDur := by
            by_contra hrecent
            exact hkept _ hlookup' (Nat.le_of_not_lt hrecent) hlookup
          dsimp only
          rw [if_pos hold]
          exact h.insert id _

/-- Where a sweep takes the entry of the id because of its single address, a change
within 180 seconds starts again, and would have been added to it. -/
theorem IpChangesMap.record_sweep {m : IpChangesMap} {now : Instant} {id : String}
    {v : Instant × HashMap String Nat} (h : m.lookup id = some v)
    (hrecent : Instant.asSecs (Instant.elapsed now v.1) ≤ ipChangeDur)
    (hv : v.2.entries.length ≤ 1) (ip : String) :
    ((m.record now id ip).lookup id).map Prod.fst = some v.1
      ∧ ((m.sweep now).record now id ip).lookup id
        = some (now, (∅ : HashMap String Nat).insert ip 1) := by
  obtain ⟨tm, ips⟩ := v
  have hgone : (m.sweep now).lookup id = none := by
    rw [sweep, HashMap.lookup_retain, h]
    simp only [Option.filter_some, changesLive, Bool.and_eq_true, decide_eq_true_eq]
    rw [if_neg fun hlive => Nat.not_lt.mpr hv hlive.2]
  constructor
  · unfold record
    rw [h]
    dsimp only
    rw [if_neg (Nat.not_lt.mpr hrecent)]
    cases ips.lookup ip with
    | none => simp
    | some n => simp
  · unfold record
    rw [hgone]
    simp

/-- The peer map with other tables. -/
def PeerMap.withTables (s : PeerMap) (ipBlocker : IpBlockMap) (ipChanges : IpChangesMap) :
    PeerMap := { s with ipBlocker, ipChanges }

section withTables
variable (s : PeerMap) (ipBlocker : IpBlockMap) (ipChanges : IpChangesMap)

theorem PeerMap.withTables_map : (s.withTables ipBlocker ipChanges).map = s.map := rfl
theorem PeerMap.withTables_db : (s.withTables ipBlocker ipChanges).db = s.db := rfl

end withTables

/-- The two peer maps, up to entries of the tables that queries would sweep from
`now` on: `s` lacks some of them. -/
structure PeerMap.Swept (now : Instant) (s s' : PeerMap) : Prop where
  rest : s' = s.withTables s'.ipBlocker s'.ipChanges
  ipBlocker : HashMap.Swept (blockerLive now) s.ipBlocker s'.ipBlocker
  ipChanges : HashMap.Swept (changesLive now) s.ipChanges s'.ipChanges

namespace PeerMap

variable {now now' : Instant} {s s' : PeerMap}

theorem Swept.refl (now : Instant) (s : PeerMap) : s.Swept now s := ⟨rfl, .refl _ _, .refl _ _⟩

theorem Swept.mono (h : s.Swept now s') (hnow : now ≤ now') : s.Swept now' s' where
  rest := h.rest
  ipBlocker := h.ipBlocker.mono (blockerLive_of_le hnow)
  ipChanges := h.ipChanges.mono (changesLive_of_le hnow)

theorem Swept.withTables (h : s.Swept now s') {ipBlocker ipBlocker' : IpBlockMap}
    {ipChanges ipChanges' : IpChangesMap}
    (hblocker : HashMap.Swept (blockerLive now) ipBlocker ipBlocker')
    (hchanges : HashMap.Swept (changesLive now) ipChanges ipChanges') :
    (s.withTables ipBlocker ipChanges).Swept now (s'.withTables ipBlocker' ipChanges') where
  rest := by rw [h.rest]; rfl
  ipBlocker := hblocker
  ipChanges := hchanges

/-- A step that neither looks at the tables nor changes them. -/
def Blind {α : Type} (f : Env → PeerMap → α × PeerMap) : Prop :=
  ∀ e s ipBlocker ipChanges, f e (s.withTables ipBlocker ipChanges)
    = ((f e s).1, (f e s).2.withTables ipBlocker ipChanges)

theorem Blind.swept {α : Type} {f : Env → PeerMap → α × PeerMap} (hf : Blind f)
    (h : s.Swept now s') (e : Env) :
    (f e s).1 = (f e s').1 ∧ (f e s).2.Swept now (f e s').2 := by
  have hself := hf e s s.ipBlocker s.ipChanges
  have hother := hf e s s'.ipBlocker s'.ipChanges
  rw [← h.rest] at hother
  have hpost : (f e s).2 = (f e s).2.withTables s.ipBlocker s.ipChanges :=
    congrArg Prod.snd hself
  rw [hother]
  refine ⟨rfl, ?_⟩
  rw [hpost]
  exact (Swept.refl now _).withTables h.ipBlocker h.ipChanges

/-- An operation of the database. -/
theorem blind_store {α : Type} (a : Env → α) (f : Env → Database → Option Database) :
    Blind fun e s => s.store e.fails (a e) (f e s.db) := by
  intro e s ipBlocker ipChanges
  beta_reduce
  rw [withTables_db]
  unfold store
  split
  · rfl
  · cases f e s.db with
    | none => rfl
    | some db => rfl

end PeerMap

/-! ## Registrations in both runs -/

/-- In this step, the registration finds its entry in the run with the queries
where it finds it in the other one. An entry of `IP_CHANGES` that is over three
minutes old does not matter: it would start again. -/
def RegCall.Unswept (c : RegCall) (ev ev' : Event Env PmOp PeerMap) : Prop :=
  (ev.op = .ipBlocker →
    ev'.pre.ipBlocker.lookup c.ip ≠ none → ev.pre.ipBlocker.lookup c.ip ≠ none)
  ∧ (ev.op = .ipChanges → ∀ v ∈ ev'.pre.ipChanges.lookup c.id,
    Instant.asSecs (Instant.elapsed ev'.env.now v.1) ≤ ipChangeDur →
    ev.pre.ipChanges.lookup c.id ≠ none)

instance (c : RegCall) (ev ev' : Event Env PmOp PeerMap) : Decidable (c.Unswept ev ev') :=
  inferInstanceAs (Decidable ((ev.op = .ipBlocker →
      ev'.pre.ipBlocker.lookup c.ip ≠ none → ev.pre.ipBlocker.lookup c.ip ≠ none)
    ∧ (ev.op = .ipChanges → ∀ v ∈ ev'.pre.ipChanges.lookup c.id,
      Instant.asSecs (Instant.elapsed ev'.env.now v.1) ≤ ipChangeDur →
      ev.pre.ipChanges.lookup c.id ≠ none)))

/-- The task goes the same way in both runs. -/
def RegCall.Respects {α : Type} (c : RegCall) (t : PmTask α) : Prop :=
  Task.Respects (fun e s s' => PeerMap.Swept e.now s s') c.Unswept
    (Handler.SameDecision (.registerPk c) (.registerPk c)) t

section respects
variable (x : External) (c : RegCall)

theorem RegCall.respects_blind {α : Type} {op : PmOp} {f : Env → PeerMap → α × PeerMap}
    (hop : op ≠ .ipBlocker) (hf : PeerMap.Blind f) : c.Respects (Task.act op f) := by
  apply Task.Respects.act
  intro e s s' hs _
  obtain ⟨hresult, hpost⟩ := hf.swept hs e
  exact ⟨Handler.sameDecision_of_ne _ _ hop hop, hpost, hresult⟩

theorem RegCall.get_respects (id : String) : c.Respects (PeerMap.get x id) := by
  apply Task.Respects.bind (c.respects_blind (by simp) fun _ _ _ _ => rfl)
  intro p
  cases p with
  | some p => trivial
  | none =>
      apply Task.Respects.bind (c.respects_blind (by simp) fun _ _ _ _ => rfl)
      intro row
      cases row with
      | none => trivial
      | some row =>
          apply Task.Respects.bind (c.respects_blind (by simp) fun _ _ _ _ => rfl)
          intro peer
          trivial

theorem RegCall.getOr_respects (id : String) : c.Respects (PeerMap.getOr x id) := by
  apply Task.Respects.bind (c.get_respects x id)
  intro p
  cases p with
  | some p => trivial
  | none =>
      apply c.respects_blind (by simp)
      intro e s ipBlocker ipChanges
      beta_reduce
      rw [PeerMap.withTables_map]
      cases s.map.lookup id with
      | some p => rfl
      | none => rfl

theorem RegCall.updatePk_respects (id : String) (peer : LockPeer) (addr : SocketAddr)
    (uuid pk : Bytes) (ip : String) : c.Respects (PeerMap.updatePk x id peer addr uuid pk ip) := by
  apply Task.Respects.bind (c.respects_blind (by simp) fun _ _ _ _ => rfl)
  rintro ⟨info, guid⟩
  dsimp only
  split
  · apply Task.Respects.bind
    · exact c.respects_blind (by simp) (PeerMap.blind_store (fun e => e.guid.1)
        fun e db => db.insertPeer e.guid.1 id uuid pk info)
    · intro res
      cases res with
      | none => trivial
      | some guid =>
          apply Task.Respects.bind (c.respects_blind (by simp) fun _ _ _ _ => rfl)
          intro _
          trivial
  · apply Task.Respects.bind
    · exact c.respects_blind (by simp) (PeerMap.blind_store (fun _ => ())
        fun _ db => db.updatePk guid id pk info)
    · intro res
      cases res with
      | none => trivial
      | some _ => trivial

theorem RegCall.finish_respects (peer : LockPeer) (changed : Bool) :
    c.Respects (c.finish x peer changed) := by
  unfold finish
  split
  · apply Task.Respects.bind (c.updatePk_respects x _ _ _ _ _ _)
    intro _
    trivial
  · trivial

theorem RegCall.note_respects (peer : LockPeer) (reqPk : Nat × Instant) (changed ipChanged : Bool) :
    c.Respects (c.note x peer reqPk changed ipChanged) := by
  apply Task.Respects.bind (c.respects_blind (by simp) fun _ _ _ _ => rfl)
  intro _
  cases ipChanged with
  | false => exact c.finish_respects x peer changed
  | true =>
      apply Task.Respects.bind (g := fun _ => c.finish x peer changed)
      · apply Task.Respects.act
        intro e s s' hs hkept
        refine ⟨Handler.sameDecision_of_ne _ _ (by simp) (by simp), ?_, rfl⟩
        apply hs.withTables hs.ipBlocker
        exact IpChangesMap.record_swept hs.ipChanges _ _ _ (hkept.2 rfl)
      · intro _
        exact c.finish_respects x peer changed

theorem RegCall.settle_respects (peer : LockPeer) : c.Respects (c.settle x peer) := by
  apply Task.Respects.bind (c.respects_blind (by simp) fun _ _ _ _ => rfl)
  intro checked
  cases checked with
  | none => trivial
  | some checked =>
      obtain ⟨changed, ipChanged⟩ := checked
      apply Task.Respects.bind (c.respects_blind (by simp) fun _ _ _ _ => rfl)
      intro counted
      cases counted with
      | none => trivial
      | some reqPk => exact c.note_respects x peer reqPk changed ipChanged

theorem RegCall.checkIpBlocker_respects : c.Respects (checkIpBlocker c.ip c.id) := by
  apply Task.Respects.act
  intro e s s' hs hkept
  obtain ⟨hdecision, htable⟩ := IpBlockMap.check_swept hs.ipBlocker e.now c.ip c.id (hkept.1 rfl)
  refine ⟨congrArg some hdecision.symm, ?_, hdecision⟩
  exact hs.withTables htable hs.ipChanges

theorem RegCall.task_respects : c.Respects (c.task x) := by
  rw [RegCall.task_eq]
  split
  · trivial
  split
  · trivial
  apply Task.Respects.bind c.checkIpBlocker_respects
  intro allowed
  cases allowed with
  | false => trivial
  | true => exact Task.Respects.bind (c.getOr_respects x c.id) fun peer => c.settle_respects x peer

end respects

/-! ## Registrations and commands -/

inductive AdminJob where
  | register (c : RegCall)
  | command (rs : RendezvousServer) (cmd : String)

inductive AdminJob.Answer where
  | registered (r : Except RegisterPkResult RegisterPkResult)
  | replied (reply : CmdReply) (queued : List Data)

namespace AdminJob

def task (x : External) : AdminJob → CmdTask AdminJob.Answer
  | register c => do
      return .registered (← (c.task x).lift Shared.pmPart fun op => .server (.pm op))
  | command rs cmd => do
      let (reply, queued) ← checkCmd rs cmd
      return .replied reply queued

/-- `ip-blocker` or `ip-changes`, without a `-` behind the key. -/
inductive Query : AdminJob → Prop
  | ipBlocker {rs cmd args} (h : CmdIs cmd .ipBlocker args) (hargs : args[1]? ≠ some "-") :
      Query (command rs cmd)
  | ipChanges {rs cmd args} (h : CmdIs cmd .ipChanges args) (hargs : args[1]? ≠ some "-") :
      Query (command rs cmd)

end AdminJob

/-- The step as one of the peer map, if it is one. -/
def cmdPmEvent (ev : Event Env CmdOp Shared) : Option (Event Env PmOp PeerMap) :=
  match ev.op with
  | .server (.pm op) => some ⟨op, ev.env, ev.pre.pm, ev.post.pm⟩
  | _ => none

/-- The decision of `check_ip_blocker`, in the step of a registration that makes
it. -/
def AdminJob.decision (j : AdminJob) (ev : Event Env CmdOp Shared) : Option Bool :=
  match j with
  | .register c => (cmdPmEvent ev).bind (Handler.registerPk c).decision
  | .command _ _ => none

/-- In this step, the job misses no entry that a query has swept and that still
counts. -/
def AdminJob.Unswept (j : AdminJob) (ev ev' : Event Env CmdOp Shared) : Prop :=
  match j with
  | .register c => ∀ y ∈ cmdPmEvent ev, ∀ y' ∈ cmdPmEvent ev', c.Unswept y y'
  | .command _ _ => True

instance : (j : AdminJob) → (ev ev' : Event Env CmdOp Shared) → Decidable (j.Unswept ev ev')
  | .register c, ev, ev' =>
      inferInstanceAs (Decidable (∀ y ∈ cmdPmEvent ev, ∀ y' ∈ cmdPmEvent ev', c.Unswept y y'))
  | .command _ _, _, _ => isTrue trivial

/-- All that is decided by `check_ip_blocker` in a run. -/
def decisions {ι : Type} (jobs : ι → AdminJob) (es : List (ι × Event Env CmdOp Shared)) :
    List (ι × Bool) :=
  es.filterMap fun y => ((jobs y.1).decision y.2).map fun ok => (y.1, ok)

/-- The states of the server in the two runs. -/
def Shared.Swept (now : Instant) (s s' : Shared) : Prop :=
  ∃ pm, s.pm.Swept now pm ∧ s' = { s with pm }

theorem Shared.Swept.pm {now : Instant} {s s' : Shared} (h : s.Swept now s') :
    s.pm.Swept now s'.pm := by
  obtain ⟨pm, hpm, rfl⟩ := h
  exact hpm

theorem Shared.Swept.put {now : Instant} {s s' : Shared} (h : s.Swept now s') {pm pm' : PeerMap}
    (hpm : pm.Swept now pm') : Shared.Swept now { s with pm } { s' with pm := pm' } := by
  obtain ⟨_, -, rfl⟩ := h
  exact ⟨pm', hpm, rfl⟩

/-- What two jobs owe each other: the decisions of `check_ip_blocker`. -/
def AdminJob.SameDecision (j : AdminJob) (ev ev' : Event Env CmdOp Shared) : Prop :=
  j.decision ev' = j.decision ev

/-- The task goes the same way in both runs. -/
def AdminJob.Respects {α : Type} (j : AdminJob) (t : CmdTask α) : Prop :=
  Task.Respects (fun e s s' => Shared.Swept e.now s s') j.Unswept j.SameDecision t

theorem AdminJob.register_respects (x : External) (c : RegCall) :
    AdminJob.Respects (.register c)
      ((c.task x).lift Shared.pmPart fun op => CmdOp.server (.pm op)) := by
  have hc := c.task_respects x
  unfold RegCall.Respects at hc
  refine hc.lift ?_ ?_ ?_ ?_
  · exact fun e s s' hs => hs.pm
  · exact fun e s s' pm pm' hs hpm => hs.put hpm
  · exact fun op e s s' pm pm' hkept => hkept _ rfl _ rfl
  · exact fun op e s s' pm pm' hsame => hsame

/-! ## Commands in both runs -/

/-- The sweep leaves the same, so a command finds the same. -/
theorem cmdTable_congr {ν ρ : Type} {keep : ν → Bool} {single : Int → Bool}
    {line : String → ν → ρ} {m m' : HashMap String ν}
    (h : HashMap.retain m keep = HashMap.retain m' keep) (fds : List String) :
    cmdTable keep single line m fds = cmdTable keep single line m' fds := by
  unfold cmdTable
  rw [h]

theorem IpBlockMap.command_swept {m m' : IpBlockMap} {now : Instant}
    (h : HashMap.Swept (blockerLive now) m m') (fds : List String) :
    m.command now fds = m'.command now fds := by
  unfold command
  dsimp only
  rw [cmdTable_congr h.same]

theorem IpChangesMap.command_swept {m m' : IpChangesMap} {now : Instant}
    (h : HashMap.Swept (changesLive now) m m') (fds : List String) :
    m.command now fds = m'.command now fds := by
  unfold command
  dsimp only
  rw [cmdTable_congr h.same]

section command
variable (rs : RendezvousServer) (cmd : String)

theorem AdminJob.command_done {α : Type} (a : α) :
    AdminJob.Respects (.command rs cmd) (Task.done a) := trivial

/-- A step of a command that does the same to the server in both runs. -/
theorem AdminJob.command_act {α : Type} {op : CmdOp} {f : Env → Shared → α × Shared}
    (h : ∀ e s s', Shared.Swept e.now s s' →
      (f e s).2.Swept e.now (f e s').2 ∧ (f e s).1 = (f e s').1) :
    AdminJob.Respects (.command rs cmd) (Task.act op f) :=
  Task.Respects.act fun e s s' hs _ => ⟨rfl, h e s s' hs⟩

/-- A step that leaves the peer map aside. -/
theorem AdminJob.command_aside {α : Type} {op : CmdOp} {f : Env → Shared → α × Shared}
    (h : ∀ e s pm, f e { s with pm } = ((f e s).1, { (f e s).2 with pm })) :
    AdminJob.Respects (.command rs cmd) (Task.act op f) := by
  apply command_act
  rintro e s _ ⟨pm, hpm, rfl⟩
  have hself : (f e s).2.pm = s.pm := congrArg (fun y => y.2.pm) (h e s s.pm)
  rw [h e s pm]
  refine ⟨⟨pm, ?_, rfl⟩, rfl⟩
  rw [hself]
  exact hpm

theorem AdminJob.getRelayServer_respects :
    AdminJob.Respects (.command rs cmd) rs.getRelayServer.command := by
  have hserver : rs.getRelayServer.Respects (fun e s s' => Shared.Swept e.now s s')
      (fun _ _ => True) (fun _ _ => True) := by
    unfold RendezvousServer.getRelayServer
    split
    · trivial
    split
    · exact .unwrap _ _
    · apply Task.Respects.bind
      · apply Task.Respects.act
        rintro e s _ ⟨pm, hpm, rfl⟩ _
        exact ⟨trivial, ⟨pm, hpm, rfl⟩, rfl⟩
      · exact fun i => .unwrap _ _
  refine hserver.lift ?_ ?_ ?_ ?_
  · exact fun e s s' hs => hs
  · exact fun e s s' w w' _ hw => hw
  · exact fun _ _ _ _ _ _ _ => trivial
  · exact fun _ _ _ _ _ _ _ => rfl

theorem AdminJob.command_respects {t : CmdTask (CmdReply × List Data)}
    (ht : checkCmd rs cmd = t) : AdminJob.Respects (.command rs cmd) t := by
  subst ht
  unfold checkCmd
  split
  · exact AdminJob.command_done rs cmd _
  split
  · exact AdminJob.command_done rs cmd _
  · exact AdminJob.command_done rs cmd _
  · split
    · exact AdminJob.command_done rs cmd _
    · exact AdminJob.command_done rs cmd _
  · -- `ip-blocker`
    apply Task.Respects.bind
    · apply AdminJob.command_act
      rintro e s _ ⟨pm, hpm, rfl⟩
      have hsame := IpBlockMap.command_swept hpm.ipBlocker
      dsimp only
      rw [hsame]
      exact ⟨⟨_, hpm.withTables (.refl _ _) hpm.ipChanges, rfl⟩, rfl⟩
    · exact fun _ => AdminJob.command_done rs cmd _
  · -- `ip-changes`
    apply Task.Respects.bind
    · apply AdminJob.command_act
      rintro e s _ ⟨pm, hpm, rfl⟩
      have hsame := IpChangesMap.command_swept hpm.ipChanges
      dsimp only
      rw [hsame]
      exact ⟨⟨_, hpm.withTables hpm.ipBlocker (.refl _ _), rfl⟩, rfl⟩
    · exact fun _ => AdminJob.command_done rs cmd _
  · split
    · apply Task.Respects.bind (AdminJob.command_aside rs cmd fun _ _ _ => rfl)
      exact fun _ => AdminJob.command_done rs cmd _
    · apply Task.Respects.bind (AdminJob.command_aside rs cmd fun _ _ _ => rfl)
      exact fun _ => AdminJob.command_done rs cmd _
  · split
    · apply Task.Respects.bind (AdminJob.getRelayServer_respects rs cmd)
      exact fun _ => AdminJob.command_done rs cmd _
    · exact AdminJob.command_done rs cmd _
  · split
    · apply Task.Respects.bind (AdminJob.command_aside rs cmd fun _ _ _ => rfl)
      exact fun _ => AdminJob.command_done rs cmd _
    · apply Task.Respects.bind (AdminJob.command_aside rs cmd fun _ _ _ => rfl)
      exact fun _ => AdminJob.command_done rs cmd _

end command

theorem AdminJob.task_respects (x : External) (j : AdminJob) : j.Respects (j.task x) := by
  cases j with
  | register c => exact Task.Respects.bind (register_respects x c) fun _ => trivial
  | command rs cmd =>
      -- the text of the command is not to be looked into
      dsimp only [AdminJob.task]
      generalize hcheck : checkCmd rs cmd = t
      exact Task.Respects.bind (command_respects rs cmd hcheck) fun _ => trivial

theorem AdminJob.Query.words {j : AdminJob} (h : j.Query) :
    ∃ rs cmd w word args, j = .command rs cmd ∧ cmdWords cmd = w :: args
      ∧ CmdWord.ofString w = some word ∧ (word = .ipBlocker ∨ word = .ipChanges)
      ∧ args[1]? ≠ some "-" := by
  cases h with
  | @ipBlocker rs cmd args h hargs =>
      obtain ⟨w, hw, hwords⟩ := h
      exact ⟨rs, cmd, w, _, args, rfl, hwords, CmdWord.ofString_eq_some.mpr hw, .inl rfl, hargs⟩
  | @ipChanges rs cmd args h hargs =>
      obtain ⟨w, hw, hwords⟩ := h
      exact ⟨rs, cmd, w, _, args, rfl, hwords, CmdWord.ofString_eq_some.mpr hw, .inr rfl, hargs⟩

/-- A query only sweeps. -/
theorem AdminJob.Query.hidden {j : AdminJob} (h : j.Query) (x : External) :
    (j.task x).Hidden fun e s s' => Shared.Swept e.now s s' := by
  generalize htask : j.task x = t
  obtain ⟨rs, cmd, w, word, args, rfl, hwords, hword, hquery, hargs⟩ := h.words
  dsimp only [AdminJob.task] at htask
  unfold checkCmd at htask
  rw [hwords] at htask
  dsimp only at htask
  rw [hword] at htask
  rcases hquery with rfl | rfl
  · subst htask
    rintro e s _ ⟨pm, hpm, rfl⟩
    refine ⟨⟨pm, ?_, rfl⟩, trivial⟩
    dsimp only
    rw [IpBlockMap.command_snd _ _ hargs]
    exact ⟨hpm.rest, hpm.ipBlocker.retain, hpm.ipChanges⟩
  · subst htask
    rintro e s _ ⟨pm, hpm, rfl⟩
    refine ⟨⟨pm, ?_, rfl⟩, trivial⟩
    dsimp only
    rw [IpChangesMap.command_snd _ _ hargs]
    exact ⟨hpm.rest, hpm.ipBlocker, hpm.ipChanges.retain⟩

/-! ## The two runs -/

section runs
variable {ι κ : Type}

/-- Any number of registrations and commands on one server. -/
def adminPool (x : External) (jobs : ι → AdminJob) (s : Shared) :
    Pool ι Env CmdOp Shared fun _ => AdminJob.Answer where
  tasks i := (jobs i).task x
  shared := s

theorem decisions_congr {jobs : ι → AdminJob} {es es' : List (ι × Event Env CmdOp Shared)}
    (h : List.Forall₂ (fun y y' => y.1 = y'.1 ∧ (jobs y.1).SameDecision y.2 y'.2) es es') :
    decisions jobs es = decisions jobs es' := by
  unfold decisions
  induction h with
  | nil => rfl
  | @cons y y' es es' hy _ ih =>
      obtain ⟨hjob, hdecision⟩ := hy
      rw [List.filterMap_cons, List.filterMap_cons, ih, ← hjob, hdecision]

variable [DecidableEq ι] [DecidableEq κ]

/-- The run of the jobs and the queries that a schedule leads to. -/
def withQueries (x : External) (jobs : ι → AdminJob) (queries : κ → AdminJob) (s : Shared)
    (schedule : List ((ι ⊕ κ) × Env)) :
    List ((ι ⊕ κ) × Event Env CmdOp Shared)
      × Pool (ι ⊕ κ) Env CmdOp Shared fun _ => AdminJob.Answer :=
  (adminPool x (Sum.elim jobs queries) s).play schedule

/-- The same run without the queries. -/
def withoutQueries (x : External) (jobs : ι → AdminJob) (s : Shared)
    (schedule : List ((ι ⊕ κ) × Env)) :
    List (ι × Event Env CmdOp Shared) × Pool ι Env CmdOp Shared fun _ => AdminJob.Answer :=
  (adminPool x jobs s).play (others schedule)

/-- **Status queries.** Queries before which no job misses an entry that still
counts change no decision of `check_ip_blocker` and no other result, and an
`ip-changes` at any later time reports the same. -/
theorem queries_transparent (x : External) {jobs : ι → AdminJob} {queries : κ → AdminJob}
    (hqueries : ∀ k, (queries k).Query) (s : Shared) {schedule : List ((ι ⊕ κ) × Env)}
    (hclock : schedule.Pairwise fun y z => y.2.now ≤ z.2.now)
    (hkept : ∀ y ∈ (others (withQueries x jobs queries s schedule).1).zip
      (withoutQueries x jobs s schedule).1, (jobs y.1.1).Unswept y.1.2 y.2.2) :
    decisions jobs (others (withQueries x jobs queries s schedule).1)
        = decisions jobs (withoutQueries x jobs s schedule).1
      ∧ (∀ i, (withQueries x jobs queries s schedule).2.tasks (.inl i)
        = (withoutQueries x jobs s schedule).2.tasks i)
      ∧ ∀ now fds, (∀ y ∈ schedule, y.2.now ≤ now) →
        ((withQueries x jobs queries s schedule).2.shared.pm.ipChanges.command now fds).1
          = ((withoutQueries x jobs s schedule).2.shared.pm.ipChanges.command now fds).1 := by
  have hmono (e e' : Env) (u u' : Shared) (hle : e.now ≤ e'.now) (hu : u.Swept e.now u') :
      u.Swept e'.now u' := by
    obtain ⟨pm, hpm, rfl⟩ := hu
    exact ⟨pm, hpm.mono hle, rfl⟩
  have hjobs (i : ι) : (jobs i).Respects ((jobs i).task x) := (jobs i).task_respects x
  unfold AdminJob.Respects at hjobs
  have hstart (e : Env) : s.Swept e.now s := ⟨_, .refl _ _, rfl⟩
  have hbeside := Pool.play_beside (p := adminPool x (Sum.elim jobs queries) s) hmono hstart hjobs
    (fun k => (hqueries k).hidden x) hclock hkept
  refine ⟨decisions_congr hbeside.events, hbeside.tasks, fun now fds hnow => ?_⟩
  have hswept := hbeside.shared { now } hnow
  rw [withQueries, IpChangesMap.command_swept hswept.pm.ipChanges]
  rfl

end runs

/-! The owner of an id comes back from one address after the other. -/

def roaming (i : Fin 2) : AdminJob :=
  .register ⟨{ id := "123456", uuid := [1], pk := [2] },
    ⟨.v4 (BitVec.ofNat 32 (0x0A000002 + i)), 50000⟩, false⟩

def asked (cmd : String) : Unit → AdminJob := fun _ => .command {} cmd

/-- The second registration comes two seconds after the first one, and the query
in between. -/
def roamingSchedule : List ((Fin 2 ⊕ Unit) × Env) :=
  List.replicate 10 (.inl 0, { now := 0 })
    ++ (.inr (), { now := 1000000000 }) :: List.replicate 8 (.inl 1, { now := 2000000000 })

theorem roaming_clock : roamingSchedule.Pairwise fun y z => y.2.now ≤ z.2.now := by decide

/-- An `ip-blocker` in between sweeps nothing. -/
theorem queries_transparent_roaming :
    ((withQueries (.sample []) roaming (asked "ib") (.start ownedDb)
        roamingSchedule).2.shared.pm.ipChanges.command 3000000000 []).1
      = ((withoutQueries (.sample []) roaming (.start ownedDb)
        roamingSchedule).2.shared.pm.ipChanges.command 3000000000 []).1 := by
  have hwords : cmdWords "ib" = ["ib"] := by decide +kernel
  have hqueries (k : Unit) : (asked "ib" k).Query :=
    .ipBlocker ⟨"ib", by decide, hwords⟩ (by simp)
  have hkept : ∀ y ∈ (others (withQueries (.sample []) roaming (asked "ib") (.start ownedDb)
      roamingSchedule).1).zip (withoutQueries (.sample []) roaming (.start ownedDb)
        roamingSchedule).1, (roaming y.1.1).Unswept y.1.2 y.2.2 := by
    decide +kernel
  have htransparent := queries_transparent _ hqueries _ roaming_clock hkept
  exact htransparent.2.2 _ [] (by decide)

theorem IpChangesMap.command_fst_len (m : IpChangesMap) (now : Instant) :
    ∃ lines, (m.command now []).1 = .ipChanges (m.sweep now).entries.length lines := ⟨_, rfl⟩

/-- An `ip-changes` in between makes the server forget the first address. -/
theorem roaming_forgotten :
    (∀ k, (asked "ic" k).Query) ∧ (roamingSchedule.Pairwise fun y z => y.2.now ≤ z.2.now)
      ∧ (∀ y ∈ roamingSchedule, y.2.now ≤ 3000000000)
      ∧ ((withQueries (.sample []) roaming (asked "ic") (.start ownedDb)
          roamingSchedule).2.shared.pm.ipChanges.command 3000000000 []).1
        ≠ ((withoutQueries (.sample []) roaming (.start ownedDb)
          roamingSchedule).2.shared.pm.ipChanges.command 3000000000 []).1 := by
  have hwords : cmdWords "ic" = ["ic"] := by decide +kernel
  have hlen : ((withQueries (.sample []) roaming (asked "ic") (.start ownedDb)
        roamingSchedule).2.shared.pm.ipChanges.sweep 3000000000).entries.length = 0
      ∧ ((withoutQueries (.sample []) roaming (.start ownedDb)
        roamingSchedule).2.shared.pm.ipChanges.sweep 3000000000).entries.length = 1 := by
    decide +kernel
  refine ⟨fun _ => .ipChanges ⟨"ic", by decide, hwords⟩ (by simp), roaming_clock, by decide, ?_⟩
  intro heq
  obtain ⟨lines, hwith⟩ := IpChangesMap.command_fst_len (withQueries (.sample []) roaming
    (asked "ic") (.start ownedDb) roamingSchedule).2.shared.pm.ipChanges 3000000000
  obtain ⟨lines', hwithout⟩ := IpChangesMap.command_fst_len (withoutQueries (.sample []) roaming
    (.start ownedDb) roamingSchedule).2.shared.pm.ipChanges 3000000000
  rw [hwith, hwithout, hlen.1, hlen.2] at heq
  cases heq

end KustDesk
