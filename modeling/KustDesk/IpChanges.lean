import KustDesk.HbbsPeers
import KustDesk.NatPort

/-!
# KustDesk — IpChanges

What `ip-changes` reports: how often, and from where, a peer has registered
anew since its window was opened, in any run of hbbs.
-/

namespace KustDesk

open Async

/-! ## The table -/

/-- What becomes of `IP_CHANGES`: a registration records a change of address, or
a command is served. -/
inductive ChangesOp where
  | record (now : Instant) (id ip : String)
  | command (now : Instant) (fds : List String)

def IpChangesMap.apply (m : IpChangesMap) : ChangesOp → IpChangesMap
  | .record now id ip => m.record now id ip
  | .command now fds => (m.command now fds).2

/-- The addresses to which the id has changed, in order. -/
def changesOf (id : String) (hist : List ChangesOp) : List String :=
  hist.filterMap fun
    | .record _ id' ip => if id' = id then some ip else none
    | .command .. => none

@[simp] theorem changesOf_nil (id : String) : changesOf id [] = [] := rfl

@[simp] theorem changesOf_record (id : String) (now : Instant) (ip : String)
    (hist : List ChangesOp) :
    changesOf id (.record now id ip :: hist) = ip :: changesOf id hist := by
  simp [changesOf]

@[simp] theorem changesOf_append (id : String) (hist hist' : List ChangesOp) :
    changesOf id (hist ++ hist') = changesOf id hist ++ changesOf id hist' :=
  List.filterMap_append

/-- How often each key is in the list. -/
def Tally (ips : HashMap String Nat) (l : List String) : Prop :=
  ∀ ip, ips.lookup ip = if ip ∈ l then some (l.count ip) else none

theorem Tally.single (ip : String) : Tally ((∅ : HashMap String Nat).insert ip 1) [ip] := by
  intro ip'
  by_cases hip : ip' = ip
  · subst hip
    rw [AList.lookup_insert]
    simp
  · rw [AList.lookup_insert_ne hip, AList.lookup_empty]
    simp [hip]

theorem Tally.add {ips : HashMap String Nat} {l : List String} (h : Tally ips l) (ip : String) :
    Tally (ips.insert ip ((ips.lookup ip).getD 0 + 1)) (l ++ [ip]) := by
  intro ip'
  by_cases hip : ip' = ip
  · subst hip
    rw [AList.lookup_insert, h ip']
    by_cases hmem : ip' ∈ l
    · simp [hmem]
    · simp [hmem, List.count_eq_zero_of_not_mem hmem]
  · have hne : ip ≠ ip' := fun heq => hip heq.symm
    rw [AList.lookup_insert_ne hip, h ip']
    simp [hip, List.count_append, hne]

/-- The entry of an id: its window was opened by the first change in it, the
others came within 180 whole seconds of that, and all of them are counted. -/
def Window (hist : List ChangesOp) (id : String) (v : Instant × HashMap String Nat) : Prop :=
  ∃ before first after, hist = before ++ .record v.1 id first :: after
    ∧ (∀ now ip, .record now id ip ∈ after →
      Instant.asSecs (Instant.elapsed now v.1) ≤ ipChangeDur)
    ∧ Tally v.2 (changesOf id (.record v.1 id first :: after))

/-- After every change of the id there has been a command. -/
def Gone (hist : List ChangesOp) (id : String) : Prop :=
  ∀ before now ip after, hist = before ++ .record now id ip :: after →
    ∃ now fds, .command now fds ∈ after

/-- The table tells what has happened. -/
structure ChangesTold (hist : List ChangesOp) (m : IpChangesMap) : Prop where
  window : ∀ id v, m.lookup id = some v → Window hist id v
  gone : ∀ id, m.lookup id = none → Gone hist id

section table
variable {hist : List ChangesOp} {m : IpChangesMap} {id : String}
  {v : Instant × HashMap String Nat}

/-- What concerns others leaves the window as it is. -/
theorem Window.other (h : Window hist id v) {op : ChangesOp}
    (hop : ∀ now ip, op ≠ .record now id ip) : Window (hist ++ [op]) id v := by
  obtain ⟨before, first, after, rfl, hrecent, htally⟩ := h
  refine ⟨before, first, after ++ [op], by simp, fun now ip hmem => ?_, ?_⟩
  · rcases List.mem_append.mp hmem with hmem | hmem
    · exact hrecent now ip hmem
    · exact (hop now ip (List.mem_singleton.mp hmem).symm).elim
  · have hnone : changesOf id [op] = [] := by
      cases op with
      | record now id' ip =>
          have hne : id' ≠ id := fun hid => hop now ip (by rw [hid])
          simp [changesOf, hne]
      | command now fds => rfl
    rw [← List.cons_append, changesOf_append, hnone, List.append_nil]
    exact htally

theorem Window.opened (hist : List ChangesOp) (id : String) (now : Instant) (ip : String) :
    Window (hist ++ [.record now id ip]) id (now, (∅ : HashMap String Nat).insert ip 1) := by
  refine ⟨hist, ip, [], rfl, fun now ip hmem => (by cases hmem), ?_⟩
  rw [changesOf_record, changesOf_nil]
  exact Tally.single ip

theorem Window.extended {tm now : Instant} {ips : HashMap String Nat} (h : Window hist id (tm, ips))
    (hrecent : Instant.asSecs (Instant.elapsed now tm) ≤ ipChangeDur) (ip : String) :
    Window (hist ++ [.record now id ip]) id (tm, ips.insert ip ((ips.lookup ip).getD 0 + 1)) := by
  obtain ⟨before, first, after, rfl, hwithin, htally⟩ := h
  refine ⟨before, first, after ++ [.record now id ip], by simp, fun now' ip' hmem => ?_, ?_⟩
  · rcases List.mem_append.mp hmem with hmem | hmem
    · exact hwithin now' ip' hmem
    · cases List.mem_singleton.mp hmem
      exact hrecent
  · rw [← List.cons_append, changesOf_append, changesOf_record id now]
    exact htally.add ip

theorem Gone.other (h : Gone hist id) {op : ChangesOp} (hop : ∀ now ip, op ≠ .record now id ip) :
    Gone (hist ++ [op]) id := by
  intro before now ip after heq
  rcases snoc_eq_split heq with ⟨-, hsame, -⟩ | ⟨after', hold, rfl⟩
  · exact (hop now ip hsame).elim
  · obtain ⟨now', fds, hmem⟩ := h before now ip after' hold
    exact ⟨now', fds, List.mem_append_left _ hmem⟩

theorem gone_command (hist : List ChangesOp) (id : String) (now : Instant) (fds : List String) :
    Gone (hist ++ [.command now fds]) id := by
  intro before now' ip after heq
  rcases snoc_eq_split heq with ⟨-, hsame, -⟩ | ⟨after', -, rfl⟩
  · cases hsame
  · exact ⟨now, fds, by simp⟩

/-- One change, by the entry that is there. -/
theorem IpChangesMap.record_eq (m : IpChangesMap) (now : Instant) (id ip : String) :
    m.record now id ip = m.insert id ((m.lookup id).elim (now, (∅ : HashMap String Nat).insert ip 1)
      fun v => if Instant.asSecs (Instant.elapsed now v.1) > ipChangeDur then
          (now, (∅ : HashMap String Nat).insert ip 1)
        else (v.1, v.2.insert ip ((v.2.lookup ip).getD 0 + 1))) := by
  unfold record
  cases m.lookup id with
  | none => rfl
  | some v =>
      obtain ⟨tm, ips⟩ := v
      dsimp only [Option.elim_some]
      split
      · rfl
      · cases ips.lookup ip <;> rfl

theorem ChangesTold.record (h : ChangesTold hist m) (now : Instant) (id ip : String) :
    ChangesTold (hist ++ [.record now id ip]) (m.record now id ip) := by
  rw [IpChangesMap.record_eq]
  refine ⟨fun id' v hv => ?_, fun id' hnone => ?_⟩
  · by_cases hid : id' = id
    · subst hid
      rw [AList.lookup_insert] at hv
      cases hv
      cases hlookup : m.lookup id' with
      | none => exact Window.opened hist id' now ip
      | some v =>
          obtain ⟨tm, ips⟩ := v
          dsimp only [Option.elim_some]
          split
          · exact Window.opened hist id' now ip
          · rename_i hrecent
            exact (h.window id' _ hlookup).extended (Nat.le_of_not_lt hrecent) ip
    · rw [AList.lookup_insert_ne hid] at hv
      exact (h.window id' v hv).other fun now ip heq => by cases heq; exact hid rfl
  · by_cases hid : id' = id
    · subst hid
      rw [AList.lookup_insert] at hnone
      cases hnone
    · rw [AList.lookup_insert_ne hid] at hnone
      exact (h.gone id' hnone).other fun now ip heq => by cases heq; exact hid rfl

/-- A command takes entries out, and leaves the others as they are. -/
theorem IpChangesMap.command_lookup {now : Instant} {fds : List String}
    (h : (m.command now fds).2.lookup id = some v) : m.lookup id = some v := by
  have hsweep : (m.sweep now).lookup id = some v → m.lookup id = some v := by
    intro hv
    rw [sweep, HashMap.lookup_retain] at hv
    exact (Option.filter_eq_some_iff.mp hv).1
  cases fds with
  | nil => exact hsweep h
  | cons key rest =>
      unfold command cmdTable at h
      dsimp only at h
      split at h
      · by_cases hid : id = key
        · subst hid
          rw [AList.lookup_erase] at h
          cases h
        · rw [AList.lookup_erase_ne hid] at h
          exact hsweep h
      · exact hsweep h

theorem ChangesTold.command (h : ChangesTold hist m) (now : Instant) (fds : List String) :
    ChangesTold (hist ++ [.command now fds]) (m.command now fds).2 where
  window id v hv := (h.window id v (IpChangesMap.command_lookup hv)).other
    fun now ip heq => by cases heq
  gone id _ := gone_command hist id now fds

theorem changesTold_start : ChangesTold [] (∅ : IpChangesMap) where
  window id v hv := by cases hv
  gone id _ before now ip after heq := by simp at heq

end table

/-! ## The steps on the table -/

/-- A step on `IP_CHANGES` records a change, and the others leave it alone. -/
structure PmChanges (ev : Event Env PmOp PeerMap) : Prop where
  record : ev.op = .ipChanges → ∃ id ip,
    ev.post.ipChanges = ev.pre.ipChanges.record ev.env.now id ip
  other : ev.op ≠ .ipChanges → ev.post.ipChanges = ev.pre.ipChanges

/-- The effect of a step that is not on the table. -/
theorem PmOp.effect.ipChanges {op : PmOp} {e : Env} {s s' : PeerMap} (h : op.effect e s s')
    (hop : op ≠ .ipChanges) : s'.ipChanges = s.ipChanges := by
  rcases h.cases with ⟨id, p, -, rfl⟩ | ⟨-, peer, p, rfl⟩ | ⟨-, db, ipBlocker, rfl⟩ | ⟨hrecord, -⟩
  · rfl
  · rfl
  · rfl
  · exact (hop hrecord).elim

section registration
variable {x : External} {es : List (Event Env PmOp PeerMap)} {ev : Event Env PmOp PeerMap}

/-- Before a registration records its change, it has found the peer with its
uuid and another address. -/
structure ChangeSeen (rk : RegisterPk) (ip : String) (es : List (Event Env PmOp PeerMap))
    (ev : Event Env PmOp PeerMap) : Prop where
  record : ev.op = .ipChanges →
    ev.post.ipChanges = ev.pre.ipChanges.record ev.env.now rk.id ip
      ∧ (∀ ev' ∈ es, ev'.op ≠ .ipChanges)
      ∧ ∃ ev' ∈ es, ∃ peer, ev'.op = .checkUuid peer
        ∧ (ev'.pre.peers peer).uuid = rk.uuid ∧ (ev'.pre.peers peer).info.ip ≠ ip
  other : ev.op ≠ .ipChanges → ev.post.ipChanges = ev.pre.ipChanges

theorem PmMove.recorded {reg : Option (RegisterPk × SocketAddr)} (h : PmMove x reg es ev)
    (hop : ev.op = .ipChanges) : ∃ rk addr, reg = some (rk, addr) ∧ Unrecorded es
      ∧ ChangeFound es rk addr.ip.toString
      ∧ ev.post.ipChanges = ev.pre.ipChanges.record ev.env.now rk.id addr.ip.toString := by
  cases h with
  | look hreads =>
      have hread := hreads.reads
      rw [hop] at hread
      cases hread
  | change hreg hfirst hfound => exact ⟨_, _, hreg, hfirst, hfound, rfl⟩
  | _ => cases hop

/-- A registration records one change at most, its own, and only of a peer that
it has found with its uuid and another address. -/
theorem PmMove.changeSeen {rk : RegisterPk} {addr : SocketAddr}
    (h : PmMove x (some (rk, addr)) es ev) : ChangeSeen rk addr.ip.toString es ev := by
  refine ⟨fun hop => ?_, PmOp.effect.ipChanges h.effect⟩
  obtain ⟨rk', addr', heq, hfirst, hfound, hpost⟩ := h.recorded hop
  cases heq
  exact ⟨hpost, hfirst, hfound⟩

theorem PmCall.changes {α : Type} {t : PmTask α} (h : PmCall x t) : t.All PmChanges := by
  obtain ⟨reg, hmoves⟩ := h.moves
  refine hmoves.all fun es ev hev => ⟨fun hop => ?_, PmOp.effect.ipChanges hev.effect⟩
  obtain ⟨rk, addr, -, -, -, hpost⟩ := hev.recorded hop
  exact ⟨rk.id, addr.ip.toString, hpost⟩

end registration

/-! ## The report -/

section Run
variable {ι : Type} [DecidableEq ι] {cfg : Config} {turns : List Ready} {jobs : ι → HbbsJob}
  {w : Hbbs} {es : List (Option ι × HbbsEvent)}
  {q : Pool (Option ι) Env HbbsOp Hbbs fun _ => Unit}

theorem pmChanges_keeps : PmKeeps PmChanges where
  call h := h.changes
  punch id peer e s := ⟨fun hop => (by cases hop), fun _ => rfl⟩

/-- A step under the lock of `IP_CHANGES`. -/
def HbbsOp.onChanges : HbbsOp → Bool
  | .server (.pm .ipChanges) | .setting .ipChanges => true
  | _ => false

/-- What the step has done to the table: a change is recorded, or the command is
one from the host. -/
def RecordedAs (cfg : Config) (jobs : ι → HbbsJob) (x : Option ι × HbbsEvent) (op : ChangesOp) :
    Prop :=
  x.2.post.shared.pm.ipChanges = x.2.pre.shared.pm.ipChanges.apply op
    ∧ match op with
      | .record now _ _ => x.2.op = .server (.pm .ipChanges) ∧ x.2.env.now = now
      | .command now fds => x.2.op = .setting .ipChanges ∧ x.2.env.now = now
        ∧ ∃ cmd, Administers cfg jobs x.1 cmd ∧ CmdIs cmd .ipChanges fds

/-- A step of the server leaves the peer map alone, unless its label says otherwise. -/
theorem Op.effect.pm {op : Op} {s s' : Shared} (h : op.effect s s') (hop : op.isPm = false) :
    s'.pm = s.pm := by
  cases op with
  | pm op => cases hop
  | _ =>
      cases h
      rfl

theorem CmdWord.run_ipChanges {word : CmdWord} (hword : word ≠ .ipChanges) (e : Env) (s : Shared)
    (fds : List String) : (word.run e s fds).pm.ipChanges = s.pm.ipChanges := by
  cases word with
  | ipChanges => exact (hword rfl).elim
  | alwaysUseRelay => cases fds <;> rfl
  | mustLogin => cases fds <;> rfl
  | _ => rfl

/-- A step either is none on the table or one of the two. -/
theorem hbbs_changes (h : (hbbs cfg turns jobs w).Run es q) {i : Option ι} {ev : HbbsEvent}
    (hev : (i, ev) ∈ es) :
    (ev.op.onChanges = false ∧ ev.post.shared.pm.ipChanges = ev.pre.shared.pm.ipChanges)
    ∨ ∃ op, ev.op.onChanges = true ∧ RecordedAs cfg jobs (i, ev) op := by
  have hpm {op : PmOp} (hop : ev.op = .server (.pm op)) :
      PmChanges ⟨op, ev.env, ev.pre.shared.pm, ev.post.shared.pm⟩ :=
    (hbbs_pm_all pmChanges_keeps h hev).1 op (by rw [hop]; rfl)
  have heffect : ev.op.effect cfg.x ev.env ev.pre ev.post := hbbs_effect h hev
  by_cases hrecord : ev.op = .server (.pm .ipChanges)
  · obtain ⟨id, ip, hpost⟩ := (hpm hrecord).record rfl
    exact .inr ⟨.record ev.env.now id ip, by rw [hrecord]; rfl, hpost, hrecord, rfl⟩
  by_cases hsetting : ev.op = .setting .ipChanges
  · cases i with
    | none =>
        have hmain := (hbbs_main_effect h hev).ofMain
        rw [hsetting] at hmain
        cases hmain
    | some j =>
        obtain ⟨c, cmd, fds, hjob, hlocal, hcmd, his, hpost⟩ :=
          (hbbs_job_step h hev).of_setting hsetting
        refine .inr ⟨.command ev.env.now fds, by rw [hsetting]; rfl, ?_, hsetting, rfl, cmd,
          ⟨j, c, rfl, hjob, hlocal, hcmd⟩, his⟩
        rw [hpost]
        rfl
  refine .inl ⟨?_, ?_⟩
  · unfold HbbsOp.onChanges
    split
    · exact (hrecord (by assumption)).elim
    · exact (hsetting (by assumption)).elim
    · rfl
  · rcases heffect.shared with hsame | ⟨op, hop, hserver⟩ | ⟨word, fds, hop, hrun⟩
    · rw [hsame]
    · cases op with
      | pm op =>
          refine (hpm hop).other fun heq => hrecord ?_
          rw [hop, show op = .ipChanges from heq]
      | _ => rw [hserver.pm rfl]
    · rw [hrun]
      exact CmdWord.run_ipChanges (fun heq => hsetting (by rw [hop, heq])) _ _ _

/-- The steps under the lock, and what they have done. -/
theorem hbbs_changes_history (h : (hbbs cfg turns jobs w).Run es q)
    (hempty : w.shared.pm.ipChanges = ∅) : ∃ hist,
      List.Forall₂ (RecordedAs cfg jobs) (es.filter fun x => x.2.op.onChanges) hist
        ∧ ChangesTold hist q.shared.shared.pm.ipChanges := by
  refine h.invariant (J := fun es w => ∃ hist,
    List.Forall₂ (RecordedAs cfg jobs) (es.filter fun x => x.2.op.onChanges) hist
      ∧ ChangesTold hist w.shared.pm.ipChanges)
    ⟨[], .nil, (congrArg _ hempty).mpr changesTold_start⟩ ?_
  rintro es q i e op f k hrun hi ⟨hist, hmatch, htold⟩
  have hlast := hbbs_changes (hrun.step i e hi) (List.mem_concat_self ..)
  rw [List.filter_append, List.filter_cons, List.filter_nil]
  rcases hlast with ⟨hop, hsame⟩ | ⟨op', hop, hrecorded⟩
  · rw [hop]
    dsimp only at hsame
    rw [hsame]
    exact ⟨hist, by simpa using hmatch, htold⟩
  · rw [hop]
    have hpost := hrecorded.1
    dsimp only at hpost
    rw [hpost]
    refine ⟨hist ++ [op'], List.rel_append hmatch (.cons hrecorded .nil), ?_⟩
    cases op' with
    | record now id ip => exact htold.record now id ip
    | command now fds => exact htold.command now fds

/-- **The report is true.** In every run of hbbs, the table behind `ip-changes`
is that of the changes recorded so far: the entry of an id counts, for each
address, the changes of the id to it since the first one in its window, the
last of them no more than 180 whole seconds later, and an id is without an entry
only if a command has come since its last change. A registration records one
change at most, and only after it has found the peer with its uuid and another
address. -/
theorem changes_counted (h : (hbbs cfg turns jobs w).Run es q)
    (hempty : w.shared.pm.ipChanges = ∅) :
    (∃ hist, List.Forall₂ (RecordedAs cfg jobs) (es.filter fun x => x.2.op.onChanges) hist
      ∧ (∀ id v, q.shared.shared.pm.ipChanges.lookup id = some v → Window hist id v)
      ∧ ∀ id, q.shared.shared.pm.ipChanges.lookup id = none → Gone hist id)
    ∧ ∀ rk addr ws es' t, (handleRegisterPk cfg.x rk addr ws).Path es' t →
      ∀ es₁ ev es₂, es' = es₁ ++ ev :: es₂ → ChangeSeen rk addr.ip.toString es₁ ev := by
  obtain ⟨hist, hmatch, htold⟩ := hbbs_changes_history h hempty
  refine ⟨⟨hist, hmatch, htold.window, htold.gone⟩, ?_⟩
  intro rk addr ws es' t hpath es₁ ev es₂ hes
  exact (((handleRegisterPk_moves cfg.x rk addr ws).path hpath).1 es₁ ev es₂ hes).changeSeen

end Run

/-! A peer that has moved registers anew. -/

def movedConfig : Config where
  x := .sample [([1], .registerPk { id := "123456", uuid := [1], pk := [2] })]
  key := ""
  secret := ""

def movedFrom : PeerMap :=
  ((PeerMap.new .empty).enter "123456"
    { Peer.default 0 0 with uuid := [1], pk := [2], info := { ip := "10.0.0.2" } }).2

def moved : Pool (Option Empty) Env HbbsOp Hbbs fun _ => Unit :=
  hbbs movedConfig [.datagram [1] registeredAddr] (fun i => i.elim)
    { shared := { Shared.start .empty with pm := movedFrom }, main := oneRelay }

def movedSteps : List (Option Empty × Env) := adminSchedule (List.replicate 9 none)

theorem changes_counted_moved : ∃ es q hist v, moved.Run es q
    ∧ q.shared.shared.pm.ipChanges.lookup "123456" = some v
    ∧ v.2.lookup "10.0.0.1" = some 1 ∧ Window hist "123456" v := by
  have hrun := Pool.play_run moved movedSteps
  obtain ⟨⟨hist, -, hwindow, -⟩, -⟩ := changes_counted hrun rfl
  have hcount : ((moved.play movedSteps).2.shared.shared.pm.ipChanges.lookup "123456").bind
      (fun v => v.2.lookup "10.0.0.1") = some 1 := by decide +kernel
  obtain ⟨v, hv, hv'⟩ := Option.bind_eq_some_iff.mp hcount
  exact ⟨_, _, hist, v, hrun, hv, hv', hwindow _ _ hv⟩

end KustDesk
