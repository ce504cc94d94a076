import KustDesk.Record
import KustDesk.Async.Control

/-!
# KustDesk — RegisterSteps

A registration as a machine: where it stands between two steps, and what
each step does to the record of its id while other registrations of the id
run in between.
-/

namespace KustDesk

open Async

/-! ## Program counters -/

/-- Where a registration stands. -/
inductive RegPc where
  | start
  | lookup
  | query
  | insert (v : DbPeer) (since : Instant)
  | entry
  | check (peer : LockPeer)
  | count (peer : LockPeer) (changed ipChanged : Bool)
  | note (peer : LockPeer) (regPk : Nat × Instant) (changed ipChanged : Bool)
  | ipChange (peer : LockPeer) (changed : Bool)
  | write (peer : LockPeer)
  | insertRow (peer : LockPeer) (info : String)
  | updateRow (peer : LockPeer) (guid : Bytes) (info : String)
  | writeGuid (peer : LockPeer) (guid : Bytes)
  | done (r : Except RegisterPkResult RegisterPkResult)

/-- `get` from the query on. -/
def PeerMap.load (x : External) (id : String) : PmTask (Option LockPeer) := do
  let row ← Task.look (.getPeer id) fun e s =>
    if e.fails then none else (s.db.getPeer id).map fun v => (v, e.now)
  match row with
  | some (v, now) =>
    let peer ← Task.act (.mapInsert id now) fun e s =>
      s.enter id (ofRow x v e.earliest now)
    return some peer
  | none => return none

/-- `get_or` from the result of `get` on. -/
def PeerMap.orEnter (id : String) : Option LockPeer → PmTask LockPeer
  | some peer => return peer
  | none => Task.act (.mapEntry id) fun e s =>
      match s.map.lookup id with
      | some peer => (peer, s)
      | none => s.enter id (.default e.earliest e.now)

namespace RegCall

variable (x : External) (c : RegCall)

/-- The call from the insertion into the database on. -/
def insertRow (peer : LockPeer) (info : String) :
    PmTask (Except RegisterPkResult RegisterPkResult) := do
  let _ ← (do
    let res ← Task.act (.insertPeer c.id c.rk.uuid c.rk.pk info) fun e s =>
      if e.fails then (none, s) else
      match s.db.insertPeer e.guid.1 c.id c.rk.uuid c.rk.pk info with
      | some db => (some e.guid.1, { s with db := db })
      | none => (none, s)
    match res with
    | none => return .serverError
    | some guid =>
      Task.act (.writeGuid peer) fun _ s => ((), s.set peer { s.peers peer with guid })
      return .ok : PmTask RegisterPkResult)
  return .ok .ok

/-- The call from the update of the row on. -/
def updateRow (guid : Bytes) (info : String) :
    PmTask (Except RegisterPkResult RegisterPkResult) := do
  let _ ← (do
    let res ← Task.act (.updatePk guid c.id c.rk.pk info) fun e s =>
      if e.fails then (none, s) else
      match s.db.updatePk guid c.id c.rk.pk info with
      | some db => (some (), { s with db := db })
      | none => (none, s)
    match res with
    | none => return .serverError
    | some _ => return .ok : PmTask RegisterPkResult)
  return .ok .ok

/-- The call from the new row on. -/
def keepGuid (peer : LockPeer) (guid : Bytes) :
    PmTask (Except RegisterPkResult RegisterPkResult) := do
  Task.act (.writeGuid peer) fun _ s => ((), s.set peer { s.peers peer with guid })
  return .ok .ok

/-- What a call has still to do. -/
def prog : RegPc → PmTask (Except RegisterPkResult RegisterPkResult)
  | .start => checkIpBlocker c.ip c.id >>= fun allowed =>
      if !allowed then return .error .tooFrequent else PeerMap.getOr x c.id >>= c.settle x
  | .lookup => PeerMap.getOr x c.id >>= c.settle x
  | .query => PeerMap.load x c.id >>= PeerMap.orEnter c.id >>= c.settle x
  | .insert v since => Task.act (.mapInsert c.id since) (fun e s =>
      s.enter c.id (PeerMap.ofRow x v e.earliest since)) >>= c.settle x
  | .entry => PeerMap.orEnter c.id none >>= c.settle x
  | .check peer => c.settle x peer
  | .count peer changed ipChanged => c.limit x peer changed ipChanged
  | .note peer regPk changed ipChanged => c.note x peer regPk changed ipChanged
  | .ipChange peer changed => Task.act .ipChanges (fun e s =>
      ((), { s with ipChanges := s.ipChanges.record e.now c.id c.ip })) >>= fun _ =>
        c.finish x peer changed
  | .write peer => do
      let _ ← PeerMap.updatePk x c.id peer c.addr c.rk.uuid c.rk.pk c.ip
      return .ok .ok
  | .insertRow peer info => c.insertRow peer info
  | .updateRow _ guid info => c.updateRow guid info
  | .writeGuid peer guid => keepGuid peer guid
  | .done r => return r

end RegCall

namespace RegPc

/-- The handle that the registration works on. -/
def handle : RegPc → Option LockPeer
  | check peer | count peer _ _ | note peer _ _ _ | ipChange peer _ | write peer
  | insertRow peer _ | updateRow peer _ _ | writeGuid peer _ => some peer
  | _ => none

/-- The registration has not got a peer yet. -/
def idle : RegPc → Bool
  | start | lookup | query | entry => true
  | _ => false

/-- After the checks: the write, if there is something to write. -/
def finish (c : RegCall) (peer : LockPeer) (changed : Bool) : RegPc :=
  if changed || c.ws then .write peer else .done (.ok .ok)

end RegPc

theorem RegCall.prog_finish (x : External) (c : RegCall) (peer : LockPeer) (changed : Bool) :
    c.prog x (.finish c peer changed) = c.finish x peer changed := by
  unfold RegPc.finish RegCall.finish
  cases changed || c.ws <;> rfl

/-! ## The moves -/

/-- What a step of the call does to the peer map, and where it leads: one move
for each branch of the code. -/
inductive RegMove (x : External) (c : RegCall) (e : Env) (s : PeerMap) :
    RegPc → PmOp → PeerMap → RegPc → Prop
  | blocked : RegMove x c e s .start .ipBlocker
      { s with ipBlocker := (s.ipBlocker.check e.now c.ip c.id).2 } (.done (.error .tooFrequent))
  | allowed : RegMove x c e s .start .ipBlocker
      { s with ipBlocker := (s.ipBlocker.check e.now c.ip c.id).2 } .lookup
  | found {peer} (hlookup : s.map.lookup c.id = some peer) :
      RegMove x c e s .lookup (.mapRead c.id) s (.check peer)
  | missing : RegMove x c e s .lookup (.mapRead c.id) s .query
  | noRow : RegMove x c e s .query (.getPeer c.id) s .entry
  | row {v} (hrow : s.db.getPeer c.id = some v) :
      RegMove x c e s .query (.getPeer c.id) s (.insert v e.now)
  | inserted {v since} : RegMove x c e s (.insert v since) (.mapInsert c.id since)
      (s.enter c.id (PeerMap.ofRow x v e.earliest since)).2 (.check s.fresh)
  | occupied {peer} (hlookup : s.map.lookup c.id = some peer) :
      RegMove x c e s .entry (.mapEntry c.id) s (.check peer)
  | created (hlookup : s.map.lookup c.id = none) : RegMove x c e s .entry (.mapEntry c.id)
      (s.enter c.id (.default e.earliest e.now)).2 (.check s.fresh)
  | mismatch {peer} (hcheck : (s.peers peer).checkUuid c.rk c.ip = none) :
      RegMove x c e s (.check peer) (.checkUuid peer) s (.done (.error .uuidMismatch))
  | passed {peer changed ipChanged}
      (hcheck : (s.peers peer).checkUuid c.rk c.ip = some (changed, ipChanged)) :
      RegMove x c e s (.check peer) (.checkUuid peer) s (.count peer changed ipChanged)
  | tooFrequent {peer changed ipChanged} (hcount : countRegPk (s.peers peer).regPk e.now = none) :
      RegMove x c e s (.count peer changed ipChanged) (.readRegPk peer) s
        (.done (.error .tooFrequent))
  | counted {peer changed ipChanged regPk}
      (hcount : countRegPk (s.peers peer).regPk e.now = some regPk) :
      RegMove x c e s (.count peer changed ipChanged) (.readRegPk peer) s
        (.note peer regPk changed ipChanged)
  | noted {peer regPk changed ipChanged} :
      RegMove x c e s (.note peer regPk changed ipChanged) (.writeRegPk peer)
        (s.set peer { s.peers peer with regPk })
        (if ipChanged then .ipChange peer changed else .finish c peer changed)
  | ipChanged {peer changed} : RegMove x c e s (.ipChange peer changed) .ipChanges
      { s with ipChanges := s.ipChanges.record e.now c.id c.ip } (.finish c peer changed)
  | wrote {peer} : RegMove x c e s (.write peer) (.writePk c.id peer c.addr)
      (s.set peer (c.write (s.peers peer) e.now))
      (if (s.peers peer).guid = [] then .insertRow peer (c.info x)
        else .updateRow peer (s.peers peer).guid (c.info x))
  | insertFails {peer info}
      (hdb : e.fails = true ∨ s.db.insertPeer e.guid.1 c.id c.rk.uuid c.rk.pk info = none) :
      RegMove x c e s (.insertRow peer info) (.insertPeer c.id c.rk.uuid c.rk.pk info) s
        (.done (.ok .ok))
  | insertedRow {peer info db}
      (hdb : s.db.insertPeer e.guid.1 c.id c.rk.uuid c.rk.pk info = some db) :
      RegMove x c e s (.insertRow peer info) (.insertPeer c.id c.rk.uuid c.rk.pk info)
        { s with db } (.writeGuid peer e.guid.1)
  | updateFails {peer guid info}
      (hdb : e.fails = true ∨ s.db.updatePk guid c.id c.rk.pk info = none) :
      RegMove x c e s (.updateRow peer guid info) (.updatePk guid c.id c.rk.pk info) s
        (.done (.ok .ok))
  | updatedRow {peer guid info db} (hdb : s.db.updatePk guid c.id c.rk.pk info = some db) :
      RegMove x c e s (.updateRow peer guid info) (.updatePk guid c.id c.rk.pk info)
        { s with db } (.done (.ok .ok))
  | keptGuid {peer guid} : RegMove x c e s (.writeGuid peer guid) (.writeGuid peer)
      (s.set peer { s.peers peer with guid }) (.done (.ok .ok))

/-- The move at a counter, as `Controls` asks for it. -/
def RegCall.Moves (x : External) (c : RegCall) (pc : RegPc) (ev : Event Env PmOp PeerMap)
    (pc' : RegPc) : Prop :=
  RegMove x c ev.env ev.pre pc ev.op ev.post pc'

section moves
variable (x : External) (c : RegCall)

theorem RegCall.start_moves : ControlsAt (c.prog x) (c.Moves x) .start := by
  intro e s
  beta_reduce
  cases hallowed : (s.ipBlocker.check e.now c.ip c.id).1 with
  | true => exact ⟨.lookup, rfl, .allowed⟩
  | false => exact ⟨.done (.error .tooFrequent), rfl, .blocked⟩

theorem RegCall.lookup_moves : ControlsAt (c.prog x) (c.Moves x) .lookup := by
  intro e s
  beta_reduce
  cases hlookup : s.map.lookup c.id with
  | some peer => exact ⟨.check peer, rfl, .found hlookup⟩
  | none => exact ⟨.query, rfl, .missing⟩

theorem RegCall.query_moves : ControlsAt (c.prog x) (c.Moves x) .query := by
  intro e s
  beta_reduce
  cases hfails : e.fails with
  | true => exact ⟨.entry, rfl, .noRow⟩
  | false =>
      cases hrow : s.db.getPeer c.id with
      | none => exact ⟨.entry, rfl, .noRow⟩
      | some v => exact ⟨.insert v e.now, rfl, .row hrow⟩

theorem RegCall.entry_moves : ControlsAt (c.prog x) (c.Moves x) .entry := by
  intro e s
  beta_reduce
  cases hlookup : s.map.lookup c.id with
  | some peer => exact ⟨.check peer, rfl, .occupied hlookup⟩
  | none => exact ⟨.check s.fresh, rfl, .created hlookup⟩

theorem RegCall.check_moves (peer : LockPeer) :
    ControlsAt (c.prog x) (c.Moves x) (.check peer) := by
  intro e s
  beta_reduce
  cases hcheck : (s.peers peer).checkUuid c.rk c.ip with
  | none => exact ⟨.done (.error .uuidMismatch), rfl, .mismatch hcheck⟩
  | some checked =>
      obtain ⟨changed, ipChanged⟩ := checked
      exact ⟨.count peer changed ipChanged, rfl, .passed hcheck⟩

theorem RegCall.count_moves (peer : LockPeer) (changed ipChanged : Bool) :
    ControlsAt (c.prog x) (c.Moves x) (.count peer changed ipChanged) := by
  intro e s
  beta_reduce
  cases hcount : countRegPk (s.peers peer).regPk e.now with
  | none => exact ⟨.done (.error .tooFrequent), rfl, .tooFrequent hcount⟩
  | some regPk => exact ⟨.note peer regPk changed ipChanged, rfl, .counted hcount⟩

theorem RegCall.note_moves (peer : LockPeer) (regPk : Nat × Instant) (changed ipChanged : Bool) :
    ControlsAt (c.prog x) (c.Moves x) (.note peer regPk changed ipChanged) := by
  intro e s
  refine ⟨if ipChanged then .ipChange peer changed else .finish c peer changed, ?_, .noted⟩
  cases ipChanged with
  | true => rfl
  | false => exact (c.prog_finish x peer changed).symm

theorem RegCall.write_moves (peer : LockPeer) :
    ControlsAt (c.prog x) (c.Moves x) (.write peer) := by
  intro e s
  refine ⟨if (s.peers peer).guid = [] then .insertRow peer (c.info x)
    else .updateRow peer (s.peers peer).guid (c.info x), ?_, .wrote⟩
  show Async.Task.bind (if (s.peers peer).guid = [] then _ else _) _ = _
  split <;> rfl

theorem RegCall.insertRow_moves (peer : LockPeer) (info : String) :
    ControlsAt (c.prog x) (c.Moves x) (.insertRow peer info) := by
  intro e s
  beta_reduce
  cases hfails : e.fails with
  | true => exact ⟨.done (.ok .ok), rfl, .insertFails (.inl hfails)⟩
  | false =>
      cases hinsert : s.db.insertPeer e.guid.1 c.id c.rk.uuid c.rk.pk info with
      | none => exact ⟨.done (.ok .ok), rfl, .insertFails (.inr hinsert)⟩
      | some db => exact ⟨.writeGuid peer e.guid.1, rfl, .insertedRow hinsert⟩

theorem RegCall.updateRow_moves (peer : LockPeer) (guid : Bytes) (info : String) :
    ControlsAt (c.prog x) (c.Moves x) (.updateRow peer guid info) := by
  intro e s
  beta_reduce
  cases hfails : e.fails with
  | true => exact ⟨.done (.ok .ok), rfl, .updateFails (.inl hfails)⟩
  | false =>
      cases hupdate : s.db.updatePk guid c.id c.rk.pk info with
      | none => exact ⟨.done (.ok .ok), rfl, .updateFails (.inr hupdate)⟩
      | some db => exact ⟨.done (.ok .ok), rfl, .updatedRow hupdate⟩

/-- **Moves.** Every step of a registration is one of them. -/
theorem RegCall.prog_moves : Controls (c.prog x) (c.Moves x) := by
  intro pc
  cases pc with
  | start => exact c.start_moves x
  | lookup => exact c.lookup_moves x
  | query => exact c.query_moves x
  | insert v since => exact fun e s => ⟨.check s.fresh, rfl, .inserted⟩
  | entry => exact c.entry_moves x
  | check peer => exact c.check_moves x peer
  | count peer changed ipChanged => exact c.count_moves x peer changed ipChanged
  | note peer regPk changed ipChanged => exact c.note_moves x peer regPk changed ipChanged
  | ipChange peer changed =>
      exact fun e s => ⟨.finish c peer changed, (c.prog_finish x peer changed).symm, .ipChanged⟩
  | write peer => exact c.write_moves x peer
  | insertRow peer info => exact c.insertRow_moves x peer info
  | updateRow peer guid info => exact c.updateRow_moves x peer guid info
  | writeGuid peer guid => exact fun e s => ⟨.done (.ok .ok), rfl, .keptGuid⟩
  | done r => trivial

end moves

/-! ## The effect of a step -/

/-- The step is a check of the owner that the registration passes. -/
def RegCall.Passes (c : RegCall) (ev : Event Env PmOp PeerMap) : Prop :=
  ∃ peer, ev.op = .checkUuid peer ∧ (ev.pre.peers peer).checkUuid c.rk c.ip ≠ none

/-- The writes to the database succeed, and the guid of a new row is new. -/
def DbSucceeds (ev : Event Env PmOp PeerMap) : Prop :=
  match ev.op with
  | .insertPeer .. => ev.env.fails = false ∧ ∀ r ∈ ev.pre.db.rows, r.guid ≠ ev.env.guid.1
  | .updatePk .. => ev.env.fails = false
  | _ => True

instance : DecidablePred DbSucceeds := fun ev =>
  decidable_of_iff ((match ev.op with
    | .insertPeer .. => !ev.env.fails && ev.pre.db.rows.all (·.guid ≠ ev.env.guid.1)
    | .updatePk .. => !ev.env.fails
    | _ => true) = true) (by unfold DbSucceeds; split <;> simp [*])

/-- What a step does to the record of the id, where the handle in use is the
one in the map. -/
inductive RegStep (x : External) (c : RegCall) (ev : Event Env PmOp PeerMap) :
    RegPc → Record → RegPc → Record → Prop
  | idle {pc pc' rec} (hpc : pc.idle = true) (hpc' : pc'.idle = true) :
      RegStep x c ev pc rec pc' rec
  | rejected {r rec} : RegStep x c ev .start rec (.done (.error r)) rec
  | loaded {v rec} (since) (hrow : rec.row = some v) :
      RegStep x c ev .query rec (.insert v since) rec
  | inserted {v since peer p rec} (hentry : rec.entry = none) :
      RegStep x c ev (.insert v since) rec (.check peer) ⟨some p, rec.row⟩
  | opened {pc peer p rec} (hpc : pc.idle = true) (hentry : rec.entry = some p) :
      RegStep x c ev pc rec (.check peer) rec
  | created {peer rec} (earliest now) (hentry : rec.entry = none) :
      RegStep x c ev .entry rec (.check peer) ⟨some (.default earliest now), rec.row⟩
  | mismatch {peer p r rec} (hentry : rec.entry = some p)
      (hcheck : p.checkUuid c.rk c.ip = none) :
      RegStep x c ev (.check peer) rec (.done (.error r)) rec
  | passed {peer p changed ipChanged rec} (hentry : rec.entry = some p)
      (hcheck : p.checkUuid c.rk c.ip = some (changed, ipChanged)) (hev : c.Passes ev) :
      RegStep x c ev (.check peer) rec (.count peer changed ipChanged) rec
  | tooFrequent {peer p changed ipChanged r rec} (hentry : rec.entry = some p)
      (hcount : countRegPk p.regPk ev.env.now = none) :
      RegStep x c ev (.count peer changed ipChanged) rec (.done (.error r)) rec
  | counted {peer changed ipChanged regPk rec} :
      RegStep x c ev (.count peer changed ipChanged) rec
        (.note peer regPk changed ipChanged) rec
  | noted {peer p regPk changed ipChanged rec} (hentry : rec.entry = some p) :
      RegStep x c ev (.note peer regPk changed ipChanged) rec
        (if ipChanged then .ipChange peer changed else .finish c peer changed)
        ⟨some { p with regPk }, rec.row⟩
  | ipChanged {peer changed rec} :
      RegStep x c ev (.ipChange peer changed) rec (.finish c peer changed) rec
  | wrote {peer p rec} (now) (hentry : rec.entry = some p) :
      RegStep x c ev (.write peer) rec
        (if p.guid = [] then .insertRow peer (c.info x) else .updateRow peer p.guid (c.info x))
        ⟨some (c.write p now), rec.row⟩
  | insertRefused {peer info r rec} (hrow : rec.row = some r) :
      RegStep x c ev (.insertRow peer info) rec (.done (.ok .ok)) rec
  | rowInserted {peer info guid rec} (hguid : guid ≠ []) (hrow : rec.row = none) :
      RegStep x c ev (.insertRow peer info) rec (.writeGuid peer guid)
        ⟨rec.entry, some ⟨guid, c.id, c.rk.uuid, c.rk.pk, info⟩⟩
  | rowUpdated {peer guid info rec rec'} (hentry : rec'.entry = rec.entry)
      (hrow : ∀ r, rec.row = some r → r.guid = guid →
        rec'.row = some { r with pk := c.rk.pk, info }) :
      RegStep x c ev (.updateRow peer guid info) rec (.done (.ok .ok)) rec'
  | guidWritten {peer guid p rec} (hentry : rec.entry = some p) :
      RegStep x c ev (.writeGuid peer guid) rec (.done (.ok .ok))
        ⟨some { p with guid }, rec.row⟩

/-- The handle of a registration is the one in the map. -/
def RegPc.Live (pc : RegPc) (id : String) (s : PeerMap) : Prop :=
  ∀ peer, pc.handle = some peer → s.map.lookup id = some peer

theorem RegPc.Live.of_none {pc : RegPc} {id : String} {s : PeerMap} (h : pc.handle = none) :
    pc.Live id s := by
  intro peer hpeer
  rw [h] at hpeer
  cases hpeer

/-- The step leads to a live handle again, and has an effect of `RegStep`, if
its own handle is live, no entry is replaced and the database writes. -/
def RegNext (x : External) (c : RegCall) (pc : RegPc) (ev : Event Env PmOp PeerMap)
    (pc' : RegPc) : Prop :=
  pc.Live c.id ev.pre → ev.op.Rechecked ev.pre → DbSucceeds ev →
    pc'.Live c.id ev.post
      ∧ RegStep x c ev pc (ev.pre.record c.id) pc' (ev.post.record c.id)

theorem RegPc.Live.check {id : String} {peer : LockPeer} {s : PeerMap}
    (h : s.map.lookup id = some peer) : (RegPc.check peer).Live id s := by
  rintro _ ⟨⟩
  exact h

theorem RegPc.finish_live {c : RegCall} {peer : LockPeer} {s : PeerMap} (changed : Bool)
    (h : s.map.lookup c.id = some peer) : (RegPc.finish c peer changed).Live c.id s := by
  unfold RegPc.finish
  split
  · rintro _ ⟨⟩
    exact h
  · exact .of_none rfl

theorem RegMove.regNext {x : External} {c : RegCall} {e : Env} {op : PmOp} {s s' : PeerMap}
    {pc pc' : RegPc} (h : RegMove x c e s pc op s' pc') : RegNext x c pc ⟨op, e, s, s'⟩ pc' := by
  have hentry {peer : LockPeer} (h : s.map.lookup c.id = some peer) :
      (s.record c.id).entry = some (s.peers peer) := by
    rw [PeerMap.record_of_lookup h]
  intro hlive hnew hdb
  cases h with
  | blocked => exact ⟨.of_none rfl, .rejected⟩
  | allowed => exact ⟨.of_none rfl, .idle rfl rfl⟩
  | found hlookup => exact ⟨.check hlookup, .opened rfl (hentry hlookup)⟩
  | missing => exact ⟨.of_none rfl, .idle rfl rfl⟩
  | noRow => exact ⟨.of_none rfl, .idle rfl rfl⟩
  | row hrow => exact ⟨.of_none rfl, .loaded e.now hrow⟩
  | @inserted v since =>
      refine ⟨.check (PeerMap.enter_lookup _ _ _), ?_⟩
      have hnone : (s.record c.id).entry = none := by
        simp [PeerMap.record, hnew c.id since rfl]
      show RegStep x c _ _ _ _ ((s.enter c.id _).2.record c.id)
      rw [PeerMap.record_enter_self]
      exact .inserted hnone
  | occupied hlookup => exact ⟨.check hlookup, .opened rfl (hentry hlookup)⟩
  | created hlookup =>
      refine ⟨.check (PeerMap.enter_lookup _ _ _), ?_⟩
      have hnone : (s.record c.id).entry = none := by
        simp [PeerMap.record, hlookup]
      show RegStep x c _ _ _ _ ((s.enter c.id _).2.record c.id)
      rw [PeerMap.record_enter_self]
      exact .created e.earliest e.now hnone
  | @mismatch peer hcheck => exact ⟨.of_none rfl, .mismatch (hentry (hlive peer rfl)) hcheck⟩
  | @passed peer _ _ hcheck =>
      refine ⟨hlive, .passed (hentry (hlive peer rfl)) hcheck ⟨peer, rfl, ?_⟩⟩
      simp [hcheck]
  | @tooFrequent peer _ _ hcount =>
      exact ⟨.of_none rfl, .tooFrequent (hentry (hlive peer rfl)) hcount⟩
  | counted hcount => exact ⟨hlive, .counted⟩
  | @noted peer regPk changed ipChanged =>
      constructor
      · cases ipChanged with
        | true => exact hlive
        | false => exact RegPc.finish_live changed (hlive peer rfl)
      · show RegStep x c _ _ _ _ ((s.set peer _).record c.id)
        rw [PeerMap.record_set_self (hlive peer rfl), PeerMap.record_of_lookup (hlive peer rfl)]
        exact .noted rfl
  | @ipChanged peer changed => exact ⟨RegPc.finish_live changed (hlive peer rfl), .ipChanged⟩
  | @wrote peer =>
      constructor
      · split <;> exact hlive
      · show RegStep x c _ _ _ _ ((s.set peer (c.write (s.peers peer) e.now)).record c.id)
        rw [PeerMap.record_set_self (hlive peer rfl), PeerMap.record_of_lookup (hlive peer rfl)]
        exact .wrote e.now rfl
  | insertFails hfailed =>
      refine ⟨.of_none rfl, ?_⟩
      rcases hfailed with hfails | hinsert
      · cases hdb.1.symm.trans hfails
      · obtain ⟨r, hr⟩ := (Database.insertPeer_eq_none hdb.2).mp hinsert
        exact .insertRefused hr
  | @insertedRow peer info db hinsert =>
      refine ⟨hlive, ?_⟩
      have hguid : e.guid.1 ≠ [] := by
        intro hempty
        have hlength := e.guid.2
        simp [hempty] at hlength
      have hrow : (s.record c.id).row = none := Database.getPeer_none_of_insertPeer hinsert
      show RegStep x c _ _ _ _ ⟨(s.record c.id).entry, db.getPeer c.id⟩
      rw [Database.getPeer_insertPeer hinsert, if_pos rfl]
      exact .rowInserted hguid hrow
  | @updateFails peer guid info hfailed =>
      refine ⟨.of_none rfl, ?_⟩
      rcases hfailed with hfails | hupdate
      · have hsucceeds : e.fails = false := hdb
        cases hsucceeds.symm.trans hfails
      · refine .rowUpdated rfl fun r hr hguid => ?_
        -- the row with this guid would have been found
        obtain ⟨db, hdb, -⟩ := @Database.updatePk_of_getPeer s.db c.id c.rk.pk info r hr
        rw [hguid, hupdate] at hdb
        cases hdb
  | @updatedRow peer guid info db hupdate =>
      refine ⟨.of_none rfl, .rowUpdated rfl fun r hr hguid => ?_⟩
      show db.getPeer c.id = _
      rw [Database.getPeer_updatePk hupdate hr hguid, if_pos rfl]
  | @keptGuid peer guid =>
      refine ⟨.of_none rfl, ?_⟩
      show RegStep x c _ _ _ _ ((s.set peer _).record c.id)
      rw [PeerMap.record_set_self (hlive peer rfl), PeerMap.record_of_lookup (hlive peer rfl)]
      exact .guidWritten rfl

theorem RegCall.prog_steps (x : External) (c : RegCall) : Controls (c.prog x) (RegNext x c) :=
  (c.prog_moves x).mono fun _ _ _ h => RegMove.regNext h

end KustDesk
