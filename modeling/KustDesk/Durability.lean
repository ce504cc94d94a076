import KustDesk.Record
import KustDesk.NoPanic

/-!
# KustDesk — Durability

What is on disk when a registration is acknowledged. `update_pk` writes
memory first and reports a failed write in a result that
`handle_register_pk` drops, and a request that memory already agrees with is
not written at all. So memory follows the last write attempted, the disk the
last one that succeeded, and `OK` is the answer either way.
-/

namespace KustDesk

open Async

/-! ## Histories of writes -/

/-- The writes attempted, oldest first, and whether they have succeeded. -/
abbrev Writes (κ : Type) := List (κ × Bool)

namespace Writes

variable {κ : Type}

/-- The last write attempted. -/
def attempted (ws : Writes κ) : Option κ := ws.getLast?.map Prod.fst

/-- The last write that has succeeded. -/
def landed (ws : Writes κ) : Option κ := attempted (ws.filter Prod.snd)

@[simp] theorem landed_nil : landed ([] : Writes κ) = none := rfl

@[simp] theorem attempted_concat (ws : Writes κ) (w : κ) (ok : Bool) :
    attempted (ws ++ [(w, ok)]) = some w := by
  simp [attempted]

@[simp] theorem landed_concat (ws : Writes κ) (w : κ) (ok : Bool) :
    landed (ws ++ [(w, ok)]) = if ok then some w else landed ws := by
  cases ok <;> simp [landed]

/-- If the last attempt has succeeded, it is what has landed. -/
theorem landed_of_last {ws : Writes κ} {w : κ} (h : ws.getLast? = some (w, true)) :
    landed ws = some w := by
  obtain ⟨ws, rfl⟩ := List.getLast?_eq_some_iff.mp h
  simp

end Writes

/-! ## The record of an id -/

/-- The text that is stored of a peer's info. -/
def Peer.infoText (x : External) (p : Peer) : String := (x.infoToString p.info).getD ""

/-- Memory follows the last write attempted, the row the last one that has
succeeded, and the owner is the same. -/
structure Record.WriteThrough (x : External) (rec : Record) (ws : Writes (Bytes × String)) :
    Prop where
  row : rec.row.map (fun r => (r.pk, r.info)) = ws.landed
  absent : rec.entry = none → ws = []
  uuid : ∀ p, rec.entry = some p → p.uuid ≠ []
  entry : ∀ p, rec.entry = some p → ws.attempted = some (p.pk, p.infoText x)
  guid : ∀ p, rec.entry = some p → (p.guid = [] ↔ rec.row = none)
  owner : ∀ p r, rec.entry = some p → rec.row = some r → r.guid = p.guid ∧ r.uuid = p.uuid

namespace Record

variable {x : External} {rec rec' : Record} {ws : Writes (Bytes × String)}

theorem WriteThrough.row_none (h : rec.WriteThrough x ws) (hentry : rec.entry = none) :
    rec.row = none := by
  have hrow := h.row
  rw [h.absent hentry] at hrow
  simpa using hrow

theorem WriteThrough.linked (h : rec.WriteThrough x ws) : rec.Linked := by
  intro p hp
  cases hrow : rec.row with
  | none => exact .inl ((h.guid p hp).mpr hrow)
  | some r => exact .inr ⟨r, rfl, (h.owner p r hp hrow).1⟩

/-- A registration that reads what there is opens the peer in memory, or a
new one where there is no row either. -/
theorem WriteThrough.opened {p : Peer} (h : rec.WriteThrough x ws)
    (hopen : rec.Opened x false p) :
    rec.entry = some p ∨ ∃ earliest now, p = .default earliest now ∧ rec.row = none ∧ ws = [] := by
  cases hopen with
  | found hentry => exact .inl hentry
  | loaded earliest since hentry hrow =>
      rw [h.row_none hentry] at hrow
      cases hrow
  | created earliest now hentry hrow =>
      exact .inr ⟨earliest, now, rfl, h.row_none hentry, h.absent hentry⟩

/-- The counter plays no part. -/
theorem WriteThrough.regPk {p : Peer} (h : rec.WriteThrough x ws) (hentry : rec.entry = some p)
    (regPk : Nat × Instant) :
    WriteThrough x { rec with entry := some { p with regPk } } ws where
  row := h.row
  absent := nofun
  uuid := by
    rintro _ ⟨⟩
    exact h.uuid p hentry
  entry := by
    rintro _ ⟨⟩
    exact h.entry p hentry
  guid := by
    rintro _ ⟨⟩
    exact h.guid p hentry
  owner := by
    rintro _ r ⟨⟩ hrow
    exact h.owner p r hentry hrow

theorem WriteThrough.registered {c : RegCall} {w : Option ((Bytes × String) × Bool)}
    {r : Except RegisterPkResult RegisterPkResult} (h : rec.WriteThrough x ws)
    (hreg : rec.Registered x c false w r rec') :
    rec'.WriteThrough x (ws ++ w.toList)
      ∧ (r = .ok .ok → (ws ++ w.toList).attempted = some (c.rk.pk, c.info x)
        ∧ ∃ p, rec'.entry = some p ∧ p.uuid = c.rk.uuid) := by
  cases hreg with
  | rejected => exact ⟨by simpa using h, by simp⟩
  | refused hopen hcheck =>
      rcases h.opened hopen with hentry | ⟨earliest, now, rfl, -, -⟩
      · refine ⟨?_, by simp⟩
        simpa using h.regPk hentry _
      · exact (Peer.default_passes _ now hcheck).elim
  | @unchanged _ p _ regPk hopen hcheck =>
      obtain ⟨huuid, hpk, hip⟩ := Peer.eq_of_checkUuid hcheck
      rcases h.opened hopen with hentry | ⟨earliest, now, rfl, -, -⟩
      · refine ⟨by simpa using h.regPk hentry regPk, fun _ => ⟨?_, _, rfl, huuid⟩⟩
        have hlast := h.entry p hentry
        rw [hpk, Peer.infoText, show p.info = { ip := c.ip } by rw [← hip]] at hlast
        simpa [RegCall.info] using hlast
      · rw [Peer.checkUuid_of_uuid_nil rfl] at hcheck
        cases hcheck
  | @written _ p _ ok guid row regPk now hopen huuid hcheck hwrote =>
      refine ⟨?_, fun _ => ⟨by simp, _, rfl, rfl⟩⟩
      have hbuild (hrow : row.map (fun r => (r.pk, r.info))
            = if ok then some (c.rk.pk, c.info x) else ws.landed)
          (hguid : guid = [] ↔ row = none)
          (howner : ∀ r, row = some r → r.guid = guid ∧ r.uuid = c.rk.uuid) :
          WriteThrough x ⟨some { c.write { p with regPk } now with guid }, row⟩
            (ws ++ [((c.rk.pk, c.info x), ok)]) := by
        constructor
        · rw [hrow, Writes.landed_concat]
        · simp
        · rintro _ ⟨⟩
          exact huuid
        · rintro _ ⟨⟩
          exact Writes.attempted_concat _ _ _
        · rintro _ ⟨⟩
          exact hguid
        · rintro _ r ⟨⟩ hr
          exact howner r hr
      have hknown : rec.entry = some p → p.uuid = c.rk.uuid := fun hentry =>
        (Peer.uuid_of_checkUuid hcheck).resolve_left (h.uuid p hentry)
      cases hwrote with
      | refused =>
          rcases h.opened hopen with hentry | ⟨earliest', now', rfl, hnone, rfl⟩
          · refine hbuild h.row (h.guid p hentry) fun r hr => ?_
            rw [← hknown hentry]
            exact h.owner p r hentry hr
          · refine hbuild h.row (by simp [hnone, Peer.default]) fun r hr => ?_
            rw [hnone] at hr
            cases hr
      | inserted hguid hguid' hrow =>
          refine hbuild rfl (by simp [hguid']) ?_
          rintro r ⟨⟩
          exact ⟨rfl, rfl⟩
      | @updated r hguid hrow hr =>
          rcases h.opened hopen with hentry | ⟨earliest', now', rfl, -, -⟩
          · refine hbuild rfl (by simp [hguid]) ?_
            rintro _ ⟨⟩
            rw [← hknown hentry]
            exact h.owner p r hentry hrow
          · exact (hguid rfl).elim

end Record

/-! ## Sessions of registrations -/

/-- What has run in a session of registrations. -/
abbrev Registrations :=
  List (Ran RegCall Env PmOp PeerMap (Except RegisterPkResult RegisterPkResult))

/-- The writes to the row of `id`. -/
def Registrations.writesTo (ran : Registrations) (id : String) : Writes (Bytes × String) :=
  ran.flatMap fun r => r.events.filterMap (dbWrite id)

@[simp] theorem Registrations.writesTo_concat (ran : Registrations)
    (r : Ran RegCall Env PmOp PeerMap (Except RegisterPkResult RegisterPkResult)) (id : String) :
    (ran ++ [r]).writesTo id = ran.writesTo id ++ r.events.filterMap (dbWrite id) := by
  simp [writesTo]

/-- No query for a row has failed. -/
def Registrations.ReadsSucceed (ran : Registrations) : Prop :=
  ∀ r ∈ ran, ¬ FailedRead r.call.id r.events

/-- Every registration, run alone, returns with the outcome of
`handleRegisterPk_alone`. -/
theorem RegCall.returns (x : External) (c : RegCall) (s : PeerMap) :
    (c.task x).NoAbort ∧ (c.task x).Alone s (c.Outcome x s) :=
  ⟨handleRegisterPk_noAbort x c.rk c.addr c.ws, handleRegisterPk_alone x c s⟩

/-- The invariant of a session. -/
def WrittenThrough (x : External) (ran : Registrations) (s : PeerMap) : Prop :=
  s.Sound ∧ ∀ id, (s.record id).WriteThrough x (ran.writesTo id)

section
variable {x : External} {ran : Registrations} {s s' : PeerMap} {c : RegCall}
  {es : List (Event Env PmOp PeerMap)} {r : Except RegisterPkResult RegisterPkResult}

theorem WrittenThrough.new (x : External) : WrittenThrough x [] (.new .empty) := by
  refine ⟨PeerMap.new_sound _, fun id => ?_⟩
  constructor
  · rfl
  · exact fun _ => rfl
  all_goals exact nofun

theorem WrittenThrough.call (h : WrittenThrough x ran s) (hc : c.Outcome x s es r s')
    (hread : ¬ FailedRead c.id es) :
    WrittenThrough x (ran ++ [⟨c, es, some r⟩]) s'
      ∧ (r = .ok .ok → (Registrations.writesTo (ran ++ [⟨c, es, some r⟩]) c.id).attempted
          = some (c.rk.pk, c.info x)
        ∧ ∃ p, (s'.record c.id).entry = some p ∧ p.uuid = c.rk.uuid) := by
  obtain ⟨hsound, hrecords⟩ := h
  obtain ⟨failed, w, hreg, hfailed, hwrites, -⟩ := hc
  have hsucceeded : failed = false := by
    cases failed with
    | false => rfl
    | true => exact (hread (hfailed.mp rfl)).elim
  subst hsucceeded
  obtain ⟨hsound', hreg', hothers⟩ := hreg.record hsound (hrecords c.id).linked
  obtain ⟨hthrough, hok⟩ := (hrecords c.id).registered hreg'
  refine ⟨⟨hsound', fun id => ?_⟩, ?_⟩
  · by_cases hid : id = c.id
    · subst hid
      simpa [hwrites] using hthrough
    · rw [hothers id hid]
      simpa [hwrites, Ne.symm hid] using hrecords id
  · simpa [hwrites] using hok

theorem writtenThrough_session (h : Session (RegCall.task x) (.new .empty) ran s)
    (hreads : ran.ReadsSucceed) : WrittenThrough x ran s := by
  refine h.invariant (J := fun ran s => Registrations.ReadsSucceed ran → WrittenThrough x ran s)
    (RegCall.returns x) (fun _ => .new x) ?_ hreads
  intro ran s c es r s' ih hc hreads
  have hran : Registrations.ReadsSucceed ran := fun r hr =>
    hreads r (List.mem_append_left _ hr)
  have hread := hreads ⟨c, es, some r⟩ (by simp)
  exact ((ih hran).call hc hread).1

/-- The write carries the key, and an info with the address. -/
def RegCall.Carries (x : External) (c : RegCall) (w : Bytes × String) : Prop :=
  w.1 = c.rk.pk ∧ ∃ info, x.infoFromStr w.2 = some info ∧ info.ip = c.ip

/-- The database has a row with what has been registered. -/
def RegCall.Stored (x : External) (c : RegCall) (db : Database) : Prop :=
  ∃ r, db.getPeer c.id = some r ∧ r.uuid = c.rk.uuid ∧ c.Carries x (r.pk, r.info)

/-- **Acknowledged means stored.** When a registration is answered with `OK`,
what it has registered is on disk exactly if the last write that has been
attempted to the row of the id has succeeded, or has failed but the last one
that did succeed carried the same key and address. -/
theorem acknowledged_stored_iff
    (hinfo : ∀ info, ∃ text, x.infoToString info = some text ∧ x.infoFromStr text = some info)
    {last : Ran RegCall Env PmOp PeerMap (Except RegisterPkResult RegisterPkResult)}
    (h : Session (RegCall.task x) (.new .empty) (ran ++ [last]) s)
    (hreads : (ran ++ [last]).ReadsSucceed) (hok : last.result = some (.ok .ok)) :
    last.call.Stored x s.db
      ↔ ((ran ++ [last]).writesTo last.call.id).getLast?.map Prod.snd = some true
        ∨ ∃ w, ((ran ++ [last]).writesTo last.call.id).landed = some w
          ∧ last.call.Carries x w := by
  obtain ⟨s', r, hrun, hr, hc⟩ := h.last (RegCall.returns x)
  obtain ⟨c, es, result⟩ := last
  subst hr
  cases hok
  have hran : Registrations.ReadsSucceed ran := fun r hr =>
    hreads r (List.mem_append_left _ hr)
  have hread := hreads ⟨c, es, some (.ok .ok)⟩ (by simp)
  obtain ⟨⟨-, hrecords⟩, hacknowledged⟩ := (writtenThrough_session hrun hran).call hc hread
  obtain ⟨hattempted, p, hentry, huuid⟩ := hacknowledged rfl
  have hthrough := hrecords c.id
  generalize Registrations.writesTo (ran ++ [⟨c, es, some (.ok .ok)⟩]) c.id = ws
    at hthrough hattempted ⊢
  -- what has landed is what the row holds
  have hstored {w : Bytes × String} (hlanded : ws.landed = some w) (hw : c.Carries x w) :
      c.Stored x s.db := by
    have hrow := hthrough.row
    rw [hlanded, Option.map_eq_some_iff] at hrow
    obtain ⟨row, hrow, rfl⟩ := hrow
    exact ⟨row, hrow, (hthrough.owner p row hentry hrow).2.trans huuid, hw⟩
  constructor
  · rintro ⟨row, hrow, -, hcarries⟩
    refine .inr ⟨_, ?_, hcarries⟩
    rw [← hthrough.row, show (s.record c.id).row = some row from hrow]
    rfl
  · rintro (hlast | ⟨w, hlanded, hcarries⟩)
    · obtain ⟨⟨w, ok⟩, hlast, rfl⟩ := Option.map_eq_some_iff.mp hlast
      have hw : w = (c.rk.pk, c.info x) := by
        rw [Writes.attempted, hlast] at hattempted
        exact Option.some.inj hattempted
      obtain ⟨text, htext, hparsed⟩ := hinfo { ip := c.ip }
      refine hstored (Writes.landed_of_last hlast) ?_
      rw [hw]
      refine ⟨rfl, _, ?_, rfl⟩
      rw [RegCall.info, htext]
      exact hparsed
    · exact hstored hlanded hcarries

end

/-! A registration on an empty database, and again. The insertion is the
ninth step of the first one. -/

def keyRegistration : RegCall := ⟨{ id := "123456", uuid := [1], pk := [2] }, ⟨.v4 1, 50000⟩, false⟩

theorem acknowledged_stored_iff_inserted :
    keyRegistration.Stored (.sample [])
      ((keyRegistration.task (.sample [])).run (fun _ => { now := 0 }) (.new .empty)).2.db := by
  have hrun := Session.call keyRegistration (fun _ => { now := 0 })
    (.nil : Session (RegCall.task (.sample [])) (.new .empty) [] _)
  refine (acknowledged_stored_iff sample_infoFromStr hrun ?_ (by decide)).mpr (.inl (by decide))
  intro r hr
  simp only [List.nil_append, List.mem_singleton] at hr
  subst hr
  unfold FailedRead
  decide

/-- The insertion fails, and `OK` is the answer; the registration is
repeated, nothing is written, and `OK` is the answer again. -/
theorem acknowledged_not_stored :
    ∃ first second s,
      Session (RegCall.task (.sample [])) (.new .empty) [first, second] s
        ∧ Registrations.ReadsSucceed [first, second]
        ∧ first.call = keyRegistration ∧ second.call = keyRegistration
        ∧ first.result = some (.ok .ok) ∧ second.result = some (.ok .ok)
        ∧ ¬ keyRegistration.Stored (.sample []) s.db := by
  refine ⟨_, _, _, .call keyRegistration (fun _ => { now := 0 })
    (.call keyRegistration (fun n => { now := 0, fails := n == 8 }) .nil), ?_, rfl, rfl,
    by decide, by decide, ?_⟩
  · have hfirst : ¬ FailedRead "123456" ((keyRegistration.task (.sample [])).trace
        (fun n => { now := 0, fails := n == 8 }) (.new .empty)) := by
      unfold FailedRead
      decide
    have hsecond : ¬ FailedRead "123456" ((keyRegistration.task (.sample [])).trace
        (fun _ => { now := 0 }) ((keyRegistration.task (.sample [])).run
          (fun n => { now := 0, fails := n == 8 }) (.new .empty)).2) := by
      unfold FailedRead
      decide
    intro r hr
    simp only [List.mem_cons, List.not_mem_nil, or_false] at hr
    rcases hr with rfl | rfl
    · exact hfirst
    · exact hsecond
  · rintro ⟨r, hr, -⟩
    cases hr

end KustDesk
