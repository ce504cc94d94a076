import KustDesk.Directory

/-!
# KustDesk — Restart

A restart empties memory and keeps the database. As the directory can be
read off the database, what later calls decide about identities is the same
with the restart and without it, as long as no rate limiter is in the way.
-/

namespace KustDesk

open Async

/-! ## A registration, as the directory sees it -/

section
variable {x : External} {c : RegCall} {rec rec' : Record} {p : Peer}

/-- A peer that is opened is the one on disk, or new. -/
theorem Record.Synced.opened (h : rec.Synced x) (hopen : rec.Opened x false p) :
    (∃ r, rec.row = some r ∧ r.guid = p.guid ∧ r.identity x = p.identity)
      ∨ (rec.row = none ∧ ∃ earliest now, p = .default earliest now) := by
  cases hopen with
  | found hentry => exact .inl (h.entry p hentry)
  | @loaded v earliest since hentry hrow => exact .inl ⟨v, hrow, rfl, rfl⟩
  | created earliest now hentry hrow =>
      exact .inr ⟨hrow.resolve_left nofun, earliest, now, rfl⟩

theorem Peer.checkUuid_eq_none :
    p.checkUuid c.rk c.ip = none ↔ p.uuid ≠ [] ∧ ¬ p.identity.Admits c := by
  by_cases hempty : p.uuid = []
  · simp [checkUuid, hempty]
  rw [checkUuid, if_neg hempty]
  by_cases huuid : p.uuid = c.rk.uuid
  · rw [if_pos huuid]
    by_cases hip : p.info.ip = c.ip
    · simp [Identity.Admits, Peer.identity, huuid, hip]
    · by_cases hpk : p.pk = c.rk.pk
      · simp [Identity.Admits, Peer.identity, huuid, hip, hpk]
      · rw [if_pos ⟨hip, hpk⟩]
        simp [Identity.Admits, Peer.identity, hempty, hip, hpk]
  · simp [Identity.Admits, Peer.identity, hempty, huuid]

/-- The check of the owner is the directory's. -/
theorem decide_of_opened (h : rec.Synced x) (hopen : rec.Opened x false p)
    (hkeys : ¬ (c.rk.uuid = [] ∨ c.rk.pk = [])) (hlong : ¬ c.id.utf8ByteSize < 6) :
    (c.decide (rec.row.map (DbPeer.identity x))).1
      = if p.checkUuid c.rk c.ip = none then .error .uuidMismatch else .ok .ok := by
  rw [RegCall.decide, if_neg hkeys, if_neg hlong]
  rcases h.opened hopen with ⟨r, hr, -, hidentity⟩ | ⟨hr, earliest, now, rfl⟩
  · have huuid : p.uuid ≠ [] := by
      have hrow := (h.row r hr).2
      rwa [show r.uuid = p.uuid from congrArg Identity.uuid hidentity] at hrow
    rw [hr, Option.map_some, hidentity]
    by_cases hadmits : p.identity.Admits c
    · simp [Peer.checkUuid_eq_none, hadmits]
    · simp [Peer.checkUuid_eq_none, hadmits, huuid]
  · rw [hr, Peer.checkUuid_of_uuid_nil rfl]
    rfl

/-- Who is known after a registration with this answer. -/
def RegCall.leaves (c : RegCall) (known : Option Identity) :
    Except RegisterPkResult RegisterPkResult → Option Identity
  | .ok _ => some c.identity
  | .error _ => known

theorem RegCall.decide_snd (known : Option Identity) :
    (c.decide known).2 = c.leaves known (c.decide known).1 := by
  unfold RegCall.decide
  split
  · rfl
  · split
    · rfl
    · split <;> rfl

/-- What a registration makes of the row, if its write succeeds. -/
theorem Record.Synced.registered {w : Option ((Bytes × String) × Bool)}
    {r : Except RegisterPkResult RegisterPkResult} (h : rec.Synced x)
    (hinfo : ∀ info, ∃ text, x.infoToString info = some text ∧ x.infoFromStr text = some info)
    (hreg : rec.Registered x c false w r rec') (hlands : ∀ v ∈ w.toList, v.2 = true) :
    rec'.Synced x ∧ rec'.row.map (DbPeer.identity x)
      = c.leaves (rec.row.map (DbPeer.identity x)) r := by
  have hwritten : (x.infoFromStr (c.info x)).getD {} = { ip := c.ip } := by
    obtain ⟨text, htext, hparsed⟩ := hinfo { ip := c.ip }
    rw [RegCall.info, htext, Option.getD_some, hparsed, Option.getD_some]
  cases hreg with
  | rejected => exact ⟨h, rfl⟩
  | refused hopen hcheck =>
      rcases h.opened hopen with hknown | ⟨-, earliest, now, rfl⟩
      · refine ⟨⟨h.row, ?_⟩, rfl⟩
        rintro _ ⟨⟩
        exact hknown
      · exact (Peer.default_passes _ now hcheck).elim
  | @unchanged _ p ipChanged regPk hopen hcheck =>
      rcases h.opened hopen with ⟨r, hr, hguid, hidentity⟩ | ⟨-, earliest, now, rfl⟩
      · refine ⟨⟨h.row, ?_⟩, ?_⟩
        · rintro _ ⟨⟩
          exact ⟨r, hr, hguid, hidentity⟩
        · obtain ⟨huuid, hpk, hip⟩ := Peer.eq_of_checkUuid hcheck
          show rec.row.map _ = some c.identity
          rw [hr, Option.map_some, hidentity, Peer.identity, RegCall.identity, huuid, hpk, ← hip]
      · rw [Peer.checkUuid_of_uuid_nil rfl] at hcheck
        cases hcheck
  | @written _ p changed ok guid row regPk now hopen huuid hcheck hwrote =>
      have hok : ok = true := hlands _ (List.mem_singleton.mpr rfl)
      cases hwrote with
      | refused => cases hok
      | inserted hguid hguid' hrow =>
          have hidentity : DbPeer.identity x ⟨guid, c.id, c.rk.uuid, c.rk.pk, c.info x⟩
              = c.identity := by
            rw [DbPeer.identity, hwritten]
            rfl
          refine ⟨⟨?_, ?_⟩, congrArg some hidentity⟩
          · rintro _ ⟨⟩
            exact ⟨hguid', huuid⟩
          · rintro _ ⟨⟩
            exact ⟨_, rfl, rfl, hidentity⟩
      | @updated r hguid hrow hr =>
          have howner : r.uuid = c.rk.uuid := by
            rcases h.opened hopen with ⟨r', hr', -, hidentity⟩ | ⟨hnone, -⟩
            · rw [hrow, Option.some.injEq] at hr'
              subst hr'
              have hruuid : r.uuid = p.uuid := congrArg Identity.uuid hidentity
              rcases Peer.uuid_of_checkUuid hcheck with hempty | hsame
              · exact ((h.row r hrow).2 (hruuid.trans hempty)).elim
              · exact hruuid.trans hsame
            · rw [hrow] at hnone
              cases hnone
          have hidentity : DbPeer.identity x { r with pk := c.rk.pk, info := c.info x }
              = c.identity := by
            rw [DbPeer.identity, hwritten]
            exact congrArg (fun uuid => (⟨uuid, _, _⟩ : Identity)) howner
          refine ⟨⟨?_, ?_⟩, congrArg some hidentity⟩
          · rintro _ ⟨⟩
            exact h.row r hrow
          · rintro _ ⟨⟩
            exact ⟨_, rfl, hr, hidentity⟩

end

/-! ## The writes land -/

/-- The row of the id is the peer's, or the peer has no row and there is
none. -/
def Writable (row : Option DbPeer) (guid : Bytes) : Prop :=
  (guid = [] ∧ row = none) ∨ (guid ≠ [] ∧ ∃ r, row = some r ∧ r.guid = guid)

theorem Record.Synced.writable {x : External} {rec : Record} {p : Peer} (h : rec.Synced x)
    (hopen : rec.Opened x false p) : Writable rec.row p.guid := by
  rcases h.opened hopen with ⟨r, hr, hguid, -⟩ | ⟨hr, earliest, now, rfl⟩
  · exact .inr ⟨hguid ▸ (h.row r hr).1, r, hr, hguid⟩
  · exact .inl ⟨rfl, hr⟩

section
variable {x : External} {c : RegCall} {peer : LockPeer} {s : PeerMap}

/-- All writes to the id's row succeed, as long as the database works. -/
def Lands (c : RegCall) (es : List (Event Env PmOp PeerMap)) : Prop :=
  (∀ ev ∈ es, DbWorks ev) → ∀ w ∈ es.filterMap (dbWrite c.id), w.2 = true

theorem updatePk_lands (h : Writable (s.db.getPeer c.id) (s.peers peer).guid) :
    (PeerMap.updatePk x c.id peer c.addr c.rk.uuid c.rk.pk c.ip).Alone s
      fun es _ _ => Lands c es := by
  refine Task.alone_act_bind.mpr fun e => ?_
  show Task.Alone (if (s.peers peer).guid = [] then _ else _)
    (s.set peer (c.write (s.peers peer) e.now)) _
  rcases h with ⟨hguid, hrow⟩ | ⟨hguid, r, hrow, hr⟩
  · rw [if_pos hguid]
    refine Task.alone_act_bind.mpr fun e' => ?_
    dsimp only [PeerMap.set_db]
    cases hfails : e'.fails with
    | true =>
        intro hdb
        have hworks := (hdb _ (.tail _ (.head _))).1
        cases hfails.symm.trans hworks.1
    | false =>
        cases hinsert : s.db.insertPeer e'.guid.1 c.id c.rk.uuid c.rk.pk
            ((x.infoToString { ip := c.ip }).getD "") with
        | none =>
            intro hdb
            have hnew : ∀ r ∈ s.db.rows, r.guid ≠ e'.guid.1 := (hdb _ (.tail _ (.head _))).1.2
            obtain ⟨r, hr⟩ := (Database.insertPeer_eq_none hnew).mp hinsert
            rw [hrow] at hr
            cases hr
        | some db =>
            intro e'' _
            simp [dbWrite, hfails, hinsert, List.filterMap_cons]
  · rw [if_neg hguid]
    refine Task.alone_act_bind.mpr fun e' => ?_
    dsimp only [PeerMap.set_db]
    cases hfails : e'.fails with
    | true =>
        intro hdb
        have hworks := (hdb _ (.tail _ (.head _))).1
        cases hfails.symm.trans hworks
    | false =>
        obtain ⟨db, hupdate, -⟩ := @Database.updatePk_of_getPeer s.db c.id c.rk.pk
          ((x.infoToString { ip := c.ip }).getD "") r hrow
        rw [hr] at hupdate
        rw [hupdate]
        intro _
        simp [dbWrite, hfails, hupdate, List.filterMap_cons]

theorem settle_lands (h : Writable (s.db.getPeer c.id) (s.peers peer).guid) :
    (c.settle x peer).Alone s fun es _ _ => Lands c es := by
  have hquiet {es : List (Event Env PmOp PeerMap)} (hes : Quiet es) : Lands c es := by
    intro _
    rw [hes c.id]
    nofun
  apply settle_rule
  · exact fun es hes _ => hquiet hes
  · exact fun es hes _ => hquiet hes
  · intro es changed ipChanged regPk ipChanges hes _
    unfold RegCall.finish
    split
    · refine (updatePk_lands (by simpa using h)).bind fun es' _ s' hlands hdb => ?_
      rw [List.append_nil] at hdb ⊢
      rw [hes.append]
      exact hlands (List.forall_mem_append.mp hdb).2
    · exact hquiet fun id => by rw [List.append_nil, hes id]

theorem settle_answers :
    (c.settle x peer).Alone s fun _ r _ => r ≠ .error .tooFrequent →
      r = if (s.peers peer).checkUuid c.rk c.ip = none then .error .uuidMismatch else .ok .ok := by
  apply settle_rule
  · intro es _ hcheck _
    rw [if_pos hcheck]
  · exact fun es _ _ hlimited => (hlimited rfl).elim
  · intro es changed ipChanged regPk ipChanges _ hcheck
    have hok : (c.finish x peer changed).Alone
        { s.set peer { s.peers peer with regPk } with ipChanges } fun _ r _ => r = .ok .ok := by
      unfold RegCall.finish
      split
      · exact (updatePk_alone x c peer _).bind fun _ _ _ _ => rfl
      · rfl
    refine hok.mono fun es' r s' hr _ => ?_
    rw [hr, hcheck, if_neg nofun]

/-- Unless a limiter refuses it, a registration is answered as the directory
does. -/
theorem register_answers (hs : s.Synced x) :
    (c.task x).Alone s fun es r _ => (∀ ev ∈ es, DbWorks ev) →
      (r ≠ .error .tooFrequent → r = (c.decide (s.directory x c.id)).1)
        ∧ ∀ w ∈ es.filterMap (dbWrite c.id), w.2 = true := by
  apply register_rule
  · intro hkeys _
    refine ⟨fun _ => ?_, nofun⟩
    rw [RegCall.decide, if_pos hkeys]
  · intro hkeys hshort _
    refine ⟨fun _ => ?_, nofun⟩
    rw [RegCall.decide, if_neg hkeys, if_pos hshort]
  · intro es s' hquiet _ _
    refine ⟨fun hlimited => (hlimited rfl).elim, ?_⟩
    rw [hquiet c.id]
    nofun
  · intro hkeys hlong es failed peer s₀ s₁ hquiet hattempted hopen hfailed
    have halike := hattempted.alike
    cases failed with
    | true =>
        refine settle_answers.mono fun es' r s' _ hdb => ?_
        exact (not_failedRead (List.forall_mem_append.mp hdb).1 (hfailed.mp rfl)).elim
    | false =>
        obtain ⟨-, hlookup, hdb₁, hopened, -⟩ := hopen.record (halike.sound hs.sound)
        rw [halike.record] at hopened
        have hw : Writable (s₁.db.getPeer c.id) (s₁.peers peer).guid := by
          rw [hdb₁, halike.db]
          exact (hs.records c.id).writable hopened
        refine (settle_answers.and (settle_lands hw)).mono fun es' r s' h hdb => ⟨fun hr => ?_, ?_⟩
        · rw [h.1 hr]
          exact (decide_of_opened (hs.records c.id) hopened hkeys hlong).symm
        · rw [hquiet.append]
          exact h.2 (List.forall_mem_append.mp hdb).2

end

/-! ## One call -/

/-- The answer, if it is about an identity: of a registration, or a signed
key. -/
def Handler.Answer.identity? : Handler.Answer → Option Handler.Answer
  | .registered r => some (.registered r)
  | .pk bytes => some (.pk bytes)
  | _ => none

/-- The answer of a call that a rate limiter refuses. -/
def Handler.Answer.Limited (a : Handler.Answer) : Prop := a = .registered (.error .tooFrequent)

/-- Memory stays in step with the database; and unless a limiter refuses the
call, the answer and the directory are as the directory decides. -/
def Handler.Decided (x : External) (h : Handler) (s : PeerMap)
    (es : List (Event Env PmOp PeerMap)) (a : Handler.Answer) (s' : PeerMap) : Prop :=
  s.Synced x → (∀ ev ∈ es, DbWorks ev) → s'.Synced x
    ∧ (¬ a.Limited → (a.identity?, s'.directory x) = h.decide x (s.directory x))

section
variable {x : External} {s s' : PeerMap}

theorem registerPk_decided (c : RegCall) (s : PeerMap)
    (hinfo : ∀ info, ∃ text, x.infoToString info = some text ∧ x.infoFromStr text = some info) :
    (c.task x).Alone s fun es r s' =>
      (Handler.registerPk c).Decided x s es (.registered r) s' := by
  refine Task.alone_imp fun hs => ?_
  refine ((handleRegisterPk_alone x c s).and (register_answers hs)).mono fun es r s' h hdb => ?_
  obtain ⟨⟨failed, w, hreg, hfailed, hwrites, -⟩, hanswers⟩ := h
  obtain ⟨hanswer, hlands⟩ := hanswers hdb
  have hsucceeded : failed = false := by
    cases failed with
    | false => rfl
    | true => exact (not_failedRead hdb (hfailed.mp rfl)).elim
  subst hsucceeded
  rw [hwrites c.id, if_pos rfl] at hlands
  obtain ⟨hs', hreg', hothers⟩ := hreg.record hs.sound (hs.linked c.id)
  obtain ⟨hsynced, hknown⟩ := (hs.records c.id).registered hinfo hreg' hlands
  refine ⟨⟨hs', fun id => ?_⟩, fun hlimited => ?_⟩
  · by_cases hid : id = c.id
    · subst hid
      exact hsynced
    · rw [hothers id hid]
      exact hs.records id
  · have hr := hanswer fun hr => hlimited (congrArg Handler.Answer.registered hr)
    rw [Handler.decide, RegCall.decide_snd, ← hr, Prod.mk.injEq]
    refine ⟨rfl, funext fun id => ?_⟩
    by_cases hid : id = c.id
    · subst hid
      rw [Function.update_self]
      exact hknown
    · rw [Function.update_of_ne hid]
      exact congrArg (fun rec : Record => rec.row.map (DbPeer.identity x)) (hothers id hid)

theorem Keeping.directory {es : List (Event Env PmOp PeerMap)} (h : Keeping x s es s')
    (hs : s.Synced x) (hdb : ∀ ev ∈ es, DbWorks ev) : s'.directory x = s.directory x := by
  funext id
  rw [PeerMap.directory, PeerMap.directory, (h hs hdb).2]

/-- A handler that writes nothing and answers nothing about an identity. -/
theorem Keeping.decided {es : List (Event Env PmOp PeerMap)} {h : Handler} {a : Handler.Answer}
    (hkeeping : Keeping x s es s') (ha : a.identity? = none)
    (hdecide : h.decide x (s.directory x) = (none, s.directory x)) : h.Decided x s es a s' := by
  refine fun hs hdb => ⟨(hkeeping hs hdb).1, fun _ => ?_⟩
  rw [ha, hdecide, hkeeping.directory hs hdb]

end

theorem Handler.decided (cfg : Config) (h : Handler) (s : Shared)
    (hinfo : ∀ info, ∃ text, cfg.x.infoToString info = some text
      ∧ cfg.x.infoFromStr text = some info) :
    (h.task cfg).Alone s fun es a s' => h.Decided cfg.x s.pm (es.filterMap pmEvent) a s'.pm := by
  cases h with
  | registerPk c =>
      exact (liftPm_alone (registerPk_decided c s.pm hinfo)).bind
        fun es r s' h => by simpa using h
  | updateAddr id addr =>
      refine (liftPm_alone (updateAddr_keeping cfg.x id s.pm addr)).bind fun es b s' h => ?_
      exact Keeping.decided (by simpa using h) rfl rfl
  | peersOnlineState peers =>
      have honline : (KustDesk.peersOnlineState peers).Alone s.pm fun es _ s' =>
          Keeping cfg.x s.pm es s' := by
        refine ((peersOnlineState_looks peers).alone s.pm).mono fun es a s' h => ?_
        obtain ⟨rfl, -⟩ := h
        exact keeping_same _ _ _
      refine (liftPm_alone honline).bind fun es b s' h => ?_
      exact Keeping.decided (by simpa using h) rfl rfl
  | punchHoleRequest rs addr ph ws =>
      refine (handlePunchHoleRequest_keeping cfg rs addr ph ws s).bind fun es r s' h => ?_
      exact Keeping.decided (by simpa using h) rfl rfl
  | getPk rs version id =>
      refine (liftPm_alone (getPk_keeping cfg.x id s.pm rs.inner.sk version)).bind
        fun es bytes s' h => ?_
      obtain ⟨hkeeping, hbytes⟩ := h
      rw [Task.pure_eq, Task.alone_done, List.append_nil]
      refine fun hs hdb => ⟨(hkeeping hs hdb).1, fun _ => ?_⟩
      rw [hkeeping.directory hs hdb, hbytes hs hdb]
      rfl

/-! ## Histories -/

/-- The database works throughout. -/
def Handled.DbWorks (ran : Handled) : Prop :=
  ∀ r ∈ ran, ∀ ev ∈ r.events.filterMap pmEvent, KustDesk.DbWorks ev

/-- No rate limiter refuses a call. -/
def Handled.Unlimited (ran : Handled) : Prop :=
  ∀ r ∈ ran, ∀ a, r.result = some a → ¬ a.Limited

/-- The answers about identities. -/
def Handled.answers (ran : Handled) : List (Option Handler.Answer) :=
  ran.map fun r => r.result.bind Handler.Answer.identity?

section
variable {cfg : Config} {ran ran' : Handled} {s s' t t' : Shared}

theorem Handled.DbWorks.take (h : Handled.DbWorks (ran ++ ran')) : ran.DbWorks :=
  fun r hr => h r (List.mem_append_left _ hr)

theorem PeerMap.Synced.session
    (hinfo : ∀ info, ∃ text, cfg.x.infoToString info = some text
      ∧ cfg.x.infoFromStr text = some info)
    (h : Session (Handler.task cfg) s ran t) (hs : s.pm.Synced cfg.x) (hdb : ran.DbWorks) :
    t.pm.Synced cfg.x ∧ (ran.Unlimited →
      t.pm.directory cfg.x = (s.pm.directory cfg.x).after cfg.x (ran.map Ran.call)
        ∧ ran.answers = (s.pm.directory cfg.x).answers cfg.x (ran.map Ran.call)) := by
  refine h.invariant (J := fun ran t => Handled.DbWorks ran → t.pm.Synced cfg.x
    ∧ (Handled.Unlimited ran →
      t.pm.directory cfg.x = (s.pm.directory cfg.x).after cfg.x (ran.map Ran.call)
        ∧ Handled.answers ran = (s.pm.directory cfg.x).answers cfg.x (ran.map Ran.call)))
    (fun call s => ⟨(Handler.returns cfg call s).1, Handler.decided cfg call s hinfo⟩) ?_ ?_ hdb
  · exact fun _ => ⟨hs, fun _ => ⟨rfl, rfl⟩⟩
  · intro ran t call es a t' ih hcall hdb
    obtain ⟨ht, hsame⟩ := ih hdb.take
    obtain ⟨ht', hdecided⟩ := hcall ht (hdb ⟨call, es, some a⟩ (by simp))
    refine ⟨ht', fun hunlimited => ?_⟩
    obtain ⟨hdirectory, hanswers⟩ := hsame fun r hr => hunlimited r (List.mem_append_left _ hr)
    have hdecide := hdecided (hunlimited ⟨call, es, some a⟩ (by simp) a rfl)
    rw [hdirectory] at hdecide
    constructor
    · rw [List.map_append, Directory.after, List.foldl_append]
      exact congrArg Prod.snd hdecide
    · rw [List.map_append, List.map_singleton, Directory.answers_concat, ← hdecide, ← hanswers]
      simp [Handled.answers]

theorem PeerMap.new_synced (x : External) : (PeerMap.new .empty).Synced x :=
  ⟨new_sound _, fun _ => ⟨nofun, nofun⟩⟩

/-- **Restart transparency.** From an empty database, take any history of
calls in which the database works, and restart the server after it: memory
is empty, the database kept. Two sessions of the same later calls, with the
restart and without it, give the same answers to registrations and the same
signed keys, as long as the database works and no rate limiter refuses a call
in either of them. -/
theorem restart_transparent
    (hinfo : ∀ info, ∃ text, cfg.x.infoToString info = some text
      ∧ cfg.x.infoFromStr text = some info)
    {before : Handled} (hbefore : Session (Handler.task cfg) (.start .empty) before s)
    (hdb : before.DbWorks) (hrestart : s'.pm = .new s.pm.db)
    (h : Session (Handler.task cfg) s ran t) (h' : Session (Handler.task cfg) s' ran' t')
    (hcalls : ran.map Ran.call = ran'.map Ran.call)
    (hran : ran.DbWorks ∧ ran.Unlimited) (hran' : ran'.DbWorks ∧ ran'.Unlimited) :
    ran.answers = ran'.answers := by
  obtain ⟨hs, -⟩ := PeerMap.Synced.session hinfo hbefore (PeerMap.new_synced _) hdb
  have hs' : s'.pm.Synced cfg.x := by
    rw [hrestart]
    exact hs.restart
  have hdirectory : s'.pm.directory cfg.x = s.pm.directory cfg.x := by
    rw [hrestart]
    rfl
  obtain ⟨-, hanswers⟩ := ((PeerMap.Synced.session hinfo h hs hran.1).2 hran.2)
  obtain ⟨-, hanswers'⟩ := ((PeerMap.Synced.session hinfo h' hs' hran'.1).2 hran'.2)
  rw [hanswers, hanswers', hdirectory, hcalls]

end

/-! A client is registered, and the server restarts. Then somebody asks for
the client's key, and the client registers a new one. -/

def signer : RendezvousServer := { inner := { sk := some [9] } }

def laterCalls : List Handler := [.getPk signer "1" "123456", .registerPk newKey]

/-- The server of the example, restarted. -/
def restarted (s : Shared) : Shared := .start s.pm.db

theorem restart_transparent_newKey :
    ∃ ran ran', Session (Handler.task { x := .sample [] })
        (handled (.registerPk firstKey) (.start .empty)) ran
        (laterCalls.foldl (fun s h => handled h s) (handled (.registerPk firstKey) (.start .empty)))
      ∧ Session (Handler.task { x := .sample [] })
        (restarted (handled (.registerPk firstKey) (.start .empty))) ran'
        (laterCalls.foldl (fun s h => handled h s)
          (restarted (handled (.registerPk firstKey) (.start .empty))))
      ∧ Handled.answers ran = Handled.answers ran' := by
  have hsession (s : Shared) := Session.call (.registerPk newKey) (fun _ => { now := 0 })
    (Session.call (.getPk signer "1" "123456") (fun _ => { now := 0 })
      (.nil : Session (Handler.task { x := .sample [] }) s [] _))
  have hbefore := Session.call (.registerPk firstKey) (fun _ => { now := 0 })
    (.nil : Session (Handler.task { x := .sample [] }) (.start .empty) [] _)
  refine ⟨_, _, hsession _, hsession _, ?_⟩
  refine restart_transparent sample_infoFromStr hbefore ?_ rfl (hsession _) (hsession _) rfl
    ⟨?_, ?_⟩ ⟨?_, ?_⟩
  · unfold Handled.DbWorks
    decide
  · unfold Handled.DbWorks
    decide
  · exact List.forall_mem_cons.mpr ⟨by rintro _ ⟨⟩ ⟨⟩,
      List.forall_mem_singleton.mpr (by rintro _ ⟨⟩ ⟨⟩)⟩
  · unfold Handled.DbWorks
    decide
  · exact List.forall_mem_cons.mpr ⟨by rintro _ ⟨⟩ ⟨⟩,
      List.forall_mem_singleton.mpr (by rintro _ ⟨⟩ ⟨⟩)⟩

end KustDesk
