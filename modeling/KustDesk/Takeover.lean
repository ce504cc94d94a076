import KustDesk.Record
import KustDesk.NoPanic

/-!
# KustDesk — Takeover

An id with a row and a failing database. A failed query for the row looks to
`get_or` like no row at all: it enters a peer without an owner, which whoever
is registering passes the check against. As long as this does not happen to
a stranger, the id stays with the owner that the row names.
-/

namespace KustDesk

open Async

/-! ## The other handlers -/

/-- What a handler other than the registration does to a record: nothing, or
it loads the row, or refreshes the address. -/
inductive Record.Refreshed (x : External) (rec : Record) : Record → Prop
  | same : Refreshed x rec rec
  | opened {p} (hopen : rec.Opened x false p) : Refreshed x rec { rec with entry := some p }
  | touched {p} (socketAddr lastRegTime) (hentry : rec.entry = some p) :
      Refreshed x rec { rec with entry := some { p with socketAddr, lastRegTime } }

theorem Record.Refreshed.linked {x : External} {rec rec' : Record}
    (h : rec.Refreshed x rec') (hlinked : rec.Linked) : rec'.Linked := by
  cases h with
  | same => exact hlinked
  | opened hopen =>
      rintro p ⟨⟩
      exact hopen.linked hlinked
  | @touched p socketAddr lastRegTime hentry =>
      rintro _ ⟨⟩
      exact hlinked p hentry

/-- A call that refreshes records, in one step of its own. -/
def Refreshing (x : External) (s : PeerMap) (es : List (Event Env PmOp PeerMap))
    (s' : PeerMap) : Prop :=
  (s.Sound → s'.Sound ∧ ∀ id, (s.record id).Refreshed x (s'.record id))
    ∧ ∀ ev ∈ es, ev.post = s ∨ ev.post = s'

theorem refreshing_of_unchanged {x : External} {s : PeerMap}
    {es : List (Event Env PmOp PeerMap)} (h : ∀ ev ∈ es, ev.post = s) : Refreshing x s es s :=
  ⟨fun hs => ⟨hs, fun _ => .same⟩, fun ev hev => .inl (h ev hev)⟩

/-- Steps that leave the map alone, after those that refresh it. -/
theorem Refreshing.append {x : External} {s s' : PeerMap} {es es' : List (Event Env PmOp PeerMap)}
    (h : Refreshing x s es s') (hes' : ∀ ev ∈ es', ev.post = s') :
    Refreshing x s (es ++ es') s' := by
  refine ⟨h.1, List.forall_mem_append.mpr ⟨h.2, fun ev hev => ?_⟩⟩
  exact .inr (hes' ev hev)

theorem get_refreshing (x : External) (id : String) (s : PeerMap) :
    (PeerMap.get x id).Alone s fun es _ s' => Refreshing x s es s' := by
  refine (get_alone x id s).mono fun es p s' h => ?_
  obtain ⟨failed, hp, -, -, hposts⟩ := h
  cases p with
  | none =>
      obtain ⟨rfl, -⟩ := hp
      exact refreshing_of_unchanged fun ev hev => by simpa using hposts ev hev
  | some peer =>
      refine ⟨fun hs => ?_, hposts⟩
      obtain ⟨hs', hlookup, hdb, hopened, hother⟩ := hp.2.opened.record hs
      refine ⟨hs', fun id' => ?_⟩
      by_cases hid : id' = id
      · subst hid
        rw [PeerMap.record_of_lookup hlookup, hdb]
        exact .opened hopened
      · rw [hother id' hid]
        exact .same

theorem updateAddr_refreshing (x : External) (id : String) (addr : SocketAddr) (s : PeerMap) :
    (updateAddr id addr).Alone s fun es _ s' => Refreshing x s es s' := by
  refine (updateAddr_alone id addr s).mono fun es _ s' h => ?_
  obtain ⟨rfl | ⟨old, now, hlookup, rfl⟩, hposts⟩ := h
  · exact refreshing_of_unchanged fun ev hev => by simpa using hposts ev hev
  · refine ⟨fun hs => ⟨hs.set _ _, fun id' => ?_⟩, hposts⟩
    rw [PeerMap.record_set hs hlookup]
    by_cases hid : id' = id
    · subst hid
      rw [if_pos rfl, Peer.updateAddr_snd]
      have hentry : (s.record id').entry = some (s.peers old) := by
        rw [PeerMap.record_of_lookup hlookup]
      split
      · rw [← hentry]
        exact .same
      · exact .touched addr now hentry
    · rw [if_neg hid]
      exact .same

theorem getPk_refreshing (x : External) (sk : Option Bytes) (version id : String)
    (s : PeerMap) :
    (getPk x sk version id).Alone s fun es _ s' => Refreshing x s es s' := by
  refine getPk_alone x sk version id s (get_refreshing x id s) ?_ ?_ ?_
  · exact fun _ => refreshing_of_unchanged (by simp)
  · exact fun _ _ es s' h => h
  · intro sk' _ _ es peer s' ev h hev
    exact h.append (List.forall_mem_singleton.mpr hev)

/-! ## The calls of a session -/

/-- The handlers, as far as they work on the peer map: the registration, the
refresh of an address, the lookups for a punch hole or a relay, the online
query, and the signed identity. -/
inductive HandlerCall where
  | registerPk (c : RegCall)
  | updateAddr (id : String) (addr : SocketAddr)
  | get (id : String)
  | getInMemory (id : String)
  | isInMemory (id : String)
  | peersOnline (peers : List String)
  | getPk (sk : Option Bytes) (version id : String)

/-- The answer of a registration. -/
abbrev RegisterAnswer := Option (Except RegisterPkResult RegisterPkResult)

namespace HandlerCall

def task (x : External) : HandlerCall → PmTask RegisterAnswer
  | .registerPk c => do return some (← c.task x)
  | .updateAddr id addr => do let _ ← KustDesk.updateAddr id addr; return none
  | .get id => do let _ ← PeerMap.get x id; return none
  | .getInMemory id => do let _ ← PeerMap.getInMemory id; return none
  | .isInMemory id => do let _ ← PeerMap.isInMemory id; return none
  | .peersOnline peers => do let _ ← peersOnlineState peers; return none
  | .getPk sk version id => do let _ ← KustDesk.getPk x sk version id; return none

def Outcome (x : External) (call : HandlerCall) (s : PeerMap)
    (es : List (Event Env PmOp PeerMap)) (r : RegisterAnswer) (s' : PeerMap) : Prop :=
  match call with
  | .registerPk c => ∃ a, r = some a ∧ c.Outcome x s es a s'
  | _ => r = none ∧ Refreshing x s es s'

theorem returns (x : External) (call : HandlerCall) (s : PeerMap) :
    (call.task x).NoAbort ∧ (call.task x).Alone s (call.Outcome x s) := by
  have hdone {α : Type} {t : PmTask α} (ht : t.Alone s fun es _ s' => Refreshing x s es s') :
      (do let _ ← t; return none : PmTask RegisterAnswer).Alone s
        fun es r s' => r = none ∧ Refreshing x s es s' :=
    ht.bind fun es _ s' h => ⟨rfl, by simpa using h⟩
  have hlook {α : Type} {t : PmTask α} (ht : t.All fun ev => ev.post = ev.pre) :
      t.Alone s fun es _ s' => Refreshing x s es s' := by
    refine (ht.alone s).mono fun es a s' h => ?_
    obtain ⟨rfl, hposts⟩ := h
    exact refreshing_of_unchanged hposts
  have hnone {α : Type} {t : PmTask α} (ht : t.NoAbort) :
      (do let _ ← t; return none : PmTask RegisterAnswer).NoAbort := ht.bind fun _ => trivial
  cases call with
  | registerPk c =>
      refine ⟨(handleRegisterPk_noAbort x _ _ _).bind fun _ => trivial, ?_⟩
      exact (handleRegisterPk_alone x c s).bind fun es a s' h => ⟨a, rfl, by simpa using h⟩
  | updateAddr id addr =>
      exact ⟨hnone (updateAddr_noAbort x id addr), hdone (updateAddr_refreshing x id addr s)⟩
  | get id => exact ⟨hnone (PeerMap.get_noAbort x id), hdone (get_refreshing x id s)⟩
  | getInMemory id =>
      exact ⟨hnone (Task.noAbort_look _ _), hdone (hlook ((Task.all_look _ _).mpr fun _ _ => rfl))⟩
  | isInMemory id =>
      exact ⟨hnone (Task.noAbort_look _ _), hdone (hlook ((Task.all_look _ _).mpr fun _ _ => rfl))⟩
  | peersOnline peers =>
      exact ⟨hnone (peersOnlineState_noAbort peers), hdone (hlook (peersOnlineState_looks peers))⟩
  | getPk sk version id =>
      exact ⟨hnone (getPk_noAbort x sk version id), hdone (getPk_refreshing x sk version id s)⟩

end HandlerCall

/-! ## The owner -/

/-- The row names the owner, and memory too, with a key of the owner's. -/
structure Record.OwnedBy (rec : Record) (uuid : Bytes) (pks : Bytes → Prop) : Prop where
  row : ∃ r, rec.row = some r ∧ r.uuid = uuid ∧ pks r.pk
  entry : ∀ p, rec.entry = some p → p.uuid = uuid ∧ pks p.pk

namespace Record.OwnedBy

variable {x : External} {rec rec' : Record} {uuid : Bytes} {pks : Bytes → Prop}

theorem mono {pks' : Bytes → Prop} (h : rec.OwnedBy uuid pks) (hpks : ∀ pk, pks pk → pks' pk) :
    rec.OwnedBy uuid pks' := by
  constructor
  · obtain ⟨r, hr, huuid, hpk⟩ := h.row
    exact ⟨r, hr, huuid, hpks _ hpk⟩
  · intro p hp
    exact ⟨(h.entry p hp).1, hpks _ (h.entry p hp).2⟩

/-- Only a failed query opens a peer without an owner. -/
theorem opened {failed : Bool} {p : Peer} (h : rec.OwnedBy uuid pks)
    (hopen : rec.Opened x failed p) :
    (p.uuid = uuid ∧ pks p.pk) ∨ (failed = true ∧ ∃ earliest now, p = .default earliest now) := by
  obtain ⟨r, hr, huuid, hpk⟩ := h.row
  cases hopen with
  | found hentry => exact .inl (h.entry p hentry)
  | loaded earliest since hentry hrow =>
      rw [hr, Option.some.injEq] at hrow
      subst hrow
      exact .inl ⟨huuid, hpk⟩
  | created earliest now hentry hrow =>
      rw [hr] at hrow
      exact .inr ⟨hrow.resolve_right nofun, earliest, now, rfl⟩

theorem refreshed (h : rec.OwnedBy uuid pks) (hrefresh : rec.Refreshed x rec') :
    rec'.OwnedBy uuid pks := by
  cases hrefresh with
  | same => exact h
  | opened hopen =>
      refine ⟨h.row, ?_⟩
      rintro p ⟨⟩
      exact (h.opened hopen).resolve_right (by simp)
  | @touched p socketAddr lastRegTime hentry =>
      refine ⟨h.row, ?_⟩
      rintro _ ⟨⟩
      exact h.entry p hentry

theorem registered {c : RegCall} {failed : Bool} {w : Option ((Bytes × String) × Bool)}
    {r : Except RegisterPkResult RegisterPkResult} (h : rec.OwnedBy uuid pks)
    (huuid : uuid ≠ []) (hreg : rec.Registered x c failed w r rec')
    (howner : c.rk.uuid = uuid → pks c.rk.pk) (hread : c.rk.uuid ≠ uuid → failed = false) :
    rec'.OwnedBy uuid pks ∧ (c.rk.uuid ≠ uuid → ∃ e, r = .error e) := by
  cases hreg with
  | rejected => exact ⟨h, fun _ => ⟨_, rfl⟩⟩
  | refused hopen hcheck =>
      rcases h.opened hopen with hknown | ⟨-, earliest, now, rfl⟩
      · refine ⟨⟨h.row, ?_⟩, fun _ => ⟨_, rfl⟩⟩
        rintro p ⟨⟩
        exact hknown
      · exact (Peer.default_passes _ now hcheck).elim
  | unchanged hopen hcheck =>
      rcases h.opened hopen with hknown | ⟨-, earliest, now, rfl⟩
      · refine ⟨⟨h.row, ?_⟩, fun hne => ?_⟩
        · rintro p ⟨⟩
          exact hknown
        · rw [← (Peer.eq_of_checkUuid hcheck).1] at hne
          exact (hne hknown.1).elim
      · rw [Peer.checkUuid_of_uuid_nil rfl] at hcheck
        cases hcheck
  | @written _ p _ ok guid row regPk now hopen hcuuid hcheck hwrote =>
      have hown : c.rk.uuid = uuid := by
        rcases h.opened hopen with ⟨hp, -⟩ | ⟨hfailed, -⟩
        · rcases Peer.uuid_of_checkUuid hcheck with hempty | heq
          · exact (huuid (hp.symm.trans hempty)).elim
          · exact heq.symm.trans hp
        · by_contra hne
          rw [hread hne] at hfailed
          cases hfailed
      refine ⟨⟨?_, ?_⟩, fun hne => (hne hown).elim⟩
      · obtain ⟨r, hr, hruuid, hpk⟩ := h.row
        cases hwrote with
        | refused => exact ⟨r, hr, hruuid, hpk⟩
        | inserted hguid hguid' hrow =>
            rw [hr] at hrow
            cases hrow
        | updated hguid hrow hrguid =>
            rw [hr, Option.some.injEq] at hrow
            subst hrow
            exact ⟨_, rfl, hruuid, howner hown⟩
      · rintro _ ⟨⟩
        exact ⟨hown, howner hown⟩

end Record.OwnedBy

/-! ## Sessions of handler calls -/

/-- What has run in a session of handler calls. -/
abbrev HandlerCalls := List (Ran HandlerCall Env PmOp PeerMap RegisterAnswer)

/-- The key is that of the row, or one that the owner has registered. -/
def HandlerCalls.OwnersPk (ran : HandlerCalls) (row : DbPeer) (pk : Bytes) : Prop :=
  pk = row.pk ∨ ∃ r ∈ ran, ∃ c, r.call = .registerPk c ∧ c.id = row.id
    ∧ c.rk.uuid = row.uuid ∧ c.rk.pk = pk

/-- No stranger has taken the id of the row: a registration with another uuid
is refused, and whenever memory has a peer with an owner for the id, it is
the owner of the row with one of its own keys. -/
structure HandlerCalls.Untaken (ran : HandlerCalls) (row : DbPeer) : Prop where
  refused : ∀ r ∈ ran, ∀ c, r.call = .registerPk c → c.id = row.id → c.rk.uuid ≠ row.uuid →
    ∃ e, r.result = some (some (.error e))
  memory : ∀ r ∈ ran, ∀ ev ∈ r.events, ∀ uuid pk,
    ev.post.identity row.id = some (uuid, pk) →
      (uuid = [] ∧ pk = []) ∨ (uuid = row.uuid ∧ ran.OwnersPk row pk)

/-- No query for the row has failed in a registration with another uuid. -/
def HandlerCalls.StrangersRead (ran : HandlerCalls) (row : DbPeer) : Prop :=
  ∀ r ∈ ran, ∀ c, r.call = .registerPk c → c.id = row.id → c.rk.uuid ≠ row.uuid →
    ¬ FailedRead row.id r.events

/-- The invariant of a session: the records are linked, and that of the row is
its owner's. -/
structure Guarded (ran : HandlerCalls) (row : DbPeer) (s : PeerMap) : Prop where
  sound : s.Sound
  linked : ∀ id, (s.record id).Linked
  owned : (s.record row.id).OwnedBy row.uuid (ran.OwnersPk row)

section
variable {x : External} {ran : HandlerCalls} {row : DbPeer} {s s' : PeerMap}
  {es : List (Event Env PmOp PeerMap)}

theorem Guarded.new {db : Database} (hrow : row ∈ db.rows) : Guarded [] row (.new db) := by
  refine ⟨PeerMap.new_sound db, fun id => nofun, ⟨?_, nofun⟩⟩
  exact ⟨row, Database.getPeer_eq_some.mpr ⟨hrow, rfl⟩, rfl, .inl rfl⟩

theorem PeerMap.identity_of_ownedBy {id : String} {owner uuid pk : Bytes}
    {pks : Bytes → Prop} (h : (s.record id).OwnedBy owner pks)
    (hidentity : s.identity id = some (uuid, pk)) : uuid = owner ∧ pks pk := by
  rw [record_identity, Option.map_eq_some_iff] at hidentity
  obtain ⟨p, hp, heq⟩ := hidentity
  cases heq
  exact h.entry p hp

/-- A failed query opens the id to whoever is registering. -/
theorem RegCall.Outcome.ok_of_failedRead {c : RegCall}
    {r : Except RegisterPkResult RegisterPkResult} (h : c.Outcome x s es r s')
    (hread : FailedRead c.id es) : r = .ok .ok := by
  obtain ⟨failed, w, hreg, hfailed, -⟩ := h
  obtain rfl := hfailed.mpr hread
  cases hreg with
  | opened huuid hopen hsettled =>
      cases hopen with
      | created earliest now hlookup hrow =>
          cases hsettled with
          | refused hcheck hs' =>
              rw [PeerMap.enter_peers_self] at hcheck
              exact (Peer.default_passes _ now hcheck).elim
          | unchanged => rfl
          | written => rfl

theorem HandlerCalls.OwnersPk.append {pk : Bytes} (h : ran.OwnersPk row pk)
    (ran' : HandlerCalls) : HandlerCalls.OwnersPk (ran ++ ran') row pk := by
  rcases h with hpk | ⟨r, hr, hc⟩
  · exact .inl hpk
  · exact .inr ⟨r, List.mem_append_left _ hr, hc⟩

theorem Guarded.append (h : Guarded ran row s) (ran' : HandlerCalls) :
    Guarded (ran ++ ran') row s :=
  ⟨h.sound, h.linked, h.owned.mono fun _ hpk => hpk.append ran'⟩

theorem Guarded.refreshed (h : Guarded ran row s) (hrefresh : Refreshing x s es s') :
    Guarded ran row s' ∧ ∀ ev ∈ es, ∀ uuid pk, ev.post.identity row.id = some (uuid, pk) →
      uuid = row.uuid ∧ ran.OwnersPk row pk := by
  obtain ⟨hs', hrecords⟩ := hrefresh.1 h.sound
  have h' : Guarded ran row s' :=
    ⟨hs', fun id => (hrecords id).linked (h.linked id), h.owned.refreshed (hrecords row.id)⟩
  refine ⟨h', fun ev hev uuid pk hidentity => ?_⟩
  rcases hrefresh.2 ev hev with hpost | hpost
  · rw [hpost] at hidentity
    exact PeerMap.identity_of_ownedBy h.owned hidentity
  · rw [hpost] at hidentity
    exact PeerMap.identity_of_ownedBy h'.owned hidentity

theorem Guarded.registered {c : RegCall} {r : Except RegisterPkResult RegisterPkResult}
    (h : Guarded ran row s) (huuid : row.uuid ≠ []) (hc : c.Outcome x s es r s')
    (howner : c.id = row.id → c.rk.uuid = row.uuid → ran.OwnersPk row c.rk.pk)
    (hread : c.id = row.id → c.rk.uuid ≠ row.uuid → ¬ FailedRead row.id es) :
    Guarded ran row s' ∧ (c.id = row.id → c.rk.uuid ≠ row.uuid → ∃ e, r = .error e)
      ∧ ∀ ev ∈ es, ∀ uuid pk, ev.post.identity row.id = some (uuid, pk) →
        (uuid = [] ∧ pk = []) ∨ (uuid = row.uuid ∧ ran.OwnersPk row pk) := by
  obtain ⟨failed, w, hreg, hfailed, -, hposts⟩ := hc
  obtain ⟨hs', hreg', hothers⟩ := hreg.record h.sound (h.linked c.id)
  have hlinked : ∀ id, (s'.record id).Linked := by
    intro id
    by_cases hid : id = c.id
    · subst hid
      exact hreg'.linked (h.linked c.id)
    · rw [hothers id hid]
      exact h.linked id
  by_cases hid : c.id = row.id
  · rw [hid] at hreg' hfailed
    obtain ⟨howned, hrefused⟩ := h.owned.registered huuid hreg' (howner hid) fun hne => by
      cases failed with
      | false => rfl
      | true => exact (hread hid hne (hfailed.mp rfl)).elim
    refine ⟨⟨hs', hlinked, howned⟩, fun _ => hrefused, fun ev hev uuid pk hidentity => ?_⟩
    rcases hposts ev hev with hpost | hpost | ⟨peer, s₁, hopen, hpost⟩
    · rw [hpost] at hidentity
      exact .inr (PeerMap.identity_of_ownedBy h.owned hidentity)
    · rw [hpost] at hidentity
      exact .inr (PeerMap.identity_of_ownedBy howned hidentity)
    · obtain ⟨-, hlookup, -, hopened, -⟩ := hopen.record h.sound
      rw [hid] at hlookup hopened
      rw [hpost, PeerMap.identity, hlookup] at hidentity
      cases hidentity
      rcases h.owned.opened hopened with hknown | ⟨-, earliest, now, hnew⟩
      · exact .inr hknown
      · exact .inl (by rw [hnew]; exact ⟨rfl, rfl⟩)
  · have howned : (s'.record row.id).OwnedBy row.uuid (ran.OwnersPk row) := by
      rw [hothers row.id (Ne.symm hid)]
      exact h.owned
    refine ⟨⟨hs', hlinked, howned⟩, fun heq => (hid heq).elim,
      fun ev hev uuid pk hidentity => .inr ?_⟩
    rcases hposts ev hev with hpost | hpost | ⟨peer, s₁, hopen, hpost⟩
    · rw [hpost] at hidentity
      exact PeerMap.identity_of_ownedBy h.owned hidentity
    · rw [hpost] at hidentity
      exact PeerMap.identity_of_ownedBy howned hidentity
    · obtain ⟨-, -, -, -, hother⟩ := hopen.record h.sound
      rw [hpost] at hidentity
      refine PeerMap.identity_of_ownedBy ?_ hidentity
      rw [hother row.id (Ne.symm hid)]
      exact h.owned

theorem HandlerCalls.Untaken.concat {r : Ran HandlerCall Env PmOp PeerMap RegisterAnswer}
    (h : ran.Untaken row)
    (hrefused : ∀ c, r.call = .registerPk c → c.id = row.id → c.rk.uuid ≠ row.uuid →
      ∃ e, r.result = some (some (.error e)))
    (hmemory : ∀ ev ∈ r.events, ∀ uuid pk, ev.post.identity row.id = some (uuid, pk) →
      (uuid = [] ∧ pk = []) ∨ (uuid = row.uuid ∧ HandlerCalls.OwnersPk (ran ++ [r]) row pk)) :
    HandlerCalls.Untaken (ran ++ [r]) row := by
  constructor
  · intro r' hr'
    rcases List.mem_append.mp hr' with hr' | hr'
    · exact h.refused r' hr'
    · rw [List.mem_singleton.mp hr']
      exact hrefused
  · intro r' hr' ev hev uuid pk hidentity
    rcases List.mem_append.mp hr' with hr' | hr'
    · rcases h.memory r' hr' ev hev uuid pk hidentity with hempty | ⟨huuid, hpk⟩
      · exact .inl hempty
      · exact .inr ⟨huuid, hpk.append [r]⟩
    · rw [List.mem_singleton.mp hr'] at hev
      exact hmemory ev hev uuid pk hidentity

/-- A further call keeps the id with its owner, unless it is a stranger's
registration whose query fails. -/
theorem Guarded.call {call : HandlerCall} {r : RegisterAnswer} (h : Guarded ran row s)
    (huuid : row.uuid ≠ []) (huntaken : ran.Untaken row)
    (hcall : call.Outcome x s es r s')
    (hread : HandlerCalls.StrangersRead (ran ++ [⟨call, es, some r⟩]) row) :
    Guarded (ran ++ [⟨call, es, some r⟩]) row s'
      ∧ HandlerCalls.Untaken (ran ++ [⟨call, es, some r⟩]) row := by
  have h' := h.append [⟨call, es, some r⟩]
  have hother (hcall : Refreshing x s es s') (hnone : ∀ c, call ≠ .registerPk c) :
      Guarded (ran ++ [⟨call, es, some r⟩]) row s'
        ∧ HandlerCalls.Untaken (ran ++ [⟨call, es, some r⟩]) row := by
    obtain ⟨hguarded, hmemory⟩ := h'.refreshed hcall
    refine ⟨hguarded, huntaken.concat (fun c hc => (hnone c hc).elim) ?_⟩
    exact fun ev hev uuid pk hidentity => .inr (hmemory ev hev uuid pk hidentity)
  cases call with
  | registerPk c =>
      obtain ⟨a, rfl, hc⟩ := hcall
      have hlast : (⟨.registerPk c, es, some (some a)⟩ :
          Ran HandlerCall Env PmOp PeerMap RegisterAnswer)
            ∈ ran ++ [⟨.registerPk c, es, some (some a)⟩] := by simp
      obtain ⟨hguarded, hrefused, hmemory⟩ := h'.registered huuid hc
        (fun hid hown => .inr ⟨_, hlast, c, rfl, hid, hown, rfl⟩) (hread _ hlast c rfl)
      refine ⟨hguarded, huntaken.concat ?_ hmemory⟩
      rintro _ ⟨⟩ hid hne
      obtain ⟨e, rfl⟩ := hrefused hid hne
      exact ⟨e, rfl⟩
  | _ => exact hother hcall.2 (by simp)

/-- **No takeover.** For a database with a row for an id and an owner in it,
and any session of handler calls from an empty map, no stranger takes the id
exactly if no query for the row fails in a stranger's registration. -/
theorem untaken_iff {db : Database} (hrow : row ∈ db.rows) (huuid : row.uuid ≠ [])
    (h : Session (HandlerCall.task x) (.new db) ran s) :
    ran.Untaken row ↔ ran.StrangersRead row := by
  constructor
  · intro huntaken r hr c hc hid hne hread
    obtain ⟨e, herror⟩ := huntaken.refused r hr c hc hid hne
    obtain ⟨s₁, a, s₂, ha, houtcome⟩ := h.of_mem (HandlerCall.returns x) hr
    rw [hc] at houtcome
    obtain ⟨answer, rfl, hcall⟩ := houtcome
    rw [hcall.ok_of_failedRead (hid ▸ hread)] at ha
    rw [ha] at herror
    cases herror
  · intro hread
    have hguarded := h.invariant (J := fun ran s => HandlerCalls.StrangersRead ran row →
      Guarded ran row s ∧ HandlerCalls.Untaken ran row) (HandlerCall.returns x) ?_ ?_
    · exact (hguarded hread).2
    · exact fun _ => ⟨.new hrow, List.forall_mem_nil _, List.forall_mem_nil _⟩
    · intro ran s call es r s' ih hcall hread
      obtain ⟨hguarded, huntaken⟩ := ih fun r hr => hread r (List.mem_append_left _ hr)
      exact hguarded.call huuid huntaken hcall hread

end

/-! A stranger registers an id that the database has an owner for. The query
for the row is the third step. -/

def ownedRow : DbPeer := ⟨[7], "123456", [1], [2], "10.0.0.1"⟩

def ownedDb : Database := ⟨[ownedRow], List.pairwise_singleton _ _⟩

def stranger : RegCall := ⟨{ id := "123456", uuid := [3], pk := [4] }, ⟨.v4 1, 50000⟩, false⟩

theorem untaken_iff_stranger :
    HandlerCalls.Untaken
      [⟨.registerPk stranger,
        ((HandlerCall.registerPk stranger).task (.sample [])).trace (fun _ => { now := 0 })
          (.new ownedDb),
        some (some (.error .uuidMismatch))⟩] ownedRow := by
  have hrun := Session.call (.registerPk stranger) (fun _ => { now := 0 })
    (.nil : Session (HandlerCall.task (.sample [])) (.new ownedDb) [] _)
  refine (untaken_iff (List.mem_singleton.mpr rfl) (by decide) hrun).mpr ?_
  intro r hr c hc hid hne
  rw [List.nil_append, List.mem_singleton] at hr
  subst hr
  unfold FailedRead
  decide

/-- The query fails, and the id is the stranger's. -/
theorem id_taken :
    ∃ r s, Session (HandlerCall.task (.sample [])) (.new ownedDb) [r] s
      ∧ r.call = .registerPk stranger ∧ r.result = some (some (.ok .ok))
      ∧ s.identity "123456" = some (stranger.rk.uuid, stranger.rk.pk)
      ∧ stranger.rk.uuid ≠ ownedRow.uuid ∧ stranger.rk.pk ≠ ownedRow.pk :=
  ⟨_, _, .call (.registerPk stranger) (fun n => { now := 0, fails := n == 2 }) .nil, rfl,
    by decide, by decide, by decide, by decide⟩

end KustDesk
