import KustDesk.HbbsPeers

/-!
# KustDesk — PeerRows

The table of peers through the whole life of hbbs. However its tasks run into
one another, no row is lost or goes to another id or owner, and a peer in
memory knows the row of its own id, if any.
-/

namespace KustDesk

open Async

/-! ## The table -/

/-- No row is lost, and the row of a guid keeps its id and uuid. -/
def Database.Kept (db db' : Database) : Prop :=
  ∀ row ∈ db.rows, ∃ row' ∈ db'.rows, row'.guid = row.guid ∧ row'.id = row.id ∧ row'.uuid = row.uuid

/-- The row of the guid is that of the id. -/
def Database.Holds (db : Database) (guid : Bytes) (id : String) : Prop :=
  ∃ row ∈ db.rows, row.guid = guid ∧ row.id = id

/-- Where the rows that are new or have changed come from. -/
def Database.Written (op : PmOp) (db db' : Database) : Prop :=
  ∀ row ∈ db'.rows, row ∉ db.rows →
    (op = .insertPeer row.id row.uuid row.pk row.info ∧ db.getPeer row.id = none)
    ∨ op = .updatePk row.guid row.id row.pk row.info

namespace Database

variable {db db' db'' : Database} {guid : Bytes} {id : String} {uuid pk : Bytes} {info : String}
  {op : PmOp}

theorem Kept.refl (db : Database) : db.Kept db := fun row hrow => ⟨row, hrow, rfl, rfl, rfl⟩

theorem Kept.trans (h : db.Kept db') (h' : db'.Kept db'') : db.Kept db'' := by
  intro row hrow
  obtain ⟨row', hrow', hguid, hid, huuid⟩ := h row hrow
  obtain ⟨row'', hrow'', hguid', hid', huuid'⟩ := h' row' hrow'
  exact ⟨row'', hrow'', hguid'.trans hguid, hid'.trans hid, huuid'.trans huuid⟩

theorem Holds.kept (h : db.Holds guid id) (hkept : db.Kept db') : db'.Holds guid id := by
  obtain ⟨row, hrow, hguid, hid⟩ := h
  obtain ⟨row', hrow', hguid', hid', -⟩ := hkept row hrow
  exact ⟨row', hrow', hguid'.trans hguid, hid'.trans hid⟩

theorem Holds.getPeer (h : db.Holds guid id) :
    ∃ row, db.getPeer id = some row ∧ row.guid = guid := by
  obtain ⟨row, hrow, hguid, hid⟩ := h
  exact ⟨row, getPeer_eq_some.mpr ⟨hrow, hid⟩, hguid⟩

theorem Written.refl (op : PmOp) (db : Database) : Written op db db :=
  fun _ hrow hnew => (hnew hrow).elim

/-- An insert adds one row. -/
theorem insertPeer_kept (h : db.insertPeer guid id uuid pk info = some db') :
    db.Kept db' ∧ db'.Holds guid id ∧ Written (.insertPeer id uuid pk info) db db' := by
  have hnone := getPeer_none_of_insertPeer h
  rw [insertPeer] at h
  split at h
  · cases h
  · cases h
    refine ⟨fun row hrow => ⟨row, List.mem_cons_of_mem _ hrow, rfl, rfl, rfl⟩,
      ⟨_, List.mem_cons_self, rfl, rfl⟩, fun row hrow hnew => .inl ?_⟩
    rcases List.mem_cons.mp hrow with rfl | hrow
    · exact ⟨rfl, hnone⟩
    · exact (hnew hrow).elim

/-- An update of the row of the id changes neither its id nor its uuid. -/
theorem updatePk_kept (hholds : db.Holds guid id) (h : db.updatePk guid id pk info = some db') :
    db.Kept db' ∧ Written (.updatePk guid id pk info) db db' := by
  obtain ⟨own, hown, hguid, hid⟩ := hholds
  have hsame : ∀ row ∈ db.rows, row.guid = guid → row.id = id := by
    intro row hrow heq
    by_cases hne : row = own
    · rw [hne, hid]
    · exact ((ne_of_mem hrow hown hne).1 (heq.trans hguid.symm)).elim
  rw [updatePk] at h
  split at h
  · cases h
  · cases h
    refine ⟨fun row hrow => ⟨_, List.mem_map_of_mem hrow, ?_⟩, fun row hrow hnew => .inr ?_⟩
    · by_cases heq : row.guid = guid
      · rw [if_pos heq]
        exact ⟨rfl, (hsame row hrow heq).symm, rfl⟩
      · rw [if_neg heq]
        exact ⟨rfl, rfl, rfl⟩
    · obtain ⟨old, hold, rfl⟩ := List.mem_map.mp hrow
      by_cases heq : old.guid = guid
      · rw [if_pos heq, ← heq]
      · rw [if_neg heq] at hnew
        exact (hnew hold).elim

end Database

/-! ## The peers in memory -/

/-- With `named`, the ids under which the handles came into the map: the map has
a handle under its own id, and a peer with a guid knows the row of its id. -/
structure PeerMap.Filed (named : LockPeer → String) (s : PeerMap) : Prop where
  entry : ∀ id h, s.map.lookup id = some h → named h = id
  guid : ∀ h, (s.peers h).guid ≠ [] → s.db.Holds (s.peers h).guid (named h)

namespace PeerMap.Filed

variable {named : LockPeer → String} {s : PeerMap} {id : String} {p : Peer} {peer : LockPeer}

theorem new (named : LockPeer → String) (db : Database) : (PeerMap.new db).Filed named where
  entry _ _ h := by cases h
  guid _ h := (h rfl).elim

theorem set (h : s.Filed named) (hp : p.guid ≠ [] → s.db.Holds p.guid (named peer)) :
    (s.set peer p).Filed named where
  entry id h' hlookup := h.entry id h' hlookup
  guid h' hguid := by
    by_cases heq : h' = peer
    · subst heq
      rw [set_peers_self] at hguid ⊢
      exact hp hguid
    · rw [set_peers_of_ne _ _ _ heq] at hguid ⊢
      exact h.guid h' hguid

/-- Where the guid stays, so does all that is known of it. -/
theorem set_same (h : s.Filed named) (hp : p.guid = (s.peers peer).guid) :
    (s.set peer p).Filed named := by
  refine h.set fun hguid => ?_
  rw [hp] at hguid ⊢
  exact h.guid peer hguid

theorem enter (h : s.Filed named) (hname : named s.fresh = id)
    (hp : p.guid ≠ [] → s.db.Holds p.guid id) : (s.enter id p).2.Filed named where
  entry id' h' hlookup := by
    by_cases hid : id' = id
    · subst hid
      rw [enter_lookup] at hlookup
      cases hlookup
      exact hname
    · rw [enter_lookup_ne _ _ _ hid] at hlookup
      exact h.entry id' h' hlookup
  guid h' hguid := by
    by_cases heq : h' = s.fresh
    · subst heq
      rw [enter_peers_self] at hguid ⊢
      rw [hname]
      exact hp hguid
    · rw [enter_peers_of_ne _ _ _ heq] at hguid ⊢
      exact h.guid h' hguid

theorem database {db : Database} (h : s.Filed named) (hkept : s.db.Kept db) :
    PeerMap.Filed named { s with db } where
  entry := h.entry
  guid h' hguid := (h.guid h' hguid).kept hkept

theorem swapped {s' : PeerMap} (h : s.Filed named) (hswap : s.Swapped s') : s'.Filed named := by
  obtain ⟨ipBlocker, ipChanges, rfl⟩ := hswap
  exact ⟨h.entry, h.guid⟩

end PeerMap.Filed

/-- What the calls on the peer map count on and owe. -/
def filing (named : LockPeer → String) : Contract Env PmOp PeerMap where
  rely s s' := s'.Filed named ∧ s.db.Kept s'.db
  given op _ s := ∀ id, op.enters s = some id → named s.fresh = id
  guar op _ s s' := s'.Filed named ∧ s.db.Kept s'.db ∧ Database.Written op s.db s'.db

/-- The steps have left everything filed, and no row has been lost since. -/
def FiledSince (named : LockPeer → String) (es : List (Event Env PmOp PeerMap))
    (s : PeerMap) : Prop :=
  ∀ ev ∈ es, ev.post.Filed named ∧ ev.post.db.Kept s.db

section filing
variable {named : LockPeer → String} {x : External} {reg : Option (RegisterPk × SocketAddr)}
  {es : List (Event Env PmOp PeerMap)} {ev : Event Env PmOp PeerMap} {s s' : PeerMap}
  {id : String} {peer : LockPeer}

theorem filing_same {op : PmOp} {e : Env} (h : s'.Filed named) (hdb : s'.db = s.db) :
    (filing named).guar op e s s' := by
  refine ⟨h, ?_, ?_⟩
  · rw [hdb]
    exact .refl _
  · rw [hdb]
    exact .refl _ _

theorem FiledSince.kept (h : FiledSince named es s) (hkept : s.db.Kept s'.db) :
    FiledSince named es s' := by
  intro ev hev
  obtain ⟨hfiled, hkept'⟩ := h ev hev
  exact ⟨hfiled, hkept'.trans hkept⟩

theorem FiledSince.snoc (h : FiledSince named es ev.post) (hfiled : ev.post.Filed named) :
    FiledSince named (es ++ [ev]) ev.post :=
  List.forall_mem_append.mpr ⟨h, List.forall_mem_singleton.mpr ⟨hfiled, .refl _⟩⟩

theorem FiledSince.tracked (h : FiledSince named es s) (hpeer : Tracked es id peer) :
    named peer = id := by
  obtain ⟨ev, hev, hlookup⟩ := hpeer
  exact (h ev hev).1.entry id peer hlookup

theorem FiledSince.fetched {row : DbPeer} (h : FiledSince named es s) (hrow : Fetched es id row) :
    s.db.Holds row.guid id := by
  obtain ⟨ev, hev, hget⟩ := hrow
  obtain ⟨hmem, hid⟩ := Database.getPeer_eq_some.mp hget
  exact Database.Holds.kept ⟨row, hmem, rfl, hid⟩ (h ev hev).2

/-- A step writes to the row of the id of its peer, if to any. -/
theorem PmMove.filing (h : PmMove x reg es ev) (hes : FiledSince named es ev.pre)
    (hs : ev.pre.Filed named)
    (hgiven : ∀ id, ev.op.enters ev.pre = some id → named ev.pre.fresh = id) :
    (filing named).guar ev.op ev.env ev.pre ev.post := by
  cases h with
  | look hreads =>
      rw [hreads.post]
      exact filing_same hs rfl
  | load hrow =>
      exact filing_same (hs.enter (hgiven _ rfl) fun _ => hes.fetched hrow) rfl
  | keep => exact filing_same hs rfl
  | @create id e s hnone =>
      have hname : named s.fresh = id := hgiven id (by simp [PmOp.enters, hnone])
      exact filing_same (hs.enter hname fun hguid => (hguid rfl).elim) rfl
  | count => exact filing_same (hs.set_same rfl) rfl
  | identity => exact filing_same (hs.set_same rfl) rfl
  | address =>
      refine filing_same (hs.set_same ?_) rfl
      rw [Peer.updateAddr_snd]
      split <;> rfl
  | insertRow hdb =>
      rcases hdb with rfl | hinsert
      · exact filing_same hs rfl
      · obtain ⟨hkept, -, hwritten⟩ := Database.insertPeer_kept hinsert
        exact ⟨hs.database hkept, hkept, hwritten⟩
  | keepGuid hpeer hrow =>
      refine filing_same (hs.set fun _ => ?_) rfl
      rw [hes.tracked hpeer]
      exact hes.fetched hrow
  | updateRow hpeer hguid hne hdb =>
      rcases hdb with rfl | hupdate
      · exact filing_same hs rfl
      · obtain ⟨ev', hev', rfl⟩ := hguid
        obtain ⟨hfiled, hkept⟩ := hes ev' hev'
        have hholds := (hfiled.guid _ hne).kept hkept
        rw [hes.tracked hpeer] at hholds
        obtain ⟨hkept, hwritten⟩ := Database.updatePk_kept hholds hupdate
        exact ⟨hs.database hkept, hkept, hwritten⟩
  | @attempt ipBlocker e s => exact filing_same (hs.swapped ⟨ipBlocker, s.ipChanges, rfl⟩) rfl
  | @change rk addr e s => exact filing_same (hs.swapped ⟨s.ipBlocker, _, rfl⟩) rfl

theorem PmCall.filing {α : Type} {t : PmTask α} (h : PmCall x t) (s : PeerMap) :
    t.Meets (filing named) (fun _ _ => True) s := by
  obtain ⟨reg, hmoves⟩ := h.moves
  refine hmoves.meets (J := FiledSince named)
    (K := fun es s => FiledSince named es s ∧ s.Filed named) (by simp [FiledSince])
    (fun es s s' hes hrely => ⟨hes.kept hrely.2, hrely.1⟩) (fun es ev hes hev hgiven => ?_)
    fun _ _ _ _ _ => trivial
  have hguar := hev.filing hes.1 hes.2 hgiven
  exact ⟨hguar, (hes.1.kept hguar.2.1).snoc hguar.1⟩

end filing

section Run
variable {named : LockPeer → String}

theorem filing_peersOnly : PeersOnly (onPeers (filing named)) := by
  refine onPeers_peersOnly (fun h s => h.filing s) fun x id s => ?_
  refine ((PmCall.get id).filing s).mono fun r s _ peer _ e s' hrely _ => ?_
  exact filing_same hrely.1 rfl

variable {ι : Type} [DecidableEq ι] {cfg : Config} {turns : List Ready} {jobs : ι → HbbsJob}
  {w : Hbbs} {es : List (Option ι × HbbsEvent)}
  {q : Pool (Option ι) Env HbbsOp Hbbs fun _ => Unit}

/-- A handle is handed out once. -/
theorem PmOp.effect.fresh {op : PmOp} {e : Env} {s s' : PeerMap} (h : op.effect e s s') :
    s'.fresh = if (op.enters s).isSome then s.fresh + 1 else s.fresh := by
  rcases h.cases with ⟨id, p, hid, rfl⟩ | ⟨hnone, peer, p, rfl⟩ | ⟨hnone, db, ipBlocker, rfl⟩
    | ⟨rfl, ipChanges, rfl⟩
  · rw [hid]
    rfl
  · rw [hnone]
    rfl
  · rw [hnone]
    rfl
  · rfl

/-- Every handle of the run has come into the map under one id. -/
theorem hbbs_named (h : (hbbs cfg turns jobs w).Run es q) : ∃ named : LockPeer → String,
    ∀ i ev, (i, ev) ∈ es → ∀ o, ev.op.onPm = some o → ∀ id,
      o.enters ev.pre.shared.pm = some id → named ev.pre.shared.pm.fresh = id := by
  have hnamed : ∃ named : LockPeer → String, ∀ i ev, (i, ev) ∈ es → ∀ o, ev.op.onPm = some o →
      ∀ id, o.enters ev.pre.shared.pm = some id →
        named ev.pre.shared.pm.fresh = id ∧ ev.pre.shared.pm.fresh < q.shared.shared.pm.fresh := by
    refine h.invariant (J := fun es w => ∃ named : LockPeer → String, ∀ i ev, (i, ev) ∈ es →
      ∀ o, ev.op.onPm = some o → ∀ id, o.enters ev.pre.shared.pm = some id →
        named ev.pre.shared.pm.fresh = id ∧ ev.pre.shared.pm.fresh < w.shared.pm.fresh)
      ⟨fun _ => "", fun i ev hev => by cases hev⟩ ?_
    rintro es q i e op f k hrun hi ⟨named, hold⟩
    obtain ⟨hpm, hswap⟩ := hbbs_pm_all effects_keep (hrun.step i e hi) (List.mem_concat_self ..)
    dsimp only at hpm hswap
    by_cases hentry : ∃ o id, op.onPm = some o ∧ o.enters q.shared.shared.pm = some id
    · obtain ⟨o, id, ho, hid⟩ := hentry
      have hfresh := (hpm o ho).fresh
      rw [hid, Option.isSome_some, if_pos rfl] at hfresh
      refine ⟨Function.update named q.shared.shared.pm.fresh id,
        fun i' ev hev o' ho' id' hid' => ?_⟩
      rcases List.mem_append.mp hev with hev | hev
      · obtain ⟨hname, hlt⟩ := hold i' ev hev o' ho' id' hid'
        rw [Function.update_of_ne (Nat.ne_of_lt hlt), hfresh]
        exact ⟨hname, Nat.lt_succ_of_lt hlt⟩
      · cases List.mem_singleton.mp hev
        cases ho.symm.trans ho'
        cases hid.symm.trans hid'
        rw [Function.update_self, hfresh]
        exact ⟨rfl, Nat.lt_succ_self _⟩
    · have hfresh : q.shared.shared.pm.fresh ≤ (f e q.shared).shared.pm.fresh := by
        cases ho : op.onPm with
        | none =>
            obtain ⟨ipBlocker, ipChanges, hpost⟩ := hswap ho
            rw [hpost]
        | some o =>
            rw [(hpm o ho).fresh]
            split
            · exact Nat.le_succ _
            · exact Nat.le_refl _
      refine ⟨named, fun i' ev hev o' ho' id' hid' => ?_⟩
      rcases List.mem_append.mp hev with hev | hev
      · obtain ⟨hname, hlt⟩ := hold i' ev hev o' ho' id' hid'
        exact ⟨hname, Nat.lt_of_lt_of_le hlt hfresh⟩
      · cases List.mem_singleton.mp hev
        exact (hentry ⟨o', id', ho', hid'⟩).elim
  obtain ⟨named, hnamed⟩ := hnamed
  exact ⟨named, fun i ev hev o ho id hid => (hnamed i ev hev o ho id hid).1⟩

theorem PeerMap.Swapped.db {s s' : PeerMap} (h : s.Swapped s') : s'.db = s.db := by
  obtain ⟨ipBlocker, ipChanges, rfl⟩ := h
  rfl

/-- Every step keeps the rows, and the peers are left with the rows of their ids. -/
theorem hbbs_filed {db : Database} (h : (hbbs cfg turns jobs w).Run es q)
    (hstart : w.shared.pm = .new db) :
    (∀ i ev, (i, ev) ∈ es → ev.pre.shared.pm.db.Kept ev.post.shared.pm.db
      ∧ ∀ row ∈ ev.post.shared.pm.db.rows, row ∉ ev.pre.shared.pm.db.rows →
        ∃ op, ev.op.onPm = some op
          ∧ Database.Written op ev.pre.shared.pm.db ev.post.shared.pm.db)
    ∧ ∃ named, q.shared.shared.pm.Filed named := by
  obtain ⟨named, hnamed⟩ := hbbs_named h
  have hfiled : w.shared.pm.Filed named := hstart ▸ PeerMap.Filed.new named db
  have hgiven (i : Option ι) (ev : HbbsEvent) (hev : (i, ev) ∈ es) :
      (onHbbs (filing named)).given ev.op ev.env ev.pre := hnamed i ev hev
  have hswap {s s' : PeerMap} (h : s.Swapped s') : s.db.Kept s'.db := by
    rw [h.db]
    exact .refl _
  obtain ⟨hevents, s, hend, -⟩ := hbbs_peers filing_peersOnly h hgiven ⟨hfiled, .refl _⟩
    (fun _ _ _ _ _ hrely hg => ⟨⟨hg.1, .refl _⟩, hg.1, hrely.2.trans hg.2.1⟩)
    fun _ _ _ hrely hs => ⟨⟨hrely.1.swapped hs, .refl _⟩, hrely.1.swapped hs,
      hrely.2.trans (hswap hs)⟩
  refine ⟨fun i ev hev => ?_, named, hend⟩
  obtain ⟨hpm, hother⟩ := hevents i ev hev
  cases hop : ev.op.onPm with
  | some op =>
      obtain ⟨-, hkept, hwritten⟩ := hpm op hop
      exact ⟨hkept, fun _ _ _ => ⟨op, rfl, hwritten⟩⟩
  | none =>
      refine ⟨hswap (hother hop), fun row hrow hnew => ?_⟩
      rw [(hother hop).db] at hrow
      exact (hnew hrow).elim

/-- **The rows are kept.** In every run of hbbs that has started with nothing in
memory, no row of the database is ever deleted, and none changes its guid, its
id or its uuid. A row is new only by an insert for an id that had none, and
changes only by an update of the row of its own id. A peer in memory has the
guid of the row of its id, or none yet. -/
theorem rows_kept {db : Database} (h : (hbbs cfg turns jobs w).Run es q)
    (hstart : w.shared.pm = .new db) :
    db.Kept q.shared.shared.pm.db
    ∧ (∀ i ev, (i, ev) ∈ es → ev.pre.shared.pm.db.Kept ev.post.shared.pm.db
      ∧ ∀ row ∈ ev.post.shared.pm.db.rows, row ∉ ev.pre.shared.pm.db.rows →
        (ev.op.onPm = some (.insertPeer row.id row.uuid row.pk row.info)
          ∧ ev.pre.shared.pm.db.getPeer row.id = none)
        ∨ ev.op.onPm = some (.updatePk row.guid row.id row.pk row.info))
    ∧ ∀ id peer, q.shared.shared.pm.map.lookup id = some peer →
      (q.shared.shared.pm.peers peer).guid ≠ [] →
      ∃ row, q.shared.shared.pm.db.getPeer id = some row
        ∧ row.guid = (q.shared.shared.pm.peers peer).guid := by
  obtain ⟨hevents, named, hfiled⟩ := hbbs_filed h hstart
  refine ⟨?_, fun i ev hev => ⟨(hevents i ev hev).1, fun row hrow hnew => ?_⟩, ?_⟩
  · refine h.invariant (J := fun _ w => db.Kept w.shared.pm.db) ?_ ?_
    · show db.Kept w.shared.pm.db
      rw [hstart]
      exact .refl _
    · intro es q i e op f k hrun hi hkept
      have hlast := (hbbs_filed (hrun.step i e hi) hstart).1 _ _ (List.mem_concat_self ..)
      exact hkept.trans hlast.1
  · obtain ⟨op, hop, hwritten⟩ := (hevents i ev hev).2 row hrow hnew
    rw [hop]
    rcases hwritten row hrow hnew with ⟨rfl, hnone⟩ | rfl
    · exact .inl ⟨rfl, hnone⟩
    · exact .inr rfl
  · intro id peer hlookup hguid
    have hholds := hfiled.guid peer hguid
    rw [hfiled.entry id peer hlookup] at hholds
    exact hholds.getPeer

end Run

/-! A peer registers, and then with another key. Another one has registered in
an earlier life of the server. -/

def keysConfig : Config where
  x := .sample [([1], .registerPk { id := "123456", uuid := [1], pk := [2] }),
    ([2], .registerPk { id := "123456", uuid := [1], pk := [3] })]
  key := ""
  secret := ""

def earlier : Database := (Database.empty.insertPeer [9] "654321" [7] [8] "").getD .empty

def keysAddr : SocketAddr := ⟨.v4 0x0A000001#32, 40000⟩

def twoKeys : Pool (Option Empty) Env HbbsOp Hbbs fun _ => Unit :=
  hbbs keysConfig [.datagram [1] keysAddr, .datagram [2] keysAddr] (fun i => i.elim)
    { shared := { Shared.start .empty with pm := .new earlier }, main := oneRelay }

def twoKeysSteps : List (Option Empty × Env) := adminSchedule (List.replicate 40 none)

theorem rows_kept_keys : ∃ es q row, twoKeys.Run es q
    ∧ q.shared.shared.pm.db.getPeer "123456" = some row ∧ row.uuid = [1] ∧ row.pk = [3]
    ∧ earlier.Kept q.shared.shared.pm.db := by
  have hrun := Pool.play_run twoKeys twoKeysSteps
  have hrow : ((twoKeys.play twoKeysSteps).2.shared.shared.pm.db.getPeer "123456").map
      (fun row => (row.uuid, row.pk)) = some ([1], [3]) := by decide +kernel
  obtain ⟨row, hget, hcolumns⟩ := Option.map_eq_some_iff.mp hrow
  obtain ⟨huuid, hpk⟩ := Prod.mk.inj hcolumns
  exact ⟨_, _, row, hrun, hget, huuid, hpk, (rows_kept hrun rfl).1⟩

end KustDesk
