import KustDesk.RegisterOnce
import KustDesk.PeerSteps

/-!
# KustDesk — Record

What the server holds of one id, in memory and on disk, and what a
registration that runs alone does to it. It touches no other id: handles
are not shared, and a guid in memory is that of the id's own row.
-/

namespace KustDesk

structure Record where
  /-- The peer that the entry of the map points to. -/
  entry : Option Peer
  row : Option DbPeer

def PeerMap.record (s : PeerMap) (id : String) : Record where
  entry := (s.map.lookup id).map s.peers
  row := s.db.getPeer id

/-- A guid in memory is that of the row. -/
def Record.Linked (rec : Record) : Prop :=
  ∀ p, rec.entry = some p → p.guid = [] ∨ ∃ r, rec.row = some r ∧ r.guid = p.guid

/-! ## What a registration does to a record -/

/-- The peer that `get_or` returns. -/
inductive Record.Opened (x : External) (rec : Record) : Bool → Peer → Prop
  | found {p} (hentry : rec.entry = some p) : Opened x rec false p
  | loaded {v} (earliest since) (hentry : rec.entry = none) (hrow : rec.row = some v) :
      Opened x rec false (PeerMap.ofRow x v earliest since)
  | created {failed} (earliest now) (hentry : rec.entry = none)
      (hrow : failed = true ∨ rec.row = none) : Opened x rec failed (.default earliest now)

/-- The write to the row by a peer with this guid. -/
inductive Record.Wrote (row : Option DbPeer) (guid : Bytes) (id : String) (uuid pk : Bytes)
    (info : String) : Bool → Bytes → Option DbPeer → Prop
  | refused : Wrote row guid id uuid pk info false guid row
  | inserted {guid'} (hguid : guid = []) (hguid' : guid' ≠ []) (hrow : row = none) :
      Wrote row guid id uuid pk info true guid' (some ⟨guid', id, uuid, pk, info⟩)
  | updated {r} (hguid : guid ≠ []) (hrow : row = some r) (hr : r.guid = guid) :
      Wrote row guid id uuid pk info true guid (some { r with pk, info })

inductive Record.Registered (x : External) (c : RegCall) (rec : Record) :
    Bool → Option ((Bytes × String) × Bool) → Except RegisterPkResult RegisterPkResult →
      Record → Prop
  | rejected {r} : Registered x c rec false none (.error r) rec
  | refused {failed p r} (hopen : rec.Opened x failed p)
      (hcheck : p.checkUuid c.rk c.ip = none ∨ ∃ now, countRegPk p.regPk now = none) :
      Registered x c rec failed none (.error r) { rec with entry := some p }
  | unchanged {failed p ipChanged regPk} (hopen : rec.Opened x failed p)
      (hcheck : p.checkUuid c.rk c.ip = some (false, ipChanged)) :
      Registered x c rec failed none (.ok .ok) { rec with entry := some { p with regPk } }
  | written {failed p changed ok guid row} (regPk now) (hopen : rec.Opened x failed p)
      (huuid : c.rk.uuid ≠ []) (hcheck : p.checkUuid c.rk c.ip = some changed)
      (hrow : Record.Wrote rec.row p.guid c.id c.rk.uuid c.rk.pk (c.info x) ok guid row) :
      Registered x c rec failed (some ((c.rk.pk, c.info x), ok)) (.ok .ok)
        ⟨some { c.write { p with regPk } now with guid }, row⟩

theorem Record.Opened.linked {x : External} {rec : Record} {failed : Bool} {p : Peer}
    (h : rec.Opened x failed p) (hlinked : rec.Linked) :
    p.guid = [] ∨ ∃ r, rec.row = some r ∧ r.guid = p.guid := by
  cases h with
  | found hentry => exact hlinked p hentry
  | @loaded v earliest since hentry hrow => exact .inr ⟨v, hrow, rfl⟩
  | created earliest now hentry hrow => exact .inl rfl

theorem Record.Registered.linked {x : External} {c : RegCall} {rec rec' : Record}
    {failed : Bool} {w : Option ((Bytes × String) × Bool)}
    {r : Except RegisterPkResult RegisterPkResult}
    (h : rec.Registered x c failed w r rec') (hlinked : rec.Linked) : rec'.Linked := by
  cases h with
  | rejected => exact hlinked
  | refused hopen hcheck =>
      rintro p ⟨⟩
      exact hopen.linked hlinked
  | unchanged hopen hcheck =>
      rintro p ⟨⟩
      exact hopen.linked hlinked
  | written regPk now hopen huuid hcheck hrow =>
      rintro p ⟨⟩
      cases hrow with
      | refused => exact hopen.linked hlinked
      | inserted hguid hguid' hrow => exact .inr ⟨_, rfl, rfl⟩
      | updated hguid hrow hr => exact .inr ⟨_, rfl, hr⟩

/-! ## From the map to its records -/

namespace PeerMap

variable {s s' : PeerMap} {id id' : String} {peer : LockPeer}

theorem record_of_lookup (hpeer : s.map.lookup id = some peer) :
    s.record id = ⟨some (s.peers peer), s.db.getPeer id⟩ := by
  simp [record, hpeer]

theorem record_set_self (hpeer : s.map.lookup id = some peer) (p : Peer) :
    (s.set peer p).record id = ⟨some p, s.db.getPeer id⟩ := by
  simp [record, hpeer]

theorem record_enter_self (s : PeerMap) (id : String) (p : Peer) :
    (s.enter id p).2.record id = ⟨some p, s.db.getPeer id⟩ := by
  simp [record]

theorem record_set (hs : s.Sound) (hpeer : s.map.lookup id = some peer) (p : Peer) :
    (s.set peer p).record id' = if id' = id then ⟨some p, s.db.getPeer id⟩ else s.record id' := by
  by_cases hid : id' = id
  · rw [if_pos hid, hid, record_set_self hpeer]
  · rw [if_neg hid]
    have hother : ∀ h, s.map.lookup id' = some h → (s.set peer p).peers h = s.peers h := by
      intro h hlookup
      apply set_peers_of_ne
      rintro rfl
      exact hid (hs.inj id' id h hlookup hpeer)
    simp only [record, set_map, set_db, Record.mk.injEq, and_true]
    exact Option.map_congr hother

theorem record_enter (hs : s.Sound) (p : Peer) :
    (s.enter id p).2.record id'
      = if id' = id then ⟨some p, s.db.getPeer id⟩ else s.record id' := by
  by_cases hid : id' = id
  · rw [if_pos hid, hid, record_enter_self]
  · rw [if_neg hid]
    have hother : ∀ h, s.map.lookup id' = some h → (s.enter id p).2.peers h = s.peers h := by
      intro h hlookup
      exact enter_peers_of_ne _ _ _ (Nat.ne_of_lt (hs.lt id' h hlookup))
    simp only [record, enter_lookup_ne _ _ _ hid, enter_db, Record.mk.injEq, and_true]
    exact Option.map_congr hother

theorem Sound.set (hs : s.Sound) (peer : LockPeer) (p : Peer) : (s.set peer p).Sound :=
  ⟨hs.lt, hs.inj⟩

theorem Alike.sound (h : s.Alike s') (hs : s.Sound) : s'.Sound where
  lt := by
    rw [h.map, h.fresh]
    exact hs.lt
  inj := by
    rw [h.map]
    exact hs.inj

theorem Alike.record (h : s.Alike s') : s'.record = s.record := by
  funext id
  simp only [PeerMap.record, h.map, h.peers, h.db]

theorem record_identity (s : PeerMap) (id : String) :
    s.identity id = (s.record id).entry.map fun p => (p.uuid, p.pk) := by
  simp [identity, record, Function.comp_def]

end PeerMap

theorem Opened.record {x : External} {id : String} {s s₁ : PeerMap} {failed : Bool}
    {peer : LockPeer} (h : Opened x id s failed peer s₁) (hs : s.Sound) :
    s₁.Sound ∧ s₁.map.lookup id = some peer ∧ s₁.db = s.db
      ∧ (s.record id).Opened x failed (s₁.peers peer)
      ∧ ∀ id', id' ≠ id → s₁.record id' = s.record id' := by
  cases h with
  | found hlookup =>
      refine ⟨hs, hlookup, rfl, .found ?_, fun _ _ => rfl⟩
      rw [PeerMap.record_of_lookup hlookup]
  | loaded earliest since hlookup hrow =>
      refine ⟨hs.enter _ _, PeerMap.enter_lookup _ _ _, rfl, ?_, fun id' hid => ?_⟩
      · rw [PeerMap.enter_peers_self]
        exact .loaded earliest since (by simp [PeerMap.record, hlookup]) hrow
      · rw [PeerMap.record_enter hs, if_neg hid]
  | created earliest now hlookup hrow =>
      refine ⟨hs.enter _ _, PeerMap.enter_lookup _ _ _, rfl, ?_, fun id' hid => ?_⟩
      · rw [PeerMap.enter_peers_self]
        exact .created earliest now (by simp [PeerMap.record, hlookup]) hrow
      · rw [PeerMap.record_enter hs, if_neg hid]

/-- A guid of the id's own row, or none yet: no other row is written. -/
theorem DbOutcome.wrote {db db' : Database} {guid guid' : Bytes} {id : String}
    {uuid pk : Bytes} {info : String} {ok : Bool}
    (h : DbOutcome db guid id uuid pk info ok guid' db')
    (hlinked : guid = [] ∨ ∃ r, db.getPeer id = some r ∧ r.guid = guid) :
    Record.Wrote (db.getPeer id) guid id uuid pk info ok guid' (db'.getPeer id)
      ∧ ∀ id', id' ≠ id → db'.getPeer id' = db.getPeer id' := by
  cases h with
  | refused => exact ⟨.refused, fun _ _ => rfl⟩
  | inserted hguid hlength h =>
      refine ⟨?_, fun id' hid => ?_⟩
      · rw [Database.getPeer_insertPeer h, if_pos rfl]
        refine .inserted hguid ?_ (Database.getPeer_none_of_insertPeer h)
        rintro rfl
        cases hlength
      · rw [Database.getPeer_insertPeer h, if_neg hid]
  | updated hguid h =>
      obtain ⟨r, hr, hrguid⟩ := hlinked.resolve_left hguid
      refine ⟨?_, fun id' hid => ?_⟩
      · rw [Database.getPeer_updatePk h hr hrguid, if_pos rfl]
        exact .updated hguid hr hrguid
      · rw [Database.getPeer_updatePk h hr hrguid, if_neg hid]

theorem Registered.record {x : External} {c : RegCall} {s s' : PeerMap} {failed : Bool}
    {w : Option ((Bytes × String) × Bool)} {r : Except RegisterPkResult RegisterPkResult}
    (h : Registered x c s failed w r s') (hs : s.Sound) (hlinked : (s.record c.id).Linked) :
    s'.Sound ∧ (s.record c.id).Registered x c failed w r (s'.record c.id)
      ∧ ∀ id, id ≠ c.id → s'.record id = s.record id := by
  cases h with
  | rejected hs' =>
      rw [hs'.record]
      exact ⟨hs'.sound hs, .rejected, fun _ _ => rfl⟩
  | @opened _ peer s₁ _ _ _ huuid hopen hsettled =>
      obtain ⟨hs₁, hlookup, hdb, hopened, hother⟩ := hopen.record hs
      cases hsettled with
      | refused hcheck hs' =>
          refine ⟨hs'.sound hs₁, ?_, fun id hid => ?_⟩
          · rw [hs'.record, PeerMap.record_of_lookup hlookup, hdb]
            exact .refused hopened hcheck
          · rw [hs'.record, hother id hid]
      | unchanged hcheck hs' =>
          refine ⟨hs'.sound (hs₁.set _ _), ?_, fun id hid => ?_⟩
          · rw [hs'.record, PeerMap.record_set hs₁ hlookup, if_pos rfl, hdb]
            exact .unchanged hopened hcheck
          · rw [hs'.record, PeerMap.record_set hs₁ hlookup, if_neg hid, hother id hid]
      | @written _ _ guid db _ regPk now hcheck houtcome hs' =>
          have hrecord (p : Peer) (id : String) :
              PeerMap.record { s₁.set peer p with db } id
                = ⟨((s₁.set peer p).record id).entry, db.getPeer id⟩ := rfl
          rw [hdb] at houtcome
          obtain ⟨hwrote, hrows⟩ := houtcome.wrote (hopened.linked hlinked)
          refine ⟨hs'.sound ⟨hs₁.lt, hs₁.inj⟩, ?_, fun id hid => ?_⟩
          · rw [hs'.record, hrecord, PeerMap.record_set hs₁ hlookup, if_pos rfl]
            exact .written regPk now hopened huuid hcheck hwrote
          · rw [hs'.record, hrecord, PeerMap.record_set hs₁ hlookup, if_neg hid, hother id hid,
              hrows id hid]
            rfl

end KustDesk
