import KustDesk.External

/-!
# KustDesk — Database

`database.rs`: the `peer` table. Its primary key on `guid` and its unique
index on `id` are part of the type: a table that violates one of them
cannot be built.
-/

namespace KustDesk

/-- A row of the table, the columns the server uses. -/
structure DbPeer where
  guid : Bytes
  id : String
  uuid : Bytes
  pk : Bytes
  info : String
  deriving DecidableEq

structure Database where
  rows : List DbPeer
  unique : rows.Pairwise fun a b => a.guid ≠ b.guid ∧ a.id ≠ b.id

namespace Database

/-- The table `create_tables` makes. -/
def empty : Database := ⟨[], .nil⟩

/-- `select … from peer where id = ?`. -/
def getPeer (db : Database) (id : String) : Option DbPeer :=
  db.rows.find? (·.id = id)

/-- `insert into peer …`: refused when the primary key or the unique index
would be violated. -/
def insertPeer (db : Database) (guid : Bytes) (id : String) (uuid pk : Bytes)
    (info : String) : Option Database :=
  if h : ∃ r ∈ db.rows, r.guid = guid ∨ r.id = id then none
  else some {
    rows := ⟨guid, id, uuid, pk, info⟩ :: db.rows
    unique := by
      refine List.pairwise_cons.mpr ⟨fun r hr => ?_, db.unique⟩
      constructor
      · intro heq
        exact h ⟨r, hr, .inl heq.symm⟩
      · intro heq
        exact h ⟨r, hr, .inr heq.symm⟩ }

/-- `update peer set id=?, pk=?, info=? where guid=?`. Giving the row an id
that another row has would violate the unique index; a guid that no row has
updates nothing. -/
def updatePk (db : Database) (guid : Bytes) (id : String) (pk : Bytes)
    (info : String) : Option Database :=
  if h : (∃ r ∈ db.rows, r.guid = guid) ∧ ∃ r ∈ db.rows, r.guid ≠ guid ∧ r.id = id then none
  else some {
    rows := db.rows.map fun r => if r.guid = guid then { r with id, pk, info } else r
    unique := by
      rw [List.pairwise_map]
      refine db.unique.imp_of_mem fun {a b} ha hb hab => ?_
      by_cases hga : a.guid = guid
      · have hgb : b.guid ≠ guid := fun hgb => hab.1 (hga.trans hgb.symm)
        simp only [hga, if_true, hgb, if_false]
        exact ⟨hga ▸ hab.1, fun hid => h ⟨⟨a, ha, hga⟩, b, hb, hgb, hid.symm⟩⟩
      · by_cases hgb : b.guid = guid
        · simp only [hga, if_false, hgb, if_true]
          exact ⟨hga, fun hid => h ⟨⟨b, hb, hgb⟩, a, ha, hga, hid⟩⟩
        · simpa only [hga, if_false, hgb] using hab }

section
variable {db db' : Database} {guid : Bytes} {id id' : String} {uuid pk : Bytes}
  {info : String} {r : DbPeer}

/-- Two rows differ in both keys. -/
theorem ne_of_mem {r' : DbPeer} (hr : r ∈ db.rows) (hr' : r' ∈ db.rows) (hne : r ≠ r') :
    r.guid ≠ r'.guid ∧ r.id ≠ r'.id := by
  have hsymm : Std.Symm fun a b : DbPeer => a.guid ≠ b.guid ∧ a.id ≠ b.id :=
    ⟨fun _ _ h => ⟨h.1.symm, h.2.symm⟩⟩
  exact db.unique.forall hr hr' hne

theorem getPeer_eq_none : db.getPeer id = none ↔ ∀ r ∈ db.rows, r.id ≠ id := by
  simp [getPeer]

theorem getPeer_eq_some : db.getPeer id = some r ↔ r ∈ db.rows ∧ r.id = id := by
  constructor
  · intro h
    exact ⟨List.mem_of_find?_eq_some h, by simpa using List.find?_some h⟩
  · rintro ⟨hr, rfl⟩
    obtain ⟨r', h⟩ : ∃ r', db.getPeer r.id = some r' := by
      refine Option.ne_none_iff_exists'.mp fun hnone => ?_
      exact getPeer_eq_none.mp hnone r hr rfl
    have hr' : r' ∈ db.rows := List.mem_of_find?_eq_some h
    have hid : r'.id = r.id := by simpa using List.find?_some h
    by_cases heq : r' = r
    · rw [h, heq]
    · exact ((ne_of_mem hr' hr heq).2 hid).elim

/-- A row is only inserted for an id that has none. -/
theorem getPeer_none_of_insertPeer (h : db.insertPeer guid id uuid pk info = some db') :
    db.getPeer id = none := by
  rw [insertPeer] at h
  split at h
  · cases h
  · rename_i hnone
    exact getPeer_eq_none.mpr fun r hr hid => hnone ⟨r, hr, .inr hid⟩

theorem getPeer_insertPeer (h : db.insertPeer guid id uuid pk info = some db') :
    db'.getPeer id' = if id' = id then some ⟨guid, id, uuid, pk, info⟩ else db.getPeer id' := by
  rw [insertPeer] at h
  split at h
  · cases h
  · cases h
    by_cases hid : id' = id
    · simp [getPeer, hid]
    · simp [getPeer, hid, Ne.symm hid]

/-- With a new guid, only a row of the same id stands in the way. -/
theorem insertPeer_eq_none (hguid : ∀ r ∈ db.rows, r.guid ≠ guid) :
    db.insertPeer guid id uuid pk info = none ↔ ∃ r, db.getPeer id = some r := by
  simp only [insertPeer, dite_eq_left_iff, reduceCtorEq, imp_false, not_not,
    getPeer_eq_some]
  constructor
  · rintro ⟨r, hr, heq | heq⟩
    · exact (hguid r hr heq).elim
    · exact ⟨r, hr, heq⟩
  · rintro ⟨r, hr, heq⟩
    exact ⟨r, hr, .inr heq⟩

/-- Where the guid is that of the id's row, the update goes through and
changes this row only. -/
theorem updatePk_of_getPeer (h : db.getPeer id = some r) :
    ∃ db', db.updatePk r.guid id pk info = some db' ∧ ∀ id',
      db'.getPeer id' = if id' = id then some { r with pk, info } else db.getPeer id' := by
  obtain ⟨hr, hid⟩ := getPeer_eq_some.mp h
  have hother : ∀ r' ∈ db.rows, r'.guid = r.guid ↔ r'.id = id := by
    intro r' hr'
    by_cases heq : r' = r
    · simp [heq, hid]
    · obtain ⟨hguid, hid'⟩ := ne_of_mem hr' hr heq
      rw [hid] at hid'
      simp [hguid, hid']
  have hfree : ¬ ((∃ r' ∈ db.rows, r'.guid = r.guid)
      ∧ ∃ r' ∈ db.rows, r'.guid ≠ r.guid ∧ r'.id = id) := by
    rintro ⟨-, r', hr', hne, hid'⟩
    exact hne ((hother r' hr').mpr hid')
  refine ⟨_, dif_neg hfree, fun id' => ?_⟩
  by_cases hid' : id' = id
  · rw [if_pos hid']
    refine getPeer_eq_some.mpr ⟨List.mem_map.mpr ⟨r, hr, ?_⟩, hid.trans hid'.symm⟩
    simp [hid]
  · rw [if_neg hid']
    apply Option.ext
    intro r'
    rw [getPeer_eq_some, getPeer_eq_some, List.mem_map]
    constructor
    · rintro ⟨⟨r₀, hr₀, rfl⟩, hr'⟩
      by_cases hguid : r₀.guid = r.guid
      · simp only [hguid, if_true] at hr'
        exact (hid' hr'.symm).elim
      · simp only [hguid, if_false] at hr' ⊢
        exact ⟨hr₀, hr'⟩
    · rintro ⟨hr', rfl⟩
      have hguid : r'.guid ≠ r.guid := fun hguid => hid' ((hother r' hr').mp hguid)
      exact ⟨⟨r', hr', if_neg hguid⟩, rfl⟩

theorem getPeer_updatePk (h : db.updatePk guid id pk info = some db')
    (hr : db.getPeer id = some r) (hguid : r.guid = guid) :
    db'.getPeer id' = if id' = id then some { r with pk, info } else db.getPeer id' := by
  obtain ⟨db'', h', hget⟩ := @updatePk_of_getPeer db id pk info r hr
  rw [hguid, h, Option.some.injEq] at h'
  subst h'
  exact hget id'

end

end Database

end KustDesk
