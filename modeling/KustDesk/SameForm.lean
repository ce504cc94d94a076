import KustDesk.AddrForms
import KustDesk.Handlers
import KustDesk.Async.Twin

/-!
# KustDesk — SameForm

Two sessions of handlers, one of which sees some IPv4 addresses in their
IPv4-mapped form. What the server remembers then differs in these addresses
only, as long as no address of one session meets its other form where that of
the other session does not.
-/

namespace KustDesk

open Async

/-! ## What a session remembers -/

structure SocketAddr.Rewritten (a a' : SocketAddr) : Prop where
  ip : a.ip.Rewritten a'.ip
  port : a'.port = a.port

structure Peer.Rewritten (p p' : Peer) : Prop where
  socketAddr : p.socketAddr.Rewritten p'.socketAddr
  info : TextRewritten p.info.ip p'.info.ip
  rest : p' = { p with socketAddr := p'.socketAddr, info := p'.info }

/-- An address meets its other form in both sessions or in neither, and in both
only where it is written the same. -/
structure InStep {α : Type} (a a' : α) (meets meets' : Prop) : Prop where
  both : meets ↔ meets'
  form : meets → a' = a

namespace IpBlockMap

variable {m m' : IpBlockMap} {a a' : IpAddr}

/-- The other form of the address has an entry. -/
def Meets (m : IpBlockMap) (a : IpAddr) : Prop :=
  ∃ o ∈ a.other, m.lookup o.toString ≠ none

instance (m : IpBlockMap) (a : IpAddr) : Decidable (m.Meets a) :=
  inferInstanceAs (Decidable (∃ o ∈ a.other, m.lookup o.toString ≠ none))

/-- The entries of the two forms of an IPv4 address are the same, or that of the
one is that of the other. -/
structure Rewritten (m m' : IpBlockMap) : Prop where
  forms : ∀ c, (m'.lookup (IpAddr.v4 c).toString = m.lookup (IpAddr.v4 c).toString
      ∧ m'.lookup (IpAddr.v6 (toIpv6Mapped c)).toString
        = m.lookup (IpAddr.v6 (toIpv6Mapped c)).toString)
    ∨ (m.lookup (IpAddr.v6 (toIpv6Mapped c)).toString = none
      ∧ m'.lookup (IpAddr.v4 c).toString = none
      ∧ m'.lookup (IpAddr.v6 (toIpv6Mapped c)).toString = m.lookup (IpAddr.v4 c).toString)
  native : ∀ a : IpAddr, a.other = none → m'.lookup a.toString = m.lookup a.toString

theorem Rewritten.refl (m : IpBlockMap) : m.Rewritten m :=
  ⟨fun _ => .inl ⟨rfl, rfl⟩, fun _ _ => rfl⟩

theorem not_meets_iff {o : IpAddr} (ho : a.other = some o) :
    ¬ m.Meets a ↔ m.lookup o.toString = none := by
  simp [Meets, ho]

/-- Where the address is written the same, so are the entries of its forms. -/
theorem Rewritten.kept (h : m.Rewritten m') {c : BitVec 32}
    (ha : a = .v4 c ∨ a = .v6 (toIpv6Mapped c)) (hboth : m.Meets a ↔ m'.Meets a) :
    m'.lookup (IpAddr.v4 c).toString = m.lookup (IpAddr.v4 c).toString
      ∧ m'.lookup (IpAddr.v6 (toIpv6Mapped c)).toString
        = m.lookup (IpAddr.v6 (toIpv6Mapped c)).toString := by
  obtain hkept | ⟨hmapped, hplain, hmoved⟩ := h.forms c
  · exact hkept
  · rcases ha with rfl | rfl
    · have hnone := (not_meets_iff (IpAddr.other_v4 c)).mp
        (hboth.not.mp ((not_meets_iff (IpAddr.other_v4 c)).mpr hmapped))
      rw [hnone] at hmoved
      rw [hmapped, hplain, hnone, ← hmoved]
      exact ⟨rfl, rfl⟩
    · have hnone := (not_meets_iff (IpAddr.other_mapped c)).mp
        (hboth.not.mpr ((not_meets_iff (IpAddr.other_mapped c)).mpr hplain))
      rw [hmapped, hplain, hmoved, hnone]
      exact ⟨rfl, rfl⟩

/-- A rewritten address has no entry of its other form in either session. -/
theorem not_meets_of_mapped {c : BitVec 32}
    (h : InStep (IpAddr.v4 c) (IpAddr.v6 (toIpv6Mapped c)) (m.Meets (.v4 c))
      (m'.Meets (.v6 (toIpv6Mapped c)))) :
    m.lookup (IpAddr.v6 (toIpv6Mapped c)).toString = none
      ∧ m'.lookup (IpAddr.v4 c).toString = none := by
  have hmeets : ¬ m.Meets (.v4 c) := fun hmeets => by cases h.form hmeets
  exact ⟨(not_meets_iff (IpAddr.other_v4 c)).mp hmeets,
    (not_meets_iff (IpAddr.other_mapped c)).mp (h.both.not.mp hmeets)⟩

/-- The entry of the address, in both sessions. -/
theorem Rewritten.lookup_eq (h : m.Rewritten m') (ha : a.Rewritten a')
    (hstep : InStep a a' (m.Meets a) (m'.Meets a')) :
    m'.lookup a'.toString = m.lookup a.toString := by
  cases ha with
  | same a =>
      cases hother : a.other with
      | none => exact h.native a hother
      | some o =>
          obtain ⟨c, ⟨rfl, -⟩ | ⟨rfl, -⟩⟩ := IpAddr.forms_of_other hother
          · exact (h.kept (.inl rfl) hstep.both).1
          · exact (h.kept (.inr rfl) hstep.both).2
  | mapped c =>
      obtain ⟨hmapped, hplain⟩ := not_meets_of_mapped hstep
      obtain ⟨hplain', hmapped'⟩ | ⟨-, -, hmoved⟩ := h.forms c
      · rw [hmapped', hmapped, ← hplain', hplain]
      · exact hmoved

theorem lookup_insert_form {b o : IpAddr} (ho : b.other = some o)
    (v : (Nat × Instant) × (Finset String × Instant)) :
    (AList.insert a.toString v m).lookup b.toString
      = if b = a then some v else m.lookup b.toString := by
  by_cases hb : b = a
  · rw [hb, if_pos rfl, AList.lookup_insert]
  · rw [if_neg hb, AList.lookup_insert_ne]
    exact fun h => hb (IpAddr.eq_of_toString_eq ho h)

theorem Rewritten.insert (h : m.Rewritten m') (ha : a.Rewritten a')
    (hstep : InStep a a' (m.Meets a) (m'.Meets a'))
    (v : (Nat × Instant) × (Finset String × Instant)) :
    IpBlockMap.Rewritten (AList.insert a.toString v m) (AList.insert a'.toString v m') where
  forms c := by
    rw [lookup_insert_form (IpAddr.other_v4 c), lookup_insert_form (IpAddr.other_v4 c),
      lookup_insert_form (IpAddr.other_mapped c), lookup_insert_form (IpAddr.other_mapped c)]
    cases ha with
    | same a =>
        by_cases hform : a = .v4 c ∨ a = .v6 (toIpv6Mapped c)
        -- in step: the other form of `c` has an entry in neither run
        · obtain ⟨hplain, hmapped⟩ := h.kept hform hstep.both
          rw [hplain, hmapped]
          exact .inl ⟨rfl, rfl⟩
        · obtain ⟨hplain, hmapped⟩ := not_or.mp hform
          simp only [Ne.symm hplain, Ne.symm hmapped, if_false]
          exact h.forms c
    | mapped d =>
        by_cases hd : c = d
        · obtain ⟨hmapped, hplain⟩ := not_meets_of_mapped hstep
          subst hd
          right
          simp [hmapped, hplain]
        · have hmapped : toIpv6Mapped c ≠ toIpv6Mapped d := fun heq => hd (toIpv6Mapped_inj heq)
          simp only [IpAddr.v4.injEq, IpAddr.v6.injEq, reduceCtorEq, hd, hmapped, if_false]
          exact h.forms c
  native b hb := by
    have hform {o : IpAddr} {d : IpAddr} (hd : d.other = some o) : b.toString ≠ d.toString := by
      intro htext
      rw [IpAddr.eq_of_toString_eq hd htext.symm, hb] at hd
      cases hd
    cases ha with
    | same a =>
        by_cases htext : b.toString = a.toString
        · rw [htext, AList.lookup_insert, AList.lookup_insert]
        · rw [AList.lookup_insert_ne htext, AList.lookup_insert_ne htext]
          exact h.native b hb
    | mapped d =>
        rw [AList.lookup_insert_ne (hform (IpAddr.other_v4 d)),
          AList.lookup_insert_ne (hform (IpAddr.other_mapped d))]
        exact h.native b hb

end IpBlockMap

/-- The rows of a known id may differ in their text. -/
structure DbPeer.Rewritten (known : String → Prop) (r r' : DbPeer) : Prop where
  rest : r' = { r with info := r'.info }
  info : ¬ known r.id → r' = r

def Database.Rewritten (known : String → Prop) (db db' : Database) : Prop :=
  List.Forall₂ (DbPeer.Rewritten known) db.rows db'.rows

namespace Database.Rewritten

variable {known : String → Prop} {db db' : Database}

theorem refl (known : String → Prop) (db : Database) : db.Rewritten known db :=
  List.forall₂_same.mpr fun _ _ => ⟨rfl, fun _ => rfl⟩

theorem mono {known' : String → Prop} (h : db.Rewritten known db')
    (hle : ∀ id, known id → known' id) : db.Rewritten known' db' :=
  h.imp fun _ _ hr => ⟨hr.rest, fun hid => hr.info fun hknown => hid (hle _ hknown)⟩

theorem keys (h : db.Rewritten known db') :
    db'.rows.map (fun r => (r.guid, r.id)) = db.rows.map fun r => (r.guid, r.id) := by
  unfold Database.Rewritten at h
  generalize db.rows = rows, db'.rows = rows' at h
  induction h with
  | nil => rfl
  | cons hr _ ih =>
      rw [List.map_cons, List.map_cons, ih, hr.rest]

/-- What is asked of the keys of the rows, the two tables answer alike. -/
theorem exists_iff (h : db.Rewritten known db') (P : Bytes × String → Prop) :
    (∃ r ∈ db'.rows, P (r.guid, r.id)) ↔ ∃ r ∈ db.rows, P (r.guid, r.id) := by
  have hkeys (rows : List DbPeer) : (∃ r ∈ rows, P (r.guid, r.id))
      ↔ ∃ k ∈ rows.map fun r => (r.guid, r.id), P k := by simp
  rw [hkeys, hkeys, h.keys]

theorem getPeer (h : db.Rewritten known db') {id : String} (hid : ¬ known id) :
    db'.getPeer id = db.getPeer id := by
  unfold Database.Rewritten at h
  unfold Database.getPeer
  generalize db.rows = rows, db'.rows = rows' at h
  induction h with
  | nil => rfl
  | @cons r r' _ _ hr _ ih =>
      have hid' : r'.id = r.id := by rw [hr.rest]
      rw [List.find?_cons, List.find?_cons, hid', ih]
      by_cases heq : r.id = id
      · rw [hr.info (heq ▸ hid)]
      · simp [heq]

theorem insertPeer (h : db.Rewritten known db') {guid : Bytes} {id : String} {uuid pk : Bytes}
    (info info' : String) (hid : known id) :
    Option.Rel (Database.Rewritten known) (db.insertPeer guid id uuid pk info)
      (db'.insertPeer guid id uuid pk info') := by
  have hkeys := h.exists_iff fun k => k.1 = guid ∨ k.2 = id
  by_cases hrow : ∃ r ∈ db.rows, r.guid = guid ∨ r.id = id
  · rw [Database.insertPeer, Database.insertPeer, dif_pos hrow, dif_pos (hkeys.mpr hrow)]
    exact .none
  · rw [Database.insertPeer, Database.insertPeer, dif_neg hrow, dif_neg (hkeys.not.mpr hrow)]
    exact .some (.cons ⟨rfl, fun hid' => (hid' hid).elim⟩ h)

theorem updatePk (h : db.Rewritten known db') {guid guid' : Bytes} {id : String} {pk : Bytes}
    (info info' : String) (hid : known id) (hguid : guid' = guid) :
    Option.Rel (Database.Rewritten known) (db.updatePk guid id pk info)
      (db'.updatePk guid' id pk info') := by
  subst guid'
  have hkeys := and_congr (h.exists_iff fun k => k.1 = guid)
    (h.exists_iff fun k => k.1 ≠ guid ∧ k.2 = id)
  by_cases hrow : (∃ r ∈ db.rows, r.guid = guid) ∧ ∃ r ∈ db.rows, r.guid ≠ guid ∧ r.id = id
  · rw [Database.updatePk, Database.updatePk, dif_pos hrow, dif_pos (hkeys.mpr hrow)]
    exact .none
  · rw [Database.updatePk, Database.updatePk, dif_neg hrow, dif_neg (hkeys.not.mpr hrow)]
    refine .some (List.forall₂_map_left_iff.mpr (List.forall₂_map_right_iff.mpr ?_))
    refine h.imp fun r r' hr => ?_
    have hguid : r'.guid = r.guid := by rw [hr.rest]
    by_cases hr' : r.guid = guid
    · rw [if_pos hr', if_pos (hguid.trans hr')]
      refine ⟨?_, fun hid' => (hid' hid).elim⟩
      rw [hr.rest]
    · rw [if_neg hr', if_neg (hguid.trans_ne hr')]
      exact hr

end Database.Rewritten

/-- The peer maps of the two sessions. `IP_CHANGES` is not read again. -/
structure PeerMap.Rewritten (s s' : PeerMap) : Prop where
  map : s'.map = s.map
  fresh : s'.fresh = s.fresh
  peers : ∀ h, (s.peers h).Rewritten (s'.peers h)
  db : s.db.Rewritten (fun id => s.map.lookup id ≠ none) s'.db
  ipBlocker : s.ipBlocker.Rewritten s'.ipBlocker

theorem Peer.Rewritten.refl (p : Peer) : p.Rewritten p := ⟨⟨.same _, rfl⟩, .same _, rfl⟩

/-- A step that writes to the database: its result `a`, if it goes through. -/
def PeerMap.store {α : Type} (s : PeerMap) (fails : Bool) (a : α) (o : Option Database) :
    Option α × PeerMap :=
  if fails then (none, s) else
  match o with
  | some db => (some a, { s with db := db })
  | none => (none, s)

namespace PeerMap.Rewritten

variable {s s' : PeerMap}

theorem refl (s : PeerMap) : s.Rewritten s where
  map := rfl
  fresh := rfl
  peers _ := .refl _
  db := .refl _ _
  ipBlocker := .refl _

theorem set (h : s.Rewritten s') (k : LockPeer) {p p' : Peer} (hp : p.Rewritten p') :
    (s.set k p).Rewritten (s'.set k p') where
  map := h.map
  fresh := h.fresh
  db := h.db
  ipBlocker := h.ipBlocker
  peers k' := by
    by_cases hk : k' = k
    · rw [hk, set_peers_self, set_peers_self]
      exact hp
    · rw [set_peers_of_ne _ _ _ hk, set_peers_of_ne _ _ _ hk]
      exact h.peers k'

theorem enter (h : s.Rewritten s') (id : String) (p : Peer) :
    (s.enter id p).2.Rewritten (s'.enter id p).2 where
  map := by
    show s'.map.insert id s'.fresh = s.map.insert id s.fresh
    rw [h.map, h.fresh]
  fresh := congrArg (· + 1) h.fresh
  peers k := by
    by_cases hk : k = s.fresh
    · subst hk
      rw [enter_peers_self, ← h.fresh, enter_peers_self]
      exact .refl p
    · rw [enter_peers_of_ne _ _ _ hk, enter_peers_of_ne _ _ _ (h.fresh.symm ▸ hk)]
      exact h.peers k
  db := by
    refine h.db.mono fun id' hknown => ?_
    by_cases hid : id' = id
    · subst hid
      simp
    · rw [enter_lookup_ne _ _ _ hid]
      exact hknown
  ipBlocker := h.ipBlocker

theorem changes (h : s.Rewritten s') (m m' : IpChangesMap) :
    PeerMap.Rewritten { s with ipChanges := m } { s' with ipChanges := m' } :=
  ⟨h.map, h.fresh, h.peers, h.db, h.ipBlocker⟩

theorem blocker (h : s.Rewritten s') {m m' : IpBlockMap} (hm : m.Rewritten m') :
    PeerMap.Rewritten { s with ipBlocker := m } { s' with ipBlocker := m' } :=
  ⟨h.map, h.fresh, h.peers, h.db, hm⟩

/-- An operation of the database, with what it leaves if it does not fail. -/
theorem store {α : Type} (h : s.Rewritten s') (fails : Bool) (a : α) {o o' : Option Database}
    (ho : Option.Rel (Database.Rewritten fun id => s.map.lookup id ≠ none) o o') :
    (s'.store fails a o').1 = (s.store fails a o).1
      ∧ (s.store fails a o).2.Rewritten (s'.store fails a o').2 := by
  cases fails with
  | true => exact ⟨rfl, h⟩
  | false =>
      cases ho with
      | none => exact ⟨rfl, h⟩
      | some hdb => exact ⟨rfl, ⟨h.map, h.fresh, h.peers, hdb, h.ipBlocker⟩⟩

end PeerMap.Rewritten

/-! ## The tasks on the peer map -/

namespace Peer.Rewritten

variable {p p' : Peer}

theorem uuid (h : p.Rewritten p') : p'.uuid = p.uuid := by rw [h.rest]

theorem pk (h : p.Rewritten p') : p'.pk = p.pk := by rw [h.rest]

theorem guid (h : p.Rewritten p') : p'.guid = p.guid := by rw [h.rest]

theorem regPk (h : p.Rewritten p') : p'.regPk = p.regPk := by rw [h.rest]

theorem age (h : p.Rewritten p') (now : Instant) : p'.age now = p.age now := by
  unfold Peer.age
  rw [h.rest]

end Peer.Rewritten

section tasks
variable {given owed : Event Env PmOp PeerMap → Event Env PmOp PeerMap → Prop}
  (howed : ∀ ev ev', ev.op ≠ .ipBlocker → ev'.op ≠ .ipBlocker → owed ev ev')
  (x : External) {s s' : PeerMap}

include howed

theorem PeerMap.get_twin (id : String) (hs : s.Rewritten s') :
    Task.Twin given owed (fun peer u peer' u' => peer' = peer ∧ u.Rewritten u'
        ∧ (peer ≠ none → u.map.lookup id ≠ none))
      (PeerMap.get x id) s (PeerMap.get x id) s' := by
  refine .look_bind (fun _ _ => howed _ _ nofun nofun) fun e _ => ?_
  rw [hs.map]
  cases hlookup : s.map.lookup id with
  | some peer => exact .done ⟨rfl, hs, fun _ => by simp [hlookup]⟩
  | none =>
      refine .look_bind (fun _ _ => howed _ _ nofun nofun) fun e _ => ?_
      rw [hs.db.getPeer (by simpa using hlookup)]
      cases (if e.fails then none else (s.db.getPeer id).map fun v => (v, e.now)) with
      | none => exact .done ⟨rfl, hs, fun hpeer => (hpeer rfl).elim⟩
      | some row =>
          refine .act_bind (fun _ _ => howed _ _ nofun nofun) fun e' _ => .done ⟨?_, ?_, ?_⟩
          · exact congrArg some hs.fresh
          · exact hs.enter id _
          · intro _
            rw [enter_lookup]
            exact Option.some_ne_none _

theorem PeerMap.getOr_twin (id : String) (hs : s.Rewritten s') :
    Task.Twin given owed (fun peer u peer' u' => peer' = peer ∧ u.Rewritten u'
        ∧ u.map.lookup id ≠ none)
      (PeerMap.getOr x id) s (PeerMap.getOr x id) s' := by
  refine (PeerMap.get_twin howed x id hs).bind ?_
  rintro _ u peer u' ⟨rfl, hu, hknown⟩
  cases peer with
  | some peer => exact .done ⟨rfl, hu, hknown (Option.some_ne_none _)⟩
  | none =>
      refine .act (fun _ _ => howed _ _ nofun nofun) fun e _ => ?_
      rw [hu.map]
      cases hlookup : u.map.lookup id with
      | some peer =>
          refine ⟨rfl, hu, ?_⟩
          rw [hlookup]
          exact Option.some_ne_none _
      | none =>
          refine ⟨hu.fresh, hu.enter id _, ?_⟩
          rw [enter_lookup]
          exact Option.some_ne_none _

theorem PeerMap.updatePk_twin {id : String} (peer : LockPeer) {addr addr' : SocketAddr}
    (uuid pk : Bytes) (haddr : addr.Rewritten addr') (hs : s.Rewritten s')
    (hknown : s.map.lookup id ≠ none) :
    Task.Twin given owed (fun r u r' u' => r' = r ∧ u.Rewritten u')
      (PeerMap.updatePk x id peer addr uuid pk addr.ip.toString) s
      (PeerMap.updatePk x id peer addr' uuid pk addr'.ip.toString) s' := by
  refine .act_bind (fun _ _ => howed _ _ nofun nofun) fun e _ => ?_
  have hw : ({ s.peers peer with
      socketAddr := addr, uuid, pk, lastRegTime := e.now
      info := { (s.peers peer).info with ip := addr.ip.toString } } : Peer).Rewritten
      { s'.peers peer with
        socketAddr := addr', uuid, pk, lastRegTime := e.now
        info := { (s'.peers peer).info with ip := addr'.ip.toString } } := by
    refine ⟨haddr, haddr.ip.text, ?_⟩
    rw [(hs.peers peer).rest]
  have hs₁ := hs.set peer hw
  have hguid : (s'.peers peer).guid = (s.peers peer).guid := (hs.peers peer).guid
  dsimp only
  by_cases hnew : (s.peers peer).guid = []
  · rw [if_pos hnew, if_pos (hguid.trans hnew)]
    refine Task.Twin.bind (R := fun res u res' u' => res' = res ∧ u.Rewritten u')
      (.act (fun _ _ => howed _ _ nofun nofun) fun e _ =>
        hs₁.store e.fails e.guid.1 (hs₁.db.insertPeer _ _ hknown)) ?_
    rintro _ u res u' ⟨rfl, hu⟩
    cases res with
    | none => exact .done ⟨rfl, hu⟩
    | some guid =>
        refine .act_bind (fun _ _ => howed _ _ nofun nofun) fun e _ => .done ⟨rfl, ?_⟩
        refine hu.set peer ⟨(hu.peers peer).socketAddr, (hu.peers peer).info, ?_⟩
        rw [(hu.peers peer).rest]
  · rw [if_neg hnew, if_neg (hguid.trans_ne hnew)]
    refine Task.Twin.bind (R := fun res u res' u' => res' = res ∧ u.Rewritten u')
      (.act (fun _ _ => howed _ _ nofun nofun) fun e _ =>
        hs₁.store e.fails () (hs₁.db.updatePk _ _ hknown hguid)) ?_
    rintro _ u res u' ⟨rfl, hu⟩
    cases res with
    | none => exact .done ⟨rfl, hu⟩
    | some _ => exact .done ⟨rfl, hu⟩

end tasks

end KustDesk
