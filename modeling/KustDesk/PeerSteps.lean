import KustDesk.OnlineLoop
import KustDesk.Async.Pool

/-!
# KustDesk — PeerSteps

What the tasks on the peer map do, said once: each of their steps, with where
the handles, rows and guids in it come from. From this follows what a step does
to the map, that no task panics, and what the tasks know about the handles they
hold as long as no entry of the map is replaced.
-/

namespace KustDesk

open Async

/-- The calls on the peer map that the handlers are made of. -/
inductive PmCall (x : External) : {α : Type} → PmTask α → Prop
  | get (id) : PmCall x (PeerMap.get x id)
  | isInMemory (id) : PmCall x (PeerMap.isInMemory id)
  | registerPk (rk addr ws) : PmCall x (handleRegisterPk x rk addr ws)
  | updateAddr (id addr) : PmCall x (updateAddr id addr)
  | peersOnline (peers) : PmCall x (peersOnlineState peers)
  | getPk (sk version id) : PmCall x (getPk x sk version id)
  | readAddr {α : Type} (peer) (f : Env → PeerMap → α) :
      PmCall x (Task.look (.readAddr peer) f)

/-! ## The effect of a step -/

/-- What the label of a step says about its effect, as far as it concerns
the map and when and from where a peer last registered. -/
def PmOp.effect (op : PmOp) (e : Env) (s s' : PeerMap) : Prop :=
  match op with
  | .mapInsert id since =>
      ∃ p : Peer, s' = (s.enter id p).2 ∧ p.lastRegTime = getExpiredTime e.earliest since
  | .mapEntry id =>
      s' = if (s.map.lookup id).isSome then s else (s.enter id (.default e.earliest e.now)).2
  | .writePk _ h addr =>
      ∃ p : Peer, s' = s.set h p ∧ p.lastRegTime = e.now ∧ p.socketAddr = addr
  | .writeAddr _ h addr => s' = s.set h ((s.peers h).updateAddr addr e.now).2
  | .writeRegPk h | .writeGuid h =>
      ∃ p : Peer, s' = s.set h p ∧ p.lastRegTime = (s.peers h).lastRegTime
        ∧ p.socketAddr = (s.peers h).socketAddr
  | .insertPeer .. | .updatePk .. => ∃ db, s' = { s with db }
  | .ipBlocker => ∃ ipBlocker, s' = { s with ipBlocker }
  | .ipChanges => ∃ ipChanges, s' = { s with ipChanges }
  | _ => s' = s

/-- Every step has the effect its label announces. -/
abbrev Effects {α : Type} (t : PmTask α) : Prop :=
  t.All fun ev => ev.op.effect ev.env ev.pre ev.post

/-! ## The steps of a task -/

section moves

/-- The handle has been the entry of the id after one of the steps. -/
def Tracked (es : List (Event Env PmOp PeerMap)) (id : String) (peer : LockPeer) : Prop :=
  ∃ ev ∈ es, ev.post.map.lookup id = some peer

/-- The row has been that of the id after one of the steps. -/
def Fetched (es : List (Event Env PmOp PeerMap)) (id : String) (row : DbPeer) : Prop :=
  ∃ ev ∈ es, ev.post.db.getPeer id = some row

/-- Before a registration records its change, it has found the peer with its
uuid and another address. -/
def ChangeFound (es : List (Event Env PmOp PeerMap)) (rk : RegisterPk) (ip : String) : Prop :=
  ∃ ev ∈ es, ∃ peer, ev.op = .checkUuid peer
    ∧ (ev.pre.peers peer).uuid = rk.uuid ∧ (ev.pre.peers peer).info.ip ≠ ip

/-- No step has recorded a change. -/
def Unrecorded (es : List (Event Env PmOp PeerMap)) : Prop := ∀ ev ∈ es, ev.op ≠ .ipChanges

/-- A step of a task on the peer map, after these of its own. `reg` is the
registration, with its address, that the task is. -/
inductive PmMove (x : External) (reg : Option (RegisterPk × SocketAddr))
    (es : List (Event Env PmOp PeerMap)) : Event Env PmOp PeerMap → Prop
  | look {ev} (hreads : Reads ev) : PmMove x reg es ev
  | load {id row since e s} (hrow : Fetched es id row) :
      PmMove x reg es
        ⟨.mapInsert id since, e, s, (s.enter id (PeerMap.ofRow x row e.earliest since)).2⟩
  | keep {id peer e s} (hentry : s.map.lookup id = some peer) :
      PmMove x reg es ⟨.mapEntry id, e, s, s⟩
  | create {id e s} (hnone : s.map.lookup id = none) :
      PmMove x reg es ⟨.mapEntry id, e, s, (s.enter id (.default e.earliest e.now)).2⟩
  | count {peer regPk e s} :
      PmMove x reg es ⟨.writeRegPk peer, e, s, s.set peer { s.peers peer with regPk }⟩
  | identity {id peer addr uuid pk info e s} (hpeer : Tracked es id peer) :
      PmMove x reg es ⟨.writePk id peer addr, e, s, s.set peer { s.peers peer with
        socketAddr := addr, uuid, pk, lastRegTime := e.now, info }⟩
  | address {id peer addr e s} (hpeer : Tracked es id peer) :
      PmMove x reg es
        ⟨.writeAddr id peer addr, e, s, s.set peer ((s.peers peer).updateAddr addr e.now).2⟩
  | insertRow {id uuid pk info e s db}
      (hdb : db = s.db ∨ s.db.insertPeer e.guid.1 id uuid pk info = some db) :
      PmMove x reg es ⟨.insertPeer id uuid pk info, e, s, { s with db }⟩
  | keepGuid {id peer row e s} (hpeer : Tracked es id peer) (hrow : Fetched es id row) :
      PmMove x reg es ⟨.writeGuid peer, e, s, s.set peer { s.peers peer with guid := row.guid }⟩
  | updateRow {id peer guid pk info e s db} (hpeer : Tracked es id peer)
      (hguid : ∃ ev ∈ es, (ev.post.peers peer).guid = guid) (hne : guid ≠ [])
      (hdb : db = s.db ∨ s.db.updatePk guid id pk info = some db) :
      PmMove x reg es ⟨.updatePk guid id pk info, e, s, { s with db }⟩
  | attempt {ipBlocker e s} : PmMove x reg es ⟨.ipBlocker, e, s, { s with ipBlocker }⟩
  | change {rk addr e s} (hreg : reg = some (rk, addr)) (hfirst : Unrecorded es)
      (hfound : ChangeFound es rk addr.ip.toString) :
      PmMove x reg es ⟨.ipChanges, e, s,
        { s with ipChanges := s.ipChanges.record e.now rk.id addr.ip.toString }⟩

variable {es es' : List (Event Env PmOp PeerMap)} {id : String} {peer : LockPeer}
  {ev : Event Env PmOp PeerMap}

theorem Tracked.append (h : Tracked es id peer) : Tracked (es ++ es') id peer := by
  obtain ⟨ev, hev, hlookup⟩ := h
  exact ⟨ev, List.mem_append_left _ hev, hlookup⟩

theorem Tracked.last (h : ev.post.map.lookup id = some peer) : Tracked (es ++ [ev]) id peer :=
  ⟨ev, List.mem_concat_self .., h⟩

/-- Any handle may have been tracked. -/
theorem exists_tracked (id : String) (peer : LockPeer) :
    ∃ es : List (Event Env PmOp PeerMap), Tracked es id peer := by
  let s : PeerMap := { PeerMap.new .empty with map := (∅ : HashMap String LockPeer).insert id peer }
  exact ⟨[⟨.mapRead id, { now := 0 }, s, s⟩], _, List.mem_singleton_self _, AList.lookup_insert _⟩

theorem Unrecorded.snoc (h : Unrecorded es) (hop : ev.op ≠ .ipChanges) : Unrecorded (es ++ [ev]) :=
  List.forall_mem_append.mpr ⟨h, List.forall_mem_singleton.mpr hop⟩

/-- A task that is no registration records no change, and its steps are like
those of one. -/
theorem PmMove.of_none {x : External} {reg : Option (RegisterPk × SocketAddr)}
    (h : PmMove x none es ev) : PmMove x reg es ev ∧ ev.op ≠ .ipChanges := by
  cases h with
  | look hreads =>
      refine ⟨.look hreads, fun hop => ?_⟩
      have hread := hreads.reads
      rw [hop] at hread
      cases hread
  | load hrow => exact ⟨.load hrow, by simp⟩
  | keep hentry => exact ⟨.keep hentry, by simp⟩
  | create hnone => exact ⟨.create hnone, by simp⟩
  | count => exact ⟨.count, by simp⟩
  | identity hpeer => exact ⟨.identity hpeer, by simp⟩
  | address hpeer => exact ⟨.address hpeer, by simp⟩
  | insertRow hdb => exact ⟨.insertRow hdb, by simp⟩
  | keepGuid hpeer hrow => exact ⟨.keepGuid hpeer hrow, by simp⟩
  | updateRow hpeer hguid hne hdb => exact ⟨.updateRow hpeer hguid hne hdb, by simp⟩
  | attempt => exact ⟨.attempt, by simp⟩
  | change hreg => cases hreg

variable (x : External)

theorem get_moves (id : String) (es : List (Event Env PmOp PeerMap)) :
    (PeerMap.get x id).Heeds (PmMove x none)
      (fun es r => ∀ peer, r = some peer → Tracked es id peer) es := by
  refine .look_bind fun e s => ⟨.look (.look rfl rfl), ?_⟩
  cases hlookup : s.map.lookup id with
  | some peer =>
      rintro _ ⟨⟩
      exact .last hlookup
  | none =>
      refine .look_bind fun e' s' => ⟨.look (.look rfl rfl), ?_⟩
      generalize hread : (if e'.fails = true then none
        else (s'.db.getPeer id).map fun v => (v, e'.now)) = read
      cases read with
      | none => rintro _ ⟨⟩
      | some read =>
          obtain ⟨row, now⟩ := read
          have hrow : s'.db.getPeer id = some row := by
            split at hread
            · cases hread
            · obtain ⟨row', hrow', heq⟩ := Option.map_eq_some_iff.mp hread
              cases heq
              exact hrow'
          refine .act_bind fun e'' s'' => ⟨.load ⟨_, List.mem_concat_self .., hrow⟩, ?_⟩
          rintro _ ⟨⟩
          exact .last (PeerMap.enter_lookup ..)

theorem getOr_moves (id : String) (es : List (Event Env PmOp PeerMap)) :
    (PeerMap.getOr x id).Heeds (PmMove x none) (fun es peer => Tracked es id peer) es := by
  refine (get_moves x id es).bind fun es found hfound => ?_
  cases found with
  | some peer => exact hfound peer rfl
  | none =>
      intro e s
      dsimp only
      cases hlookup : s.map.lookup id with
      | some peer => exact ⟨.keep hlookup, .last hlookup⟩
      | none => exact ⟨.create hlookup, .last (PeerMap.enter_lookup ..)⟩

theorem updatePk_moves (addr : SocketAddr) (uuid pk : Bytes) (ip : String)
    (hpeer : Tracked es id peer) :
    (PeerMap.updatePk x id peer addr uuid pk ip).Heeds (PmMove x none) (fun _ _ => True) es := by
  refine .act_bind fun e s => ⟨.identity hpeer, ?_⟩
  dsimp only
  generalize hev : (⟨.writePk id peer addr, e, s, s.set peer { s.peers peer with
    socketAddr := addr, uuid, pk, lastRegTime := e.now, info := { s.peers peer |>.info with ip } }⟩
      : Event Env PmOp PeerMap) = ev
  have hguid : (ev.post.peers peer).guid = (s.peers peer).guid := by simp [← hev]
  split
  · refine .bind (Q := fun es res => Tracked es id peer
      ∧ ∀ guid, res = some guid → ∃ row, Fetched es id row ∧ row.guid = guid) ?_ fun es res h => ?_
    · intro e' s'
      dsimp only
      split
      · exact ⟨.insertRow (.inl rfl), hpeer.append.append, by simp⟩
      · split
        · rename_i db hinsert
          obtain ⟨row, hrow, hguid⟩ : ∃ row, db.getPeer id = some row ∧ row.guid = e'.guid.1 := by
            rw [Database.getPeer_insertPeer hinsert, if_pos rfl]
            exact ⟨_, rfl, rfl⟩
          refine ⟨.insertRow (.inr hinsert), hpeer.append.append, ?_⟩
          rintro guid ⟨⟩
          exact ⟨row, ⟨_, List.mem_concat_self .., hrow⟩, hguid⟩
        · exact ⟨.insertRow (.inl rfl), hpeer.append.append, by simp⟩
    · obtain ⟨hpeer, hres⟩ := h
      cases res with
      | none => trivial
      | some guid =>
          obtain ⟨row, hrow, rfl⟩ := hres guid rfl
          exact fun e s => ⟨.keepGuid hpeer hrow, trivial⟩
  · rename_i hne
    have hown : ∃ ev' ∈ es ++ [ev], (ev'.post.peers peer).guid = (s.peers peer).guid :=
      ⟨ev, List.mem_concat_self .., hguid⟩
    refine .bind (Q := fun _ _ => True) ?_ fun es res _ => ?_
    · intro e' s'
      dsimp only
      split
      · exact ⟨.updateRow hpeer.append hown hne (.inl rfl), trivial⟩
      · split
        · rename_i db hupdate
          exact ⟨.updateRow hpeer.append hown hne (.inr hupdate), trivial⟩
        · exact ⟨.updateRow hpeer.append hown hne (.inl rfl), trivial⟩
    · cases res <;> trivial

/-- Where a change of address is seen, the uuid is that of the peer. -/
theorem Peer.checkUuid_changed {p : Peer} {rk : RegisterPk} {ip : String} {changed : Bool}
    (h : p.checkUuid rk ip = some (changed, true)) : p.uuid = rk.uuid ∧ p.info.ip ≠ ip := by
  unfold checkUuid at h
  split at h
  · cases h
  · split at h
    · rename_i huuid
      split at h
      · cases h
      · simp only [Option.some.injEq, Prod.mk.injEq, decide_eq_true_eq] at h
        exact ⟨huuid, h.2⟩
    · cases h

/-- A registration records one change at most, its own, and only of a peer that
it has found with its uuid and another address. -/
theorem handleRegisterPk_moves (rk : RegisterPk) (addr : SocketAddr) (ws : Bool) :
    (handleRegisterPk x rk addr ws).Heeds (PmMove x (some (rk, addr))) (fun _ _ => True) [] := by
  have hpart {α : Type} {Q : List (Event Env PmOp PeerMap) → α → Prop} {t : PmTask α}
      {es : List (Event Env PmOp PeerMap)} (ht : t.Heeds (PmMove x none) Q es)
      (hes : Unrecorded es) : t.Heeds (PmMove x (some (rk, addr)))
        (fun es a => Q es a ∧ Unrecorded es) es := by
    refine ht.invariant hes fun es ev hes hev => ?_
    obtain ⟨hmove, hop⟩ := hev.of_none
    exact ⟨hmove, hes.snoc hop⟩
  have hfinish {peer : LockPeer} (changed : Bool) {es : List (Event Env PmOp PeerMap)}
      (hpeer : Tracked es rk.id peer) :
      Task.Heeds (PmMove x (some (rk, addr))) (fun _ _ => True) (do
        if changed || ws then
          let _ ← PeerMap.updatePk x rk.id peer addr rk.uuid rk.pk addr.ip.toString
        return .ok .ok : PmTask (Except RegisterPkResult RegisterPkResult)) es := by
    split
    · refine ((updatePk_moves x addr rk.uuid rk.pk _ hpeer).imp (fun _ _ hev => hev.of_none.1)
        fun _ _ h => h).bind fun _ _ _ => trivial
    · trivial
  unfold handleRegisterPk
  split
  · trivial
  dsimp only
  split
  · trivial
  have hblocker : (checkIpBlocker addr.ip.toString rk.id).Heeds (PmMove x none)
      (fun _ _ => True) [] := fun _ _ => ⟨.attempt, trivial⟩
  refine (hpart hblocker (by simp [Unrecorded])).bind fun es allowed hes => ?_
  split
  · trivial
  refine (hpart (getOr_moves x rk.id es) hes.2).bind fun es peer h => ?_
  obtain ⟨hpeer, hes⟩ := h
  refine .look_bind fun e s => ⟨.look (.look rfl rfl), ?_⟩
  have hseen {changed : Bool}
      (h : (s.peers peer).checkUuid rk addr.ip.toString = some (changed, true)) :
      ChangeFound (es ++ [⟨.checkUuid peer, e, s, s⟩]) rk addr.ip.toString :=
    ⟨_, List.mem_concat_self .., peer, rfl, Peer.checkUuid_changed h⟩
  replace hes : Unrecorded (es ++ [⟨.checkUuid peer, e, s, s⟩]) := hes.snoc (by simp)
  replace hpeer : Tracked (es ++ [⟨.checkUuid peer, e, s, s⟩]) rk.id peer := hpeer.append
  generalize es ++ [⟨.checkUuid peer, e, s, s⟩] = es at hes hseen hpeer
  generalize (s.peers peer).checkUuid rk addr.ip.toString = checked at hseen
  cases checked with
  | none => trivial
  | some checked =>
      obtain ⟨changed, ipChanged⟩ := checked
      refine .look_bind fun e s => ⟨.look (.look rfl rfl), ?_⟩
      replace hes : Unrecorded (es ++ [⟨.readRegPk peer, e, s, s⟩]) := hes.snoc (by simp)
      cases countRegPk (s.peers peer).regPk e.now with
      | none => trivial
      | some reqPk =>
          refine .act_bind fun e s => ⟨.count, ?_⟩
          cases ipChanged with
          | false => exact hfinish changed hpeer.append.append
          | true =>
              obtain ⟨ev, hev, hcheck⟩ := hseen rfl
              refine .act_bind fun e s => ⟨.change rfl (hes.snoc (by simp)) ⟨ev, ?_, hcheck⟩,
                hfinish changed hpeer.append.append.append⟩
              exact List.mem_append_left _ (List.mem_append_left _ hev)

theorem updateAddr_moves (id : String) (addr : SocketAddr)
    (es : List (Event Env PmOp PeerMap)) :
    (updateAddr id addr).Heeds (PmMove x none) (fun _ _ => True) es := by
  refine .look_bind fun e s => ⟨.look (.look rfl rfl), ?_⟩
  cases hlookup : s.map.lookup id with
  | none => trivial
  | some old => exact fun e s => ⟨.address (.last hlookup), trivial⟩

theorem getPk_moves (sk : Option Bytes) (version id : String)
    (es : List (Event Env PmOp PeerMap)) :
    (getPk x sk version id).Heeds (PmMove x none) (fun _ _ => True) es := by
  unfold getPk
  cases sk with
  | none => simp
  | some sk =>
      split
      · trivial
      · refine (get_moves x id es).bind fun es peer _ => ?_
        cases peer with
        | none => trivial
        | some peer => exact .look_bind fun e s => ⟨.look (.look rfl rfl), trivial⟩

theorem PmCall.moves {x : External} {α : Type} {t : PmTask α} (h : PmCall x t) :
    ∃ reg, t.Heeds (PmMove x reg) (fun _ _ => True) [] := by
  cases h with
  | get id => exact ⟨none, (get_moves x id []).mono fun _ _ _ => trivial⟩
  | isInMemory id => exact ⟨none, fun e s => ⟨.look (.look rfl rfl), trivial⟩⟩
  | registerPk rk addr ws => exact ⟨some (rk, addr), handleRegisterPk_moves x rk addr ws⟩
  | updateAddr id addr => exact ⟨none, updateAddr_moves x id addr []⟩
  | peersOnline peers =>
      exact ⟨none, (peersOnlineState_heeds peers).imp (fun _ _ => .look) fun _ _ _ => trivial⟩
  | getPk sk version id => exact ⟨none, getPk_moves x sk version id []⟩
  | readAddr peer f => exact ⟨none, fun e s => ⟨.look (.look rfl rfl), trivial⟩⟩

variable {x} {reg : Option (RegisterPk × SocketAddr)} {α : Type} {t : PmTask α}
  {Q : List (Event Env PmOp PeerMap) → α → Prop}

theorem PmOp.effect_of_reads {op : PmOp} (h : op.reads = true) (e : Env) (s : PeerMap) :
    op.effect e s s := by
  cases op <;> first | rfl | cases h

theorem PmMove.effect (h : PmMove x reg es ev) : ev.op.effect ev.env ev.pre ev.post := by
  cases h with
  | look hreads =>
      rw [hreads.post]
      exact PmOp.effect_of_reads hreads.reads _ _
  | load => exact ⟨_, rfl, rfl⟩
  | keep hentry => simp [PmOp.effect, hentry]
  | create hnone => simp [PmOp.effect, hnone]
  | count => exact ⟨_, rfl, rfl, rfl⟩
  | identity => exact ⟨_, rfl, rfl, rfl⟩
  | address => rfl
  | insertRow => exact ⟨_, rfl⟩
  | keepGuid => exact ⟨_, rfl, rfl, rfl⟩
  | updateRow => exact ⟨_, rfl⟩
  | attempt => exact ⟨_, rfl⟩
  | change => exact ⟨_, rfl⟩

theorem effects_of_moves (h : t.Heeds (PmMove x reg) Q es) : Effects t :=
  h.all fun _ _ => PmMove.effect

theorem PmCall.effects (h : PmCall x t) : Effects t := by
  obtain ⟨reg, hmoves⟩ := h.moves
  exact effects_of_moves hmoves

/-- No call on the peer map panics. -/
theorem PmCall.noAbort (h : PmCall x t) : t.NoAbort := by
  obtain ⟨reg, hmoves⟩ := h.moves
  exact hmoves.noAbort

end moves

/-! ## The entries of the map -/

/-- Handles are handed out once: the map's are all in use, and no two ids
share one. -/
structure PeerMap.Sound (s : PeerMap) : Prop where
  lt : ∀ id h, s.map.lookup id = some h → h < s.fresh
  inj : ∀ id id' h, s.map.lookup id = some h → s.map.lookup id' = some h → id = id'

theorem PeerMap.new_sound (db : Database) : (PeerMap.new db).Sound where
  lt _ _ h := by cases h
  inj _ _ _ h := by cases h

theorem PeerMap.Sound.enter {s : PeerMap} (h : s.Sound) (id : String) (p : Peer) :
    (s.enter id p).2.Sound where
  lt id' peer hpeer := by
    by_cases hid : id' = id
    · subst hid
      simp only [PeerMap.enter_lookup, Option.some.injEq] at hpeer
      simp [← hpeer]
    · rw [PeerMap.enter_lookup_ne _ _ _ hid] at hpeer
      exact Nat.lt_succ_of_lt (h.lt id' peer hpeer)
  inj id₁ id₂ peer h₁ h₂ := by
    by_cases hid₁ : id₁ = id
    · by_cases hid₂ : id₂ = id
      · rw [hid₁, hid₂]
      · subst hid₁
        simp only [PeerMap.enter_lookup, Option.some.injEq] at h₁
        subst h₁
        rw [PeerMap.enter_lookup_ne _ _ _ hid₂] at h₂
        exact (Nat.lt_irrefl _ (h.lt id₂ _ h₂)).elim
    · rw [PeerMap.enter_lookup_ne _ _ _ hid₁] at h₁
      by_cases hid₂ : id₂ = id
      · subst hid₂
        simp only [PeerMap.enter_lookup, Option.some.injEq] at h₂
        subst h₂
        exact (Nat.lt_irrefl _ (h.lt id₁ _ h₁)).elim
      · rw [PeerMap.enter_lookup_ne _ _ _ hid₂] at h₂
        exact h.inj id₁ id₂ peer h₁ h₂

/-- No entry of the map is replaced. -/
def PeerMap.Kept (s s' : PeerMap) : Prop :=
  ∀ id h, s.map.lookup id = some h → s'.map.lookup id = some h

/-- If the step inserts a loaded peer, the map has no entry for it yet. -/
def PmOp.Rechecked (op : PmOp) (s : PeerMap) : Prop :=
  ∀ id since, op = .mapInsert id since → s.map.lookup id = none

def PmOp.inserted : PmOp → Option String
  | .mapInsert id _ => some id
  | _ => none

theorem PmOp.rechecked_iff {op : PmOp} {s : PeerMap} :
    op.Rechecked s ↔ ∀ id ∈ op.inserted, s.map.lookup id = none := by
  constructor
  · intro h id hid
    cases op with
    | mapInsert id' since =>
        cases hid
        exact h id since rfl
    | _ => cases hid
  · rintro h id since rfl
    exact h id rfl

instance (op : PmOp) (s : PeerMap) : Decidable (op.Rechecked s) :=
  decidable_of_iff' _ PmOp.rechecked_iff

/-- A step leaves the map alone or enters one new handle. -/
theorem PmOp.effect.map_cases {op : PmOp} {e : Env} {s s' : PeerMap}
    (h : op.effect e s s') :
    (s'.map = s.map ∧ s'.fresh = s.fresh)
    ∨ ∃ id p, s' = (s.enter id p).2 ∧ (op.Rechecked s → s.map.lookup id = none) := by
  cases op with
  | mapInsert id since =>
      obtain ⟨p, rfl, -⟩ := h
      exact .inr ⟨id, p, rfl, fun hnew => hnew id since rfl⟩
  | mapEntry id =>
      simp only [PmOp.effect] at h
      split at h
      · subst h
        exact .inl ⟨rfl, rfl⟩
      · rename_i hnone
        exact .inr ⟨id, _, h, fun _ => by simpa using hnone⟩
  | writePk id peer addr =>
      obtain ⟨p, rfl, -⟩ := h
      exact .inl ⟨rfl, rfl⟩
  | writeAddr id peer addr => subst h; exact .inl ⟨rfl, rfl⟩
  | writeRegPk peer =>
      obtain ⟨p, rfl, -⟩ := h
      exact .inl ⟨rfl, rfl⟩
  | writeGuid peer =>
      obtain ⟨p, rfl, -⟩ := h
      exact .inl ⟨rfl, rfl⟩
  | insertPeer id uuid pk info => obtain ⟨db, rfl⟩ := h; exact .inl ⟨rfl, rfl⟩
  | updatePk guid id pk info => obtain ⟨db, rfl⟩ := h; exact .inl ⟨rfl, rfl⟩
  | ipBlocker => obtain ⟨blocker, rfl⟩ := h; exact .inl ⟨rfl, rfl⟩
  | ipChanges => obtain ⟨changes, rfl⟩ := h; exact .inl ⟨rfl, rfl⟩
  | _ => subst h; exact .inl ⟨rfl, rfl⟩

theorem PmOp.effect.sound {op : PmOp} {e : Env} {s s' : PeerMap}
    (h : op.effect e s s') (hs : s.Sound) : s'.Sound := by
  rcases h.map_cases with ⟨hmap, hfresh⟩ | ⟨id, p, rfl, -⟩
  · constructor
    · rw [hmap, hfresh]
      exact hs.lt
    · rw [hmap]
      exact hs.inj
  · exact hs.enter id p

theorem PmOp.effect.kept {op : PmOp} {e : Env} {s s' : PeerMap}
    (h : op.effect e s s') (hnew : op.Rechecked s) : s.Kept s' := by
  intro id' peer hpeer
  rcases h.map_cases with ⟨hmap, -⟩ | ⟨id, p, rfl, hnone⟩
  · rwa [hmap]
  · have hid : id' ≠ id := by
      rintro rfl
      rw [hnone hnew] at hpeer
      cases hpeer
    rwa [PeerMap.enter_lookup_ne _ _ _ hid]

/-! ## Handles in use -/

/-- Registrations are written, and read for a request, through the handle in
the map. -/
def PmOp.OnLive (op : PmOp) (s : PeerMap) : Prop :=
  match op with
  | .writePk id h _ | .writeAddr id h _ | .readPunch id h => s.map.lookup id = some h
  | _ => True

/-- What the steps have tracked is in the map. -/
def Holding (es : List (Event Env PmOp PeerMap)) (s : PeerMap) : Prop :=
  ∀ id peer, Tracked es id peer → s.map.lookup id = some peer

/-- While nobody replaces an entry, the handles in use are those in the map, and
the steps have the effects they announce and replace none either. -/
def tending : Contract Env PmOp PeerMap where
  rely := PeerMap.Kept
  given op _ s := op.Rechecked s
  guar op e s s' := op.OnLive s ∧ op.effect e s s' ∧ s.Kept s'

section tending
variable {x : External} {reg : Option (RegisterPk × SocketAddr)}
  {es : List (Event Env PmOp PeerMap)} {ev : Event Env PmOp PeerMap} {s : PeerMap}

theorem holding_nil (s : PeerMap) : Holding [] s := by
  rintro id peer ⟨ev, hev, -⟩
  cases hev

theorem Holding.kept {s' : PeerMap} (h : Holding es s) (hkept : s.Kept s') : Holding es s' :=
  fun id peer htracked => hkept id peer (h id peer htracked)

theorem Holding.snoc (h : Holding es ev.post) : Holding (es ++ [ev]) ev.post := by
  rintro id peer ⟨ev', hev', hlookup⟩
  rcases List.mem_append.mp hev' with hev' | hev'
  · exact h id peer ⟨ev', hev', hlookup⟩
  · rw [List.mem_singleton] at hev'
    rwa [hev'] at hlookup

theorem PmMove.onLive (h : PmMove x reg es ev) (hes : Holding es ev.pre) : ev.op.OnLive ev.pre := by
  cases h with
  | look hreads =>
      obtain ⟨hread, hpunch, -⟩ := hreads
      revert hread hpunch
      cases ev.op <;> simp [PmOp.reads, PmOp.punches, PmOp.OnLive]
  | identity hpeer => exact hes _ _ hpeer
  | address hpeer => exact hes _ _ hpeer
  | _ => trivial

/-- A task whose steps are such moves keeps the contract, and still has what it
has tracked when it returns. -/
theorem tending_of_moves {α : Type} {t : PmTask α} {Q : List (Event Env PmOp PeerMap) → α → Prop}
    {R : α → PeerMap → Prop} (h : t.Heeds (PmMove x reg) Q es) (hes : Holding es s)
    (hQ : ∀ es a s, Holding es s → Q es a → R a s) : t.Meets tending R s := by
  refine h.meets hes (fun es s s' hes hkept => hes.kept hkept) (fun es ev hes hev hnew => ?_) hQ
  have hkept : ev.pre.Kept ev.post := hev.effect.kept hnew
  exact ⟨⟨hev.onLive hes, hev.effect, hkept⟩, (hes.kept hkept).snoc⟩

theorem get_tending (x : External) (id : String) (s : PeerMap) :
    (PeerMap.get x id).Meets tending
      (fun r s => ∀ peer, r = some peer → s.map.lookup id = some peer) s :=
  tending_of_moves (get_moves x id []) (holding_nil s)
    fun _ _ _ hes hr peer hpeer => hes id peer (hr peer hpeer)

theorem PmCall.meets {α : Type} {t : PmTask α} (h : PmCall x t) (s : PeerMap) :
    t.Meets tending (fun _ _ => True) s := by
  obtain ⟨reg, hmoves⟩ := h.moves
  exact tending_of_moves hmoves (holding_nil s) fun _ _ _ _ _ => trivial

end tending

end KustDesk
