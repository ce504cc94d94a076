import KustDesk.Registration
import KustDesk.Async.Alone

/-!
# KustDesk — RegisterOnce

What one call of `handle_register_pk` comes to when nothing runs in between:
which entry it opens, whether it is refused, what it leaves in memory and
what in the database.
-/

namespace KustDesk

open Async

structure RegCall where
  rk : RegisterPk
  addr : SocketAddr
  ws : Bool

namespace RegCall

def id (c : RegCall) : String := c.rk.id

def ip (c : RegCall) : String := c.addr.ip.toString

def task (x : External) (c : RegCall) : PmTask (Except RegisterPkResult RegisterPkResult) :=
  handleRegisterPk x c.rk c.addr c.ws

/-- The peer after the first step of `update_pk`. -/
def write (c : RegCall) (p : Peer) (now : Instant) : Peer :=
  { p with
    socketAddr := c.addr
    uuid := c.rk.uuid
    pk := c.rk.pk
    lastRegTime := now
    info := { p.info with ip := c.ip } }

/-- The text of the row that the call writes. -/
def info (x : External) (c : RegCall) : String := (x.infoToString { ip := c.ip }).getD ""

variable (x : External) (c : RegCall)

/-- The call from the write on. -/
def finish (peer : LockPeer) (changed : Bool) :
    PmTask (Except RegisterPkResult RegisterPkResult) := do
  if changed || c.ws then
    let _ ← PeerMap.updatePk x c.id peer c.addr c.rk.uuid c.rk.pk c.ip
  return .ok .ok

/-- The call from the new count on. -/
def note (peer : LockPeer) (reqPk : Nat × Instant) (changed ipChanged : Bool) :
    PmTask (Except RegisterPkResult RegisterPkResult) := do
  Task.act (.writeRegPk peer) fun _ s =>
    ((), s.set peer { s.peers peer with regPk := reqPk })
  if ipChanged then
    Task.act .ipChanges fun e s =>
      ((), { s with ipChanges := s.ipChanges.record e.now c.id c.ip })
  c.finish x peer changed

/-- The call from the look at the count on. -/
def limit (peer : LockPeer) (changed ipChanged : Bool) :
    PmTask (Except RegisterPkResult RegisterPkResult) := do
  let counted ← Task.look (.readRegPk peer) fun e s =>
    countRegPk (s.peers peer).regPk e.now
  match counted with
  | none => return .error .tooFrequent
  | some reqPk => c.note x peer reqPk changed ipChanged

/-- The call from the check of the owner on. -/
def settle (peer : LockPeer) : PmTask (Except RegisterPkResult RegisterPkResult) := do
  let checked ← Task.look (.checkUuid peer) fun _ s => (s.peers peer).checkUuid c.rk c.ip
  match checked with
  | none => return .error .uuidMismatch
  | some (changed, ipChanged) => c.limit x peer changed ipChanged

theorem task_eq : c.task x =
    if c.rk.uuid = [] || c.rk.pk = [] then return .error .invalidIdFormat
    else if c.id.utf8ByteSize < 6 then return .error .uuidMismatch
    else checkIpBlocker c.ip c.id >>= fun allowed =>
      if !allowed then return .error .tooFrequent else PeerMap.getOr x c.id >>= c.settle x := by
  rfl

end RegCall

/-! ## What is seen of a call -/

/-- The write to the row of `id` in a step: pk and info, and whether it
succeeds. -/
def dbWrite (id : String) (ev : Event Env PmOp PeerMap) : Option ((Bytes × String) × Bool) :=
  match ev.op with
  | .insertPeer id' uuid pk info =>
      if id' = id then
        some ((pk, info), !ev.env.fails
          && (ev.pre.db.insertPeer ev.env.guid.1 id' uuid pk info).isSome)
      else none
  | .updatePk guid id' pk info =>
      if id' = id then
        some ((pk, info), !ev.env.fails && (ev.pre.db.updatePk guid id' pk info).isSome)
      else none
  | _ => none

/-- The query for the row of `id` has failed. -/
def FailedRead (id : String) (es : List (Event Env PmOp PeerMap)) : Prop :=
  ∃ ev ∈ es, ev.op = .getPeer id ∧ ev.env.fails = true

@[simp] theorem failedRead_nil (id : String) : ¬ FailedRead id [] := by simp [FailedRead]

@[simp] theorem failedRead_cons (id : String) (ev : Event Env PmOp PeerMap)
    (es : List (Event Env PmOp PeerMap)) :
    FailedRead id (ev :: es) ↔ (ev.op = .getPeer id ∧ ev.env.fails = true) ∨ FailedRead id es := by
  simp [FailedRead]

@[simp] theorem failedRead_append (id : String) (es es' : List (Event Env PmOp PeerMap)) :
    FailedRead id (es ++ es') ↔ FailedRead id es ∨ FailedRead id es' := by
  simp [FailedRead, or_and_right, exists_or]

/-- Who the map takes for the owner of an id: uuid and pk of its peer. -/
def PeerMap.identity (s : PeerMap) (id : String) : Option (Bytes × Bytes) :=
  (s.map.lookup id).map fun h => ((s.peers h).uuid, (s.peers h).pk)

theorem PeerMap.identity_congr {s s' : PeerMap} (hmap : s.map = s'.map)
    (hpeers : ∀ h, (s.peers h).uuid = (s'.peers h).uuid ∧ (s.peers h).pk = (s'.peers h).pk) :
    s.identity = s'.identity := by
  funext id
  have hpeers' : (fun h => ((s.peers h).uuid, (s.peers h).pk))
      = fun h => ((s'.peers h).uuid, (s'.peers h).pk) := by
    funext h
    rw [(hpeers h).1, (hpeers h).2]
  rw [identity, identity, hmap, hpeers']

/-- The identity does not depend on the other data of a peer. -/
theorem PeerMap.identity_set {s : PeerMap} {h : LockPeer} {p : Peer}
    (huuid : p.uuid = (s.peers h).uuid) (hpk : p.pk = (s.peers h).pk) :
    (s.set h p).identity = s.identity := by
  refine identity_congr rfl fun h' => ?_
  by_cases heq : h' = h
  · subst heq
    rw [set_peers_self]
    exact ⟨huuid, hpk⟩
  · rw [set_peers_of_ne _ _ _ heq]
    exact ⟨rfl, rfl⟩

/-! ## Opening an entry -/

/-- `get_or` has found the entry of `id`, has loaded it, or, without a row or
after a failed read, has created it. -/
inductive Opened (x : External) (id : String) (s : PeerMap) :
    Bool → LockPeer → PeerMap → Prop
  | found {h} (hlookup : s.map.lookup id = some h) : Opened x id s false h s
  | loaded {v} (earliest since) (hlookup : s.map.lookup id = none)
      (hrow : s.db.getPeer id = some v) :
      Opened x id s false s.fresh (s.enter id (PeerMap.ofRow x v earliest since)).2
  | created {failed} (earliest now) (hlookup : s.map.lookup id = none)
      (hrow : failed = true ∨ s.db.getPeer id = none) :
      Opened x id s failed s.fresh (s.enter id (.default earliest now)).2

/-- `get` has found the entry of `id`, or has loaded it. -/
inductive Got (x : External) (id : String) (s : PeerMap) : LockPeer → PeerMap → Prop
  | found {h} (hlookup : s.map.lookup id = some h) : Got x id s h s
  | loaded {v} (earliest since) (hlookup : s.map.lookup id = none)
      (hrow : s.db.getPeer id = some v) :
      Got x id s s.fresh (s.enter id (PeerMap.ofRow x v earliest since)).2

theorem Got.opened {x : External} {id : String} {s s₁ : PeerMap} {h : LockPeer}
    (hgot : Got x id s h s₁) : Opened x id s false h s₁ := by
  cases hgot with
  | found hlookup => exact .found hlookup
  | loaded earliest since hlookup hrow => exact .loaded earliest since hlookup hrow

theorem Got.lookup {x : External} {id : String} {s s₁ : PeerMap} {h : LockPeer}
    (hgot : Got x id s h s₁) : s₁.map.lookup id = some h := by
  cases hgot with
  | found hlookup => exact hlookup
  | loaded => exact PeerMap.enter_lookup ..

theorem get_alone (x : External) (id : String) (s : PeerMap) :
    (PeerMap.get x id).Alone s fun es p s₁ =>
      ∃ failed, (match p with
          | some h => failed = false ∧ Got x id s h s₁
          | none => s₁ = s ∧ s.map.lookup id = none
              ∧ (failed = true ∨ s.db.getPeer id = none))
        ∧ (failed = true ↔ FailedRead id es)
        ∧ (∀ id', es.filterMap (dbWrite id') = [])
        ∧ ∀ ev ∈ es, ev.post = s ∨ ev.post = s₁ := by
  refine Task.alone_look_bind.mpr fun e => ?_
  cases hlookup : s.map.lookup id with
  | some h => exact ⟨false, ⟨rfl, .found hlookup⟩, by simp, by simp [dbWrite], by simp⟩
  | none =>
      refine Task.alone_look_bind.mpr fun e' => ?_
      cases hfails : e'.fails with
      | true =>
          exact ⟨true, ⟨rfl, rfl, .inl rfl⟩, by simp [hfails], by simp [dbWrite], by simp⟩
      | false =>
          cases hrow : s.db.getPeer id with
          | none =>
              exact ⟨false, ⟨rfl, rfl, .inr rfl⟩, by simp [hfails], by simp [dbWrite], by simp⟩
          | some v =>
              intro e''
              exact ⟨false, ⟨rfl, .loaded e''.earliest e'.now hlookup hrow⟩, by simp [hfails],
                by simp [dbWrite], by simp⟩

theorem getOr_alone (x : External) (id : String) (s : PeerMap) :
    (PeerMap.getOr x id).Alone s fun es h s₁ =>
      ∃ failed, Opened x id s failed h s₁ ∧ (failed = true ↔ FailedRead id es)
        ∧ (∀ id', es.filterMap (dbWrite id') = [])
        ∧ ∀ ev ∈ es, ev.post = s ∨ ev.post = s₁ := by
  refine (get_alone x id s).bind fun es p s₁ h => ?_
  obtain ⟨failed, hp, hfailed, hwrites, hposts⟩ := h
  cases p with
  | some h =>
      obtain ⟨rfl, hgot⟩ := hp
      exact ⟨false, hgot.opened, by simpa using hfailed, by simpa using hwrites,
        by simpa using hposts⟩
  | none =>
      obtain ⟨rfl, hlookup, hrow⟩ := hp
      rw [Task.alone_act]
      intro e
      simp only [hlookup]
      refine ⟨failed, .created e.earliest e.now hlookup hrow, ?_, ?_, ?_⟩
      · simpa using hfailed
      · simpa [dbWrite] using hwrites
      · intro ev hev
        rcases List.mem_append.mp hev with hev | hev
        · rcases hposts ev hev with hpost | hpost <;> exact .inl hpost
        · simp only [List.mem_singleton] at hev
          exact .inr (by rw [hev])

/-! ## The other calls -/

/-- `update_addr` changes the peer that the map has for the id, if any. -/
theorem updateAddr_alone (id : String) (addr : SocketAddr) (s : PeerMap) :
    (updateAddr id addr).Alone s fun es _ s' =>
      (s' = s ∨ ∃ old now, s.map.lookup id = some old
        ∧ s' = s.set old ((s.peers old).updateAddr addr now).2)
      ∧ ∀ ev ∈ es, ev.post = s ∨ ev.post = s' := by
  refine Task.alone_look_bind.mpr fun e => ?_
  cases hlookup : s.map.lookup id with
  | none => exact ⟨.inl rfl, by simp⟩
  | some old => exact fun e' => ⟨.inr ⟨old, e'.now, rfl, rfl⟩, by simp⟩

/-- `get_pk` looks the peer up, and signs what it then reads. -/
theorem getPk_alone (x : External) (sk : Option Bytes) (version id : String) (s : PeerMap)
    {R : List (Event Env PmOp PeerMap) → Option LockPeer → PeerMap → Prop}
    {R' : List (Event Env PmOp PeerMap) → Bytes → PeerMap → Prop}
    (hget : (PeerMap.get x id).Alone s R) (hoff : version = "" ∨ sk = none → R' [] [] s)
    (hmiss : version ≠ "" → sk ≠ none → ∀ es s', R es none s' → R' es [] s')
    (hfound : ∀ sk', version ≠ "" → sk = some sk' → ∀ es peer s' ev, R es (some peer) s' →
      ev.post = s' → R' (es ++ [ev]) (x.sign ((x.idPk id (s'.peers peer).pk).getD []) sk') s') :
    (getPk x sk version id).Alone s R' := by
  unfold getPk
  by_cases hnone : (decide (version = "") || sk.isNone) = true
  · rw [if_pos hnone]
    rw [Bool.or_eq_true, decide_eq_true_iff, Option.isNone_iff_eq_none] at hnone
    exact hoff hnone
  · rw [if_neg hnone]
    obtain ⟨hversion, sk', rfl⟩ : version ≠ "" ∧ ∃ sk', sk = some sk' := by
      simpa [Option.ne_none_iff_exists'] using hnone
    refine hget.bind fun es peer s' h => ?_
    cases peer with
    | none => simpa using hmiss hversion (by simp) es s' h
    | some peer => exact fun e => hfound sk' hversion rfl es peer s' _ h rfl

/-! ## Writing memory and database -/

/-- The write to the database: refused, a new row with a new guid, or the
row with the guid updated. -/
inductive DbOutcome (db : Database) (guid : Bytes) (id : String) (uuid pk : Bytes)
    (info : String) : Bool → Bytes → Database → Prop
  | refused : DbOutcome db guid id uuid pk info false guid db
  | inserted {guid' db'} (hguid : guid = []) (hlength : guid'.length = 16)
      (h : db.insertPeer guid' id uuid pk info = some db') :
      DbOutcome db guid id uuid pk info true guid' db'
  | updated {db'} (hguid : guid ≠ []) (h : db.updatePk guid id pk info = some db') :
      DbOutcome db guid id uuid pk info true guid db'

/-- A write to memory and one to the row of `id`. -/
theorem filterMap_dbWrite {id : String} {ev ev' : Event Env PmOp PeerMap}
    {w : (Bytes × String) × Bool} (hev : ∀ id', dbWrite id' ev = none)
    (hev' : ∀ id', dbWrite id' ev' = if id = id' then some w else none) (id' : String) :
    [ev, ev'].filterMap (dbWrite id') = if id = id' then [w] else [] := by
  by_cases hid : id = id'
  · simp [hev, hev', hid]
  · simp [hev, hev', hid]

/-- What `update_pk` comes to: it writes to memory, and to the row of the id. -/
def RegCall.Updated (x : External) (c : RegCall) (h : LockPeer) (s : PeerMap)
    (es : List (Event Env PmOp PeerMap)) (s' : PeerMap) : Prop :=
  ∃ now ok guid db,
    DbOutcome s.db (s.peers h).guid c.id c.rk.uuid c.rk.pk (c.info x) ok guid db
    ∧ s' = { s.set h { c.write (s.peers h) now with guid } with db }
    ∧ (∀ id, es.filterMap (dbWrite id) = if c.id = id then [((c.rk.pk, c.info x), ok)] else [])
    ∧ (∀ id, ¬ FailedRead id es)
    ∧ ∀ ev ∈ es, ev.post.identity = s'.identity

/-- The write to the row does not go through. -/
theorem RegCall.updated_refused {x : External} {c : RegCall} {h : LockPeer} {s s₁ : PeerMap}
    {op : PmOp} {e e' : Env} (hs₁ : s₁ = s.set h (c.write (s.peers h) e.now))
    (hop : ∀ id, op ≠ .getPeer id)
    (hwrite : ∀ id, dbWrite id ⟨op, e', s₁, s₁⟩
      = if c.id = id then some ((c.rk.pk, c.info x), false) else none) :
    c.Updated x h s [⟨.writePk c.id h c.addr, e, s, s₁⟩, ⟨op, e', s₁, s₁⟩] s₁ := by
  refine ⟨e.now, false, _, _, .refused, hs₁, filterMap_dbWrite (fun _ => rfl) hwrite, ?_, ?_⟩
  · simp [hop]
  · simp

theorem updatePk_alone (x : External) (c : RegCall) (h : LockPeer) (s : PeerMap) :
    (PeerMap.updatePk x c.id h c.addr c.rk.uuid c.rk.pk c.ip).Alone s fun es _ s' =>
      c.Updated x h s es s' := by
  refine Task.alone_act_bind.mpr fun e => ?_
  -- the row and its guid are no part of the identity
  have hidentity (guid : Bytes) (db : Database) :
      (s.set h (c.write (s.peers h) e.now)).identity
        = { s.set h { c.write (s.peers h) e.now with guid } with db := db }.identity := by
    refine PeerMap.identity_congr rfl fun h' => ?_
    by_cases heq : h' = h
    · subst heq
      simp
    · simp [PeerMap.set_peers_of_ne _ _ _ heq]
  show Task.Alone (if (s.peers h).guid = [] then _ else _) (s.set h (c.write (s.peers h) e.now)) _
  by_cases hguid : (s.peers h).guid = []
  · rw [if_pos hguid]
    refine Task.alone_act_bind.mpr fun e' => ?_
    dsimp only [PeerMap.set_db]
    cases hfails : e'.fails with
    | true =>
        refine RegCall.updated_refused rfl (by simp) fun id => ?_
        simp [dbWrite, hfails, RegCall.info]
    | false =>
        cases hinsert : s.db.insertPeer e'.guid.1 c.id c.rk.uuid c.rk.pk
            ((x.infoToString { ip := c.ip }).getD "") with
        | none =>
            refine RegCall.updated_refused rfl (by simp) fun id => ?_
            simp [dbWrite, hinsert, RegCall.info]
        | some db =>
            intro e''
            have hset : { s.set h (c.write (s.peers h) e.now) with db := db }.set h
                  { { s.set h (c.write (s.peers h) e.now) with db := db }.peers h with
                    guid := e'.guid.1 }
                = { s.set h { c.write (s.peers h) e.now with guid := e'.guid.1 } with db := db } := by
              simp [PeerMap.set]
            refine ⟨e.now, true, e'.guid.1, db, .inserted hguid e'.guid.2 hinsert, hset,
              fun id => ?_, by simp, ?_⟩
            · by_cases hid : c.id = id
              · subst hid
                simp [dbWrite, hfails, hinsert, RegCall.info, List.filterMap_cons]
              · simp [dbWrite, hid]
            · have hpost := (hidentity e'.guid.1 db).trans (congrArg PeerMap.identity hset.symm)
              exact List.forall_mem_cons.mpr ⟨hpost,
                List.forall_mem_cons.mpr ⟨hpost, List.forall_mem_singleton.mpr rfl⟩⟩
  · rw [if_neg hguid]
    refine Task.alone_act_bind.mpr fun e' => ?_
    dsimp only [PeerMap.set_db]
    cases hfails : e'.fails with
    | true =>
        refine RegCall.updated_refused rfl (by simp) fun id => ?_
        simp [dbWrite, hfails, RegCall.info]
    | false =>
        cases hupdate : s.db.updatePk (s.peers h).guid c.id c.rk.pk
            ((x.infoToString { ip := c.ip }).getD "") with
        | none =>
            refine RegCall.updated_refused rfl (by simp) fun id => ?_
            simp [dbWrite, hupdate, RegCall.info]
        | some db =>
            refine ⟨e.now, true, _, db, .updated hguid hupdate, rfl,
              filterMap_dbWrite (fun _ => rfl) fun id => ?_, by simp,
              List.forall_mem_cons.mpr ⟨rfl, List.forall_mem_singleton.mpr rfl⟩⟩
            simp [dbWrite, hfails, hupdate, RegCall.info]

/-! ## The whole call -/

/-- Equal but for the two tables of attempts and of changes. -/
structure PeerMap.Alike (s s' : PeerMap) : Prop where
  map : s'.map = s.map
  peers : s'.peers = s.peers
  fresh : s'.fresh = s.fresh
  db : s'.db = s.db

namespace PeerMap.Alike

variable {s s' s'' : PeerMap}

theorem refl (s : PeerMap) : s.Alike s := ⟨rfl, rfl, rfl, rfl⟩

theorem trans (h : s.Alike s') (h' : s'.Alike s'') : s.Alike s'' :=
  ⟨h'.map.trans h.map, h'.peers.trans h.peers, h'.fresh.trans h.fresh, h'.db.trans h.db⟩

theorem identity (h : s.Alike s') : s'.identity = s.identity :=
  identity_congr h.map fun peer => by
    rw [h.peers]
    exact ⟨rfl, rfl⟩

theorem set (h : s.Alike s') (peer : LockPeer) (p : Peer) :
    (s.set peer p).Alike (s'.set peer p) := by
  refine ⟨h.map, ?_, h.fresh, h.db⟩
  simp only [PeerMap.set, h.peers]

theorem set_db (h : s.Alike s') (db : Database) :
    PeerMap.Alike { s with db } { s' with db } :=
  ⟨h.map, h.peers, h.fresh, rfl⟩

theorem enter (h : s.Alike s') (id : String) (p : Peer) :
    (s.enter id p).2.Alike (s'.enter id p).2 := by
  refine ⟨?_, ?_, ?_, h.db⟩ <;> simp only [PeerMap.enter, PeerMap.set, h.map, h.peers, h.fresh]

/-- The tables play no part in opening an entry. -/
theorem opened {x : External} {id : String} {failed : Bool} {peer : LockPeer}
    (h : s.Alike s') (hopen : Opened x id s' failed peer s'') :
    ∃ s₁, Opened x id s failed peer s₁ ∧ s₁.Alike s'' := by
  cases hopen with
  | found hlookup => exact ⟨s, .found (h.map ▸ hlookup), h⟩
  | loaded earliest since hlookup hrow =>
      rw [h.map] at hlookup
      rw [h.db] at hrow
      rw [h.fresh]
      exact ⟨_, .loaded earliest since hlookup hrow, h.enter _ _⟩
  | created earliest now hlookup hrow =>
      rw [h.map] at hlookup
      rw [h.db] at hrow
      rw [h.fresh]
      exact ⟨_, .created earliest now hlookup hrow, h.enter _ _⟩

end PeerMap.Alike

/-- What the call comes to for the peer that it has got: the write to the
database, the answer, and the state. -/
inductive Settled (x : External) (c : RegCall) (h : LockPeer) (s : PeerMap) :
    Option ((Bytes × String) × Bool) → Except RegisterPkResult RegisterPkResult →
      PeerMap → Prop
  | refused {r s'} (hcheck : (s.peers h).checkUuid c.rk c.ip = none
        ∨ ∃ now, countRegPk (s.peers h).regPk now = none)
      (hs' : s.Alike s') : Settled x c h s none (.error r) s'
  | unchanged {ipChanged regPk s'}
      (hcheck : (s.peers h).checkUuid c.rk c.ip = some (false, ipChanged))
      (hs' : (s.set h { s.peers h with regPk }).Alike s') :
      Settled x c h s none (.ok .ok) s'
  | written {changed ok guid db s'} (regPk now)
      (hcheck : (s.peers h).checkUuid c.rk c.ip = some changed)
      (hdb : DbOutcome s.db (s.peers h).guid c.id c.rk.uuid c.rk.pk (c.info x) ok guid db)
      (hs' : PeerMap.Alike
        { s.set h { c.write { s.peers h with regPk } now with guid } with db } s') :
      Settled x c h s (some ((c.rk.pk, c.info x), ok)) (.ok .ok) s'

/-- The end of a call whose check and count are behind it. -/
theorem finish_alone (x : External) (c : RegCall) (h : LockPeer) (s : PeerMap)
    (regPk : Nat × Instant) {changed ipChanged : Bool} {s₁ : PeerMap}
    (hcheck : (s.peers h).checkUuid c.rk c.ip = some (changed, ipChanged))
    (hs₁ : (s.set h { s.peers h with regPk }).Alike s₁) :
    (c.finish x h changed).Alone s₁ fun es r s' =>
      ∃ w, Settled x c h s w r s'
        ∧ (∀ id, es.filterMap (dbWrite id) = if c.id = id then w.toList else [])
        ∧ (∀ id, ¬ FailedRead id es) ∧ ∀ ev ∈ es, ev.post.identity = s'.identity := by
  have hpeer : s₁.peers h = { s.peers h with regPk } := by rw [hs₁.peers, PeerMap.set_peers_self]
  have hdb : s₁.db = s.db := hs₁.db
  unfold RegCall.finish
  by_cases hwrite : (changed || c.ws) = true
  · rw [if_pos hwrite]
    refine (updatePk_alone x c h s₁).bind fun es _ s' hes => ?_
    obtain ⟨now, ok, guid, db, houtcome, rfl, hwrites, hreads, hposts⟩ := hes
    rw [hpeer, hdb] at houtcome
    refine ⟨some ((c.rk.pk, c.info x), ok), .written regPk now hcheck houtcome ?_, ?_⟩
    · rw [hpeer]
      have hset := (hs₁.set h { c.write { s.peers h with regPk } now with guid }).set_db db
      rwa [PeerMap.set_set] at hset
    · simpa using ⟨hwrites, hreads, hposts⟩
  · rw [if_neg hwrite]
    have hchanged : changed = false := by
      cases changed with
      | false => rfl
      | true => exact (hwrite rfl).elim
    subst hchanged
    exact ⟨none, .unchanged hcheck hs₁, by simp⟩

theorem settle_alone (x : External) (c : RegCall) (h : LockPeer) (s : PeerMap) :
    (c.settle x h).Alone s fun es r s' =>
      ∃ w, Settled x c h s w r s'
        ∧ (∀ id, es.filterMap (dbWrite id) = if c.id = id then w.toList else [])
        ∧ (∀ id, ¬ FailedRead id es)
        ∧ ∀ ev ∈ es, ev.post.identity = s.identity ∨ ev.post.identity = s'.identity := by
  unfold RegCall.settle
  refine Task.alone_look_bind.mpr fun e => ?_
  cases hcheck : (s.peers h).checkUuid c.rk c.ip with
  | none => exact ⟨none, .refused (.inl hcheck) (.refl s), by simp [dbWrite]⟩
  | some checked =>
      obtain ⟨changed, ipChanged⟩ := checked
      refine Task.alone_look_bind.mpr fun e' => ?_
      cases hcount : countRegPk (s.peers h).regPk e'.now with
      | none =>
          exact ⟨none, .refused (.inr ⟨e'.now, hcount⟩) (.refl s), by simp [dbWrite]⟩
      | some regPk =>
          intro e₂
          have hidentity (ipChanges : IpChangesMap) :
              PeerMap.identity { s.set h { s.peers h with regPk } with ipChanges }
                = s.identity :=
            PeerMap.identity_set rfl rfl
          have hcons {ev : Event Env PmOp PeerMap} {es : List (Event Env PmOp PeerMap)}
              {s' : PeerMap} (hev : ev.post.identity = s.identity)
              (hes : ∀ ev ∈ es, ev.post.identity = s.identity ∨ ev.post.identity = s'.identity) :
              ∀ ev' ∈ ev :: es,
                ev'.post.identity = s.identity ∨ ev'.post.identity = s'.identity :=
            List.forall_mem_cons.mpr ⟨.inl hev, hes⟩
          cases ipChanged with
          | false =>
              refine Task.Alone.mono ?_ (finish_alone x c h s regPk hcheck (.refl _))
              rintro es r s' ⟨w, hsettled, hwrites, hreads, hposts⟩
              refine ⟨w, hsettled, by simpa [dbWrite, List.filterMap_cons] using hwrites,
                by simpa using hreads, ?_⟩
              exact hcons rfl (hcons rfl (hcons (hidentity _) fun ev hev => .inr (hposts ev hev)))
          | true =>
              intro e₃
              refine Task.Alone.mono ?_ (finish_alone x c h s regPk hcheck ?_)
              · rintro es r s' ⟨w, hsettled, hwrites, hreads, hposts⟩
                refine ⟨w, hsettled, by simpa [dbWrite, List.filterMap_cons] using hwrites,
                  by simpa using hreads, ?_⟩
                exact hcons rfl (hcons rfl (hcons (hidentity _) (hcons (hidentity _)
                  fun ev hev => .inr (hposts ev hev))))
              · exact ⟨rfl, rfl, rfl, rfl⟩

theorem PeerMap.Alike.settled {x : External} {c : RegCall} {h : LockPeer}
    {s s₁ s' : PeerMap} {w : Option ((Bytes × String) × Bool)}
    {r : Except RegisterPkResult RegisterPkResult} (halike : s.Alike s₁)
    (hsettled : Settled x c h s₁ w r s') : Settled x c h s w r s' := by
  cases hsettled with
  | refused hcheck hs' =>
      rw [halike.peers] at hcheck
      exact .refused hcheck (halike.trans hs')
  | unchanged hcheck hs' =>
      rw [halike.peers] at hcheck hs'
      exact .unchanged hcheck ((halike.set h _).trans hs')
  | written regPk now hcheck hdb hs' =>
      rw [halike.peers] at hcheck hdb hs'
      rw [halike.db] at hdb
      exact .written regPk now hcheck hdb (((halike.set h _).set_db _).trans hs')

/-- A registration that has run alone in `s`: whether the query for the row
has failed, the write to the database, the answer, and the state. -/
inductive Registered (x : External) (c : RegCall) (s : PeerMap) :
    Bool → Option ((Bytes × String) × Bool) → Except RegisterPkResult RegisterPkResult →
      PeerMap → Prop
  | rejected {r s'} (hs' : s.Alike s') : Registered x c s false none (.error r) s'
  | opened {failed h s₁ w r s'} (huuid : c.rk.uuid ≠ []) (hopen : Opened x c.id s failed h s₁)
      (hsettled : Settled x c h s₁ w r s') : Registered x c s failed w r s'

/-- What is seen of the call: the failed query, the write to the database,
and the identities that the map goes through. -/
def RegCall.Outcome (x : External) (c : RegCall) (s : PeerMap)
    (es : List (Event Env PmOp PeerMap)) (r : Except RegisterPkResult RegisterPkResult)
    (s' : PeerMap) : Prop :=
  ∃ failed w, Registered x c s failed w r s'
    ∧ (failed = true ↔ FailedRead c.id es)
    ∧ (∀ id, es.filterMap (dbWrite id) = if c.id = id then w.toList else [])
    ∧ ∀ ev ∈ es, ev.post.identity = s.identity ∨ ev.post.identity = s'.identity
      ∨ ∃ h s₁, Opened x c.id s failed h s₁ ∧ ev.post.identity = s₁.identity

theorem handleRegisterPk_alone (x : External) (c : RegCall) (s : PeerMap) :
    (c.task x).Alone s (c.Outcome x s) := by
  rw [RegCall.task_eq]
  by_cases hempty : (decide (c.rk.uuid = []) || decide (c.rk.pk = [])) = true
  · rw [if_pos hempty]
    exact ⟨false, none, .rejected (.refl s), by simp⟩
  rw [if_neg hempty]
  have huuid : c.rk.uuid ≠ [] := fun h => hempty (by simp [h])
  by_cases hshort : c.id.utf8ByteSize < 6
  · rw [if_pos hshort]
    exact ⟨false, none, .rejected (.refl s), by simp⟩
  rw [if_neg hshort]
  intro e
  have halike : s.Alike { s with ipBlocker := (s.ipBlocker.check e.now c.ip c.id).2 } :=
    ⟨rfl, rfl, rfl, rfl⟩
  show Task.Alone (if (!(s.ipBlocker.check e.now c.ip c.id).1) = true then _ else _)
    { s with ipBlocker := (s.ipBlocker.check e.now c.ip c.id).2 } _
  generalize { s with ipBlocker := (s.ipBlocker.check e.now c.ip c.id).2 } = s₀ at halike
  cases (s.ipBlocker.check e.now c.ip c.id).1 with
  | false =>
      refine ⟨false, none, .rejected halike, by simp, by simp [dbWrite], ?_⟩
      exact List.forall_mem_singleton.mpr (.inl rfl)
  | true =>
      refine (getOr_alone x c.id s₀).bind fun es h s₁ hget => ?_
      obtain ⟨failed, hopen, hfailed, hwrites, hposts⟩ := hget
      obtain ⟨s₂, hopen', halike'⟩ := halike.opened hopen
      refine (settle_alone x c h s₁).mono fun es' r s' hsettle => ?_
      obtain ⟨w, hsettled, hwrites', hreads, hposts'⟩ := hsettle
      refine ⟨failed, w, .opened huuid hopen' (halike'.settled hsettled), ?_, ?_, ?_⟩
      · simpa [hreads] using hfailed
      · simpa [dbWrite, hwrites, List.filterMap_cons] using hwrites'
      · refine List.forall_mem_cons.mpr ⟨.inl rfl, List.forall_mem_append.mpr ⟨?_, ?_⟩⟩
        · intro ev hev
          rcases hposts ev hev with hpost | hpost
          · exact .inl (by rw [hpost, halike.identity])
          · exact .inr (.inr ⟨h, s₂, hopen', by rw [hpost, halike'.identity]⟩)
        · intro ev hev
          rcases hposts' ev hev with hpost | hpost
          · exact .inr (.inr ⟨h, s₂, hopen', by rw [hpost, halike'.identity]⟩)
          · exact .inr (.inl hpost)

/-! ## Rules for other facts about a call -/

/-- Equal but for the table of attempts. -/
def PeerMap.Attempted (s s' : PeerMap) : Prop := ∃ ipBlocker, s' = { s with ipBlocker }

theorem PeerMap.Attempted.alike {s s' : PeerMap} (h : s.Attempted s') : s.Alike s' := by
  obtain ⟨ipBlocker, rfl⟩ := h
  exact ⟨rfl, rfl, rfl, rfl⟩

/-- No step writes to a row. -/
def Quiet (es : List (Event Env PmOp PeerMap)) : Prop := ∀ id, es.filterMap (dbWrite id) = []

theorem Quiet.append {es : List (Event Env PmOp PeerMap)} (h : Quiet es) (id : String)
    (es' : List (Event Env PmOp PeerMap)) :
    (es ++ es').filterMap (dbWrite id) = es'.filterMap (dbWrite id) := by
  rw [List.filterMap_append, h id, List.nil_append]

section
variable {x : External} {c : RegCall} {s : PeerMap}
  {R : List (Event Env PmOp PeerMap) → Except RegisterPkResult RegisterPkResult → PeerMap → Prop}

/-- From the check of the owner on: it fails, or the limit is reached, or the
call goes on, with a new count. -/
theorem settle_rule {peer : LockPeer}
    (hmismatch : ∀ es, Quiet es → (s.peers peer).checkUuid c.rk c.ip = none →
      R es (.error .uuidMismatch) s)
    (hlimited : ∀ es, Quiet es → (∃ now, countRegPk (s.peers peer).regPk now = none) →
      R es (.error .tooFrequent) s)
    (hfinish : ∀ es changed ipChanged regPk ipChanges, Quiet es →
      (s.peers peer).checkUuid c.rk c.ip = some (changed, ipChanged) →
        (c.finish x peer changed).Alone { s.set peer { s.peers peer with regPk } with ipChanges }
          fun es' => R (es ++ es')) :
    (c.settle x peer).Alone s R := by
  refine Task.alone_look_bind.mpr fun e => ?_
  cases hcheck : (s.peers peer).checkUuid c.rk c.ip with
  | none => exact hmismatch _ (fun _ => rfl) hcheck
  | some checked =>
      obtain ⟨changed, ipChanged⟩ := checked
      refine Task.alone_look_bind.mpr fun e' => ?_
      cases hcount : countRegPk (s.peers peer).regPk e'.now with
      | none => exact hlimited _ (fun _ => rfl) ⟨e'.now, hcount⟩
      | some regPk =>
          intro e₂
          cases ipChanged with
          | false => exact hfinish [_, _, _] changed false regPk _ (fun _ => rfl) hcheck
          | true =>
              intro e₃
              exact hfinish [_, _, _, _] changed true regPk _ (fun _ => rfl) hcheck

/-- The whole call: malformed, blocked, or settled with the entry opened. -/
theorem register_rule
    (hmalformed : c.rk.uuid = [] ∨ c.rk.pk = [] → R [] (.error .invalidIdFormat) s)
    (hshort : ¬ (c.rk.uuid = [] ∨ c.rk.pk = []) → c.id.utf8ByteSize < 6 →
      R [] (.error .uuidMismatch) s)
    (hblocked : ∀ es s', Quiet es → s.Attempted s' → R es (.error .tooFrequent) s')
    (hsettle : ¬ (c.rk.uuid = [] ∨ c.rk.pk = []) → ¬ c.id.utf8ByteSize < 6 →
      ∀ es failed peer s₀ s₁, Quiet es → s.Attempted s₀ → Opened x c.id s₀ failed peer s₁ →
        (failed = true ↔ FailedRead c.id es) →
          (c.settle x peer).Alone s₁ fun es' => R (es ++ es')) :
    (c.task x).Alone s R := by
  rw [RegCall.task_eq]
  by_cases hempty : c.rk.uuid = [] ∨ c.rk.pk = []
  · rw [if_pos (by simpa using hempty)]
    exact hmalformed hempty
  rw [if_neg (by simpa using hempty)]
  by_cases hlong : c.id.utf8ByteSize < 6
  · rw [if_pos hlong]
    exact hshort hempty hlong
  rw [if_neg hlong]
  intro e
  have hattempted : s.Attempted { s with ipBlocker := (s.ipBlocker.check e.now c.ip c.id).2 } :=
    ⟨_, rfl⟩
  show Task.Alone (if (!(s.ipBlocker.check e.now c.ip c.id).1) = true then _ else _)
    { s with ipBlocker := (s.ipBlocker.check e.now c.ip c.id).2 } _
  split
  · exact hblocked _ _ (fun _ => rfl) hattempted
  · refine (getOr_alone x c.id _).bind fun es peer s₁ hget => ?_
    obtain ⟨failed, hopen, hfailed, hquiet, -⟩ := hget
    refine hsettle hempty hlong (_ :: es) failed peer _ s₁ (fun id => ?_) hattempted hopen ?_
    · exact hquiet id
    · simpa using hfailed

end

end KustDesk
