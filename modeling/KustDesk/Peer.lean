import KustDesk.Database
import KustDesk.Async.Trace
import Mathlib.Data.Finset.Card

/-!
# KustDesk — Peer

`peer.rs`: the peers, the map of live handles to them, and the operations
of `PeerMap` as asynchronous tasks. Every lock acquisition and every
database call is one step.
-/

namespace KustDesk

open Async

/-- `get_expired_time`: an hour ago, or now where an `Instant` cannot go back
that far. -/
def getExpiredTime (earliest now : Instant) : Instant :=
  (Instant.checkedSubSecs earliest now 3600).getD now

/-- `Peer` of `peer.rs`. `regPk` counts the recent registrations and dates
the last one. -/
structure Peer where
  socketAddr : SocketAddr
  lastRegTime : Instant
  guid : Bytes
  uuid : Bytes
  pk : Bytes
  info : PeerInfo
  regPk : Nat × Instant
  deriving DecidableEq

/-- `Peer::default`, called at `now`. -/
def Peer.default (earliest now : Instant) : Peer where
  socketAddr := SocketAddr.unspecified
  lastRegTime := getExpiredTime earliest now
  guid := []
  uuid := []
  pk := []
  info := {}
  regPk := (0, getExpiredTime earliest now)

/-- An `Arc<RwLock<Peer>>`: the address of the shared peer. -/
abbrev LockPeer := Nat

/-- `IpBlockMap`: per IP, the attempts and when the last one was, and the
ids registered and since when. -/
abbrev IpBlockMap := HashMap String ((Nat × Instant) × (Finset String × Instant))

/-- `IpChangesMap`: per id, since when, and how often from each IP. The counts
are `i32` in the source; 2^31 changes of one id to one IP within 180 seconds
would exceed that. -/
abbrev IpChangesMap := HashMap String (Instant × HashMap String Nat)

def ipChangeDur : Nat := 180
def daySeconds : Nat := 3600 * 24
def ipBlockDur : Nat := 60

/-- The state behind `peer.rs`: `PeerMap` with its map and its database,
what each handle points to, and the two global tables. Handles from `fresh`
on have not been allocated. -/
structure PeerMap where
  map : HashMap String LockPeer := ∅
  peers : LockPeer → Peer
  fresh : LockPeer := 0
  db : Database := .empty
  ipBlocker : IpBlockMap := ∅
  ipChanges : IpChangesMap := ∅

/-- The atomic steps of the registration code: which lock is taken, or which
database call made, and what for. -/
inductive PmOp where
  /-- `IP_BLOCKER.lock()` in `check_ip_blocker`. -/
  | ipBlocker
  /-- `IP_CHANGES.lock()` in `handle_register_pk`. -/
  | ipChanges
  /-- `map.read()`. -/
  | mapRead (id : String)
  /-- `map.write()` in `get`, to insert the peer loaded at `since`. -/
  | mapInsert (id : String) (since : Instant)
  /-- `map.write()` in `get_or`. -/
  | mapEntry (id : String)
  /-- `db.get_peer`. -/
  | getPeer (id : String)
  /-- `db.insert_peer`. -/
  | insertPeer (id : String) (uuid pk : Bytes) (info : String)
  /-- `db.update_pk`. -/
  | updatePk (guid : Bytes) (id : String) (pk : Bytes) (info : String)
  /-- `peer.read()` for the uuid check of `handle_register_pk`. -/
  | checkUuid (peer : LockPeer)
  /-- `peer.read()` and `peer.write()` of the registration counter. -/
  | readRegPk (peer : LockPeer)
  | writeRegPk (peer : LockPeer)
  /-- `peer.write()` in `update_pk`: the new identity and address. -/
  | writePk (id : String) (peer : LockPeer) (addr : SocketAddr)
  /-- `peer.write()` in `update_pk`: the guid of the new row. -/
  | writeGuid (peer : LockPeer)
  /-- `old.write()` in `update_addr`. -/
  | writeAddr (id : String) (peer : LockPeer) (addr : SocketAddr)
  /-- `peer.read()` of the registration time, the address or the pk. -/
  | readPunch (id : String) (peer : LockPeer)
  | readOnline (peer : LockPeer)
  | readAddr (peer : LockPeer)
  | readPk (peer : LockPeer)
  deriving DecidableEq

/-- A task over the peer map. -/
abbrev PmTask := Task Env PmOp PeerMap

namespace PeerMap

/-- `PeerMap::new`: nothing in memory. -/
def new (db : Database) : PeerMap where
  peers _ := Peer.default 0 0
  db := db

/-- Overwrite what a handle points to. -/
def set (s : PeerMap) (peer : LockPeer) (p : Peer) : PeerMap :=
  { s with peers := Function.update s.peers peer p }

/-- `map.insert(id, Arc::new(RwLock::new(p)))`: the next handle, pointing
to `p`, as the entry of `id`. -/
def enter (s : PeerMap) (id : String) (p : Peer) : LockPeer × PeerMap :=
  (s.fresh, { s.set s.fresh p with
    map := s.map.insert id s.fresh
    fresh := s.fresh + 1 })

section set
variable (s : PeerMap) (h : LockPeer) (p : Peer)

@[simp] theorem set_map : (s.set h p).map = s.map := rfl
@[simp] theorem set_fresh : (s.set h p).fresh = s.fresh := rfl
@[simp] theorem set_db : (s.set h p).db = s.db := rfl
@[simp] theorem set_ipBlocker : (s.set h p).ipBlocker = s.ipBlocker := rfl
@[simp] theorem set_ipChanges : (s.set h p).ipChanges = s.ipChanges := rfl

@[simp] theorem set_peers_self : (s.set h p).peers h = p :=
  Function.update_self ..

theorem set_peers_of_ne {h' : LockPeer} (hne : h' ≠ h) :
    (s.set h p).peers h' = s.peers h' := Function.update_of_ne hne ..

@[simp] theorem set_set (p' : Peer) : (s.set h p).set h p' = s.set h p' := by
  simp [set]

end set

section enter
variable (s : PeerMap) (id : String) (p : Peer)

@[simp] theorem enter_fst : (s.enter id p).1 = s.fresh := rfl
@[simp] theorem enter_fresh : (s.enter id p).2.fresh = s.fresh + 1 := rfl
@[simp] theorem enter_db : (s.enter id p).2.db = s.db := rfl

@[simp] theorem enter_peers_self : (s.enter id p).2.peers s.fresh = p :=
  Function.update_self ..

theorem enter_peers_of_ne {h : LockPeer} (hne : h ≠ s.fresh) :
    (s.enter id p).2.peers h = s.peers h := Function.update_of_ne hne ..

@[simp] theorem enter_lookup : (s.enter id p).2.map.lookup id = some s.fresh :=
  AList.lookup_insert _

theorem enter_lookup_ne {id' : String} (hne : id' ≠ id) :
    (s.enter id p).2.map.lookup id' = s.map.lookup id' :=
  AList.lookup_insert_ne hne

end enter

/-- `PeerMap::get_in_memory`. -/
def getInMemory (id : String) : PmTask (Option LockPeer) :=
  .look (.mapRead id) fun _ s => s.map.lookup id

/-- `PeerMap::is_in_memory`. -/
def isInMemory (id : String) : PmTask Bool :=
  .look (.mapRead id) fun _ s => (s.map.lookup id).isSome

variable (x : External)

/-- The peer `PeerMap::get` makes of a row: all but the stored columns has
its default. -/
def ofRow (v : DbPeer) (earliest now : Instant) : Peer :=
  { Peer.default earliest now with
    guid := v.guid
    uuid := v.uuid
    pk := v.pk
    info := (x.infoFromStr v.info).getD {} }

/-- The handle the map holds, if it holds one. Otherwise a new handle to the
row of the database, put into the map by a later step that does not look
again whether the map has an entry by now; a failed query is not told from
no row. -/
def get (id : String) : PmTask (Option LockPeer) := do
  let p ← Task.look (.mapRead id) fun _ s => s.map.lookup id
  match p with
  | some p => return some p
  | none =>
    let row ← Task.look (.getPeer id) fun e s =>
      if e.fails then none else (s.db.getPeer id).map fun v => (v, e.now)
    match row with
    | some (v, now) =>
      -- until it is in the map, nobody else has the new handle
      let peer ← Task.act (.mapInsert id now) fun e s =>
        s.enter id (ofRow x v e.earliest now)
      return some peer
    | none => return none

/-- `PeerMap::get`, or else a new peer with the defaults. -/
def getOr (id : String) : PmTask LockPeer := do
  match ← get x id with
  | some p => return p
  | none =>
    Task.act (.mapEntry id) fun e s =>
      match s.map.lookup id with
      | some p => (p, s)
      | none => s.enter id (Peer.default e.earliest e.now)

/-- `PeerMap::update_pk`: memory first, then the database. -/
def updatePk (id : String) (peer : LockPeer) (addr : SocketAddr)
    (uuid pk : Bytes) (ip : String) : PmTask RegisterPkResult := do
  let (info_str, guid) ← Task.act (.writePk id peer addr) fun e s =>
    let w := { s.peers peer with
      socketAddr := addr
      uuid := uuid
      pk := pk
      lastRegTime := e.now
      info := { s.peers peer |>.info with ip := ip } }
    (((x.infoToString w.info).getD "", w.guid), s.set peer w)
  if guid = [] then
    let res ← Task.act (.insertPeer id uuid pk info_str) fun e s =>
      if e.fails then (none, s) else
      match s.db.insertPeer e.guid.1 id uuid pk info_str with
      | some db => (some e.guid.1, { s with db := db })
      | none => (none, s)
    match res with
    | none => return .serverError
    | some guid =>
      Task.act (.writeGuid peer) fun _ s =>
        ((), s.set peer { s.peers peer with guid := guid })
      return .ok
  else
    let res ← Task.act (.updatePk guid id pk info_str) fun e s =>
      if e.fails then (none, s) else
      match s.db.updatePk guid id pk info_str with
      | some db => (some (), { s with db := db })
      | none => (none, s)
    match res with
    | none => return .serverError
    | some _ => return .ok

end PeerMap

end KustDesk
