import KustDesk.Pinning
import KustDesk.RegisterSteps

/-!
# KustDesk — Directory

What the server is for, as far as identities go: a directory that says of an
id who owns it. An id belongs to the first one that registers it; the owner
may change key or address, one at a time. The directory can be read off the
database, and as long as the database works, memory only ever repeats it.
-/

namespace KustDesk

open Async

structure Identity where
  uuid : Bytes
  pk : Bytes
  info : PeerInfo
  deriving DecidableEq

/-- Who is known under an id. -/
abbrev Directory := String → Option Identity

/-! ## What the directory answers -/

/-- The identity that a registration is for. -/
def RegCall.identity (c : RegCall) : Identity := ⟨c.rk.uuid, c.rk.pk, { ip := c.ip }⟩

/-- May the registration change the identity to its own? -/
def Identity.Admits (i : Identity) (c : RegCall) : Prop :=
  i.uuid = c.rk.uuid ∧ (i.pk = c.rk.pk ∨ i.info.ip = c.ip)

instance (i : Identity) (c : RegCall) : Decidable (i.Admits c) :=
  inferInstanceAs (Decidable (_ ∧ _))

/-- A registration: the answer, and who is known afterwards. -/
def RegCall.decide (c : RegCall) (known : Option Identity) :
    Except RegisterPkResult RegisterPkResult × Option Identity :=
  if c.rk.uuid = [] ∨ c.rk.pk = [] then (.error .invalidIdFormat, known)
  else if c.id.utf8ByteSize < 6 then (.error .uuidMismatch, known)
  else if known.all fun i => i.Admits c then (.ok .ok, some c.identity)
  else (.error .uuidMismatch, known)

/-- The signed identity that `get_pk` returns. -/
def signedPk (x : External) (sk : Option Bytes) (version id : String) (known : Option Identity) :
    Bytes :=
  match sk, known with
  | some sk, some i => if version = "" then [] else x.sign ((x.idPk id i.pk).getD []) sk
  | _, _ => []

/-- A call: the answer, if it is about an identity, and the directory
afterwards. -/
def Handler.decide (x : External) (known : Directory) :
    Handler → Option Handler.Answer × Directory
  | .registerPk c => (some (.registered (c.decide (known c.id)).1),
      Function.update known c.id (c.decide (known c.id)).2)
  | .getPk rs version id => (some (.pk (signedPk x rs.inner.sk version id (known id))), known)
  | _ => (none, known)

/-- The directory after some calls. -/
def Directory.after (x : External) (known : Directory) (calls : List Handler) : Directory :=
  calls.foldl (fun known h => (h.decide x known).2) known

/-- The answers to some calls. -/
def Directory.answers (x : External) : Directory → List Handler → List (Option Handler.Answer)
  | _, [] => []
  | known, h :: rest => (h.decide x known).1 :: answers x (h.decide x known).2 rest

theorem Directory.answers_concat (x : External) (known : Directory) (calls : List Handler)
    (h : Handler) : known.answers x (calls ++ [h])
      = known.answers x calls ++ [(h.decide x (known.after x calls)).1] := by
  induction calls generalizing known with
  | nil => rfl
  | cons c rest ih =>
      show _ :: answers x _ (rest ++ [h]) = _
      rw [ih]
      rfl

/-! ## Memory and database -/

def DbPeer.identity (x : External) (r : DbPeer) : Identity :=
  ⟨r.uuid, r.pk, (x.infoFromStr r.info).getD {}⟩

def Peer.identity (p : Peer) : Identity := ⟨p.uuid, p.pk, p.info⟩

/-- The directory on disk. -/
def PeerMap.directory (x : External) (s : PeerMap) : Directory :=
  fun id => (s.db.getPeer id).map (DbPeer.identity x)

/-- Memory repeats the row. -/
structure Record.Synced (x : External) (rec : Record) : Prop where
  row : ∀ r, rec.row = some r → r.guid ≠ [] ∧ r.uuid ≠ []
  entry : ∀ p, rec.entry = some p →
    ∃ r, rec.row = some r ∧ r.guid = p.guid ∧ r.identity x = p.identity

structure PeerMap.Synced (x : External) (s : PeerMap) : Prop where
  sound : s.Sound
  records : ∀ id, (s.record id).Synced x

/-- With nothing in memory, there is nothing to repeat. -/
theorem PeerMap.Synced.restart {x : External} {s : PeerMap} (h : s.Synced x) :
    (PeerMap.new s.db).Synced x :=
  ⟨new_sound s.db, fun id => ⟨(h.records id).row, nofun⟩⟩

theorem PeerMap.Synced.linked {x : External} {s : PeerMap} (h : s.Synced x) (id : String) :
    (s.record id).Linked := by
  intro p hp
  obtain ⟨r, hr, hguid, -⟩ := (h.records id).entry p hp
  exact .inr ⟨r, hr, hguid⟩

/-- The database does what it is asked to. -/
def DbWorks (ev : Event Env PmOp PeerMap) : Prop :=
  DbSucceeds ev ∧ ∀ id, ev.op = .getPeer id → ev.env.fails = false

instance : DecidablePred DbWorks := fun ev =>
  decidable_of_iff (DbSucceeds ev ∧ (match ev.op with
    | .getPeer _ => !ev.env.fails
    | _ => true) = true) (and_congr_right fun _ => by
      split
      · rename_i hop
        simp [hop]
      · rename_i hop
        simpa using fun id hid => (hop id hid).elim)

section
variable {x : External} {s s' : PeerMap} {es : List (Event Env PmOp PeerMap)} {id : String}
  {peer : LockPeer}

theorem not_failedRead (h : ∀ ev ∈ es, DbWorks ev) : ¬ FailedRead id es := by
  rintro ⟨ev, hev, hop, hfails⟩
  rw [(h ev hev).2 id hop] at hfails
  cases hfails

/-- An entry that is set to a peer with the row's guid and identity. -/
theorem PeerMap.Synced.set (h : s.Synced x) (hlookup : s.map.lookup id = some peer) {p : Peer}
    (hguid : p.guid = (s.peers peer).guid) (hidentity : p.identity = (s.peers peer).identity) :
    (s.set peer p).Synced x := by
  refine ⟨h.sound.set peer p, fun id' => ?_⟩
  rw [record_set h.sound hlookup]
  split
  · have hrecord := h.records id
    rw [record_of_lookup hlookup] at hrecord
    refine ⟨hrecord.row, ?_⟩
    rintro _ ⟨⟩
    obtain ⟨r, hr, hrguid, hr'⟩ := hrecord.entry _ rfl
    exact ⟨r, hr, hrguid.trans hguid.symm, hr'.trans hidentity.symm⟩
  · exact h.records id'

/-- An entry that is loaded from its row. -/
theorem PeerMap.Synced.load (h : s.Synced x) {v : DbPeer} (hrow : s.db.getPeer id = some v)
    (earliest since : Instant) : (s.enter id (ofRow x v earliest since)).2.Synced x := by
  refine ⟨h.sound.enter id _, fun id' => ?_⟩
  rw [record_enter h.sound]
  split
  · refine ⟨(h.records id).row, ?_⟩
    rintro _ ⟨⟩
    exact ⟨v, hrow, rfl, rfl⟩
  · exact h.records id'

/-- An entry has the identity that the directory has. -/
theorem PeerMap.Synced.directory (h : s.Synced x) (hlookup : s.map.lookup id = some peer) :
    s.directory x id = some (s.peers peer).identity := by
  have hrecord := h.records id
  rw [record_of_lookup hlookup] at hrecord
  obtain ⟨r, hr, -, hidentity⟩ := hrecord.entry _ rfl
  rw [PeerMap.directory, show s.db.getPeer id = some r from hr, Option.map_some, hidentity]

end

/-! ## The other handlers -/

/-- As long as the database works, memory stays in step with it, and nothing
is written. -/
def Keeping (x : External) (s : PeerMap) (es : List (Event Env PmOp PeerMap))
    (s' : PeerMap) : Prop :=
  s.Synced x → (∀ ev ∈ es, DbWorks ev) → s'.Synced x ∧ s'.db = s.db

theorem keeping_same (x : External) (s : PeerMap) (es : List (Event Env PmOp PeerMap)) :
    Keeping x s es s := fun hs _ => ⟨hs, rfl⟩

theorem Keeping.append {x : External} {s s' : PeerMap} {es : List (Event Env PmOp PeerMap)}
    (h : Keeping x s es s') (es' : List (Event Env PmOp PeerMap)) : Keeping x s (es ++ es') s' :=
  fun hs hdb => h hs (List.forall_mem_append.mp hdb).1

section
variable (x : External) (id : String) (s : PeerMap)

theorem get_keeping :
    (PeerMap.get x id).Alone s fun es p s' => Keeping x s es s'
      ∧ (s.Synced x → (∀ ev ∈ es, DbWorks ev) →
        p.map (fun peer => (s'.peers peer).identity) = s.directory x id) := by
  refine (get_alone x id s).mono fun es p s' h => ?_
  obtain ⟨failed, hp, hfailed, -⟩ := h
  cases p with
  | none =>
      obtain ⟨rfl, hlookup, hrow⟩ := hp
      refine ⟨keeping_same x s' es, fun hs hdb => ?_⟩
      have hread : ¬ failed = true := fun h => not_failedRead hdb (hfailed.mp h)
      simp [PeerMap.directory, hrow.resolve_left hread]
  | some peer =>
      have hsynced (hs : s.Synced x) : s'.Synced x ∧ s'.db = s.db := by
        cases hp.2 with
        | found => exact ⟨hs, rfl⟩
        | loaded earliest since _ hrow => exact ⟨hs.load hrow earliest since, rfl⟩
      refine ⟨fun hs _ => hsynced hs, fun hs _ => ?_⟩
      obtain ⟨hs', hdb⟩ := hsynced hs
      rw [PeerMap.directory, ← hdb]
      exact (hs'.directory hp.2.lookup).symm

theorem updateAddr_keeping (addr : SocketAddr) :
    (updateAddr id addr).Alone s fun es _ s' => Keeping x s es s' := by
  refine (updateAddr_alone id addr s).mono fun es _ s' h => ?_
  obtain ⟨rfl | ⟨old, now, hlookup, rfl⟩, -⟩ := h
  · exact keeping_same x s' es
  · refine fun hs _ => ⟨hs.set hlookup ?_ ?_, rfl⟩
    all_goals
      rw [Peer.updateAddr_snd]
      split <;> rfl

theorem getPk_keeping (sk : Option Bytes) (version : String) :
    (getPk x sk version id).Alone s fun es bytes s' => Keeping x s es s'
      ∧ (s.Synced x → (∀ ev ∈ es, DbWorks ev) →
        bytes = signedPk x sk version id (s.directory x id)) := by
  refine getPk_alone x sk version id s (get_keeping x id s) ?_ ?_ ?_
  · intro hoff
    refine ⟨keeping_same x s _, fun _ _ => ?_⟩
    rcases hoff with rfl | rfl
    · simp only [signedPk, if_true]
      split <;> rfl
    · rfl
  · rintro hversion hsk es s' ⟨hkeeping, hidentity⟩
    refine ⟨hkeeping, fun hs hdb => ?_⟩
    obtain ⟨sk', rfl⟩ := Option.ne_none_iff_exists'.mp hsk
    rw [← hidentity hs hdb]
    rfl
  · rintro sk' hversion rfl es peer s' ev ⟨hkeeping, hidentity⟩ -
    refine ⟨hkeeping.append _, fun hs hdb => ?_⟩
    rw [← hidentity hs (List.forall_mem_append.mp hdb).1]
    simp [signedPk, hversion, Peer.identity]

end

theorem handlePunchHoleRequest_keeping (cfg : Config) (rs : RendezvousServer)
    (addr : SocketAddr) (ph : PunchHoleRequest) (ws : Bool) (s : Shared) :
    (handlePunchHoleRequest cfg rs addr ph ws).Alone s fun es _ s' =>
      Keeping cfg.x s.pm (es.filterMap pmEvent) s'.pm := by
  refine handlePunchHoleRequest_alone (R := fun es s' => Keeping cfg.x s.pm es s') cfg rs addr
    ph ws s (keeping_same _ _ _) ?_
  exact (get_keeping cfg.x ph.id s.pm).mono fun es _ s' h => ⟨h.1, fun ev _ => h.1.append [ev]⟩

end KustDesk
