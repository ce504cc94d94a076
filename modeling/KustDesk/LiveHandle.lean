import KustDesk.PeerSteps

/-!
# KustDesk — LiveHandle

One live handle per id. `PeerMap::get` loads a row without the lock of the
map and inserts what it has loaded without a second look: where another
task has entered the id meanwhile, its handle is replaced while in use.
Apart from that, a handle once in the map stays, and every handle that a
lookup returns is the one in the map.
-/

namespace KustDesk

open Async

/-- An operation of `PeerMap`; `update_pk` on any handle. -/
inductive MapCall where
  | get (id : String)
  | getOr (id : String)
  | updatePk (id : String) (peer : LockPeer) (addr : SocketAddr) (uuid pk : Bytes)
      (ip : String)

def MapCall.id : MapCall → String
  | .get id | .getOr id | .updatePk id .. => id

/-- The operation, with the handle it returns. -/
def MapCall.task (x : External) : MapCall → PmTask (Option LockPeer)
  | .get id => PeerMap.get x id
  | .getOr id => do return some (← PeerMap.getOr x id)
  | .updatePk id peer addr uuid pk ip => do
    let _ ← PeerMap.updatePk x id peer addr uuid pk ip
    return none

/-- Any number of operations on one map. -/
def mapCalls {ι : Type} (x : External) (calls : ι → MapCall) (s : PeerMap) :
    Pool ι Env PmOp PeerMap fun _ => Option LockPeer where
  tasks i := (calls i).task x
  shared := s

theorem MapCall.effects (x : External) (call : MapCall) : Effects (call.task x) := by
  cases call with
  | get id => exact (PmCall.get id).effects
  | getOr id => exact (effects_of_moves (getOr_moves x id [])).bind fun _ => trivial
  | updatePk id peer addr uuid pk ip =>
      obtain ⟨es, hpeer⟩ := exists_tracked id peer
      exact (effects_of_moves (updatePk_moves x addr uuid pk ip hpeer)).bind fun _ => trivial

/-- The contract not to replace an entry. -/
def keeping : Contract Env PmOp PeerMap where
  rely := PeerMap.Kept
  given op _ s := op.Rechecked s
  guar _ _ s s' := s.Kept s'

/-- An operation replaces no entry if its own insertion finds none, and what
it returns is in the map. -/
theorem MapCall.meets (x : External) (call : MapCall) (s : PeerMap) :
    (call.task x).Meets keeping
      (fun r s => ∀ h, r = some h → s.map.lookup call.id = some h) s := by
  have hkeeping {t : PmTask (Option LockPeer)} {Q : Option LockPeer → PeerMap → Prop}
      (h : t.Meets tending Q s) : t.Meets keeping Q s :=
    h.weaken (fun _ _ h => h) (fun _ _ _ h => h) fun _ _ _ _ _ h => h.2.2
  cases call with
  | get id => exact hkeeping (get_tending x id s)
  | getOr id =>
      apply hkeeping
      refine (tending_of_moves (getOr_moves x id []) (holding_nil s)
        fun _ peer s hes hpeer => hes id peer hpeer).bind fun h s hlookup => ?_
      rintro h' ⟨⟩
      exact hlookup
  | updatePk id peer addr uuid pk ip =>
      obtain ⟨es, hpeer⟩ := exists_tracked id peer
      have hall := effects_of_moves (updatePk_moves x addr uuid pk ip hpeer)
      refine (hall.meets (fun _ _ _ _ heffect hnew => ?_) s).bind fun _ _ _ _ => nofun
      exact PmOp.effect.kept heffect hnew

section runs
variable {x : External} {ι : Type} [DecidableEq ι] {calls : ι → MapCall}
  {s : PeerMap} {es : List (ι × Event Env PmOp PeerMap)}
  {q : Pool ι Env PmOp PeerMap fun _ => Option LockPeer}

theorem mapCalls_sound (hs : s.Sound) (h : (mapCalls x calls s).Run es q) :
    q.shared.Sound := by
  refine h.invariant (J := fun _ s => s.Sound) hs ?_
  intro es q i e op f k hrun hi hsound
  have heffect := hrun.next (MapCall.effects x (calls i)) hi e q.shared
  exact heffect.sound hsound

/-- **One live handle.** In a run of any operations on the map, no entry is
replaced, every handle returned is the one in the map, and so all lookups
of an id share one peer, exactly if every peer that `get` has loaded finds no
entry at its insertion. -/
theorem handles_live_iff (hs : s.Sound) (h : (mapCalls x calls s).Run es q) :
    ((∀ i ev, (i, ev) ∈ es → ev.pre.Kept ev.post)
      ∧ (∀ i peer, q.tasks i = .done (some peer) →
        q.shared.map.lookup (calls i).id = some peer)
      ∧ ∀ i j peer peer', q.tasks i = .done (some peer) → q.tasks j = .done (some peer') →
        (calls i).id = (calls j).id → peer = peer')
    ↔ ∀ i ev id since, (i, ev) ∈ es → ev.op = .mapInsert id since →
        ev.pre.map.lookup id = none := by
  constructor
  · rintro ⟨hkept, -⟩ i ev id since hev hop
    by_contra hentry
    obtain ⟨peer, hpeer⟩ := Option.ne_none_iff_exists'.mp hentry
    obtain ⟨es₁, es₂, hes⟩ := List.append_of_mem hev
    obtain ⟨q₁, hrun, hshared⟩ := h.cut hes
    have heffect := h.all (fun i => MapCall.effects x (calls i)) hev
    rw [hop] at heffect
    obtain ⟨p, hpost, -⟩ := heffect
    -- the new handle has never been in the map
    have hsame : ev.post.map.lookup id = some peer := hkept i ev hev id peer hpeer
    rw [hpost, PeerMap.enter_lookup, Option.some.injEq] at hsame
    have hlt := (hshared ▸ mapCalls_sound hs hrun).lt id peer hpeer
    rw [hsame] at hlt
    exact Nat.lt_irrefl _ hlt
  · intro hnew
    have hgiven : ∀ i ev, (i, ev) ∈ es → ev.op.Rechecked ev.pre :=
      fun i ev hev id since hop => hnew i ev id since hev hop
    obtain ⟨hkept, hreturn⟩ := h.meets (Q := fun i r s =>
        ∀ peer, r = some peer → s.map.lookup (calls i).id = some peer)
      (c := fun _ => keeping) hgiven
      (fun i => ⟨fun _ _ h => h, MapCall.meets x (calls i) s⟩)
      (fun _ _ _ _ _ _ _ _ _ _ h => h)
      (fun _ _ _ _ _ _ _ _ h h' id peer hpeer => h' id peer (h id peer hpeer))
    have hreturned : ∀ i peer, q.tasks i = .done (some peer) →
        q.shared.map.lookup (calls i).id = some peer := by
      intro i peer hdone
      obtain ⟨s', hkept', hmeets⟩ := hreturn i
      rw [hdone] at hmeets
      exact hkept' _ _ (hmeets peer rfl)
    refine ⟨hkept, hreturned, fun i j peer peer' hi hj hid => ?_⟩
    have hlookup := hreturned i peer hi
    rw [hid, hreturned j peer' hj] at hlookup
    exact (Option.some.inj hlookup).symm

end runs

/-! Two tasks look up a peer that is in the database only, and a third
writes a new address through the handle that the first has got. -/

inductive Caller where
  | first
  | writer
  | second
  deriving DecidableEq

def storedPeer : DbPeer := ⟨[7], "123456", [1], [2], "10.0.0.1"⟩

def storedMap : PeerMap :=
  .new ⟨[storedPeer], List.pairwise_singleton _ _⟩

def newAddr : SocketAddr := ⟨.v4 1, 50000⟩

def callers : Caller → MapCall
  | .first | .second => .get "123456"
  | .writer => .updatePk "123456" 0 newAddr [1] [2] "0.0.0.1"

def callerRun (schedule : List Caller) :
    List (Caller × Event Env PmOp PeerMap)
      × Pool Caller Env PmOp PeerMap fun _ => Option LockPeer :=
  (mapCalls (.sample []) callers storedMap).play (schedule.map fun i => (i, { now := 0 }))

/-- One after the other, both lookups return the handle that the writer has
written through. -/
theorem handles_live_iff_sequential :
    (callerRun [.first, .first, .first, .writer, .writer, .second]).2.shared.map.lookup "123456"
      = some 0 := by
  have hrun := Pool.play_run (mapCalls (.sample []) callers storedMap)
    ([Caller.first, .first, .first, .writer, .writer, .second].map fun i => (i, { now := 0 }))
  have hsound : storedMap.Sound := PeerMap.new_sound _
  have hnew : ∀ y ∈ (callerRun [.first, .first, .first, .writer, .writer, .second]).1,
      ∀ id ∈ y.2.op.inserted, y.2.pre.map.lookup id = none := by decide
  obtain ⟨-, hreturned, -⟩ := (handles_live_iff hsound hrun).mpr fun i ev id since hev hop =>
    hnew (i, ev) hev id (by rw [hop]; rfl)
  exact hreturned .second 0 rfl

/-- While the second lookup waits for the database, the first one loads the
peer and its handle is written through; then the second one replaces the
entry, and the write is lost. -/
theorem handle_replaced :
    ∃ es q, (mapCalls (.sample []) callers storedMap).Run es q
      ∧ q.tasks .first = .done (some 0) ∧ q.tasks .second = .done (some 1)
      ∧ (q.shared.peers 0).socketAddr = newAddr
      ∧ q.shared.map.lookup "123456" = some 1
      ∧ (q.shared.peers 1).socketAddr = .unspecified :=
  ⟨_, _, Pool.play_run _ ([Caller.first, .second, .first, .first, .writer, .writer, .second,
    .second].map fun i => (i, { now := 0 })), rfl, rfl, by decide, by decide, by decide⟩

end KustDesk
