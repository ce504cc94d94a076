import KustDesk.Ownership
import KustDesk.Async.Limiter
import Mathlib.Order.Fin.Basic

/-!
# KustDesk — RateLimit

The limit on the registrations of an id. The counter is read under one lock
and written back under another: calls that all read it before any of them
has written it back all pass. Where no call writes the counter between
another one's read and write, and all of them work on one peer, at most three
pass within seven seconds.
-/

namespace KustDesk

open Async

/-- Seven seconds. -/
def ratePause : Nat := 7000000000

theorem countRegPk_eq_grant (regPk : Nat × Instant) (now : Instant) :
    countRegPk regPk now = grant 3 ratePause regPk now := by
  have hpause (now last : Nat) :
      Instant.asSecs (Instant.elapsed now last) > 6 ↔ last + ratePause ≤ now := by
    unfold Instant.asSecs Instant.elapsed ratePause
    omega
  have hlimit : regPk.1 > 2 ↔ 3 ≤ regPk.1 := Iff.rfl
  simp only [countRegPk, grant, hpause, hlimit]

/-! ## The counter in the steps of a registration -/

/-- Past the write of the counter. -/
def RegPc.counted : RegPc → Bool
  | ipChange .. | write _ | insertRow .. | updateRow .. | writeGuid .. | done (.ok _) => true
  | _ => false

/-- Between the read of the counter and the write. -/
def RegPc.counting : RegPc → Bool
  | note .. => true
  | _ => false

/-- What a step does to the counter of a peer. -/
inductive CountStep (ev : Event Env PmOp PeerMap) : RegPc → RegPc → Prop
  | read {peer changed ipChanged regPk} (hop : ev.op = .readRegPk peer)
      (hcount : countRegPk (ev.pre.peers peer).regPk ev.env.now = some regPk)
      (hpost : ev.post = ev.pre) :
      CountStep ev (.count peer changed ipChanged) (.note peer regPk changed ipChanged)
  | write {peer regPk changed ipChanged pc'} (hop : ev.op = .writeRegPk peer)
      (hpost : ev.post = ev.pre.set peer { ev.pre.peers peer with regPk })
      (hpc' : pc'.counting = false) :
      CountStep ev (.note peer regPk changed ipChanged) pc'
  | other {pc pc'} (hop : ∀ peer, ev.op ≠ .writeRegPk peer)
      (hkept : ∀ peer, peer < ev.pre.fresh →
        (ev.post.peers peer).regPk = (ev.pre.peers peer).regPk)
      (hcounted : pc'.counted = true → pc.counted = true) (hpc' : pc'.counting = false) :
      CountStep ev pc pc'

/-- The handle stays the one in the map. -/
def RateNext (c : RegCall) (pc : RegPc) (ev : Event Env PmOp PeerMap) (pc' : RegPc) : Prop :=
  (pc.Live c.id ev.pre → pc'.Live c.id ev.post) ∧ CountStep ev pc pc'

theorem RegPc.finish_counting (c : RegCall) (peer : LockPeer) (changed : Bool) :
    (RegPc.finish c peer changed).counting = false := by
  unfold finish
  split <;> rfl

theorem PeerMap.regPk_set {s : PeerMap} {peer : LockPeer} {p : Peer}
    (hp : p.regPk = (s.peers peer).regPk) (peer' : LockPeer) :
    ((s.set peer p).peers peer').regPk = (s.peers peer').regPk := by
  by_cases heq : peer' = peer
  · subst heq
    simp [hp]
  · rw [set_peers_of_ne _ _ _ heq]

theorem PeerMap.regPk_enter {s : PeerMap} {id : String} {p : Peer} {peer : LockPeer}
    (hpeer : peer < s.fresh) : ((s.enter id p).2.peers peer).regPk = (s.peers peer).regPk := by
  rw [enter_peers_of_ne _ _ _ (Nat.ne_of_lt hpeer)]

theorem RegMove.rateNext {x : External} {c : RegCall} {e : Env} {op : PmOp} {s s' : PeerMap}
    {pc pc' : RegPc} (h : RegMove x c e s pc op s' pc') : RateNext c pc ⟨op, e, s, s'⟩ pc' := by
  cases h with
  | blocked => exact ⟨nofun, .other nofun (fun _ _ => rfl) nofun rfl⟩
  | allowed => exact ⟨nofun, .other nofun (fun _ _ => rfl) nofun rfl⟩
  | found hlookup => exact ⟨fun _ => .check hlookup, .other nofun (fun _ _ => rfl) nofun rfl⟩
  | missing => exact ⟨nofun, .other nofun (fun _ _ => rfl) nofun rfl⟩
  | noRow => exact ⟨nofun, .other nofun (fun _ _ => rfl) nofun rfl⟩
  | row _ => exact ⟨nofun, .other nofun (fun _ _ => rfl) nofun rfl⟩
  | inserted =>
      exact ⟨fun _ => .check (PeerMap.enter_lookup _ _ _),
        .other nofun (fun _ h => PeerMap.regPk_enter h) nofun rfl⟩
  | occupied hlookup => exact ⟨fun _ => .check hlookup, .other nofun (fun _ _ => rfl) nofun rfl⟩
  | created _ =>
      exact ⟨fun _ => .check (PeerMap.enter_lookup _ _ _),
        .other nofun (fun _ h => PeerMap.regPk_enter h) nofun rfl⟩
  | mismatch _ => exact ⟨nofun, .other nofun (fun _ _ => rfl) nofun rfl⟩
  | passed _ => exact ⟨fun h => h, .other nofun (fun _ _ => rfl) nofun rfl⟩
  | tooFrequent _ => exact ⟨nofun, .other nofun (fun _ _ => rfl) nofun rfl⟩
  | counted hcount => exact ⟨fun h => h, .read rfl hcount rfl⟩
  | @noted peer regPk changed ipChanged =>
      refine ⟨fun h => ?_, .write rfl rfl ?_⟩
      · cases ipChanged with
        | true => exact h
        | false => exact RegPc.finish_live changed (h peer rfl)
      · cases ipChanged with
        | true => rfl
        | false => exact RegPc.finish_counting c peer changed
  | @ipChanged peer changed =>
      exact ⟨fun h => RegPc.finish_live changed (h peer rfl),
        .other nofun (fun _ _ => rfl) (fun _ => rfl) (RegPc.finish_counting c peer changed)⟩
  | @wrote peer =>
      refine ⟨fun h => ?_, .other nofun (fun peer' _ => ?_) (fun _ => rfl) ?_⟩
      · split <;> exact h
      · exact PeerMap.regPk_set (p := c.write (s.peers peer) e.now) rfl peer'
      · split <;> rfl
  | insertFails _ => exact ⟨nofun, .other nofun (fun _ _ => rfl) (fun _ => rfl) rfl⟩
  | insertedRow _ => exact ⟨fun h => h, .other nofun (fun _ _ => rfl) (fun _ => rfl) rfl⟩
  | updateFails _ => exact ⟨nofun, .other nofun (fun _ _ => rfl) (fun _ => rfl) rfl⟩
  | updatedRow _ => exact ⟨nofun, .other nofun (fun _ _ => rfl) (fun _ => rfl) rfl⟩
  | @keptGuid peer guid =>
      refine ⟨nofun, .other nofun (fun peer' _ => ?_) (fun _ => rfl) rfl⟩
      exact PeerMap.regPk_set (p := { s.peers peer with guid }) rfl peer'

theorem RegCall.prog_counts (x : External) (c : RegCall) : Controls (c.prog x) (RateNext c) :=
  (c.prog_moves x).mono fun _ _ _ h => RegMove.rateNext h

/-! ## The counter in a run -/

section
variable {ι : Type}

/-- The calls that have written the counter, and when they counted
themselves. -/
def countings (es : List (ι × Event Env PmOp PeerMap)) : List (ι × Instant) :=
  es.filterMap fun y => match y.2.op with
    | .writeRegPk peer => some (y.1, (y.2.post.peers peer).regPk.2)
    | _ => none

/-- Call `i` has found the counter `regPk` after itself, and as long as nobody
else writes it, the counter is as it was found. -/
def Found (es : List (ι × Event Env PmOp PeerMap)) (i : ι) (peer : LockPeer)
    (regPk : Nat × Instant) (s : PeerMap) : Prop :=
  ∃ es₁ ev es₂, es = es₁ ++ (i, ev) :: es₂ ∧ ev.op = .readRegPk peer
    ∧ countRegPk (ev.pre.peers peer).regPk ev.env.now = some regPk
    ∧ ((∀ y ∈ es₂, y.2.op ≠ .writeRegPk peer) →
      (s.peers peer).regPk = (ev.pre.peers peer).regPk
      ∧ ∀ t ∈ (countings es).map Prod.snd, t ≤ ev.env.now)

/-- The runs in which no entry of the map is replaced, and nobody writes a
counter between another call's read of it and its write. -/
structure Uncontended (es : List (ι × Event Env PmOp PeerMap)) : Prop where
  rechecked : ∀ i ev, (i, ev) ∈ es → ev.op.Rechecked ev.pre
  undisturbed : ∀ es₁ i ev es₂ ev' es₃ peer, es = es₁ ++ (i, ev) :: (es₂ ++ (i, ev') :: es₃) →
    ev.op = .readRegPk peer → ev'.op = .writeRegPk peer → ∀ y ∈ es₂, y.2.op ≠ .writeRegPk peer

/-- The clock does not go back. -/
def Clocked (es : List (ι × Event Env PmOp PeerMap)) : Prop :=
  es.Pairwise fun y z => y.2.env.now ≤ z.2.env.now

/-- All work on the peer in the map, whose counter bounds the calls that have
counted themselves. -/
structure Rated (id : String) (es : List (ι × Event Env PmOp PeerMap)) (pcs : ι → RegPc)
    (s : PeerMap) : Prop where
  sound : s.Sound
  live : ∀ i, (pcs i).Live id s
  counted : ∀ i, (pcs i).counted = true → ∃ t, (i, t) ∈ countings es
  clock : ∀ i t, (i, t) ∈ countings es → ∃ ev peer, (i, ev) ∈ es ∧ ev.op = .readRegPk peer
    ∧ ev.env.now = t
  limited : ∀ peer, s.map.lookup id = some peer →
    Limited 3 ratePause ((countings es).map Prod.snd) (s.peers peer).regPk
  absent : s.map.lookup id = none → countings es = []
  found : ∀ i peer regPk changed ipChanged, pcs i = .note peer regPk changed ipChanged →
    Found es i peer regPk s

variable {es es' : List (ι × Event Env PmOp PeerMap)} {id : String} {pcs : ι → RegPc}
  {i : ι} {ev : Event Env PmOp PeerMap} {pc' : RegPc}

theorem Uncontended.take (h : Uncontended (es ++ es')) : Uncontended es where
  rechecked i ev hev := h.rechecked i ev (List.mem_append_left _ hev)
  undisturbed es₁ i ev es₂ ev' es₃ peer hes :=
    h.undisturbed es₁ i ev es₂ ev' (es₃ ++ es') peer (by simp [hes])

theorem countings_append (es es' : List (ι × Event Env PmOp PeerMap)) :
    countings (es ++ es') = countings es ++ countings es' := List.filterMap_append

theorem countings_of_other (h : ∀ peer, ev.op ≠ .writeRegPk peer) :
    countings [(i, ev)] = [] := by
  unfold countings
  rw [List.filterMap_cons_none, List.filterMap_nil]
  split
  · rename_i peer hop
    exact (h peer hop).elim
  · rfl

theorem countings_of_write {peer : LockPeer} (h : ev.op = .writeRegPk peer) :
    countings [(i, ev)] = [(i, (ev.post.peers peer).regPk.2)] := by
  simp [countings, h]

/-- A counter that was found stays as it was, unless somebody writes it. -/
theorem Found.other {peer : LockPeer} {regPk : Nat × Instant} {j : ι}
    (h : Found es j peer regPk ev.pre) (hop : ∀ peer, ev.op ≠ .writeRegPk peer)
    (hkept : (ev.post.peers peer).regPk = (ev.pre.peers peer).regPk) :
    Found (es ++ [(i, ev)]) j peer regPk ev.post := by
  obtain ⟨es₁, r, es₂, rfl, hread, hcount, hstill⟩ := h
  refine ⟨es₁, r, es₂ ++ [(i, ev)], by simp, hread, hcount, fun hothers => ?_⟩
  obtain ⟨hsame, htimes⟩ := hstill fun y hy => hothers y (List.mem_append_left _ hy)
  rw [countings_append, countings_of_other hop, List.append_nil]
  exact ⟨hkept.trans hsame, htimes⟩

/-- Nothing more is said of it once somebody has written it. -/
theorem Found.written {peer : LockPeer} {regPk : Nat × Instant} {j : ι} {s s' : PeerMap}
    (h : Found es j peer regPk s) (hop : ev.op = .writeRegPk peer) :
    Found (es ++ [(i, ev)]) j peer regPk s' := by
  obtain ⟨es₁, r, es₂, rfl, hread, hcount, -⟩ := h
  refine ⟨es₁, r, es₂ ++ [(i, ev)], by simp, hread, hcount, fun hothers => ?_⟩
  exact (hothers (i, ev) (by simp) hop).elim

/-- The counter is found by the step that reads it. -/
theorem Found.read {peer : LockPeer} {regPk : Nat × Instant} (hclock : Clocked (es ++ [(i, ev)]))
    (hop : ev.op = .readRegPk peer) (hpost : ev.post = ev.pre)
    (hcount : countRegPk (ev.pre.peers peer).regPk ev.env.now = some regPk)
    (htimes : ∀ j t, (j, t) ∈ countings es → ∃ r peer, (j, r) ∈ es ∧ r.op = .readRegPk peer
      ∧ r.env.now = t) :
    Found (es ++ [(i, ev)]) i peer regPk ev.post := by
  refine ⟨es, ev, [], rfl, hop, hcount, fun _ => ⟨by rw [hpost], fun t ht => ?_⟩⟩
  rw [countings_append, countings_of_other (by simp [hop]), List.append_nil] at ht
  obtain ⟨⟨j, t⟩, hmem, rfl⟩ := List.mem_map.mp ht
  obtain ⟨r, -, hr, -, rfl⟩ := htimes j _ hmem
  exact (List.pairwise_append.mp hclock).2.2 (j, r) hr (i, ev) (by simp)

variable [DecidableEq ι]

/-- One registration moves on, and the counter is not written. -/
theorem Rated.other (h : Rated id es pcs ev.pre) (hop : ∀ peer, ev.op ≠ .writeRegPk peer)
    (hsound : ev.post.Sound) (hkept : ev.pre.Kept ev.post) (hlive : pc'.Live id ev.post)
    (hsame : ∀ peer, peer < ev.pre.fresh →
      (ev.post.peers peer).regPk = (ev.pre.peers peer).regPk)
    (hcounted : pc'.counted = true → (pcs i).counted = true)
    (hfound : ∀ peer regPk changed ipChanged, pc' = .note peer regPk changed ipChanged →
      Found (es ++ [(i, ev)]) i peer regPk ev.post) :
    Rated id (es ++ [(i, ev)]) (Function.update pcs i pc') ev.post := by
  have hcountings : countings (es ++ [(i, ev)]) = countings es := by
    rw [countings_append, countings_of_other hop, List.append_nil]
  have hupdate {P : ι → RegPc → Prop} (hi : P i pc') (hothers : ∀ j, P j (pcs j)) (j : ι) :
      P j (Function.update pcs i pc' j) :=
    (Function.forall_update_iff pcs P).mpr ⟨hi, fun j _ => hothers j⟩ j
  -- the counter is as before, and so are the accepted calls it counts
  constructor
  · exact hsound
  · exact hupdate (P := fun _ pc => pc.Live id ev.post) hlive
      fun j peer hpeer => hkept id peer (h.live j peer hpeer)
  · rw [hcountings]
    exact hupdate (P := fun j pc => pc.counted = true → ∃ t, (j, t) ∈ countings es)
      (fun hc => h.counted i (hcounted hc)) h.counted
  · rw [hcountings]
    intro j t ht
    obtain ⟨r, peer, hr, hread, htime⟩ := h.clock j t ht
    exact ⟨r, peer, List.mem_append_left _ hr, hread, htime⟩
  · intro peer hpeer
    rw [hcountings]
    cases hlookup : ev.pre.map.lookup id with
    | none =>
        rw [h.absent hlookup]
        exact .nil _
    | some peer' =>
        cases (hkept id peer' hlookup).symm.trans hpeer
        rw [hsame peer (h.sound.lt id peer hlookup)]
        exact h.limited peer hlookup
  · intro hnone
    rw [hcountings]
    apply h.absent
    by_contra hsome
    obtain ⟨peer, hpeer⟩ := Option.ne_none_iff_exists'.mp hsome
    cases hnone.symm.trans (hkept id peer hpeer)
  · refine hupdate (P := fun j pc => ∀ peer regPk changed ipChanged,
      pc = .note peer regPk changed ipChanged → Found (es ++ [(i, ev)]) j peer regPk ev.post)
      hfound fun j peer regPk changed ipChanged hj => ?_
    have hpeer : ev.pre.map.lookup id = some peer := h.live j peer (by rw [hj]; rfl)
    have hlt := h.sound.lt id peer hpeer
    exact (h.found j peer regPk changed ipChanged hj).other hop (hsame peer hlt)

/-- A registration counts itself: nobody has since it has read the counter. -/
theorem Rated.write (h : Rated id es pcs ev.pre) {peer : LockPeer} {regPk : Nat × Instant}
    {changed ipChanged : Bool} (hpc : pcs i = .note peer regPk changed ipChanged)
    (hop : ev.op = .writeRegPk peer)
    (hpost : ev.post = ev.pre.set peer { ev.pre.peers peer with regPk })
    (hlive : pc'.Live id ev.post) (hpc' : pc'.counting = false)
    (huncontended : Uncontended (es ++ [(i, ev)])) :
    Rated id (es ++ [(i, ev)]) (Function.update pcs i pc') ev.post := by
  have hpeer : ev.pre.map.lookup id = some peer := h.live i peer (by rw [hpc]; rfl)
  obtain ⟨es₁, r, es₂, hes, hread, hcount, hstill⟩ := h.found i peer regPk changed ipChanged hpc
  -- nobody has written since the read, so the count is still the one found
  obtain ⟨hsame, htimes⟩ := hstill
    (huncontended.undisturbed es₁ i r es₂ ev [] peer (by simp [hes]) hread hop)
  rw [countRegPk_eq_grant, ← hsame] at hcount
  have hregPk : (ev.post.peers peer).regPk = regPk := by rw [hpost, PeerMap.set_peers_self]
  have hmap : ev.post.map = ev.pre.map := by rw [hpost, PeerMap.set_map]
  have hcountings : countings (es ++ [(i, ev)]) = countings es ++ [(i, r.env.now)] := by
    rw [countings_append, countings_of_write hop, hregPk, grant_snd hcount]
  constructor
  · rw [hpost]
    exact ⟨h.sound.lt, h.sound.inj⟩
  · refine (Function.forall_update_iff pcs fun _ pc => pc.Live id ev.post).mpr
      ⟨hlive, fun j _ => ?_⟩
    rw [hpost]
    exact h.live j
  · intro j hcounted
    rw [hcountings]
    by_cases hij : j = i
    · exact ⟨r.env.now, by simp [hij]⟩
    · rw [Function.update_of_ne hij] at hcounted
      obtain ⟨t, ht⟩ := h.counted j hcounted
      exact ⟨t, List.mem_append_left _ ht⟩
  · intro j t ht
    rw [hcountings] at ht
    rcases List.mem_append.mp ht with ht | ht
    · obtain ⟨r', peer', hr', hread', htime⟩ := h.clock j t ht
      exact ⟨r', peer', List.mem_append_left _ hr', hread', htime⟩
    · cases List.mem_singleton.mp ht
      exact ⟨r, peer, by simp [hes], hread, rfl⟩
  · intro peer' hpeer'
    rw [hmap] at hpeer'
    cases hpeer.symm.trans hpeer'
    rw [hcountings, List.map_append, List.map_singleton, hregPk]
    exact (h.limited peer hpeer).grant (by decide) htimes hcount
  · intro hnone
    rw [hmap] at hnone
    cases hpeer.symm.trans hnone
  · intro j peer' regPk' changed' ipChanged' hj
    by_cases hij : j = i
    · subst hij
      rw [Function.update_self] at hj
      rw [hj] at hpc'
      cases hpc'
    · rw [Function.update_of_ne hij] at hj
      -- the peer is the same one, so what the other has found is out of date
      have hpeer' : ev.pre.map.lookup id = some peer' := h.live j peer' (by rw [hj]; rfl)
      cases hpeer.symm.trans hpeer'
      exact (h.found j peer regPk' changed' ipChanged' hj).written hop

theorem Rated.step {c : RegCall} (h : Rated id es pcs ev.pre) (hid : c.id = id)
    (hnext : RateNext c (pcs i) ev pc') (hsound : ev.post.Sound)
    (hkept : ev.pre.Kept ev.post) (hclock : Clocked (es ++ [(i, ev)]))
    (huncontended : Uncontended (es ++ [(i, ev)])) :
    Rated id (es ++ [(i, ev)]) (Function.update pcs i pc') ev.post := by
  subst hid
  obtain ⟨hlive, hstep⟩ := hnext
  have hlive' := hlive (h.live i)
  generalize hpc : pcs i = pc at hstep
  cases hstep with
  | @read peer changed ipChanged regPk hop hcount hpost =>
      refine h.other (by simp [hop]) hsound hkept hlive' (fun _ _ => by rw [hpost]) nofun ?_
      rintro _ _ _ _ ⟨⟩
      exact .read hclock hop hpost hcount h.clock
  | write hop hpost hpc' => exact h.write hpc hop hpost hlive' hpc' huncontended
  | other hop hsame hcounted hpc' =>
      subst hpc
      refine h.other hop hsound hkept hlive' hsame hcounted ?_
      rintro _ _ _ _ rfl
      cases hpc'

variable {x : External} {calls : ι → RegCall} {s : PeerMap}
  {q : Pool ι Env PmOp PeerMap fun _ => Except RegisterPkResult RegisterPkResult}

theorem registrations_rated (hid : ∀ i, (calls i).id = id) (hs : s.Sound)
    (h : (registrations x calls s).Run es q) (hclock : Clocked es)
    (huncontended : Uncontended es) :
    ∃ pcs, (∀ i, q.tasks i = (calls i).prog x (pcs i)) ∧ Rated id es pcs q.shared := by
  suffices hJ : ∃ pcs, (∀ i, q.tasks i = (calls i).prog x (pcs i))
      ∧ (Clocked es → Uncontended es → Rated id es pcs q.shared) by
    obtain ⟨pcs, htasks, hJ⟩ := hJ
    exact ⟨pcs, htasks, hJ hclock huncontended⟩
  refine h.control (J := fun es pcs s' => Clocked es → Uncontended es → Rated id es pcs s')
    (fun i => (calls i).prog_counts x) (fun i => (calls i).prog_first x) ?_ ?_
  · intro _ _
    have hfirst (i : ι) : (calls i).first.handle = none ∧ (calls i).first.counted = false := by
      rcases (calls i).first_cases with ⟨-, hfirst⟩ | ⟨r, hfirst⟩ <;> rw [hfirst] <;> exact ⟨rfl, rfl⟩
    constructor
    · exact hs
    · intro i peer hpeer
      cases (hfirst i).1.symm.trans hpeer
    · intro i hcounted
      cases (hfirst i).2.symm.trans hcounted
    · nofun
    · exact fun _ _ => .nil _
    · exact fun _ => rfl
    · intro i peer regPk changed ipChanged hnote
      have hhandle := (hfirst i).1
      rw [hnote] at hhandle
      cases hhandle
  · intro es q pcs i ev q' pc' hrun _ hrun' hnext ih hclock huncontended
    have hrated := ih (List.pairwise_append.mp hclock).1 huncontended.take
    have hev : (i, ev) ∈ es ++ [(i, ev)] := by simp
    have heffect := hrun'.all (fun i => (PmCall.registerPk _ _ _).effects) hev
    exact hrated.step (hid i) hnext (PmOp.effect.sound heffect hrated.sound)
      (PmOp.effect.kept heffect (huncontended.rechecked i ev hev)) hclock huncontended

/-- **Registration rate.** Among any number of registrations of an id that run
at once, each one that is accepted has counted itself, at the time of its look
at the counter; and where no counter is contended and no entry replaced, at
most three of those that count themselves within seven seconds are accepted. -/
theorem registration_rate (hid : ∀ i, (calls i).id = id) (hs : s.Sound)
    (h : (registrations x calls s).Run es q) (hclock : Clocked es)
    (huncontended : Uncontended es) :
    (∀ i k, q.tasks i = .done (.ok k) → ∃ t, (i, t) ∈ countings es
      ∧ ∃ ev peer, (i, ev) ∈ es ∧ ev.op = .readRegPk peer ∧ ev.env.now = t)
    ∧ ∀ (start : Instant) (l : List ι), l.Nodup →
      (∀ i ∈ l, (∃ k, q.tasks i = .done (.ok k))
        ∧ ∃ t, (i, t) ∈ countings es ∧ start ≤ t ∧ t < start + ratePause) → l.length ≤ 3 := by
  obtain ⟨pcs, htasks, hrated⟩ := registrations_rated hid hs h hclock huncontended
  refine ⟨fun i k hdone => ?_, fun start l hnodup hl => ?_⟩
  · have hpc := RegPc.eq_done ((htasks i).symm.trans hdone)
    obtain ⟨t, ht⟩ := hrated.counted i (by rw [hpc]; rfl)
    exact ⟨t, ht, hrated.clock i t ht⟩
  · have hbound : inWindow ratePause ((countings es).map Prod.snd) start ≤ 3 := by
      cases hlookup : q.shared.map.lookup id with
      | none => simp [hrated.absent hlookup, inWindow]
      | some peer => exact (hrated.limited peer hlookup).window start
    rw [inWindow, List.countP_map, List.countP_eq_length_filter] at hbound
    -- every call of `l` has an entry of its own in the window
    have hsub : l ⊆ ((countings es).filter
        ((fun t => decide (start ≤ t ∧ t < start + ratePause)) ∘ Prod.snd)).map Prod.fst := by
      intro i hi
      obtain ⟨-, t, ht, hwindow⟩ := hl i hi
      refine List.mem_map.mpr ⟨(i, t), List.mem_filter.mpr ⟨ht, ?_⟩, rfl⟩
      simpa using hwindow
    have hlength := (hnodup.subperm hsub).length_le
    rw [List.length_map] at hlength
    exact hlength.trans hbound

omit [DecidableEq ι] in
/-- A run of calls one after the other, each of which writes the counter once at
most. -/
theorem Uncontended.sequential [PartialOrder ι]
    (hrechecked : ∀ i ev, (i, ev) ∈ es → ev.op.Rechecked ev.pre)
    (hturns : (es.map Prod.fst).Pairwise (· ≤ ·)) (honce : ((countings es).map Prod.fst).Nodup) :
    Uncontended es where
  rechecked := hrechecked
  undisturbed := by
    rintro es₁ i ev es₂ ev' es₃ peer rfl _ hwrite ⟨j, y⟩ hy hother
    -- what stands between two steps of a call is its own
    have hij : i = j := by
      simp only [List.map_append, List.map_cons, List.pairwise_append, List.pairwise_cons] at hturns
      obtain ⟨-, ⟨hafter, -, -, hbefore⟩, -⟩ := hturns
      have hmem : j ∈ es₂.map Prod.fst := List.mem_map_of_mem hy
      exact le_antisymm (hafter j (by simp [hmem])) (hbefore j hmem i (by simp))
    subst hij
    have hsub : ([(i, y)] ++ [(i, ev')]).Sublist (es₁ ++ (i, ev) :: (es₂ ++ (i, ev') :: es₃)) := by
      refine .trans ?_ (List.sublist_append_right es₁ _)
      refine .trans ?_ (List.sublist_cons_self _ _)
      exact (List.singleton_sublist.mpr hy).append (List.singleton_sublist.mpr (by simp))
    have htwice := honce.sublist ((hsub.filterMap _).map Prod.fst)
    rw [← countings, countings_append, countings_of_write hwrite,
      countings_of_write hother] at htwice
    simp at htwice

end

/-- One client, which sends its registration four times. -/
def fourCalls : Fin 4 → RegCall := fun _ => rivals .first

/-- One after the other. -/
def sequentialSchedule : List (Fin 4 × Env) :=
  [(0, 10), (1, 5), (2, 5), (3, 4)].flatMap fun y => List.replicate y.2 (y.1, { now := 0 })

def sequentialRun :=
  (registrations (.sample []) fourCalls (.new .empty)).play sequentialSchedule

/-- Three are accepted, and each of them has counted itself. The fourth is
not. -/
theorem registration_rate_sequential :
    ∃ es q, (registrations (.sample []) fourCalls (.new .empty)).Run es q
      ∧ (∀ i : Fin 4, i ≠ 3 → q.tasks i = .done (.ok .ok) ∧ ∃ t, (i, t) ∈ countings es)
      ∧ ∀ k, q.tasks 3 ≠ .done (.ok k) := by
  have hrun := Pool.play_run (registrations (.sample []) fourCalls (.new .empty)) sequentialSchedule
  have hclock : Clocked sequentialRun.1 := by
    unfold Clocked
    decide
  have hrechecked : ∀ y ∈ sequentialRun.1, y.2.op.Rechecked y.2.pre := by decide
  obtain ⟨hcounted, -⟩ := registration_rate (fun _ => rfl) (PeerMap.new_sound _) hrun hclock
    (.sequential (fun i ev hev => hrechecked (i, ev) hev) (by decide) (by decide))
  refine ⟨_, _, hrun, fun i hi => ?_, ?_⟩
  · have hdone : sequentialRun.2.tasks i = .done (.ok .ok) := by
      match i with
      | 0 | 1 | 2 => rfl
      | 3 => exact (hi rfl).elim
    obtain ⟨t, ht, -⟩ := hcounted i .ok hdone
    exact ⟨hdone, t, ht⟩
  · intro k hdone
    have hrefused : sequentialRun.2.tasks 3 = .done (.error .tooFrequent) := rfl
    cases hrefused.symm.trans hdone

/-- Each call up to its look at the counter, then each one to its end. -/
def fourSchedule : List (Fin 4 × Env) :=
  [(0, 6), (1, 4), (2, 4), (3, 4), (0, 4), (1, 3), (2, 3), (3, 3)].flatMap fun y =>
    List.replicate y.2 (y.1, { now := 0 })

/-- All four are accepted, at one instant. -/
theorem registration_rate_exceeded :
    ∃ es q, (registrations (.sample []) fourCalls (.new .empty)).Run es q
      ∧ (∀ i, (fourCalls i).id = "123456") ∧ Clocked es ∧ (∀ y ∈ es, y.2.env.now = 0)
      ∧ ∀ i, q.tasks i = .done (.ok .ok) := by
  refine ⟨_, _, Pool.play_run _ fourSchedule, fun _ => rfl, ?_, by decide, ?_⟩
  · unfold Clocked
    decide
  · intro i
    match i with
    | 0 => rfl
    | 1 => rfl
    | 2 => rfl
    | 3 => rfl

end KustDesk
