import KustDesk.Pinning

/-!
# KustDesk — Refusal

A registration that is refused. What it has looked up may stay in memory,
and its attempt has been counted for the IP; nothing else of it remains.
-/

namespace KustDesk

open Async

/-- The state after a refusal of `c`: at most, the id's row is in memory. -/
inductive RegCall.Refused (x : External) (c : RegCall) (s : PeerMap) : PeerMap → Prop
  | same (ipBlocker) : c.Refused x s { s with ipBlocker }
  | cached {v} (ipBlocker earliest since) (hlookup : s.map.lookup c.id = none)
      (hrow : s.db.getPeer c.id = some v) :
      c.Refused x s { (s.enter c.id (PeerMap.ofRow x v earliest since)).2 with ipBlocker }

/-- The entry that a refused call has opened was not created by it: a new peer
passes the check of the owner and the count. -/
theorem Opened.refused {x : External} {c : RegCall} {failed : Bool} {peer : LockPeer}
    {s s₀ s₁ : PeerMap} (hattempted : s.Attempted s₀) (hopen : Opened x c.id s₀ failed peer s₁)
    (hcheck : (s₁.peers peer).checkUuid c.rk c.ip = none
      ∨ ∃ now, countRegPk (s₁.peers peer).regPk now = none) : c.Refused x s s₁ := by
  obtain ⟨ipBlocker, rfl⟩ := hattempted
  cases hopen with
  | found hlookup => exact .same ipBlocker
  | loaded earliest since hlookup hrow => exact .cached ipBlocker earliest since hlookup hrow
  | created earliest now hlookup hrow =>
      rw [PeerMap.enter_peers_self] at hcheck
      exact (Peer.default_passes _ now hcheck).elim

theorem handleRegisterPk_refused (x : External) (c : RegCall) (s : PeerMap) :
    (c.task x).Alone s fun _ r s' => ∀ e, r = .error e →
      (e = .invalidIdFormat ∨ e = .uuidMismatch ∨ e = .tooFrequent) ∧ c.Refused x s s' := by
  apply register_rule
  · rintro - _ ⟨⟩
    exact ⟨.inl rfl, .same s.ipBlocker⟩
  · rintro - - _ ⟨⟩
    exact ⟨.inr (.inl rfl), .same s.ipBlocker⟩
  · rintro es _ - ⟨ipBlocker, rfl⟩ _ ⟨⟩
    exact ⟨.inr (.inr rfl), .same ipBlocker⟩
  · intro _ _ es failed peer s₀ s₁ _ hattempted hopen _
    apply settle_rule
    · rintro es' - hcheck _ ⟨⟩
      exact ⟨.inr (.inl rfl), hopen.refused hattempted (.inl hcheck)⟩
    · rintro es' - hcount _ ⟨⟩
      exact ⟨.inr (.inr rfl), hopen.refused hattempted (.inr hcount)⟩
    · intro es' changed ipChanged regPk ipChanges _ hcheck
      -- from here on the answer is `OK`
      unfold RegCall.finish
      split
      · exact (updatePk_alone x c peer _).bind fun _ _ _ _ _ => nofun
      · exact fun _ => nofun

/-- **Refusal changes nothing.** A registration that is refused, after any
history, leaves the database, the table of address changes and every peer in
memory as they were; of entries, it adds at most the one for the row of its
id. All that is shared beside the peer map is as before as well. -/
theorem refusal_changes_nothing {cfg : Config} {db : Database} {ran : Handled} {s s' : Shared}
    (h : Session (Handler.task cfg) (.start db) ran s) (c : RegCall) (η : Nat → Env)
    {e : RegisterPkResult} (hrefused : ((Handler.registerPk c).task cfg).run η s
      = (some (.registered (.error e)), s')) :
    (e = .invalidIdFormat ∨ e = .uuidMismatch ∨ e = .tooFrequent)
    ∧ s'.pm.db = s.pm.db ∧ s'.pm.ipChanges = s.pm.ipChanges
    ∧ (∀ id peer, s.pm.map.lookup id = some peer →
        s'.pm.map.lookup id = some peer ∧ s'.pm.peers peer = s.pm.peers peer)
    ∧ (∀ id peer, s.pm.map.lookup id = none → s'.pm.map.lookup id = some peer →
        id = c.id ∧ ∃ v earliest since, s.pm.db.getPeer id = some v
          ∧ s'.pm.peers peer = PeerMap.ofRow cfg.x v earliest since)
    ∧ s' = { s with pm := s'.pm } := by
  have hs := Intact.session h (.new db)
  have hrun : ((Handler.registerPk c).task cfg).run η s
      = (((c.task cfg.x).run η s.pm).1.map .registered,
        { s with pm := ((c.task cfg.x).run η s.pm).2 }) :=
    run_liftPm (c.task cfg.x) _ η s
  rw [hrun, Prod.mk.injEq, Option.map_eq_some_iff] at hrefused
  obtain ⟨⟨_, hr, ⟨⟩⟩, rfl⟩ := hrefused
  obtain ⟨he, hpm⟩ := (handleRegisterPk_refused cfg.x c s.pm).run η hr e rfl
  refine ⟨he, ?_⟩
  dsimp only
  generalize ((c.task cfg.x).run η s.pm).2 = pm at hpm
  cases hpm with
  | same ipBlocker =>
      refine ⟨rfl, rfl, fun id peer hpeer => ⟨hpeer, rfl⟩, fun id peer hnone hpeer => ?_, rfl⟩
      cases hnone.symm.trans hpeer
  | @cached v ipBlocker earliest since hlookup hrow =>
      have hother (id : String) (hid : id ≠ c.id) :
          (s.pm.enter c.id (PeerMap.ofRow cfg.x v earliest since)).2.map.lookup id
            = s.pm.map.lookup id :=
        PeerMap.enter_lookup_ne _ _ _ hid
      refine ⟨rfl, rfl, fun id peer hpeer => ⟨?_, ?_⟩, fun id peer hnone hpeer => ?_, rfl⟩
      · have hid : id ≠ c.id := by
          rintro rfl
          cases hlookup.symm.trans hpeer
        exact (hother id hid).trans hpeer
      · have hlt := hs.sound.lt id peer hpeer
        exact PeerMap.enter_peers_of_ne _ c.id _ (Nat.ne_of_lt hlt)
      · by_cases hid : id = c.id
        · subst hid
          have hnew : some s.pm.fresh = some peer :=
            (PeerMap.enter_lookup s.pm c.id
              (PeerMap.ofRow cfg.x v earliest since)).symm.trans hpeer
          cases hnew
          exact ⟨rfl, v, earliest, since, hrow, PeerMap.enter_peers_self _ c.id _⟩
        · cases hnone.symm.trans ((hother id hid).symm.trans hpeer)

/-- Somebody else's registration of the same id. -/
def rivalKey : RegCall := ⟨{ id := "123456", uuid := [9], pk := [8] }, ⟨.v4 2, 50001⟩, false⟩

theorem refusal_changes_nothing_rival :
    (((Handler.registerPk rivalKey).task { x := .sample [] }).run (fun _ => { now := 1 })
        (handled (.registerPk firstKey) (.start .empty))).1
      = some (.registered (.error .uuidMismatch))
    ∧ (((Handler.registerPk rivalKey).task { x := .sample [] }).run (fun _ => { now := 1 })
        (handled (.registerPk firstKey) (.start .empty))).2.pm.db
      = (handled (.registerPk firstKey) (.start .empty)).pm.db := by
  have hrun := Session.call (.registerPk firstKey) (fun _ => { now := 0 })
    (.nil : Session (Handler.task { x := .sample [] }) (.start .empty) [] _)
  have hanswer : (((Handler.registerPk rivalKey).task { x := .sample [] }).run
      (fun _ => { now := 1 }) (handled (.registerPk firstKey) (.start .empty))).1
        = some (.registered (.error .uuidMismatch)) := rfl
  exact ⟨hanswer, (refusal_changes_nothing hrun rivalKey _ (Prod.ext hanswer rfl)).2.1⟩

end KustDesk
