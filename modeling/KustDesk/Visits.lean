import KustDesk.Directory

/-!
# KustDesk — Visits

What a handler other than the registration does to a record: it may load the
row into memory, and a refresh moves the peer to another address. With that
go the answers that are read off a peer.
-/

namespace KustDesk

open Async

/-- The address that a refresh of `id` comes from. -/
def Handler.refreshes (id : String) : Handler → Option SocketAddr
  | .updateAddr id' addr => if id' = id then some addr else none
  | _ => none

inductive Record.Visited (x : External) (refresh : Option SocketAddr) (rec : Record) :
    Record → Prop
  | same : Visited x refresh rec rec
  | loaded {v} (earliest since) (hentry : rec.entry = none) (hrow : rec.row = some v) :
      Visited x refresh rec { rec with entry := some (PeerMap.ofRow x v earliest since) }
  | moved {p addr} (now) (hrefresh : refresh = some addr) (hentry : rec.entry = some p) :
      Visited x refresh rec { rec with entry := some (p.updateAddr addr now).2 }

/-- Every record is visited at most. -/
def Visits (x : External) (refresh : String → Option SocketAddr) (s s' : PeerMap) : Prop :=
  s.Sound → ∀ id, (s.record id).Visited x (refresh id) (s'.record id)

/-- The answer is read off the peer in memory. -/
def Handler.ReadOff (x : External) (s : PeerMap) : Handler → Handler.Answer → Prop
  | .punchHoleRequest _ _ ph _, .punchHole _ (some toAddr) =>
      ∃ p, (s.record ph.id).entry = some p ∧ p.socketAddr = toAddr
  | .getPk rs _ id, .pk bytes => bytes = [] ∨ ∃ sk p, rs.inner.sk = some sk
      ∧ (s.record id).entry = some p ∧ bytes = x.sign ((x.idPk id p.pk).getD []) sk
  | _, _ => True

/-- What a call of a handler comes to, next to its `Outcome`. -/
def Handler.Visits (x : External) (h : Handler) (s : PeerMap) (a : Handler.Answer)
    (s' : PeerMap) : Prop :=
  match h with
  | .registerPk _ => True
  | _ => KustDesk.Visits x (fun id => h.refreshes id) s s' ∧ h.ReadOff x s' a

section
variable (x : External) (refresh : String → Option SocketAddr) (id : String) (s : PeerMap)

theorem visits_same : Visits x refresh s s := fun _ _ => .same

theorem get_visits :
    (PeerMap.get x id).Alone s fun _ o s' =>
      Visits x refresh s s' ∧ ∀ peer, o = some peer → s'.map.lookup id = some peer := by
  refine (get_alone x id s).mono fun es o s' h => ?_
  obtain ⟨failed, ho, -⟩ := h
  cases o with
  | none =>
      obtain ⟨rfl, -⟩ := ho
      exact ⟨visits_same x refresh s', by simp⟩
  | some peer =>
      refine ⟨?_, fun peer' hpeer => Option.some.inj hpeer ▸ ho.2.lookup⟩
      cases ho.2 with
      | found => exact visits_same x refresh s
      | loaded earliest since hlookup hrow =>
          intro hs id'
          rw [PeerMap.record_enter hs]
          by_cases hid : id' = id
          · subst hid
            rw [if_pos rfl]
            exact .loaded earliest since (by simp [PeerMap.record, hlookup]) hrow
          · rw [if_neg hid]
            exact .same

theorem updateAddr_visits (addr : SocketAddr) :
    (updateAddr id addr).Alone s fun _ _ s' =>
      Visits x (fun id' => (Handler.updateAddr id addr).refreshes id') s s' := by
  refine (updateAddr_alone id addr s).mono fun es _ s' h => ?_
  obtain ⟨rfl | ⟨old, now, hlookup, rfl⟩, -⟩ := h
  · exact visits_same x _ s'
  · intro hs id'
    rw [PeerMap.record_set hs hlookup]
    by_cases hid : id' = id
    · subst hid
      rw [if_pos rfl, PeerMap.record_of_lookup hlookup]
      exact .moved now (if_pos rfl) rfl
    · rw [if_neg hid]
      exact .same

theorem getPk_visits (rs : RendezvousServer) (version : String) :
    (getPk x rs.inner.sk version id).Alone s fun _ bytes s' =>
      Visits x refresh s s' ∧ (Handler.getPk rs version id).ReadOff x s' (.pk bytes) := by
  refine getPk_alone x rs.inner.sk version id s (get_visits x refresh id s) ?_ ?_ ?_
  · exact fun _ => ⟨visits_same x refresh s, .inl rfl⟩
  · exact fun _ _ es s' h => ⟨h.1, .inl rfl⟩
  · intro sk' _ hsk es peer s' ev h _
    refine ⟨h.1, .inr ⟨sk', s'.peers peer, hsk, ?_, rfl⟩⟩
    rw [PeerMap.record_of_lookup (h.2 peer rfl)]

end

theorem handlePunchHoleRequest_visits (cfg : Config) (rs : RendezvousServer)
    (addr : SocketAddr) (ph : PunchHoleRequest) (ws : Bool) (s : Shared) :
    (handlePunchHoleRequest cfg rs addr ph ws).Alone s fun _ a s' =>
      Visits cfg.x (fun _ => none) s.pm s'.pm
        ∧ (Handler.punchHoleRequest rs addr ph ws).ReadOff cfg.x s'.pm (.punchHole a.1 a.2) := by
  unfold handlePunchHoleRequest
  split
  · exact ⟨visits_same _ _ _, trivial⟩
  refine Task.alone_look_bind.mpr fun e => ?_
  split
  · exact ⟨visits_same _ _ _, trivial⟩
  refine (liftPm_alone (get_visits cfg.x (fun _ => none) ph.id s.pm)).bind fun es peer s' h => ?_
  obtain ⟨hvisits, hpeer⟩ := h
  cases peer with
  | none => exact ⟨hvisits, trivial⟩
  | some peer =>
      intro e'
      show Task.Alone (if (s'.pm.peers peer).age e'.now ≥ regTimeout then _ else _) s' _
      split
      · exact ⟨hvisits, trivial⟩
      · refine ((punchHoleMessage_aside cfg rs addr ph ws _).alone s').bind
          fun es' msg s'' h' => ?_
        have hread : ∃ p, (s'.pm.record ph.id).entry = some p
            ∧ p.socketAddr = (s'.pm.peers peer).socketAddr := by
          rw [PeerMap.record_of_lookup (hpeer peer rfl)]
          exact ⟨_, rfl, rfl⟩
        show Visits _ _ s.pm s''.pm ∧ ∃ p, (s''.pm.record ph.id).entry = some p ∧ _
        rw [h'.2]
        exact ⟨hvisits, hread⟩

theorem Handler.visits (cfg : Config) (h : Handler) (s : Shared) :
    (h.task cfg).Alone s fun _ a s' => h.Visits cfg.x s.pm a s'.pm := by
  cases h with
  | registerPk c =>
      refine (liftPm_alone (handleRegisterPk_alone cfg.x c s.pm)).bind fun _ _ _ _ => ?_
      exact trivial
  | updateAddr id addr =>
      exact (liftPm_alone (updateAddr_visits cfg.x id s.pm addr)).bind fun _ _ _ h => ⟨h, trivial⟩
  | peersOnlineState peers =>
      have hlooks := (peersOnlineState_looks peers).alone s.pm
      refine (liftPm_alone hlooks).bind fun _ _ s' h => ⟨?_, trivial⟩
      rw [h.1]
      exact visits_same _ _ _
  | punchHoleRequest rs addr ph ws =>
      exact (handlePunchHoleRequest_visits cfg rs addr ph ws s).bind fun _ _ _ h => h
  | getPk rs version id =>
      exact (liftPm_alone (getPk_visits cfg.x _ id s.pm rs version)).bind fun _ _ _ h => h

/-! ## What a call does to a record -/

/-- Outcome and visits of a call. -/
def Handler.Serves (x : External) (h : Handler) (s : PeerMap)
    (es : List (Event Env PmOp PeerMap)) (a : Handler.Answer) (s' : PeerMap) : Prop :=
  h.Outcome x s es a s' ∧ h.Visits x s a s'

theorem Handler.serves (cfg : Config) (h : Handler) (s : Shared) :
    (h.task cfg).NoAbort ∧ (h.task cfg).Alone s fun es a s' =>
      h.Serves cfg.x s.pm (es.filterMap pmEvent) a s'.pm := by
  obtain ⟨hreturns, houtcome⟩ := Handler.returns cfg h s
  exact ⟨hreturns, houtcome.and (h.visits cfg s)⟩

/-- A registration of the id, or a visit. -/
inductive Record.Served (x : External) (h : Handler) (a : Handler.Answer) (id : String)
    (rec rec' : Record) : Prop
  | registered {c failed w r} (hcall : h = .registerPk c) (hid : c.id = id)
      (ha : a = .registered r) (hreg : rec.Registered x c failed w r rec')
  | visited (hother : ∀ c, h = .registerPk c → c.id ≠ id)
      (hvisit : rec.Visited x (h.refreshes id) rec')

theorem Handler.Serves.served {x : External} {h : Handler} {s s' : PeerMap}
    {es : List (Event Env PmOp PeerMap)} {a : Handler.Answer} (hcall : h.Serves x s es a s')
    (hs : Intact s) : Intact s' ∧ ∀ id, (s.record id).Served x h a id (s'.record id) := by
  refine ⟨(hcall.1.handled hs).1, fun id => ?_⟩
  have hvisited (hvisits : KustDesk.Visits x (fun id => h.refreshes id) s s')
      (hother : ∀ c, h ≠ .registerPk c) : (s.record id).Served x h a id (s'.record id) :=
    .visited (fun c hc => (hother c hc).elim) (hvisits hs.sound id)
  cases h with
  | registerPk c =>
      obtain ⟨⟨r, rfl, failed, w, hreg, -⟩, -⟩ := hcall
      obtain ⟨-, hreg', hothers⟩ := hreg.record hs.sound (hs.linked c.id)
      by_cases hid : c.id = id
      · subst hid
        exact .registered rfl rfl rfl hreg'
      · rw [hothers id (Ne.symm hid)]
        refine .visited ?_ .same
        rintro _ ⟨⟩
        exact hid
  | _ => exact hvisited hcall.2.1 nofun

end KustDesk
