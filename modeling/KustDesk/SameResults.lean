import KustDesk.SameForm

/-!
# KustDesk — SameResults

Where the address of a call meets its other form, and what two sessions answer
alike as long as it does so in neither of them.
-/

namespace KustDesk

open Async

/-! ## The calls of the two sessions -/

/-- The call with its source address rewritten. -/
inductive Handler.Rewritten : Handler → Handler → Prop
  | registerPk (c : RegCall) {addr' : SocketAddr} (h : c.addr.Rewritten addr') :
      Rewritten (.registerPk c) (.registerPk { c with addr := addr' })
  | updateAddr (id : String) {addr addr' : SocketAddr} (h : addr.Rewritten addr') :
      Rewritten (.updateAddr id addr) (.updateAddr id addr')
  | peersOnlineState (peers : List String) :
      Rewritten (.peersOnlineState peers) (.peersOnlineState peers)
  | punchHoleRequest (rs : RendezvousServer) {addr addr' : SocketAddr} (ph : PunchHoleRequest)
      (ws : Bool) (h : addr.Rewritten addr') :
      Rewritten (.punchHoleRequest rs addr ph ws) (.punchHoleRequest rs addr' ph ws)
  | getPk (rs : RendezvousServer) (version id : String) :
      Rewritten (.getPk rs version id) (.getPk rs version id)

/-- The source address of a call. -/
def Handler.source : Handler → Option IpAddr
  | .registerPk c => some c.addr.ip
  | .updateAddr _ addr => some addr.ip
  | .punchHoleRequest _ addr _ _ => some addr.ip
  | .peersOnlineState _ | .getPk _ _ _ => none

/-- What the server remembers of addresses, as it is compared with one. -/
inductive Remembered where
  /-- the keys of `IP_BLOCKER` -/
  | keys (m : IpBlockMap)
  /-- `info.ip` of a peer -/
  | text (ip : String)
  /-- the address of `socket_addr` of a peer -/
  | addr (ip : IpAddr)

namespace Remembered

/-- The address itself is remembered. -/
def Holds : Remembered → IpAddr → Prop
  | .keys m, a => m.lookup a.toString ≠ none
  | .text ip, a => ip = a.toString
  | .addr ip, a => ip = a

/-- Its other form is. -/
def Meets : Remembered → IpAddr → Prop
  | .keys m, a => m.Meets a
  | .text ip, a => a.OtherText ip
  | .addr ip, a => ip ∈ a.other

instance : (r : Remembered) → (a : IpAddr) → Decidable (r.Holds a)
  | .keys m, a => inferInstanceAs (Decidable (m.lookup a.toString ≠ none))
  | .text ip, a => inferInstanceAs (Decidable (ip = a.toString))
  | .addr ip, a => inferInstanceAs (Decidable (ip = a))

instance : (r : Remembered) → (a : IpAddr) → Decidable (r.Meets a)
  | .keys m, a => inferInstanceAs (Decidable (m.Meets a))
  | .text ip, a => inferInstanceAs (Decidable (a.OtherText ip))
  | .addr ip, a => inferInstanceAs (Decidable (ip ∈ a.other))

end Remembered

/-- What `update_addr` compares with. -/
def Peer.remembered (p : Peer) : Remembered :=
  if p.socketAddr.port ≠ 0 then .addr p.socketAddr.ip else .text p.info.ip

/-- What a step compares the source address of its call with. -/
def Handler.compares (h : Handler) (ev : Event Env PmOp PeerMap) : Option Remembered :=
  match h, ev.op with
  | .registerPk _, .ipBlocker => some (.keys ev.pre.ipBlocker)
  | .registerPk c, .checkUuid peer =>
      if (ev.pre.peers peer).uuid = c.rk.uuid then some (.text (ev.pre.peers peer).info.ip)
      else none
  | .updateAddr _ _, .writeAddr _ peer _ =>
      if (ev.pre.peers peer).pk = [] then none else some (ev.pre.peers peer).remembered
  | .punchHoleRequest rs addr _ ws, .readPunch _ peer =>
      if (ev.pre.peers peer).age ev.env.now < regTimeout ∧ ws = false
          ∧ ¬ (rs.isLan (ev.pre.peers peer).socketAddr ∧ rs.isLan addr) then
        some (.addr (ev.pre.peers peer).socketAddr.ip)
      else none
  | _, _ => none

/-- In this step the source address of the call meets its other form. -/
def Handler.Meets (h : Handler) (ev : Event Env PmOp PeerMap) : Prop :=
  ∃ a ∈ h.source, ∃ r ∈ h.compares ev, r.Meets a

/-- In this step `update_addr` lets a loopback address pass for another one. -/
def Handler.Loopback (h : Handler) (ev : Event Env PmOp PeerMap) : Prop :=
  match h with
  | .updateAddr _ addr => addr.ip.isLoopback = true ∧ ∃ r ∈ h.compares ev, ¬ r.Holds addr.ip
  | _ => False

instance (h : Handler) (ev : Event Env PmOp PeerMap) : Decidable (h.Meets ev) :=
  inferInstanceAs (Decidable (∃ a ∈ h.source, ∃ r ∈ h.compares ev, r.Meets a))

/-- Two steps at the same place, of a call and the one it is rewritten to: the
source address meets its other form in neither of them, or in both as the same
address, and a loopback address that passes for another one is not rewritten. -/
structure Handler.InStep (h h' : Handler) (ev ev' : Event Env PmOp PeerMap) : Prop where
  meets : KustDesk.InStep h h' (h.Meets ev) (h'.Meets ev')
  loopback : h.Loopback ev → h' = h

/-- The decision of `check_ip_blocker`, in the step of a registration that
makes it. -/
def Handler.decision (h : Handler) (ev : Event Env PmOp PeerMap) : Option Bool :=
  match h, ev.op with
  | .registerPk c, .ipBlocker => some (ev.pre.ipBlocker.check ev.env.now c.ip c.id).1
  | _, _ => none

/-! ## Registrations -/

theorem IpBlockMap.Rewritten.check {m m' : IpBlockMap} {a a' : IpAddr} (h : m.Rewritten m')
    (ha : a.Rewritten a') (hstep : InStep a a' (m.Meets a) (m'.Meets a')) (now : Instant)
    (id : String) :
    (m'.check now a'.toString id).1 = (m.check now a.toString id).1
      ∧ (m.check now a.toString id).2.Rewritten (m'.check now a'.toString id).2 := by
  unfold IpBlockMap.check
  rw [h.lookup_eq ha hstep]
  cases m.lookup a.toString with
  | none => exact ⟨rfl, h.insert ha hstep _⟩
  | some entry =>
      obtain ⟨⟨n, last⟩, ids, since⟩ := entry
      dsimp only
      split
      · exact ⟨rfl, h⟩
      · split
        · exact ⟨rfl, h.insert ha hstep _⟩
        · split
          · exact ⟨rfl, h.insert ha hstep _⟩
          · exact ⟨rfl, h.insert ha hstep _⟩

theorem Peer.Rewritten.checkUuid {p p' : Peer} {a a' : IpAddr} {rk : RegisterPk}
    (h : p.Rewritten p') (ha : a.Rewritten a')
    (hforms : p.uuid = rk.uuid → (a.OtherText p.info.ip ↔ a'.OtherText p'.info.ip)) :
    p'.checkUuid rk a'.toString = p.checkUuid rk a.toString := by
  unfold Peer.checkUuid
  rw [h.uuid, h.pk]
  by_cases huuid : p.uuid = rk.uuid
  · have hip := IpAddr.Rewritten.toString_eq_iff h.info ha (hforms huuid)
    simp only [ne_eq, hip]
  · simp only [huuid, if_false]

/-- What two calls owe each other: the decisions of `check_ip_blocker`. -/
def Handler.SameDecision (h h' : Handler) (ev ev' : Event Env PmOp PeerMap) : Prop :=
  h'.decision ev' = h.decision ev

theorem Handler.sameDecision_of_ne {h h' : Handler} (ev ev' : Event Env PmOp PeerMap)
    (hev : ev.op ≠ .ipBlocker) (hev' : ev'.op ≠ .ipBlocker) : h.SameDecision h' ev ev' := by
  have hnone {h : Handler} {ev : Event Env PmOp PeerMap} (hev : ev.op ≠ .ipBlocker) :
      h.decision ev = none := by
    unfold Handler.decision
    split
    · contradiction
    · rfl
  rw [SameDecision, hnone hev, hnone hev']

section registration
variable (x : External) {c : RegCall} {addr' : SocketAddr} {s s' : PeerMap}

/-- Two registrations from different forms of an address, in step. -/
def RegCall.Twin {α : Type} (c : RegCall) (addr' : SocketAddr) (t : PmTask α) (s : PeerMap)
    (t' : PmTask α) (s' : PeerMap) : Prop :=
  Task.Twin (Handler.InStep (.registerPk c) (.registerPk { c with addr := addr' }))
    (Handler.SameDecision (.registerPk c) (.registerPk { c with addr := addr' }))
    (fun a u a' u' => a' = a ∧ u.Rewritten u') t s t' s'

theorem RegCall.finish_twin (haddr : c.addr.Rewritten addr') (hs : s.Rewritten s')
    (hknown : s.map.lookup c.id ≠ none) (peer : LockPeer) (changed : Bool) :
    c.Twin addr' (c.finish x peer changed) s
      (RegCall.finish x { c with addr := addr' } peer changed) s' := by
  unfold RegCall.finish
  show c.Twin addr' (if changed || c.ws then _ else _) s (if changed || c.ws then _ else _) s'
  split
  · refine Task.Twin.bind (PeerMap.updatePk_twin Handler.sameDecision_of_ne x peer _ _ haddr hs
      hknown) ?_
    rintro _ u r u' ⟨-, hu⟩
    exact .done ⟨rfl, hu⟩
  · exact .done ⟨rfl, hs⟩

theorem RegCall.note_twin (haddr : c.addr.Rewritten addr') (hs : s.Rewritten s')
    (hknown : s.map.lookup c.id ≠ none) (peer : LockPeer) (reqPk : Nat × Instant)
    (changed ipChanged : Bool) :
    c.Twin addr' (c.note x peer reqPk changed ipChanged) s
      (RegCall.note x { c with addr := addr' } peer reqPk changed ipChanged) s' := by
  have hpeer : ({ s.peers peer with regPk := reqPk } : Peer).Rewritten
      { s'.peers peer with regPk := reqPk } := by
    refine ⟨(hs.peers peer).socketAddr, (hs.peers peer).info, ?_⟩
    rw [(hs.peers peer).rest]
  refine .act_bind (fun _ _ => Handler.sameDecision_of_ne _ _ nofun nofun) fun e _ => ?_
  have hs₁ := hs.set peer hpeer
  cases ipChanged with
  | false => exact finish_twin x haddr hs₁ hknown peer changed
  | true =>
      refine .act_bind (fun _ _ => Handler.sameDecision_of_ne _ _ nofun nofun) fun e _ => ?_
      show c.Twin addr' (c.finish x peer changed) _ _ _
      exact finish_twin x haddr (hs₁.changes _ _) hknown peer changed

theorem RegCall.settle_twin (haddr : c.addr.Rewritten addr') (hs : s.Rewritten s')
    (hknown : s.map.lookup c.id ≠ none) (peer : LockPeer) :
    c.Twin addr' (c.settle x peer) s (RegCall.settle x { c with addr := addr' } peer) s' := by
  refine .look_bind (fun _ _ => Handler.sameDecision_of_ne _ _ nofun nofun) fun e hgiven => ?_
  have hboth (huuid : (s.peers peer).uuid = c.rk.uuid) :
      c.addr.ip.OtherText (s.peers peer).info.ip ↔ addr'.ip.OtherText (s'.peers peer).info.ip := by
    have huuid' := (hs.peers peer).uuid.trans huuid
    simpa [Handler.Meets, Handler.source, Handler.compares, huuid, huuid', Remembered.Meets]
      using hgiven.meets.both
  have hcheck : (s'.peers peer).checkUuid c.rk (RegCall.ip { c with addr := addr' })
      = (s.peers peer).checkUuid c.rk c.ip := by
    exact (hs.peers peer).checkUuid haddr.ip hboth
  dsimp only
  rw [hcheck]
  cases (s.peers peer).checkUuid c.rk c.ip with
  | none => exact .done ⟨rfl, hs⟩
  | some changed =>
      refine .look_bind (fun _ _ => Handler.sameDecision_of_ne _ _ nofun nofun) fun e _ => ?_
      rw [(hs.peers peer).regPk]
      cases countRegPk (s.peers peer).regPk e.now with
      | none => exact .done ⟨rfl, hs⟩
      | some reqPk => exact note_twin x haddr hs hknown peer reqPk _ _

theorem RegCall.checkIpBlocker_twin (haddr : c.addr.Rewritten addr') (hs : s.Rewritten s') :
    c.Twin addr' (checkIpBlocker c.ip c.id) s
      (checkIpBlocker (RegCall.ip { c with addr := addr' }) c.id) s' := by
  have hcheck {e : Env} {u u' : PeerMap}
      (hgiven : Handler.InStep (.registerPk c) (.registerPk { c with addr := addr' })
        ⟨.ipBlocker, e, s, u⟩ ⟨.ipBlocker, e, s', u'⟩) := by
    obtain ⟨hboth, hform⟩ := hgiven.meets
    simp only [Handler.Meets, Handler.source, Handler.compares, Option.mem_some_iff,
      exists_eq_left', Remembered.Meets] at hboth hform
    refine hs.ipBlocker.check haddr.ip ⟨hboth, fun hmeets => ?_⟩ e.now c.id
    exact congrArg (fun c => c.addr.ip) (Handler.registerPk.inj (hform hmeets))
  refine .act (fun e hgiven => congrArg some (hcheck hgiven).1) fun e hgiven => ?_
  exact ⟨(hcheck hgiven).1, hs.blocker (hcheck hgiven).2⟩

theorem handleRegisterPk_twin (haddr : c.addr.Rewritten addr') (hs : s.Rewritten s') :
    c.Twin addr' (c.task x) s (RegCall.task x { c with addr := addr' }) s' := by
  rw [RegCall.task_eq, RegCall.task_eq]
  show c.Twin addr' (if c.rk.uuid = [] || c.rk.pk = [] then _
      else if c.id.utf8ByteSize < 6 then _ else _) s
    (if c.rk.uuid = [] || c.rk.pk = [] then _ else if c.id.utf8ByteSize < 6 then _ else _) s'
  split
  · exact .done ⟨rfl, hs⟩
  split
  · exact .done ⟨rfl, hs⟩
  refine Task.Twin.bind (RegCall.checkIpBlocker_twin haddr hs) ?_
  rintro _ u allowed u' ⟨rfl, hu⟩
  cases allowed with
  | false => exact .done ⟨rfl, hu⟩
  | true =>
      refine Task.Twin.bind (PeerMap.getOr_twin Handler.sameDecision_of_ne x c.id hu) ?_
      rintro _ w peer w' ⟨rfl, hw, hknown⟩
      exact RegCall.settle_twin x haddr hw hknown peer

end registration

/-! ## The refresh of an address -/

theorem Peer.updateAddr_fst (p : Peer) (addr : SocketAddr) (now : Instant) :
    (p.updateAddr addr now).1 = true
      ↔ p.pk = [] ∨ ¬ p.remembered.Holds addr.ip ∧ addr.ip.isLoopback = false := by
  have hfst : (p.updateAddr addr now).1 = (decide (p.pk = [])
      || (if p.socketAddr.port ≠ 0 then decide (addr.ip ≠ p.socketAddr.ip)
        else decide (addr.ip.toString ≠ p.info.ip)) && !addr.ip.isLoopback) := by
    have hif (b : Bool) (q : Peer) : (if b then (true, p) else (false, q)).1 = b := by
      cases b <;> rfl
    exact hif _ _
  rw [hfst, remembered]
  by_cases hport : p.socketAddr.port = 0
  · simp [hport, Remembered.Holds, eq_comm (a := addr.ip.toString)]
  · simp [hport, Remembered.Holds, eq_comm (a := addr.ip)]

section refresh
variable {p p' : Peer} {addr addr' : SocketAddr}

theorem Peer.Rewritten.holds_iff (h : p.Rewritten p') (haddr : addr.Rewritten addr')
    (hforms : p.remembered.Meets addr.ip ↔ p'.remembered.Meets addr'.ip) :
    p.remembered.Holds addr.ip ↔ p'.remembered.Holds addr'.ip := by
  unfold remembered at hforms ⊢
  rw [h.socketAddr.port] at hforms ⊢
  by_cases hport : p.socketAddr.port ≠ 0
  · rw [if_pos hport, if_pos hport] at hforms ⊢
    exact h.socketAddr.ip.eq_iff haddr.ip hforms
  · rw [if_neg hport, if_neg hport] at hforms ⊢
    exact IpAddr.Rewritten.toString_eq_iff h.info haddr.ip hforms

theorem Peer.Rewritten.updateAddr (h : p.Rewritten p') (haddr : addr.Rewritten addr')
    (hforms : p.pk ≠ [] → (p.remembered.Meets addr.ip ↔ p'.remembered.Meets addr'.ip))
    (hloopback : p.pk ≠ [] → addr.ip.isLoopback = true → ¬ p.remembered.Holds addr.ip →
      addr' = addr)
    (now : Instant) :
    (p'.updateAddr addr' now).1 = (p.updateAddr addr now).1
      ∧ (p.updateAddr addr now).2.Rewritten (p'.updateAddr addr' now).2 := by
  have hfst : (p'.updateAddr addr' now).1 = (p.updateAddr addr now).1 := by
    rw [Bool.eq_iff_iff, updateAddr_fst, updateAddr_fst, h.pk]
    by_cases hpk : p.pk = []
    · simp [hpk]
    · rw [← h.holds_iff haddr (hforms hpk)]
      obtain hsame | ⟨c, hc, hmapped⟩ := haddr.ip.eq_or_mapped
      · rw [hsame]
      · -- the mapped form is no loopback address
        rw [hmapped, IpAddr.isLoopback_mapped]
        cases hloop : addr.ip.isLoopback with
        | false => exact Iff.rfl
        | true =>
            have hholds : p.remembered.Holds addr.ip := by
              by_contra hother
              rw [hloopback hpk hloop hother, hc] at hmapped
              cases hmapped
            simp [hpk, hholds]
  refine ⟨hfst, ?_⟩
  rw [updateAddr_snd, updateAddr_snd, hfst]
  split
  · exact h
  · refine ⟨haddr, h.info, ?_⟩
    rw [h.rest]

theorem updateAddr_twin (id : String) {s s' : PeerMap} (haddr : addr.Rewritten addr')
    (hs : s.Rewritten s') :
    Task.Twin (Handler.InStep (.updateAddr id addr) (.updateAddr id addr'))
      (Handler.SameDecision (.updateAddr id addr) (.updateAddr id addr'))
      (fun b u b' u' => b' = b ∧ u.Rewritten u')
      (updateAddr id addr) s (updateAddr id addr') s' := by
  refine .look_bind (fun _ _ => Handler.sameDecision_of_ne _ _ nofun nofun) fun e _ => ?_
  rw [hs.map]
  cases s.map.lookup id with
  | none => exact .done ⟨rfl, hs⟩
  | some old =>
      refine .act (fun _ _ => Handler.sameDecision_of_ne _ _ nofun nofun) fun e hgiven => ?_
      have hcompares (hpk : (s.peers old).pk ≠ []) :
          ((s.peers old).remembered.Meets addr.ip ↔ (s'.peers old).remembered.Meets addr'.ip)
          ∧ (addr.ip.isLoopback = true → ¬ (s.peers old).remembered.Holds addr.ip →
              addr' = addr) := by
        have hpk' := (hs.peers old).pk.trans_ne hpk
        constructor
        · simpa [Handler.Meets, Handler.source, Handler.compares, hpk, hpk'] using hgiven.meets.both
        · intro hloop hother
          refine (Handler.updateAddr.inj (hgiven.loopback ⟨hloop, _, if_neg hpk, hother⟩)).2
      obtain ⟨hrequest, hpeer⟩ := (hs.peers old).updateAddr haddr (fun hpk => (hcompares hpk).1)
        (fun hpk => (hcompares hpk).2) e.now
      exact ⟨hrequest, hs.set old hpeer⟩

end refresh

/-! ## The lookups -/

section lookups
variable {given owed : Event Env PmOp PeerMap → Event Env PmOp PeerMap → Prop}
  (howed : ∀ ev ev', ev.op ≠ .ipBlocker → ev'.op ≠ .ipBlocker → owed ev ev')
  {s s' : PeerMap}

include howed

theorem peersOnlineLoop_twin (peers : List String) (i : Nat) (states : Bytes)
    (hs : s.Rewritten s') :
    Task.Twin given owed (fun b u b' u' => b' = b ∧ u.Rewritten u')
      (peersOnlineLoop i states peers) s (peersOnlineLoop i states peers) s' := by
  induction peers generalizing i states with
  | nil => exact .done ⟨rfl, hs⟩
  | cons peerId rest ih =>
      refine .look_bind (fun _ _ => howed _ _ nofun nofun) fun e _ => ?_
      rw [hs.map]
      cases s.map.lookup peerId with
      | none => exact ih _ _
      | some peer =>
          refine .look_bind (fun _ _ => howed _ _ nofun nofun) fun e _ => ?_
          rw [(hs.peers peer).age]
          split
          · refine Task.Twin.bind (R := fun b u b' u' => b' = b ∧ u = s ∧ u' = s')
              (.unwrap fun _ => ⟨rfl, rfl, rfl⟩) ?_
            rintro _ _ b _ ⟨rfl, rfl, rfl⟩
            exact ih _ _
          · exact ih _ _

theorem getPk_twin (x : External) (sk : Option Bytes) (version id : String)
    (hs : s.Rewritten s') :
    Task.Twin given owed (fun b u b' u' => b' = b ∧ u.Rewritten u')
      (getPk x sk version id) s (getPk x sk version id) s' := by
  unfold getPk
  split
  · exact .done ⟨rfl, hs⟩
  · refine (PeerMap.get_twin howed x id hs).bind ?_
    rintro _ u peer u' ⟨rfl, hu, -⟩
    cases peer with
    | none => exact .done ⟨rfl, hu⟩
    | some peer =>
        refine .look_bind (fun _ _ => howed _ _ nofun nofun) fun e _ => ?_
        rw [(hu.peers peer).pk]
        cases sk with
        | none => exact .abort
        | some sk => exact .done ⟨rfl, hu⟩

end lookups

/-! ## Punch-hole requests -/

/-- The message without the address of the requester. -/
def Union.withoutAddr : Union → Union
  | .fetchLocalAddr m => .fetchLocalAddr { m with socketAddr := [] }
  | .punchHole m => .punchHole { m with socketAddr := [] }
  | msg => msg

/-- The same answer: of a punch-hole request the kind of the message, its NAT
type and its relay server, and whom it goes to. -/
def Handler.Answer.Same : Handler.Answer → Handler.Answer → Prop
  | .punchHole msg toAddr, .punchHole msg' toAddr' =>
      msg'.withoutAddr = msg.withoutAddr ∧ Option.Rel SocketAddr.Rewritten toAddr toAddr'
  | a, a' => a' = a

/-- What is shared in the two sessions, as far as the handlers look at it. -/
structure Shared.Rewritten (s s' : Shared) : Prop where
  pm : s.pm.Rewritten s'.pm
  rotationRelayServer : s'.rotationRelayServer = s.rotationRelayServer
  alwaysUseRelay : s'.alwaysUseRelay = s.alwaysUseRelay
  mustLogin : s'.mustLogin = s.mustLogin

theorem Shared.Rewritten.refl (s : Shared) : s.Rewritten s := ⟨.refl _, rfl, rfl, rfl⟩

namespace Handler

/-- The steps of the server at the same place, likewise. -/
def PmInStep (h h' : Handler) (ev ev' : Event Env Op Shared) : Prop :=
  ∀ pe ∈ pmEvent ev, ∀ pe' ∈ pmEvent ev', h.InStep h' pe pe'

/-- The decision of `check_ip_blocker` in a step of the server. -/
def blockerDecision (h : Handler) (ev : Event Env Op Shared) : Option Bool :=
  (pmEvent ev).bind h.decision

def SameBlockerDecision (h h' : Handler) (ev ev' : Event Env Op Shared) : Prop :=
  h'.blockerDecision ev' = h.blockerDecision ev

theorem sameBlockerDecision_of_aside {h h' : Handler} {ev ev' : Event Env Op Shared}
    (hev : pmEvent ev = none) (hev' : pmEvent ev' = none) : h.SameBlockerDecision h' ev ev' := by
  rw [SameBlockerDecision, blockerDecision, blockerDecision, hev, hev']
  rfl

end Handler

section server
variable {h h' : Handler} {s s' : Shared}

theorem liftPm_twin {α α' : Type} {Q : α → α' → Prop} {t : PmTask α} {t' : PmTask α'}
    (hs : s.Rewritten s')
    (ht : Task.Twin (h.InStep h') (h.SameDecision h') (fun a u a' u' => Q a a' ∧ u.Rewritten u')
      t s.pm t' s'.pm) :
    Task.Twin (h.PmInStep h') (h.SameBlockerDecision h') (fun a u a' u' => Q a a' ∧ u.Rewritten u')
      (liftPm t) s (liftPm t') s' := by
  show Task.Twin _ _ _ (t.lift Shared.pmPart Op.pm) s (t'.lift Shared.pmPart Op.pm) s'
  refine (Task.Twin.lift (fun _ => rfl) (fun _ _ _ => rfl)
    (fun _ _ _ _ _ _ _ hstep => hstep _ rfl _ rfl) (fun _ _ _ _ _ _ _ howed => howed) ht).mono ?_
  rintro a u a' u' ⟨x, x', rfl, rfl, hQ, hx⟩
  exact ⟨hQ, hx, hs.rotationRelayServer, hs.alwaysUseRelay, hs.mustLogin⟩

theorem getRelayServer_twin (rs : RendezvousServer) (hs : s.Rewritten s') :
    Task.Twin (h.PmInStep h') (h.SameBlockerDecision h') (fun r u r' u' => r' = r ∧ u.Rewritten u')
      rs.getRelayServer s rs.getRelayServer s' := by
  unfold RendezvousServer.getRelayServer
  split
  · exact .done ⟨rfl, hs⟩
  · split
    · exact .unwrap fun _ => ⟨rfl, hs⟩
    · refine .act_bind (fun _ _ => Handler.sameBlockerDecision_of_aside rfl rfl) fun e _ => ?_
      rw [hs.rotationRelayServer]
      exact .unwrap fun _ => ⟨rfl, hs.pm, rfl, hs.alwaysUseRelay, hs.mustLogin⟩

theorem RendezvousServer.isLan_rewritten (rs : RendezvousServer) {a a' : SocketAddr}
    (ha : a.Rewritten a') : rs.isLan a' = rs.isLan a := by
  have htoIpv4 (c : BitVec 32) : toIpv4 (toIpv6Mapped c) = some c := by
    have hmapped := toIpv4Mapped_toIpv6Mapped c
    unfold toIpv4Mapped at hmapped
    unfold toIpv4
    split at hmapped
    · rename_i hhigh
      rw [if_pos (.inl hhigh), hmapped]
    · cases hmapped
  unfold RendezvousServer.isLan
  obtain hsame | ⟨c, hc, hmapped⟩ := ha.ip.eq_or_mapped
  · rw [hsame]
  · simp only [hc, hmapped, htoIpv4]

theorem sameIp_eq (a b : SocketAddr) : sameIp a b = decide (a.ip = b.ip) := by
  unfold sameIp
  cases a.ip <;> cases b.ip <;> simp

section punchHole
variable {addr addr' peerAddr peerAddr' : SocketAddr}

theorem punchHoleMessage_twin (cfg : Config) (rs : RendezvousServer) (ph : PunchHoleRequest)
    (ws : Bool) (haddr : addr.Rewritten addr') (hpeer : peerAddr.Rewritten peerAddr')
    (hforms : ws = false → ¬ (rs.isLan peerAddr ∧ rs.isLan addr) →
      (addr.ip.other = some peerAddr.ip ↔ addr'.ip.other = some peerAddr'.ip))
    (hs : s.Rewritten s') :
    Task.Twin (h.PmInStep h') (h.SameBlockerDecision h')
      (fun msg u msg' u' => msg'.withoutAddr = msg.withoutAddr ∧ u.Rewritten u')
      (punchHoleMessage cfg rs addr ph ws peerAddr) s
      (punchHoleMessage cfg rs addr' ph ws peerAddr') s' := by
  have hintranet : (!ws && (rs.isLan peerAddr' && rs.isLan addr' || sameIp peerAddr' addr'))
      = (!ws && (rs.isLan peerAddr && rs.isLan addr || sameIp peerAddr addr)) := by
    rw [rs.isLan_rewritten hpeer, rs.isLan_rewritten haddr, sameIp_eq, sameIp_eq]
    cases ws with
    | true => rfl
    | false =>
        by_cases hlan : rs.isLan peerAddr ∧ rs.isLan addr
        · simp [hlan.1, hlan.2]
        · simp only [hpeer.ip.eq_iff haddr.ip (hforms rfl hlan)]
  refine (getRelayServer_twin rs hs).bind ?_
  rintro _ u relayServer u' ⟨rfl, hu⟩
  refine .look_bind (fun _ _ => Handler.sameBlockerDecision_of_aside rfl rfl) fun e _ => ?_
  rw [hu.alwaysUseRelay]
  dsimp only
  rw [hintranet, rs.isLan_rewritten hpeer, rs.isLan_rewritten haddr]
  split
  · exact .done ⟨rfl, hu⟩
  · exact .done ⟨rfl, hu⟩

/-- The address of the peer is read where it is compared with the source
address. -/
theorem readPunch_twin (rs : RendezvousServer) (ph : PunchHoleRequest) (ws : Bool)
    (haddr : addr.Rewritten addr') (peer : LockPeer) {s s' : PeerMap} (hs : s.Rewritten s') :
    Task.Twin
      (Handler.InStep (.punchHoleRequest rs addr ph ws) (.punchHoleRequest rs addr' ph ws))
      (Handler.SameDecision (.punchHoleRequest rs addr ph ws) (.punchHoleRequest rs addr' ph ws))
      (fun r u r' u' => (r'.1 = r.1 ∧ r.2.Rewritten r'.2 ∧ (r.1 < regTimeout → ws = false →
        ¬ (rs.isLan r.2 ∧ rs.isLan addr) →
        (addr.ip.other = some r.2.ip ↔ addr'.ip.other = some r'.2.ip))) ∧ u.Rewritten u')
      (Task.look (.readPunch ph.id peer) fun e s =>
        ((s.peers peer).age e.now, (s.peers peer).socketAddr)) s
      (Task.look (.readPunch ph.id peer) fun e s =>
        ((s.peers peer).age e.now, (s.peers peer).socketAddr)) s' := by
  have hp := hs.peers peer
  refine .act (fun _ _ => Handler.sameDecision_of_ne _ _ nofun nofun) fun e hgiven => ?_
  refine ⟨⟨hp.age e.now, hp.socketAddr, fun hage hws hlan => ?_⟩, hs⟩
  have hage' := lt_of_eq_of_lt (hp.age e.now) hage
  have hlan' : ¬ (rs.isLan (s'.peers peer).socketAddr ∧ rs.isLan addr') := by
    rw [rs.isLan_rewritten hp.socketAddr, rs.isLan_rewritten haddr]
    exact hlan
  have hboth := hgiven.meets.both
  simp only [Handler.Meets, Handler.source, Handler.compares, Option.mem_some_iff,
    exists_eq_left'] at hboth
  rw [if_pos ⟨hage, hws, hlan⟩, if_pos ⟨hage', hws, hlan'⟩] at hboth
  simpa [Remembered.Meets] using hboth

theorem handlePunchHoleRequest_twin (cfg : Config) (rs : RendezvousServer) (ph : PunchHoleRequest)
    (ws : Bool) (haddr : addr.Rewritten addr') (hs : s.Rewritten s') :
    Task.Twin (Handler.PmInStep (.punchHoleRequest rs addr ph ws) (.punchHoleRequest rs addr' ph ws))
      (Handler.SameBlockerDecision (.punchHoleRequest rs addr ph ws)
        (.punchHoleRequest rs addr' ph ws))
      (fun r u r' u' => (r'.1.withoutAddr = r.1.withoutAddr
        ∧ Option.Rel SocketAddr.Rewritten r.2 r'.2) ∧ u.Rewritten u')
      (handlePunchHoleRequest cfg rs addr ph ws) s
      (handlePunchHoleRequest cfg rs addr' ph ws) s' := by
  unfold handlePunchHoleRequest
  split
  · exact .done ⟨⟨rfl, .none⟩, hs⟩
  refine .look_bind (fun _ _ => Handler.sameBlockerDecision_of_aside rfl rfl) fun e _ => ?_
  rw [hs.mustLogin]
  split
  · exact .done ⟨⟨rfl, .none⟩, hs⟩
  refine Task.Twin.bind (liftPm_twin (Q := fun peer peer' => peer' = peer) hs
    ((PeerMap.get_twin Handler.sameDecision_of_ne cfg.x ph.id hs.pm).mono
      fun _ _ _ _ h => ⟨h.1, h.2.1⟩)) ?_
  rintro _ u peer u' ⟨rfl, hu⟩
  cases peer with
  | none => exact .done ⟨⟨rfl, .none⟩, hu⟩
  | some peer =>
      refine Task.Twin.bind (liftPm_twin hu (readPunch_twin rs ph ws haddr peer hu.pm)) ?_
      rintro ⟨elapsed, peerAddr⟩ w ⟨_, peerAddr'⟩ w' ⟨⟨rfl, hpeer, hforms⟩, hw⟩
      dsimp only
      split
      · exact .done ⟨⟨rfl, .none⟩, hw⟩
      · rename_i honline
        refine (punchHoleMessage_twin cfg rs ph ws haddr hpeer (hforms (not_le.mp honline))
          hw).bind ?_
        rintro msg v msg' v' ⟨hmsg, hv⟩
        exact .done ⟨⟨hmsg, .some hpeer⟩, hv⟩

end punchHole

/-! ## The sessions -/

theorem Handler.twin (cfg : Config) (hcalls : h.Rewritten h') (hs : s.Rewritten s') :
    Task.Twin (h.PmInStep h') (h.SameBlockerDecision h')
      (fun a u a' u' => a.Same a' ∧ u.Rewritten u') (h.task cfg) s (h'.task cfg) s' := by
  cases hcalls with
  | registerPk c haddr =>
      refine Task.Twin.bind (liftPm_twin hs (handleRegisterPk_twin cfg.x haddr hs.pm)) ?_
      rintro _ u r u' ⟨rfl, hu⟩
      exact .done ⟨rfl, hu⟩
  | updateAddr id haddr =>
      refine Task.Twin.bind (liftPm_twin hs (updateAddr_twin id haddr hs.pm)) ?_
      rintro _ u r u' ⟨rfl, hu⟩
      exact .done ⟨rfl, hu⟩
  | peersOnlineState peers =>
      refine Task.Twin.bind (liftPm_twin hs
        (peersOnlineLoop_twin Handler.sameDecision_of_ne peers 0 _ hs.pm)) ?_
      rintro _ u r u' ⟨rfl, hu⟩
      exact .done ⟨rfl, hu⟩
  | punchHoleRequest rs ph ws haddr =>
      refine Task.Twin.bind (handlePunchHoleRequest_twin cfg rs ph ws haddr hs) ?_
      rintro ⟨msg, toAddr⟩ u ⟨msg', toAddr'⟩ u' ⟨hsame, hu⟩
      exact .done ⟨hsame, hu⟩
  | getPk rs version id =>
      refine Task.Twin.bind (liftPm_twin hs
        (getPk_twin Handler.sameDecision_of_ne cfg.x _ version id hs.pm)) ?_
      rintro _ u r u' ⟨rfl, hu⟩
      exact .done ⟨rfl, hu⟩

end server

/-- Two calls with the same results: the same decisions of `check_ip_blocker`
on the way, and the same answer. -/
structure SameResults (r r' : Ran Handler Env Op Shared Handler.Answer) : Prop where
  decisions : r'.events.filterMap r'.call.blockerDecision
    = r.events.filterMap r.call.blockerDecision
  answer : ∃ a a', r.result = some a ∧ r'.result = some a' ∧ a.Same a'

/-- **Forms of an address.** Two sessions, one of which sees some IPv4 addresses
in their IPv4-mapped form, have the same results, as long as all their steps are
in step. -/
theorem sameResults_of_inStep (cfg : Config) {s₀ s s' : Shared}
    {ran : List (Ran Handler Env Op Shared Handler.Answer × Ran Handler Env Op Shared Handler.Answer)}
    (h : Twins (Handler.task cfg) Handler.Rewritten s₀ s₀ ran s s')
    (hstep : ∀ r ∈ ran, ∀ x ∈ r.1.events.zip r.2.events,
      Handler.PmInStep r.1.call r.2.call x.1 x.2) :
    ∀ r ∈ ran, SameResults r.1 r.2 := by
  obtain ⟨-, hran⟩ := h.related (J := Shared.Rewritten) (R := fun _ _ a a' => a.Same a')
    (fun c c' s s' hcalls hs => ⟨(Handler.returns cfg c s).1, Handler.twin cfg hcalls hs⟩)
    (.refl s₀) hstep
  intro r hr
  obtain ⟨howed, hanswer⟩ := hran r hr
  refine ⟨?_, hanswer⟩
  generalize r.1.events = es, r.2.events = es' at howed
  induction howed with
  | nil => rfl
  | @cons ev ev' _ _ hev _ ih =>
      rw [List.filterMap_cons, List.filterMap_cons, ih, hev]

/-! A peer at `5.6.7.8` registers, and then with a new key. -/

def formTask : Handler → ServerTask Handler.Answer := Handler.task { x := .sample [] }

def formIp : BitVec 32 := 0x05060708

def formCall (ip : IpAddr) (pk : Bytes) : Handler :=
  .registerPk ⟨{ id := "123456", uuid := [1], pk }, ⟨ip, 50000⟩, false⟩

def formInputs (_ : Nat) : Env := { now := 0 }

/-- What has run when the peer has registered from `ip`. -/
def formRan (ip : IpAddr) (pk : Bytes) (s : Shared) : Ran Handler Env Op Shared Handler.Answer :=
  ⟨formCall ip pk, (formTask (formCall ip pk)).trace formInputs s,
    ((formTask (formCall ip pk)).run formInputs s).1⟩

def formState (ip : IpAddr) : Shared :=
  ((formTask (formCall ip [2])).run formInputs (.start .empty)).2

/-- The two sessions, if the second of them registers from `ip` and `ip'`. -/
theorem form_twins {ip ip' : IpAddr} (h : IpAddr.Rewritten (.v4 formIp) ip)
    (h' : IpAddr.Rewritten (.v4 formIp) ip') : ∃ s s', Twins formTask Handler.Rewritten
      (.start .empty) (.start .empty)
      ([(formRan (.v4 formIp) [2] (.start .empty), formRan ip [2] (.start .empty))]
        ++ [(formRan (.v4 formIp) [5] (formState (.v4 formIp)), formRan ip' [5] (formState ip))])
      s s' :=
  ⟨_, _, .call _ _ formInputs (.call _ _ formInputs .nil (.registerPk _ ⟨h, rfl⟩))
    (.registerPk _ ⟨h', rfl⟩)⟩

/-- Both are seen in the mapped form. -/
theorem sameResults_of_inStep_mapped :
    SameResults (formRan (.v4 formIp) [5] (formState (.v4 formIp)))
      (formRan (.v6 (toIpv6Mapped formIp)) [5] (formState (.v6 (toIpv6Mapped formIp)))) := by
  obtain ⟨s, s', htwins⟩ := form_twins (.mapped formIp) (.mapped formIp)
  have hnot : ∀ r ∈ [(formRan (.v4 formIp) [2] (.start .empty),
        formRan (.v6 (toIpv6Mapped formIp)) [2] (.start .empty))]
      ++ [(formRan (.v4 formIp) [5] (formState (.v4 formIp)),
        formRan (.v6 (toIpv6Mapped formIp)) [5] (formState (.v6 (toIpv6Mapped formIp))))],
      ∀ x ∈ r.1.events.zip r.2.events, (∀ ev ∈ pmEvent x.1, ¬ r.1.call.Meets ev)
        ∧ ∀ ev ∈ pmEvent x.2, ¬ r.2.call.Meets ev := by
    decide +kernel
  refine sameResults_of_inStep _ htwins ?_ _
    (List.mem_append_right _ (List.mem_singleton_self _))
  intro r hr x hx ev hev ev' hev'
  obtain ⟨hmeets, hmeets'⟩ := hnot r hr x hx
  refine ⟨⟨iff_of_false (hmeets ev hev) (hmeets' ev' hev'), fun h => (hmeets ev hev h).elim⟩, ?_⟩
  rcases List.mem_append.mp hr with hr | hr
  · rw [List.mem_singleton.mp hr]
    exact False.elim
  · rw [List.mem_singleton.mp hr]
    exact False.elim

/-- Only the second one is. -/
theorem results_depend_on_form : ∃ ran s s', Twins formTask Handler.Rewritten
    (.start .empty) (.start .empty) ran s s' ∧ ∃ r ∈ ran, ¬ SameResults r.1 r.2 := by
  obtain ⟨s, s', htwins⟩ := form_twins (.same _) (.mapped formIp)
  refine ⟨_, s, s', htwins, _, List.mem_append_right _ (List.mem_singleton_self _), ?_⟩
  rintro ⟨-, a, a', ha, ha', hsame⟩
  have hok : (formRan (.v4 formIp) [5] (formState (.v4 formIp))).result
      = some (.registered (.ok .ok)) := rfl
  have hmismatch : (formRan (.v6 (toIpv6Mapped formIp)) [5] (formState (.v4 formIp))).result
      = some (.registered (.error .uuidMismatch)) := rfl
  cases hok.symm.trans ha
  cases hmismatch.symm.trans ha'
  cases hsame

end KustDesk
