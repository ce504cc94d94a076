import KustDesk.Takeover
import KustDesk.Rendezvous

/-!
# KustDesk — Handlers

The handlers of `RendezvousServer` that work on the peer map, called one
after the other, with their answers. Of all that the server shares, only the
peer map and the steps on it are looked at.
-/

namespace KustDesk

open Async

/-- A call of a handler, by the clone of the server that it runs on where
this matters. -/
inductive Handler where
  | registerPk (c : RegCall)
  | updateAddr (id : String) (addr : SocketAddr)
  | peersOnlineState (peers : List String)
  | punchHoleRequest (rs : RendezvousServer) (addr : SocketAddr) (ph : PunchHoleRequest)
      (ws : Bool)
  | getPk (rs : RendezvousServer) (version id : String)

inductive Handler.Answer where
  | registered (r : Except RegisterPkResult RegisterPkResult)
  | requestPk (b : Bool)
  | online (states : Bytes)
  | punchHole (msg : Union) (toAddr : Option SocketAddr)
  | pk (bytes : Bytes)

def Handler.task (cfg : Config) : Handler → ServerTask Handler.Answer
  | .registerPk c => do return .registered (← liftPm (c.task cfg.x))
  | .updateAddr id addr => do return .requestPk (← liftPm (KustDesk.updateAddr id addr))
  | .peersOnlineState peers => do return .online (← liftPm (KustDesk.peersOnlineState peers))
  | .punchHoleRequest rs addr ph ws => do
      let (msg, toAddr) ← handlePunchHoleRequest cfg rs addr ph ws
      return .punchHole msg toAddr
  | .getPk rs version id => do
      return .pk (← liftPm (KustDesk.getPk cfg.x rs.inner.sk version id))

/-- What has run in a session of handlers. -/
abbrev Handled := List (Ran Handler Env Op Shared Handler.Answer)

/-! ## The steps on the peer map -/

/-- The step as one of the peer map, if it is one. -/
def pmEvent (ev : Event Env Op Shared) : Option (Event Env PmOp PeerMap) :=
  match ev.op with
  | .pm op => some ⟨op, ev.env, ev.pre.pm, ev.post.pm⟩
  | _ => none

theorem liftPm_alone {α : Type} {t : PmTask α} {s : Shared}
    {R : List (Event Env PmOp PeerMap) → α → PeerMap → Prop} (h : t.Alone s.pm R) :
    (liftPm t).Alone s fun es a s' => R (es.filterMap pmEvent) a s'.pm :=
  have hsee (op : PmOp) (e : Env) (w w' : Shared) : pmEvent ⟨.pm op, e, w, w'⟩
      = some ⟨op, e, Shared.pmPart.get w, Shared.pmPart.get w'⟩ := rfl
  Task.Alone.lift hsee h

/-- The peer map plays no part in the task. -/
def Aside {α : Type} (t : ServerTask α) : Prop :=
  t.All fun ev => ev.post.pm = ev.pre.pm ∧ pmEvent ev = none

theorem Aside.alone {α : Type} {t : ServerTask α} (h : Aside t) (s : Shared) :
    t.Alone s fun es _ s' => es.filterMap pmEvent = [] ∧ s'.pm = s.pm := by
  induction t generalizing s with
  | done a => exact ⟨rfl, rfl⟩
  | abort why => trivial
  | step op f k ih =>
      intro e
      obtain ⟨⟨hpm, hnone⟩, hrest⟩ := h e s
      refine (ih e s hrest _).mono fun es a s' hes => ?_
      show List.filterMap pmEvent (⟨op, e, s, _⟩ :: es) = [] ∧ _
      rw [List.filterMap_cons_none hnone]
      exact ⟨hes.1, hes.2.trans hpm⟩

theorem getRelayServer_aside (rs : RendezvousServer) : Aside rs.getRelayServer := by
  unfold RendezvousServer.getRelayServer
  split
  · trivial
  · split
    · exact Task.all_unwrap _ _
    · exact Task.All.bind (fun _ _ => ⟨⟨rfl, rfl⟩, trivial⟩) fun _ => Task.all_unwrap _ _

theorem punchHoleMessage_aside (cfg : Config) (rs : RendezvousServer) (addr : SocketAddr)
    (ph : PunchHoleRequest) (ws : Bool) (peerAddr : SocketAddr) :
    Aside (punchHoleMessage cfg rs addr ph ws peerAddr) := by
  refine (getRelayServer_aside rs).bind fun relayServer => ?_
  refine Task.All.bind (fun _ _ => ⟨⟨rfl, rfl⟩, trivial⟩) fun alwaysUseRelay => ?_
  dsimp only
  split
  · trivial
  · trivial

/-- A punch-hole request looks its peer up and then at most reads it. -/
theorem handlePunchHoleRequest_alone (cfg : Config) (rs : RendezvousServer) (addr : SocketAddr)
    (ph : PunchHoleRequest) (ws : Bool) (s : Shared)
    {R : List (Event Env PmOp PeerMap) → PeerMap → Prop} (hsame : R [] s.pm)
    (hget : (PeerMap.get cfg.x ph.id).Alone s.pm fun es _ s' =>
      R es s' ∧ ∀ ev, ev.post = s' → R (es ++ [ev]) s') :
    (handlePunchHoleRequest cfg rs addr ph ws).Alone s fun es _ s' =>
      R (es.filterMap pmEvent) s'.pm := by
  unfold handlePunchHoleRequest
  split
  · exact hsame
  refine Task.alone_look_bind.mpr fun e => ?_
  split
  · exact hsame
  refine (liftPm_alone hget).bind fun es peer s' h => ?_
  obtain ⟨hfound, hread⟩ := h
  cases peer with
  | none => simpa [List.filterMap_cons, pmEvent] using hfound
  | some peer =>
      intro e'
      have hread := hread ⟨.readPunch ph.id peer, e', s'.pm, s'.pm⟩ rfl
      show Task.Alone (if _ then _ else _) s' _
      split
      · simpa [List.filterMap_cons, pmEvent, Shared.pmPart] using hread
      · refine ((punchHoleMessage_aside cfg rs addr ph ws _).alone s').bind
          fun es' msg s'' h' => ?_
        simpa [List.filterMap_cons, pmEvent, Shared.pmPart, h'.1, h'.2] using hread

theorem handlePunchHoleRequest_refreshing (cfg : Config) (rs : RendezvousServer)
    (addr : SocketAddr) (ph : PunchHoleRequest) (ws : Bool) (s : Shared) :
    (handlePunchHoleRequest cfg rs addr ph ws).Alone s fun es _ s' =>
      Refreshing cfg.x s.pm (es.filterMap pmEvent) s'.pm := by
  refine handlePunchHoleRequest_alone (R := fun es s' => Refreshing cfg.x s.pm es s') cfg rs addr
    ph ws s (refreshing_of_unchanged (List.forall_mem_nil _)) ?_
  refine (get_refreshing cfg.x ph.id s.pm).mono fun es _ s' h => ⟨h, fun ev hev => ?_⟩
  exact h.append (List.forall_mem_singleton.mpr hev)

/-! ## What a call comes to -/

/-- What a handler that runs alone does to the peer map. -/
def Handler.Outcome (x : External) (h : Handler) (s : PeerMap)
    (es : List (Event Env PmOp PeerMap)) (a : Handler.Answer) (s' : PeerMap) : Prop :=
  match h with
  | .registerPk c => ∃ r, a = .registered r ∧ c.Outcome x s es r s'
  | _ => (∀ r, a ≠ .registered r) ∧ Refreshing x s es s'

theorem Handler.returns (cfg : Config) (h : Handler) (s : Shared) :
    (h.task cfg).NoAbort ∧ (h.task cfg).Alone s fun es a s' =>
      h.Outcome cfg.x s.pm (es.filterMap pmEvent) a s'.pm := by
  have hdone {α : Type} {t : ServerTask α} {g : α → Handler.Answer}
      (hg : ∀ a r, g a ≠ .registered r) (ht : t.Alone s fun es _ s' =>
        Refreshing cfg.x s.pm (es.filterMap pmEvent) s'.pm) :
      (do return g (← t) : ServerTask Handler.Answer).Alone s fun es a s' =>
        (∀ r, a ≠ .registered r) ∧ Refreshing cfg.x s.pm (es.filterMap pmEvent) s'.pm :=
    ht.bind fun es a s' h => ⟨hg a, by simpa using h⟩
  cases h with
  | registerPk c =>
      refine ⟨(liftPm_noAbort (handleRegisterPk_noAbort cfg.x _ _ _)).bind fun _ => trivial, ?_⟩
      exact (liftPm_alone (handleRegisterPk_alone cfg.x c s.pm)).bind
        fun es r s' h => ⟨r, rfl, by simpa using h⟩
  | updateAddr id addr =>
      refine ⟨(liftPm_noAbort (updateAddr_noAbort cfg.x id addr)).bind fun _ => trivial, ?_⟩
      exact hdone (g := .requestPk) nofun (liftPm_alone (updateAddr_refreshing cfg.x id addr s.pm))
  | peersOnlineState peers =>
      refine ⟨(liftPm_noAbort (peersOnlineState_noAbort peers)).bind fun _ => trivial, ?_⟩
      have honline : (KustDesk.peersOnlineState peers).Alone s.pm fun es _ s' =>
          Refreshing cfg.x s.pm es s' := by
        refine ((peersOnlineState_looks peers).alone s.pm).mono fun es a s' h => ?_
        obtain ⟨rfl, hposts⟩ := h
        exact refreshing_of_unchanged hposts
      exact hdone (g := .online) nofun (liftPm_alone honline)
  | punchHoleRequest rs addr ph ws =>
      refine ⟨(handlePunchHoleRequest_noAbort cfg rs addr ph ws).bind fun _ => trivial, ?_⟩
      refine (handlePunchHoleRequest_refreshing cfg rs addr ph ws s).bind fun es r s' h => ?_
      exact ⟨nofun, by simpa using h⟩
  | getPk rs version id =>
      refine ⟨(liftPm_noAbort (getPk_noAbort cfg.x _ version id)).bind fun _ => trivial, ?_⟩
      exact hdone (g := .pk) nofun (liftPm_alone (getPk_refreshing cfg.x _ version id s.pm))

end KustDesk
