import KustDesk.Answers

/-!
# KustDesk — PeerUse

The server as a user of its peer map: all it does to the map are the calls
of `PmCall`, so that a contract about the map alone is kept by the whole
server once the calls keep it.
-/

namespace KustDesk

open Async

def Op.isPm : Op → Bool
  | .pm _ => true
  | _ => false

/-- The contract leaves everything but the peer map free. -/
structure PeersOnly (c : Contract Env Op Shared) : Prop extends Answering c where
  other : ∀ op e s s', op.isPm = false → s'.pm = s.pm → c.guar op e s s'

/-- A contract about the peer map, for the server. -/
def onPeers (d : Contract Env PmOp PeerMap) : Contract Env Op Shared where
  rely s s' := d.rely s.pm s'.pm
  given op e s := ∀ o, op = .pm o → d.given o e s.pm
  guar op e s s' := (∀ o, op = .pm o → d.guar o e s.pm s'.pm)
    ∧ (op.isPm = false → s'.pm = s.pm)

theorem onPeers_lift {d : Contract Env PmOp PeerMap} {α : Type} {t : PmTask α}
    {Q : α → PeerMap → Prop} {s : Shared} (h : t.Meets d Q s.pm) :
    (liftPm t).Meets (onPeers d) (fun a s => Q a s.pm) s := by
  show (t.lift Shared.pmPart Op.pm).Meets _ (fun a w => Q a (Shared.pmPart.get w)) s
  apply Task.Meets.lift (c := d) _ _ _ h
  · exact fun _ _ h => h
  · exact fun op _ _ h => h op rfl
  · intro op e s pm hguar
    refine ⟨?_, nofun⟩
    rintro o ⟨⟩
    exact hguar

theorem onPeers_other {d : Contract Env PmOp PeerMap} {op : Op} (hop : op.isPm = false)
    (e : Env) {s s' : Shared} (h : s'.pm = s.pm) : (onPeers d).guar op e s s' := by
  refine ⟨?_, fun _ => h⟩
  rintro o rfl
  cases hop

/-- The whole server keeps a contract about the peer map that the calls
keep. -/
theorem onPeers_peersOnly {d : Contract Env PmOp PeerMap}
    (hcall : ∀ {x : External} {α : Type} {t : PmTask α}, PmCall x t → ∀ s,
      t.Meets d (fun _ _ => True) s)
    (hpunch : ∀ x id s, (PeerMap.get x id).Meets d (fun r s => ∀ peer, r = some peer →
      ∀ e s', d.rely s s' → d.given (.readPunch id peer) e s' →
        d.guar (.readPunch id peer) e s' s') s) :
    PeersOnly (onPeers d) where
  pm ht s := onPeers_lift (hcall ht s.pm)
  punch x id s := by
    refine (onPeers_lift (hpunch x id s.pm)).mono ?_
    intro r s' hread peer hr e s'' hrely hgiven
    refine ⟨?_, nofun⟩
    rintro o ⟨⟩
    exact hread peer hr e s''.pm hrely (hgiven _ rfl)
  looks op e s h := by
    refine onPeers_other ?_ e rfl
    cases op <;> first | rfl | cases h
  rotate e s := onPeers_other rfl e rfl
  punchTake k e s := onPeers_other rfl e rfl
  reply _ _ _ _ _ _ _ _ e _ _ := onPeers_other rfl e rfl
  other op e s s' hop hpm := onPeers_other hop e hpm

section
variable {c : Contract Env Op Shared} (hc : PeersOnly c)
variable (cfg : Config) (rs : RendezvousServer)

include hc

theorem look_free {α : Type} {op : Op} (hop : op.isPm = false) (f : Env → Shared → α)
    (s : Shared) : (Task.look op f).Meets c (fun _ _ => True) s :=
  fun e s' _ _ => ⟨hc.other op e s' s' hop rfl, trivial⟩

theorem txSend_free (msg : Union) (addr : SocketAddr) (s : Shared) :
    (txSend msg addr).Meets c (fun _ _ => True) s :=
  look_free hc rfl _ s

theorem send_free (via : Route) (sink : Sink) (msg : Union) (s : Shared) :
    (sink.send cfg.x via msg).Meets c (fun _ _ => True) s := by
  apply (sink.send_meets cfg.x via msg _ s).mono
  · exact fun _ _ _ => trivial
  · exact fun wire e s' => hc.other _ e s' s' rfl rfl

theorem sendToTcp_free (msg : Union) (addr : SocketAddr) (s : Shared) :
    (sendToTcp cfg.x msg addr).Meets c (fun _ _ => True) s := by
  intro e s' _ _
  refine ⟨hc.other _ e s' _ rfl rfl, ?_⟩
  show Task.Meets _ _ (sendToSink cfg.x _ (s'.tcpPunch.lookup _) msg >>= _) _
  cases s'.tcpPunch.lookup (cfg.x.tryIntoV4 addr) with
  | none => trivial
  | some sink =>
      have hsend := (send_free hc cfg (.punch (cfg.x.tryIntoV4 addr)) sink msg)
        { s' with tcpPunch := s'.tcpPunch.erase (cfg.x.tryIntoV4 addr) }
      exact Task.Meets.bind (Q := fun _ _ => True)
        (hsend.bind fun _ _ _ => trivial) fun _ _ _ => trivial

theorem giveAway_free (sink : Option Sink) (addr : SocketAddr) (s : Shared) :
    (giveAway cfg sink addr).Meets c (fun _ _ => True) s := by
  cases sink with
  | none => trivial
  | some sink => exact fun e s' _ _ => ⟨hc.other _ e s' _ rfl rfl, trivial⟩

theorem handlePunchHoleRequest_free (addr : SocketAddr) (ph : PunchHoleRequest)
    (ws : Bool) (s : Shared) :
    (handlePunchHoleRequest cfg rs addr ph ws).Meets c (fun _ _ => True) s :=
  ((handlePunchHoleRequest_replying cfg rs addr ph ws).meets hc.toAnswering s).mono
    fun _ _ _ => trivial

theorem handleTcpPunchHoleRequest_free (addr : SocketAddr) (ph : PunchHoleRequest)
    (ws : Bool) (s : Shared) :
    (handleTcpPunchHoleRequest cfg rs addr ph ws).Meets c (fun _ _ => True) s := by
  refine (handlePunchHoleRequest_free hc cfg rs addr ph ws s).bind fun r s _ => ?_
  obtain ⟨msg, toAddr⟩ := r
  cases toAddr with
  | none => exact sendToTcp_free hc cfg msg addr s
  | some peerAddr =>
      refine Task.Meets.act_bind fun e s' _ _ => ⟨hc.other _ e s' _ rfl rfl, ?_⟩
      cases s'.wsMap.lookup (cfg.x.tryIntoV4 peerAddr) with
      | none => exact (txSend_free hc msg peerAddr _).bind fun _ _ _ => trivial
      | some sink => exact (send_free hc cfg _ sink msg _).bind fun _ _ _ => trivial

theorem forwardRelay_free (addr : SocketAddr) (rf : RequestRelay) (s : Shared) :
    (forwardRelay cfg addr rf).Meets c (fun _ _ => True) s := by
  refine (look_free hc rfl _ s).bind fun peer s _ => ?_
  cases peer with
  | none => trivial
  | some peer =>
      refine (hc.pm (.readAddr (x := cfg.x) _ _) s).bind fun peerAddr s _ => ?_
      exact (txSend_free hc _ peerAddr s).bind fun _ _ _ => trivial

theorem handleTcpMessage_free (conn : ConnId) (sink : Option Sink) (addr : SocketAddr)
    (ws : Bool) (msg : Option Union) (s : Shared) :
    (handleTcpMessage cfg rs conn sink addr ws msg).Meets c (fun _ _ => True) s := by
  have hcases := handleTcpMessage_cases cfg rs conn sink addr ws msg
  generalize handleTcpMessage cfg rs conn sink addr ws msg = t at hcases
  cases hcases with
  | answers _ ht => exact (ht.meets hc.toAnswering s).mono fun _ _ _ => trivial
  | enters _ _ ht =>
      refine (ht.meets hc.toAnswering s).bind fun r s _ => ?_
      exact (enterWs_meets cfg addr r (fun _ _ e s => hc.other _ e s _ rfl rfl) s).mono
        fun _ _ _ => trivial
  | forwards _ ht =>
      refine (giveAway_free hc cfg sink addr s).bind fun _ s _ => ?_
      cases ht with
      | punchHole ph =>
          exact (handleTcpPunchHoleRequest_free hc cfg rs addr ph ws s).bind fun _ _ _ => trivial
      | relay rf => exact (forwardRelay_free hc cfg addr rf s).bind fun _ _ _ => trivial
  | panics => trivial
  | setsKey => exact (look_free hc rfl _ s).bind fun _ _ _ => trivial

theorem handleTcp_free (conn : ConnId) (bytes : Bytes) (sink : Option Sink)
    (addr : SocketAddr) (ws : Bool) (s : Shared) :
    (handleTcp cfg rs conn bytes sink addr ws).Meets c (fun _ _ => True) s :=
  (look_free hc rfl _ s).bind fun _ s _ => handleTcpMessage_free hc cfg rs conn sink addr ws _ s

theorem serving_free (conn : ConnId) (addr : SocketAddr) :
    Serving c cfg rs conn addr fun _ => True where
  answering := hc.toAnswering
  notes op e s h := hc.other op e s s (by cases op <;> first | rfl | cases h) rfl
  closes e s := hc.other _ e s _ rfl rfl
  start _ _ := trivial
  same _ _ := trivial
  handles bytes sink ws s _ := by
    refine (handleTcp_free hc cfg rs conn bytes sink addr ws s).mono ?_
    exact fun _ _ _ _ => trivial

theorem handleUdp_free (bytes : Bytes) (addr : SocketAddr) (s : Shared) :
    (handleUdp cfg rs bytes addr).Meets c (fun _ _ => True) s := by
  refine (look_meets hc.toAnswering rfl _ s).bind fun _ s _ => ?_
  refine handleUdpMessage_meets cfg rs addr hc.toAnswering (fun ph _ s => ?_) s
  exact (handlePunchHoleRequest_free hc cfg rs addr ph false s).bind fun _ s _ =>
    txSend_free hc _ _ s

theorem Job.task_free (job : Job) (s : Shared) :
    (job.task cfg).Meets c (fun _ _ => True) s := by
  cases job with
  | stream rs conn addr stream =>
      exact (serving_free hc cfg rs conn addr).handleListenerInner stream s
  | datagram rs bytes addr =>
      exact (handleUdp_free hc cfg rs bytes addr s).bind fun _ _ _ => trivial

end

end KustDesk
