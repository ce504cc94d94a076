import KustDesk.Answers

/-!
# KustDesk — NoPanic

The release profile aborts the process on a panic, so a panic in any task
ends the server. A `KeyExchange` whose parts have the wrong length or do not
open is the one message that makes `handle_tcp` panic; with that condition
every handler returns, whatever the other tasks do meanwhile.
-/

namespace KustDesk

open Async

/-! ## The registration handlers -/

section registration
variable (x : External)

theorem PeerMap.get_noAbort (id : String) : (PeerMap.get x id).NoAbort :=
  (PmCall.get id).noAbort

theorem handleRegisterPk_noAbort (rk : RegisterPk) (addr : SocketAddr)
    (ws : Bool) : (handleRegisterPk x rk addr ws).NoAbort :=
  (PmCall.registerPk rk addr ws).noAbort

theorem updateAddr_noAbort (x : External) (id : String) (addr : SocketAddr) :
    (updateAddr id addr).NoAbort := (updateAddr_moves x id addr []).noAbort

theorem peersOnlineState_noAbort (peers : List String) :
    (peersOnlineState peers).NoAbort := (peersOnlineState_heeds peers).noAbort

theorem getPk_noAbort (sk : Option Bytes) (version id : String) :
    (getPk x sk version id).NoAbort := (PmCall.getPk sk version id).noAbort

end registration

/-! ## The server handlers -/

variable (cfg : Config) (rs : RendezvousServer)

theorem liftPm_noAbort {α : Type} {t : PmTask α} (h : t.NoAbort) :
    (liftPm t).NoAbort := h.lift

theorem Sink.send_noAbort (x : External) (via : Route) (sink : Sink) (msg : Union) :
    (sink.send x via msg).NoAbort := by
  obtain hsend | ⟨wire, y, -, hsend⟩ := sink.send_cases x via msg
  · rw [hsend]
    trivial
  · rw [hsend]
    exact .bind (Task.noAbort_look _ _) fun _ => trivial

theorem sendToSink_noAbort (x : External) (via : Route) (sink : Option Sink)
    (msg : Union) : (sendToSink x via sink msg).NoAbort := by
  cases sink with
  | none => trivial
  | some sink => exact .bind (sink.send_noAbort x via msg) fun _ => trivial

theorem sendToTcp_noAbort (x : External) (msg : Union) (addr : SocketAddr) :
    (sendToTcp x msg addr).NoAbort :=
  .bind (Task.noAbort_act _ _) fun _ =>
    .bind (sendToSink_noAbort x _ _ msg) fun _ => trivial

/-- The rotation index is reduced by the length it indexes. -/
theorem getRelayServer_noAbort : rs.getRelayServer.NoAbort := by
  unfold RendezvousServer.getRelayServer
  split
  · trivial
  · rename_i hne
    have hpos : 0 < rs.relayServers.length := by
      rw [List.length_pos_iff]
      simpa using hne
    split
    · rw [List.getElem?_eq_getElem hpos]
      trivial
    · intro e s
      have hlt := Nat.mod_lt s.rotationRelayServer.word.toNat hpos
      show (Task.unwrap _ rs.relayServers[_]?).NoAbort
      rw [List.getElem?_eq_getElem hlt]
      trivial

/-- What only replies returns, and what it returns satisfies the predicate. -/
theorem Replying.returns {x : External} {rs : RendezvousServer} {α : Type} {t : ServerTask α}
    {Q : α → Prop} (h : Replying x rs t Q) (es : List (Event Env Op Shared)) :
    t.Heeds (fun _ _ => True) (fun _ a => Q a) es := by
  induction h generalizing es with
  | done h => exact h
  | mono _ h ih => exact (ih es).mono fun _ a => h a
  | bind _ _ iht ihg => exact (iht es).bind fun es a ha => ihg a ha es
  | pm h => exact (liftPm_noAbort h.noAbort).heeds es
  | look _ f => exact fun _ _ => ⟨trivial, trivial⟩
  | relayServer => exact (getRelayServer_noAbort _).heeds es
  | direct sink =>
      cases sink with
      | none => exact .none
      | some y =>
          obtain hsend | ⟨wire, z, hlike, hsend⟩ := y.send_cases x .direct _
          · rw [sendToSink, hsend]
            exact like_refl (some y)
          · rw [sendToSink, hsend]
            exact fun _ _ => ⟨trivial, .some hlike⟩
  | toTcp addr => exact (sendToTcp_noAbort x _ addr).heeds es
  | udp addr => exact fun _ _ => ⟨trivial, trivial⟩
  | punch id hg _ _ ihnone ihsome =>
      refine ((liftPm_noAbort (PeerMap.get_noAbort x id)).heeds es).bind fun es peer _ => ?_
      cases peer with
      | none => exact ihnone es
      | some peer =>
          rw [hg]
          exact fun _ _ => ⟨trivial, ihsome peer _ _⟩

theorem Replying.noAbort {x : External} {rs : RendezvousServer} {α : Type} {t : ServerTask α}
    {Q : α → Prop} (h : Replying x rs t Q) : t.NoAbort := (h.returns []).noAbort

theorem punchHoleMessage_noAbort (addr : SocketAddr) (ph : PunchHoleRequest)
    (ws : Bool) (peerAddr : SocketAddr) :
    (punchHoleMessage cfg rs addr ph ws peerAddr).NoAbort :=
  (punchHoleMessage_replying cfg rs addr ph ws peerAddr).noAbort

theorem handlePunchHoleRequest_noAbort (addr : SocketAddr)
    (ph : PunchHoleRequest) (ws : Bool) :
    (handlePunchHoleRequest cfg rs addr ph ws).NoAbort :=
  (handlePunchHoleRequest_replying cfg rs addr ph ws).noAbort

theorem giveAway_noAbort (sink : Option Sink) (addr : SocketAddr) :
    (giveAway cfg sink addr).NoAbort := by
  cases sink with
  | none => trivial
  | some sink => exact Task.noAbort_act _ _

/-- Looking up whom to forward to and forwarding cannot fail either. -/
theorem Forwarding.noAbort {addr : SocketAddr} {ws : Bool} {request : Union}
    {t : ServerTask Unit} (h : Forwarding cfg rs addr ws request t) : t.NoAbort := by
  cases h with
  | punchHole ph =>
      refine .bind (handlePunchHoleRequest_noAbort cfg rs addr ph ws) fun r => ?_
      obtain ⟨msg, toAddr⟩ := r
      cases toAddr with
      | none => exact sendToTcp_noAbort _ _ _
      | some addr =>
          refine .bind (Task.noAbort_act _ _) fun sink => ?_
          cases sink with
          | none => exact .bind (Task.noAbort_look _ _) fun _ => trivial
          | some y => exact .bind (y.send_noAbort _ _ _) fun _ => trivial
  | relay rf =>
      refine .bind (Task.noAbort_look _ _) fun peer => ?_
      cases peer with
      | none => trivial
      | some peer =>
          refine .bind (liftPm_noAbort (Task.noAbort_look _ _)) fun _ => ?_
          exact .bind (Task.noAbort_look _ _) fun _ => trivial

/-! ## Key exchange -/

/-- A key exchange `handle_tcp` survives: if it has two parts, they are a
public key of 32 bytes and a box of 48 that opens, under the server's secret
key and the zero nonce, to the 32 bytes of a key. -/
def KeyExchange.Opens (ex : KeyExchange) : Prop :=
  match ex.keys with
  | [key0, key1] => key0.length = 32 ∧ key1.length = 48
      ∧ ∃ key, cfg.x.boxOpen key1 (List.replicate 24 0) key0
          rs.inner.secureTcpSkB = some key ∧ key.length = 32
  | _ => True

theorem toArray_noAbort_bind {α : Type} {n : Nat} {v : Bytes}
    {g : Bytes → ServerTask α} :
    (toArray n v >>= g).NoAbort ↔ v.length = n ∧ (g v).NoAbort := by
  unfold toArray
  by_cases h : v.length = n <;> simp [h]

theorem getSymetricKeyFromMsg_noAbort_bind {α : Type} {sk pk box : Bytes}
    {g : Bytes → ServerTask α} (hg : ∀ key, (g key).NoAbort) :
    (getSymetricKeyFromMsg cfg sk pk box >>= g).NoAbort
      ↔ ∃ key, cfg.x.boxOpen box (List.replicate 24 0) pk sk = some key
          ∧ key.length = 32 := by
  unfold getSymetricKeyFromMsg
  cases cfg.x.boxOpen box (List.replicate 24 0) pk sk with
  | none => simp
  | some key => by_cases h : key.length = 32 <;> simp [h, hg]

theorem handleKeyExchange_noAbort_iff (conn : ConnId) (ex : KeyExchange)
    (sink : Option Sink) :
    (handleKeyExchange cfg rs conn ex sink).NoAbort ↔ ex.Opens cfg rs := by
  obtain ⟨keys⟩ := ex
  rcases keys with _ | ⟨key0, _ | ⟨key1, _ | ⟨key2, rest⟩⟩⟩
  · exact Iff.rfl
  · exact Iff.rfl
  · simp only [handleKeyExchange, KeyExchange.Opens, toArray_noAbort_bind]
    refine and_congr_right fun _ => and_congr_right fun _ => ?_
    refine getSymetricKeyFromMsg_noAbort_bind cfg fun key => ?_
    cases cfg.x.secretboxKey key with
    | none => trivial
    | some key =>
        cases sink with
        | none => trivial
        | some sink => exact .bind (Task.noAbort_look _ _) fun _ => trivial
  · exact Iff.rfl

/-! ## Every message -/

theorem enterWs_noAbort (addr : SocketAddr) (r : Bool × Option Sink) :
    (enterWs cfg addr r).NoAbort := by
  obtain ⟨go, sink⟩ := r
  cases go with
  | false => trivial
  | true =>
      cases sink with
      | none => trivial
      | some y => exact .bind (Task.noAbort_act _ _) fun _ => trivial

theorem handleTcpMessage_noAbort (conn : ConnId) (sink : Option Sink)
    (addr : SocketAddr) (ws : Bool) {msg : Option Union}
    (hmsg : ∀ ex, msg ≠ some (.keyExchange ex)) :
    (handleTcpMessage cfg rs conn sink addr ws msg).NoAbort := by
  have hcases := handleTcpMessage_cases cfg rs conn sink addr ws msg
  generalize handleTcpMessage cfg rs conn sink addr ws msg = t at hcases
  cases hcases with
  | answers _ ht => exact ht.noAbort
  | enters _ _ ht => exact .bind ht.noAbort (enterWs_noAbort cfg addr)
  | forwards _ ht =>
      exact .bind (giveAway_noAbort cfg sink addr) fun _ => .bind ht.noAbort fun _ => trivial
  | panics hex => exact (hmsg _ hex).elim
  | setsKey hex => exact (hmsg _ hex).elim

theorem handleTcpMessage_noAbort_iff (conn : ConnId) (sink : Option Sink)
    (addr : SocketAddr) (ws : Bool) (msg : Option Union) :
    (handleTcpMessage cfg rs conn sink addr ws msg).NoAbort
      ↔ ∀ ex, msg = some (.keyExchange ex) → ex.Opens cfg rs := by
  by_cases hmsg : ∃ ex, msg = some (.keyExchange ex)
  · obtain ⟨ex, rfl⟩ := hmsg
    simpa [handleTcpMessage] using handleKeyExchange_noAbort_iff cfg rs conn ex sink
  · have hne : ∀ ex, msg ≠ some (.keyExchange ex) := fun ex h => hmsg ⟨ex, h⟩
    exact iff_of_true (handleTcpMessage_noAbort cfg rs conn sink addr ws hne)
      fun ex h => (hne ex h).elim

theorem handleTcp_noAbort_iff (conn : ConnId) (bytes : Bytes) (sink : Option Sink)
    (addr : SocketAddr) (ws : Bool) :
    (handleTcp cfg rs conn bytes sink addr ws).NoAbort
      ↔ ∀ ex, cfg.message bytes = some (.keyExchange ex) → ex.Opens cfg rs := by
  rw [← handleTcpMessage_noAbort_iff cfg rs conn sink addr ws]
  refine ⟨fun h => ?_, fun h _ _ => h⟩
  exact h { now := 0 } { pm := { peers := fun _ => Peer.default 0 0 } }

/-! ## Whole connections -/

/-- The bytes of this step, if `handle_tcp` gets to see any, are not a key
exchange it panics on. -/
def Op.Survives (op : Op) : Prop :=
  ∀ conn bytes ex, op = .handleTcp conn bytes →
    cfg.message bytes = some (.keyExchange ex) → ex.Opens cfg rs

theorem handleTcp_noAbortIf (conn : ConnId) (bytes : Bytes) (sink : Option Sink)
    (addr : SocketAddr) (ws : Bool) :
    (handleTcp cfg rs conn bytes sink addr ws).NoAbortIf (Op.Survives cfg rs) := by
  intro hop e s
  refine Task.NoAbort.noAbortIf ?_ _
  exact (handleTcpMessage_noAbort_iff cfg rs conn sink addr ws _).mpr
    fun ex => hop conn bytes ex rfl

theorem note_noAbortIf (given : Op → Prop) (op : Op) :
    (note op).NoAbortIf given :=
  Task.NoAbort.noAbortIf (Task.noAbort_look _ _) _

theorem decryptFrame_noAbort (conn : ConnId) (sink : Option Sink) (frame : Bytes) :
    (decryptFrame cfg conn sink frame).NoAbort := by
  cases sink with
  | none => trivial
  | some s =>
      simp only [decryptFrame]
      split
      · exact .bind (Task.noAbort_look _ _) fun _ => trivial
      · trivial

theorem serveTcp_noAbortIf (conn : ConnId) (addr : SocketAddr) (sink : Option Sink)
    (frames : List Bytes) :
    (serveTcp cfg rs conn addr sink frames).NoAbortIf (Op.Survives cfg rs) := by
  induction frames generalizing sink with
  | nil => trivial
  | cons frame rest ih =>
      refine .bind (note_noAbortIf _ _) fun _ => ?_
      refine .bind ((decryptFrame_noAbort cfg conn sink frame).noAbortIf _) fun r => ?_
      obtain ⟨bytes, sink⟩ := r
      cases bytes with
      | none => trivial
      | some bytes =>
          refine .bind (handleTcp_noAbortIf cfg rs conn bytes sink addr false) fun r => ?_
          dsimp only
          split
          · exact ih _
          · trivial

theorem serveWs_noAbortIf (conn : ConnId) (addr : SocketAddr) (sink : Option Sink)
    (frames : List WsMessage) :
    (serveWs cfg rs conn addr sink frames).NoAbortIf (Op.Survives cfg rs) := by
  induction frames generalizing sink with
  | nil => trivial
  | cons frame rest ih =>
      cases frame with
      | other => exact ih sink
      | binary frame =>
          refine .bind (note_noAbortIf _ _) fun _ => ?_
          refine .bind (handleTcp_noAbortIf cfg rs conn frame sink addr true) fun r => ?_
          dsimp only
          split
          · exact ih _
          · trivial

theorem serve_noAbortIf (conn : ConnId) (addr : SocketAddr) (stream : Stream) :
    (serve cfg rs conn addr stream).NoAbortIf (Op.Survives cfg rs) := by
  cases stream with
  | ws frames => exact serveWs_noAbortIf cfg rs conn addr _ frames
  | tcp frames =>
      refine .bind ?_ fun sink => serveTcp_noAbortIf cfg rs conn addr sink frames
      split
      · exact (keyExchangePhase1_replying cfg rs _).noAbort.noAbortIf _
      · trivial

theorem closePunch_noAbort (addr : SocketAddr) (sink : Option Sink) :
    (closePunch cfg addr sink).NoAbort := by
  unfold closePunch
  split
  · exact Task.noAbort_act _ _
  · trivial

theorem handleListenerInner_noAbortIf (conn : ConnId) (addr : SocketAddr)
    (stream : Stream) :
    (handleListenerInner cfg rs conn addr stream).NoAbortIf (Op.Survives cfg rs) :=
  .bind (serve_noAbortIf cfg rs conn addr stream) fun sink =>
    .bind ((closePunch_noAbort cfg addr sink).noAbortIf _) fun _ => note_noAbortIf _ _

theorem handleUdpPunchHoleRequest_noAbort (addr : SocketAddr)
    (ph : PunchHoleRequest) :
    (handleUdpPunchHoleRequest cfg rs addr ph).NoAbort :=
  .bind (handlePunchHoleRequest_noAbort cfg rs addr ph false) fun _ =>
    Task.noAbort_look _ _

theorem handleUdp_noAbort (bytes : Bytes) (addr : SocketAddr) :
    (handleUdp cfg rs bytes addr).NoAbort := by
  refine .bind (Task.noAbort_look _ _) fun _ => ?_
  have hcases := handleUdpMessage_cases cfg rs addr (cfg.message bytes)
  generalize handleUdpMessage cfg rs addr (cfg.message bytes) = t at hcases
  cases hcases with
  | answers ht => exact ht.noAbort
  | punches hmsg =>
      refine .bind (liftPm_noAbort (Task.noAbort_look _ _)) fun loaded => ?_
      refine .bind (handleUdpPunchHoleRequest_noAbort cfg rs addr _) fun r => ?_
      cases r <;> trivial
  | configures => trivial

theorem Job.task_noAbortIf (job : Job) :
    (job.task cfg).NoAbortIf (Op.Survives cfg job.server) := by
  cases job with
  | stream rs conn addr frames =>
      exact handleListenerInner_noAbortIf cfg rs conn addr frames
  | datagram rs bytes addr =>
      exact ((handleUdp_noAbort cfg rs bytes addr).noAbortIf _).bind fun _ => trivial

/-! ## The result -/

/-- **No panic.** In every state, with every sink and whatever runs at its
await points, `handle_tcp` returns exactly on the frames that are not a key
exchange it cannot open. In a run in which no connection gets such a frame,
no task ever panics. -/
theorem handleTcp_returns_iff_opens :
    (∀ conn bytes sink addr ws, (handleTcp cfg rs conn bytes sink addr ws).NoAbort
      ↔ ∀ ex, cfg.message bytes = some (.keyExchange ex) → ex.Opens cfg rs)
    ∧ ∀ {ι : Type} [DecidableEq ι] (jobs : ι → Job) (s : Shared) (es) (q),
        (server cfg jobs s).Run es q →
        (∀ i ev, (i, ev) ∈ es → ev.op.Survives cfg (jobs i).server) →
        ∀ i why, q.tasks i ≠ .abort why := by
  refine ⟨handleTcp_noAbort_iff cfg rs, ?_⟩
  intro ι _ jobs s es q hrun hes i why hwhy
  have h := hrun.noAbortIf (Job.task_noAbortIf cfg (jobs i)) fun ev hev => hes i ev hev
  rw [hwhy] at h
  exact h

/-- A server that one client sends the frame `[0]`, which is `ex`. -/
def oneKeyExchange (ex : KeyExchange) :
    Pool Unit Env Op Shared fun _ => Unit :=
  server { x := External.sample [([0], .keyExchange ex)] }
    (fun _ => .stream {} 0 .unspecified (.ws [.binary [0]])) (.start .empty)

/-- The first two steps on it: the frame arrives and is handled. -/
def twoSteps : List (Unit × Env) := [((), { now := 0 }), ((), { now := 0 })]

theorem handleTcp_returns_iff_opens_sealed :
    ∀ why, ((oneKeyExchange
      { keys := [List.replicate 32 0, List.replicate 48 0] }).play twoSteps).2.tasks ()
        ≠ .abort why := by
  refine (handleTcp_returns_iff_opens _ {}).2 _ _ _ _ (Pool.play_run _ twoSteps) ?_ ()
  intro i ev _ conn bytes ex _ hmsg
  have hex : ex = { keys := [List.replicate 32 0, List.replicate 48 0] } := by
    have hmem := Config.mem_of_message_sample hmsg
    simp only [List.mem_singleton, Prod.mk.injEq, Union.keyExchange.injEq] at hmem
    exact hmem.2
  subst hex
  exact ⟨by decide, by decide, List.replicate 32 0, by decide, by decide⟩

/-- Two empty keys end the server. -/
theorem handleTcp_panics_on_empty_keys :
    ¬ (handleTcp { x := External.sample [([0], .keyExchange { keys := [[], []] })] } {}
        0 [0] (some { kind := .wss, conn := 0 }) .unspecified true).NoAbort
    ∧ ∃ es q, (oneKeyExchange { keys := [[], []] }).Run es q
        ∧ q.tasks () = .abort "unwrap on Err" :=
  ⟨fun h => h { now := 0 } (.start .empty), _, _, Pool.play_run _ twoSteps, rfl⟩

end KustDesk
