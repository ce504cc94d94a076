import KustDesk.Sinks

/-!
# KustDesk — Replies

The answers of a peer find the connection that asked through `tcp_punch`,
by address. As long as no two connections share a key there, an answer
reaches the asker, and nobody else.
-/

namespace KustDesk

open Async

/-! ## A request gives the sink away before it is forwarded -/

/-- The session a step forwards on behalf of its connection. -/
def Op.session : Op → Option Union
  | .queue msg _ | .sinkSend (.ws _) _ msg _ =>
      if msg.startsSession then some msg else none
  | _ => none

/-- The connection's sink goes into one of the tables, or a session that it
asked for goes out. -/
inductive Mark where
  | given
  | session
  deriving DecidableEq

def Op.mark : Op → Option Mark
  | .punchInsert _ _ | .wsInsert _ _ => some .given
  | op => op.session.map fun _ => .session

theorem Op.mark_of_session {op : Op} {msg : Union} (h : op.session = some msg) :
    op.mark = some .session := by
  cases op <;> first | (simp [Op.mark, h]; done) | cases h

/-- A session goes through `ws_map` or the queue, and was asked for. -/
theorem Op.Placed.askedBy {cfg : Config} {At : SocketAddr → ConnId → Prop}
    {owner : Option (ConnId × SocketAddr)} {op : Op} {msg : Union}
    (h : op.Placed cfg At owner) (hsession : op.session = some msg) :
    msg.AskedBy cfg owner ∧ msg.startsSession = true := by
  have hstarts {msg' : Union}
      (h : (if msg'.startsSession = true then some msg' else none) = some msg) :
      msg' = msg ∧ msg'.startsSession = true := by
    split at h
    · rename_i hs
      exact ⟨Option.some.inj h, hs⟩
    · cases h
  cases op with
  | queue msg' a =>
      obtain ⟨rfl, hs⟩ := hstarts hsession
      exact ⟨h, hs⟩
  | sinkSend via c msg' wire =>
      cases via with
      | direct => cases hsession
      | punch k => cases hsession
      | ws k =>
          obtain ⟨rfl, hs⟩ := hstarts hsession
          exact ⟨h.2, hs⟩
  | _ => cases hsession

theorem unmarked_answering : Answering (Task.silent Op.mark) where
  pm _ := liftPm_meets (fun _ _ _ _ => rfl) _
  punch := liftPm_get_meets fun _ _ _ _ => rfl
  looks op _ _ h := by
    cases op <;> simp_all [Task.silent, Op.looks, Op.mark, Op.session]
    rename_i via _ _ _
    cases via <;> simp_all
  rotate _ _ := rfl
  punchTake _ _ _ := rfl
  reply _ _ _ _ _ _ _ _ _ _ _ := rfl

/-- The first mark is not a session. -/
def GivenFirst (w : List Mark) : Prop := w.head? ≠ some .session

theorem givenFirst_nil : GivenFirst [] := nofun

theorem given_givenFirst (w : List Mark) : GivenFirst (.given :: w) := nofun

section marks
variable (cfg : Config) (rs : RendezvousServer)

theorem handleTcpMessage_givenFirst (conn : ConnId) (y : Sink) (addr : SocketAddr)
    (ws : Bool) (msg : Option Union) {β : Type} {g : Bool × Option Sink → ServerTask β}
    (hgo : ∀ y, (g (true, some y)).Says Op.mark GivenFirst)
    (hstop : ∀ sink, (g (false, sink)).Says Op.mark GivenFirst) :
    (handleTcpMessage cfg rs conn (some y) addr ws msg >>= g).Says Op.mark GivenFirst := by
  have hcases := handleTcpMessage_cases cfg rs conn (some y) addr ws msg
  generalize handleTcpMessage cfg rs conn (some y) addr ws msg = t at hcases
  cases hcases with
  | answers _ ht =>
      refine (ht.meets unmarked_answering (.start .empty)).says_bind givenFirst_nil ?_
      rintro ⟨go, sink⟩ s hlike
      cases hlike with
      | some hlike =>
          cases go with
          | false => exact hstop _
          | true => exact hgo _
  | enters _ _ ht =>
      rw [bind_assoc]
      refine (ht.meets unmarked_answering (.start .empty)).says_bind givenFirst_nil ?_
      rintro ⟨go, sink⟩ s hlike
      cases hlike with
      | some hlike =>
          cases go with
          | false => exact hstop _
          | true => exact ⟨givenFirst_nil, fun _ _ => Task.says_of_forall given_givenFirst _⟩
  | forwards _ _ => exact ⟨givenFirst_nil, fun _ _ => Task.says_of_forall given_givenFirst _⟩
  | panics _ => exact givenFirst_nil
  | setsKey _ _ => exact ⟨givenFirst_nil, fun _ _ => hgo _⟩

theorem serveTcp_givenFirst (conn : ConnId) (addr : SocketAddr) (y : Sink)
    (frames : List Bytes) :
    (serveTcp cfg rs conn addr (some y) frames).Says Op.mark GivenFirst := by
  induction frames generalizing y with
  | nil => exact givenFirst_nil
  | cons frame rest ih =>
      have hdecrypt (s : Shared) : (decryptFrame cfg conn (some y) frame).Meets
          (Task.silent Op.mark) (fun r _ => r.2.isSome) s := by
        simp only [decryptFrame]
        split
        · exact fun _ _ _ _ => ⟨rfl, rfl⟩
        · exact rfl
      refine ⟨givenFirst_nil, fun _ s => ?_⟩
      refine (hdecrypt s).says_bind givenFirst_nil ?_
      rintro ⟨bytes, sink⟩ s hsink
      obtain ⟨y', rfl⟩ := Option.isSome_iff_exists.mp hsink
      cases bytes with
      | none => exact givenFirst_nil
      | some bytes =>
          refine ⟨givenFirst_nil, fun _ _ => ?_⟩
          exact handleTcpMessage_givenFirst cfg rs conn y' addr false _ (fun y => ih y)
            fun _ => givenFirst_nil

theorem serveWs_givenFirst (conn : ConnId) (addr : SocketAddr) (y : Sink)
    (frames : List WsMessage) :
    (serveWs cfg rs conn addr (some y) frames).Says Op.mark GivenFirst := by
  induction frames generalizing y with
  | nil => exact givenFirst_nil
  | cons frame rest ih =>
      cases frame with
      | other => exact ih y
      | binary frame =>
          refine ⟨givenFirst_nil, fun _ _ => ⟨givenFirst_nil, fun _ _ => ?_⟩⟩
          exact handleTcpMessage_givenFirst cfg rs conn y addr true _ (fun y => ih y)
            fun _ => givenFirst_nil

theorem handleListenerInner_givenFirst (conn : ConnId) (addr : SocketAddr)
    (stream : Stream) :
    (handleListenerInner cfg rs conn addr stream).Says Op.mark GivenFirst := by
  have hserve : (serve cfg rs conn addr stream).Says Op.mark GivenFirst := by
    cases stream with
    | ws frames => exact serveWs_givenFirst cfg rs conn addr _ frames
    | tcp frames =>
        show Task.Says _ (bind (if cfg.key ≠ "" then _ else _) _) _
        split
        · have hanswers := (keyExchangePhase1_replying cfg rs (some { kind := .tss, conn })).meets
            unmarked_answering (.start .empty)
          refine hanswers.says_bind givenFirst_nil fun sink s hlike => ?_
          cases hlike with
          | some _ => exact serveTcp_givenFirst cfg rs conn addr _ frames
        · exact serveTcp_givenFirst cfg rs conn addr _ frames
  refine hserve.bind_silent (fun sink s => ?_) (.start .empty)
  exact closing_silent cfg addr sink conn (fun _ => rfl) rfl s

end marks

/-! ## What the run shows -/

section runs
variable (cfg : Config) {ι : Type} [DecidableEq ι] (jobs : ι → Job)

/-- Where a peer's answer that carries these bytes looks for a sink. -/
def Config.answerKey (bytes : Bytes) : SocketAddr :=
  cfg.x.tryIntoV4 (cfg.x.mangleDecode bytes)

/-- No two connections have the same address in `tcp_punch`. -/
def DistinctKeys : Prop :=
  ∀ i j c c' a a', (jobs i).owner = some (c, a) → (jobs j).owner = some (c', a') →
    cfg.x.tryIntoV4 a = cfg.x.tryIntoV4 a' → i = j

/-- The server has forwarded a request of connection `i` that names it by
`bytes`. -/
def ForwardedFor (i : ι) (bytes : Bytes) (es : List (ι × Event Env Op Shared)) : Prop :=
  ∃ ev msg, (i, ev) ∈ es ∧ ev.op.session = some msg ∧ msg.returnAddr = some bytes

/-- Connection `i` is not closed. -/
def StillOpen (i : ι) (es : List (ι × Event Env Op Shared)) : Prop :=
  ∀ ev k, (i, ev) ∈ es → ev.op ≠ .punchClose k

/-- The sink of connection `i` is not in `ws_map`. -/
def OffWsMap (i : ι) (es : List (ι × Event Env Op Shared)) : Prop :=
  ∀ ev k y, (i, ev) ∈ es → ev.op ≠ .wsInsert k y

/-- No answer has taken the sink of `conn` from under `k`. -/
def Unanswered (k : SocketAddr) (conn : ConnId)
    (es : List (ι × Event Env Op Shared)) : Prop :=
  ∀ j ev y, (j, ev) ∈ es → ev.op = .punchTake k →
    ev.pre.tcpPunch.lookup k = some y → y.conn ≠ conn

variable {cfg jobs} {db : Database} {es : List (ι × Event Env Op Shared)}
  {q : Pool ι Env Op Shared fun _ => Unit}

/-- A connection that has a request forwarded has given its sink away. -/
theorem given_of_forwarded (h : (server cfg jobs (.start db)).Run es q) {i : ι}
    {conn : ConnId} {addr : SocketAddr} (howner : (jobs i).owner = some (conn, addr))
    {bytes : Bytes} (hforwarded : ForwardedFor i bytes es) :
    ∃ ev, (i, ev) ∈ es ∧ ev.op.mark = some .given := by
  obtain ⟨ev, msg, hev, hsession, -⟩ := hforwarded
  have hfirst : GivenFirst ((own i es).filterMap fun ev => ev.op.mark) := by
    have hpath := h.path i
    cases hi : jobs i with
    | datagram rs bytes addr => rw [hi] at howner; cases howner
    | stream rs conn addr stream =>
        rw [show (server cfg jobs (.start db)).tasks i
          = handleListenerInner cfg rs conn addr stream by simp [server, hi, Job.task]] at hpath
        exact Task.Says.path hpath (handleListenerInner_givenFirst cfg rs conn addr stream)
  have hmark : Mark.session ∈ (own i es).filterMap fun ev => ev.op.mark := by
    exact List.mem_filterMap.mpr ⟨ev, mem_own.mpr hev, Op.mark_of_session hsession⟩
  cases hmarks : (own i es).filterMap fun ev => ev.op.mark with
  | nil => rw [hmarks] at hmark; cases hmark
  | cons m rest =>
      cases m with
      | session => rw [hmarks] at hfirst; exact (hfirst rfl).elim
      | given =>
          have hgiven : Mark.given ∈ (own i es).filterMap fun ev => ev.op.mark := by
            rw [hmarks]
            exact List.mem_cons_self
          obtain ⟨ev', hev', hmark'⟩ := List.mem_filterMap.mp hgiven
          exact ⟨ev', mem_own.mp hev', hmark'⟩

/-- A session that connection `i` has forwarded names its address. -/
theorem returnAddr_of_forwarded (h : (server cfg jobs (.start db)).Run es q) {i : ι}
    {conn : ConnId} {addr : SocketAddr} (howner : (jobs i).owner = some (conn, addr))
    {bytes : Bytes} (hforwarded : ForwardedFor i bytes es) :
    bytes = cfg.x.mangleEncode addr := by
  obtain ⟨ev, msg, hev, hsession, hbytes⟩ := hforwarded
  have hplaced := ((server_places cfg jobs h).1 i ev hev).2
  obtain ⟨hasked, hstarts⟩ := hplaced.askedBy hsession
  have hreturn := hasked hstarts conn addr howner
  rw [hbytes] at hreturn
  exact Option.some.inj hreturn

/-- Inserting and closing under other keys leaves an entry alone. -/
theorem lookup_punch_other {s s' : Shared} {op : Op} {k : SocketAddr}
    (heffect : op.effect s s') (htake : op ≠ .punchTake k)
    (hinsert : ∀ y, op ≠ .punchInsert k y) (hclose : op ≠ .punchClose k) :
    s'.tcpPunch.lookup k = s.tcpPunch.lookup k := by
  cases op with
  | pm op => obtain ⟨pm, rfl⟩ := heffect; rfl
  | punchInsert k' y =>
      cases heffect
      exact AList.lookup_insert_ne fun hk => hinsert y (hk ▸ rfl)
  | punchTake k' =>
      cases heffect
      exact AList.lookup_erase_ne fun hk => htake (hk ▸ rfl)
  | punchClose k' =>
      cases heffect
      exact AList.lookup_erase_ne fun hk => hclose (hk ▸ rfl)
  | _ => cases heffect; rfl

/-- A connection gives its sink away under its own key. -/
theorem key_of_insert (h : (server cfg jobs (.start db)).Run es q) {i : ι} {conn : ConnId}
    {addr : SocketAddr} (howner : (jobs i).owner = some (conn, addr)) {ev : Event Env Op Shared}
    {k : SocketAddr} {y : Sink} (hev : (i, ev) ∈ es) (hop : ev.op = .punchInsert k y) :
    k = cfg.x.tryIntoV4 addr := by
  obtain ⟨addr', howner', hk⟩ := hop ▸ ((server_places cfg jobs h).1 i ev hev).2
  rw [howner] at howner'
  cases howner'
  exact hk.symm

/-- **Ownership of an entry.** With distinct keys, a connection that has put
its sink into `tcp_punch` finds it there until it is answered or closes. -/
theorem waiting_lookup (h : (server cfg jobs (.start db)).Run es q)
    (hdistinct : DistinctKeys cfg jobs) {i : ι} {conn : ConnId} {addr : SocketAddr}
    (howner : (jobs i).owner = some (conn, addr)) {ev : Event Env Op Shared}
    {k : SocketAddr} {y : Sink} (hev : (i, ev) ∈ es) (hop : ev.op = .punchInsert k y)
    (hopen : StillOpen i es) (hunanswered : Unanswered k conn es) :
    k = cfg.x.tryIntoV4 addr
      ∧ ∃ y, q.shared.tcpPunch.lookup k = some y ∧ y.conn = conn := by
  have hk := key_of_insert h howner hev hop
  refine ⟨hk, ?_⟩
  -- whoever works on the key in `tcp_punch` is the connection itself
  have hself {j : ι} {addr' : SocketAddr} {c : ConnId}
      (hj : (jobs j).owner = some (c, addr')) (hkey : cfg.x.tryIntoV4 addr' = k) :
      j = i := (hdistinct i j _ _ _ _ howner hj (hk ▸ hkey.symm)).symm
  induction h with
  | start => cases hev
  | @step es q j e op f kont hrun hj ih =>
      obtain ⟨heffect, hplaced⟩ := (server_places cfg jobs (hrun.step j e hj)).1 j
        ⟨op, e, q.shared, f e q.shared⟩ (by simp)
      have hnew : ∀ y', op = .punchInsert k y' →
          ∃ y, (f e q.shared).tcpPunch.lookup k = some y ∧ y.conn = conn := by
        rintro y' rfl
        obtain ⟨addr', hj', hkey⟩ := hplaced
        have hji := hself hj' hkey
        subst hji
        rw [howner] at hj'
        cases hj'
        have hpost : f e q.shared = { q.shared with
            tcpPunch := q.shared.tcpPunch.insert k y' } := heffect
        exact ⟨y', by rw [hpost]; exact AList.lookup_insert _, rfl⟩
      by_cases hinsert : ∃ y', op = .punchInsert k y'
      · obtain ⟨y', hy'⟩ := hinsert
        exact hnew y' hy'
      · have hbefore : (i, ev) ∈ es := by
          rcases List.mem_append.mp hev with hev | hev
          · exact hev
          · simp only [List.mem_singleton, Prod.mk.injEq] at hev
            obtain ⟨-, rfl⟩ := hev
            exact (hinsert ⟨y, hop⟩).elim
        obtain ⟨y', hlookup, hconn⟩ := ih hbefore
          (fun ev k' hev' => hopen ev k' (List.mem_append_left _ hev'))
          fun j ev y hev' => hunanswered j ev y (List.mem_append_left _ hev')
        have htake : op ≠ .punchTake k := by
          rintro rfl
          exact hunanswered j _ y' (List.mem_append_right _ (List.mem_singleton.mpr rfl))
            rfl hlookup hconn
        have hclose : op ≠ .punchClose k := by
          rintro rfl
          obtain ⟨c, addr', hj', hkey⟩ := hplaced
          have hji := hself hj' hkey
          subst hji
          exact hopen _ k (List.mem_append_right _ (List.mem_singleton.mpr rfl)) rfl
        have hsame := lookup_punch_other heffect htake
          (fun y'' hy'' => hinsert ⟨y'', hy''⟩) hclose
        exact ⟨y', hsame.trans hlookup, hconn⟩

/-- The key that answers carry is the key of the connection that asked. -/
theorem answerKey_of_forwarded
    (hdecode : ∀ a, cfg.x.mangleDecode (cfg.x.mangleEncode a) = cfg.x.tryIntoV4 a)
    (hidem : ∀ a, cfg.x.tryIntoV4 (cfg.x.tryIntoV4 a) = cfg.x.tryIntoV4 a)
    (h : (server cfg jobs (.start db)).Run es q) {i : ι} {conn : ConnId}
    {addr : SocketAddr} (howner : (jobs i).owner = some (conn, addr))
    {bytes : Bytes} (hforwarded : ForwardedFor i bytes es) :
    cfg.answerKey bytes = cfg.x.tryIntoV4 addr := by
  rw [returnAddr_of_forwarded h howner hforwarded, Config.answerKey, hdecode, hidem]

/-- What an answer takes out of `tcp_punch` it is written to. -/
theorem sendToTcp_writes (x : External) {msg : Union} {addr : SocketAddr} {s : Shared}
    {y : Sink} {bytes : Bytes} (hlookup : s.tcpPunch.lookup (x.tryIntoV4 addr) = some y)
    (hbytes : x.writeToBytes ⟨some msg⟩ = some bytes) :
    ∃ wire, ∀ e e' s', Task.Path (sendToTcp x msg addr)
      [⟨.punchTake (x.tryIntoV4 addr), e, s,
          { s with tcpPunch := s.tcpPunch.erase (x.tryIntoV4 addr) }⟩,
        ⟨.sinkSend (.punch (x.tryIntoV4 addr)) y.conn msg wire, e', s', s'⟩] (.done ()) := by
  have hpath {wire : Bytes} {r : Sink}
      (hsend : y.send x (.punch (x.tryIntoV4 addr)) msg = (do
        note (.sinkSend (.punch (x.tryIntoV4 addr)) y.conn msg wire)
        return r)) (e e' : Env) (s' : Shared) :
      Task.Path (sendToTcp x msg addr)
        [⟨.punchTake (x.tryIntoV4 addr), e, s,
            { s with tcpPunch := s.tcpPunch.erase (x.tryIntoV4 addr) }⟩,
          ⟨.sinkSend (.punch (x.tryIntoV4 addr)) y.conn msg wire, e', s', s'⟩] (.done ()) := by
    refine .cons e s ?_
    show Task.Path (sendToSink x _ (s.tcpPunch.lookup (x.tryIntoV4 addr)) msg >>= _) _ _
    rw [hlookup, sendToSink, hsend]
    exact .cons e' s' (.nil _)
  cases hkey : y.encrypt with
  | none => exact ⟨bytes, hpath (by simp [Sink.send, hbytes, hkey]; rfl)⟩
  | some key => exact ⟨x.enc key bytes, hpath (by simp [Sink.send, hbytes, hkey]; rfl)⟩

/-- An answer that names a connection is written to no other. -/
theorem answer_conn
    (hdecode : ∀ a, cfg.x.mangleDecode (cfg.x.mangleEncode a) = cfg.x.tryIntoV4 a)
    (hidem : ∀ a, cfg.x.tryIntoV4 (cfg.x.tryIntoV4 a) = cfg.x.tryIntoV4 a)
    (h : (server cfg jobs (.start db)).Run es q) (hdistinct : DistinctKeys cfg jobs)
    {i j : ι} {conn c : ConnId} {addr : SocketAddr}
    (howner : (jobs i).owner = some (conn, addr)) {bytes : Bytes}
    (hforwarded : ForwardedFor i bytes es) {ev : Event Env Op Shared} (hev : (j, ev) ∈ es)
    {msg : Union} {wire : Bytes}
    (hop : ev.op = .sinkSend (.punch (cfg.answerKey bytes)) c msg wire) : c = conn := by
  have hplaced := ((server_places cfg jobs h).1 j ev hev).2
  rw [hop] at hplaced
  obtain ⟨⟨i', addr', howner', hkey⟩, -⟩ := hplaced
  rw [answerKey_of_forwarded hdecode hidem h howner hforwarded] at hkey
  have hii := hdistinct i' i _ _ _ _ howner' howner hkey
  subst hii
  rw [howner] at howner'
  cases howner'
  rfl

/-- Nobody else's insert or close changes the entry of a connection. -/
theorem entry_kept (h : (server cfg jobs (.start db)).Run es q)
    (hdistinct : DistinctKeys cfg jobs) {i j : ι} {conn : ConnId} {addr : SocketAddr}
    (howner : (jobs i).owner = some (conn, addr)) (hji : j ≠ i)
    {ev : Event Env Op Shared} (hev : (j, ev) ∈ es)
    (hop : (∃ k y, ev.op = .punchInsert k y) ∨ (∃ k, ev.op = .punchClose k)) :
    ev.post.tcpPunch.lookup (cfg.x.tryIntoV4 addr)
      = ev.pre.tcpPunch.lookup (cfg.x.tryIntoV4 addr) := by
  obtain ⟨heffect, hplaced⟩ := (server_places cfg jobs h).1 j ev hev
  have hother {c : ConnId} {addr' : SocketAddr} (hj : (jobs j).owner = some (c, addr')) :
      cfg.x.tryIntoV4 addr' ≠ cfg.x.tryIntoV4 addr :=
    fun hkey => hji (hdistinct j i _ _ _ _ hj howner hkey)
  apply lookup_punch_other heffect
  · intro htake
    rw [htake] at hop
    rcases hop with ⟨_, _, hop⟩ | ⟨_, hop⟩ <;> cases hop
  · intro y hinsert
    rw [hinsert] at hplaced
    obtain ⟨addr', hj, hkey⟩ := hplaced
    exact hother hj hkey
  · intro hclose
    rw [hclose] at hplaced
    obtain ⟨c, addr', hj, hkey⟩ := hplaced
    exact hother hj hkey

/-- The sink of a connection that is off `ws_map` was given to `tcp_punch`, and
an answer finds it there. -/
theorem answer_finds
    (hdecode : ∀ a, cfg.x.mangleDecode (cfg.x.mangleEncode a) = cfg.x.tryIntoV4 a)
    (hidem : ∀ a, cfg.x.tryIntoV4 (cfg.x.tryIntoV4 a) = cfg.x.tryIntoV4 a)
    (h : (server cfg jobs (.start db)).Run es q) (hdistinct : DistinctKeys cfg jobs)
    {i : ι} {conn : ConnId} {addr : SocketAddr}
    (howner : (jobs i).owner = some (conn, addr)) {bytes : Bytes}
    (hforwarded : ForwardedFor i bytes es) (hopen : StillOpen i es)
    (hunanswered : Unanswered (cfg.answerKey bytes) conn es) (hws : OffWsMap i es) :
    ∃ y, q.shared.tcpPunch.lookup (cfg.answerKey bytes) = some y ∧ y.conn = conn := by
  obtain ⟨ev, hev, hmark⟩ := given_of_forwarded h howner hforwarded
  have hinsert : ∃ k y, ev.op = .punchInsert k y := by
    cases hop : ev.op with
    | punchInsert k y => exact ⟨k, y, rfl⟩
    | wsInsert k y => exact (hws ev k y hev hop).elim
    | _ =>
        rw [hop] at hmark
        simp [Op.mark] at hmark
  obtain ⟨k, y, hop⟩ := hinsert
  have hk := key_of_insert h howner hev hop
  rw [answerKey_of_forwarded hdecode hidem h howner hforwarded, ← hk] at hunanswered ⊢
  exact (waiting_lookup h hdistinct howner hev hop hopen hunanswered).2

end runs

/-! Two WebSocket clients: one asks for a peer, which answers over TCP; the
other asks for an unknown id meanwhile. -/

inductive Party where
  | peer
  | asker
  | other
  | answerer
  deriving DecidableEq

def askerAddr : SocketAddr := ⟨.v4 2, 0⟩

def replyConfig : Config where
  x := .sample [([0], .registerPk { id := "123456", uuid := [1], pk := [2] }),
    ([1], .punchHoleRequest { id := "123456" }), ([2], .requestRelay { id := "unknown" }),
    ([3], .punchHoleSent { socketAddr := askerAddr.toBytes })]

def replyJobs (otherAddr : SocketAddr) : Party → Job
  | .peer => .datagram {} [0] ⟨.v4 1, 50000⟩
  | .asker => .stream {} 0 askerAddr (.ws [.binary [1]])
  | .other => .stream {} 1 otherAddr (.ws [.binary [2]])
  | .answerer => .stream {} 2 ⟨.v4 1, 50001⟩ (.tcp [[3]])

def replySchedule : List (Party × Env) :=
  List.replicate 13 (.peer, { now := 0 }) ++ List.replicate 9 (.asker, { now := 0 })
    ++ List.replicate 4 (.other, { now := 0 }) ++ List.replicate 5 (.answerer, { now := 0 })

def replyRun (otherAddr : SocketAddr) : List (Party × Event Env Op Shared) :=
  ((server replyConfig (replyJobs otherAddr) (.start .empty)).play replySchedule).1

def Op.closes : Op → Bool
  | .punchClose _ => true
  | _ => false

/-- The key and the connection of an answer to a punch-hole request. -/
def Op.answered : Op → Option (SocketAddr × ConnId)
  | .sinkSend (.punch k) conn _ _ => some (k, conn)
  | _ => none

theorem Op.answered_eq_some {op : Op} {k : SocketAddr} {conn : ConnId}
    (h : op.answered = some (k, conn)) : ∃ msg wire, op = .sinkSend (.punch k) conn msg wire := by
  unfold Op.answered at h
  split at h
  · cases h
    exact ⟨_, _, rfl⟩
  · cases h

end KustDesk
