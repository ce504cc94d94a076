import KustDesk.Answers

/-!
# KustDesk — Encryption

Which frames of a connection are decrypted. The key lives in the sink: once
a request has moved the sink into `tcp_punch`, and on a WebSocket always,
later frames go to `handle_tcp` as they arrive.
-/

namespace KustDesk

open Async

/-! ## The frames of a connection -/

/-- What happens to the frames of one connection. -/
inductive Wire where
  | recv (frame : Bytes)
  | decrypt (key : Encrypt) (frame : Bytes)
  | handle (bytes : Bytes)
  | setKey (key : Bytes)
  deriving DecidableEq

def Op.wire : Op → Option Wire
  | .recv _ frame => some (.recv frame)
  | .decrypt _ key frame => some (.decrypt key frame)
  | .handleTcp _ bytes => some (.handle bytes)
  | .setKey _ key => some (.setKey key)
  | _ => none

/-- How far an encrypted session is: no key yet; a key and the frames that
have come in under it; one more frame, not decrypted yet; and decrypted. -/
inductive Phase where
  | plain
  | keyed (key : Bytes) (received : List Bytes)
  | arrived (key : Bytes) (received : List Bytes) (frame : Bytes)
  | opened (key : Bytes) (received : List Bytes) (bytes : Option Bytes)
  deriving DecidableEq

/-- The protocol: under a key, a frame that arrives is decrypted, under this
key and with the number it has, and handled as the plaintext this gives. -/
def Phase.next (x : External) : Phase → Wire → Option Phase
  | .plain, .setKey key => some (.keyed key [])
  | .plain, _ => some .plain
  | .keyed _ _, .setKey key => some (.keyed key [])
  | .keyed key received, .recv frame => some (.arrived key received frame)
  | .arrived key received frame, .decrypt enc frame' =>
      if enc.key = key ∧ enc.received = received ∧ frame' = frame then
        some (.opened key (received ++ [frame]) (x.dec enc frame))
      else none
  | .opened key received (some bytes), .handle bytes' =>
      if bytes' = bytes then some (.keyed key received) else none
  | _, _ => none

/-- The trace keeps to the protocol from this phase on. -/
def Phase.accepts (x : External) : Phase → List Wire → Bool
  | _, [] => true
  | φ, v :: w =>
    match φ.next x v with
    | some φ => φ.accepts x w
    | none => false

/-- Every frame handled after a key was put on the connection came over TCP,
and to a connection that had not sent one of these messages before. -/
def covered (cfg : Config) (tcp : Bool) : (keyed moved : Bool) → List Wire → Bool
  | _, _, [] => true
  | _, moved, .setKey _ :: w => covered cfg tcp true moved w
  | keyed, moved, .handle bytes :: w =>
      (!keyed || tcp && !moved)
        && covered cfg tcp keyed (moved || movesSink (cfg.message bytes)) w
  | keyed, moved, .recv _ :: w => covered cfg tcp keyed moved w
  | keyed, moved, .decrypt _ _ :: w => covered cfg tcp keyed moved w

/-! ## What the handlers show -/

variable (cfg : Config) (rs : RendezvousServer)

/-- What a message makes of the sink when the connection goes on, all but a
key exchange. -/
def KeepsSink (ws : Bool) (sink : Option Sink) (msg : Option Union)
    (r : Bool × Option Sink) : Prop :=
  r.1 = true →
    movesSink msg = true ∧ r.2 = none
    ∨ movesSink msg = false ∧ (ws = true ∧ r.2 = none ∨ Option.Rel Sink.Like r.2 sink)

/-- The end of the connection. -/
def Op.ends : Op → Bool
  | .closed _ => true
  | _ => false

section silent
variable {cfg rs} {ω : Type} {see : Op → Option ω}
  (hsee : ∀ op, op.wire = none → op.ends = false → see op = none)
include hsee

theorem silent_answering : Answering (Task.silent see) where
  pm _ := liftPm_meets (fun _ _ _ _ => hsee _ rfl rfl) _
  punch := liftPm_get_meets fun _ _ _ _ => hsee _ rfl rfl
  looks op _ _ h := by
    cases op <;> first | exact hsee _ rfl rfl | cases h
  rotate _ _ := hsee _ rfl rfl
  punchTake _ _ _ := hsee _ rfl rfl
  reply _ _ _ _ _ _ _ _ _ _ _ := hsee _ rfl rfl

theorem handleTcpPunchHoleRequest_silent (addr : SocketAddr) (ph : PunchHoleRequest)
    (ws : Bool) (s : Shared) :
    (handleTcpPunchHoleRequest cfg rs addr ph ws).Meets (Task.silent see)
      (fun _ _ => True) s := by
  have hc := silent_answering hsee
  refine ((handlePunchHoleRequest_replying cfg rs addr ph ws).meets hc s).bind fun r s hr => ?_
  obtain ⟨msg, toAddr⟩ := r
  cases toAddr with
  | none => exact sendToTcp_meets hc _ (hr.1 rfl) _ s
  | some addr =>
      refine Task.Meets.act_bind fun e s' _ _ => ⟨hsee _ rfl rfl, ?_⟩
      split
      · rename_i y _
        exact (y.send_meets cfg.x _ msg (fun _ _ _ => hsee _ rfl rfl) _).bind fun _ _ _ => trivial
      · exact fun _ _ _ _ => ⟨hsee _ rfl rfl, trivial⟩

theorem giveAway_silent (sink : Option Sink) (addr : SocketAddr) (s : Shared) :
    (giveAway cfg sink addr).Meets (Task.silent see) (fun _ _ => True) s := by
  cases sink with
  | none => trivial
  | some y => exact fun _ _ _ _ => ⟨hsee _ rfl rfl, trivial⟩

theorem forwardRelay_silent (addr : SocketAddr) (rf : RequestRelay) (s : Shared) :
    (forwardRelay cfg addr rf).Meets (Task.silent see) (fun _ _ => True) s := by
  have hc := silent_answering hsee
  refine (look_meets hc rfl _ s).bind fun peer s _ => ?_
  cases peer with
  | none => trivial
  | some peer =>
      refine (hc.pm (.readAddr (x := cfg.x) _ _) s).bind fun addr s _ => ?_
      exact fun _ _ _ _ => ⟨hsee _ rfl rfl, trivial⟩

theorem handleTcpMessage_silent (conn : ConnId) (sink : Option Sink)
    (addr : SocketAddr) (ws : Bool) {msg : Option Union}
    (hmsg : ∀ ex, msg ≠ some (.keyExchange ex)) (s : Shared) :
    (handleTcpMessage cfg rs conn sink addr ws msg).Meets (Task.silent see)
      (fun r _ => KeepsSink ws sink msg r) s := by
  have hc := silent_answering hsee
  have hcases := handleTcpMessage_cases cfg rs conn sink addr ws msg
  generalize handleTcpMessage cfg rs conn sink addr ws msg = t at hcases
  cases hcases with
  | answers hkept ht => exact (ht.meets hc s).mono fun _ _ hlike _ => .inr ⟨hkept, .inr hlike⟩
  | enters hkept hws ht =>
      refine (ht.meets hc s).bind fun r s _ => ?_
      refine (enterWs_meets cfg addr r (fun _ _ _ _ => hsee _ rfl rfl) s).mono ?_
      rintro r' - (⟨-, hnone⟩ | ⟨rfl, hstop⟩) hgo
      · exact .inr ⟨hkept, .inl ⟨hws, hnone⟩⟩
      · rw [hstop] at hgo
        cases hgo
  | forwards hmsg' ht =>
      have hmoves : movesSink msg = true := hmsg' ▸ ht.movesSink
      refine (giveAway_silent hsee sink addr s).bind fun _ s _ => ?_
      cases ht with
      | punchHole ph =>
          exact (handleTcpPunchHoleRequest_silent hsee addr ph ws s).bind
            fun _ _ _ _ => .inl ⟨hmoves, rfl⟩
      | relay rf =>
          exact (forwardRelay_silent hsee addr rf s).bind fun _ _ _ _ => .inl ⟨hmoves, rfl⟩
  | panics => trivial
  | setsKey hkey => exact (hmsg _ hkey).elim

end silent

/-! ## Where the key is -/

/-- The trace `w` keeps to the protocol exactly if it is covered. -/
def Agree (tcp : Bool) (φ : Phase) (keyed moved : Bool) (w : List Wire) : Prop :=
  φ.accepts cfg.x w = covered cfg tcp keyed moved w

/-- The states of a connection between two messages: no key yet; the key in
a TCP sink that is still here; under a key without the sink, or on a
WebSocket. -/
inductive Mode : (tcp : Bool) → Option Sink → Phase → (keyed moved : Bool) → Prop
  | plain {tcp sink moved} (hplain : ∀ y ∈ sink, y.encrypt = none)
      (hkind : tcp = true → ∀ y ∈ sink, y.kind = .tss)
      (hmoved : tcp = true → sink ≠ none → moved = false) :
      Mode tcp sink .plain false moved
  | keyed {y enc} (hkind : y.kind = .tss) (hkey : y.encrypt = some enc) :
      Mode true (some y) (.keyed enc.key enc.received) true false
  | gone {key received} : Mode true none (.keyed key received) true true
  | ws {sink key received moved} : Mode false sink (.keyed key received) true moved

variable {cfg}

/-- A sink that differs in what was sent only, or none on a WebSocket,
leaves the mode as it is. -/
theorem Mode.like {ws : Bool} {sink sink' : Option Sink} {φ : Phase}
    {keyed moved : Bool} (h : Mode (!ws) sink φ keyed moved)
    (hlike : ws = true ∧ sink' = none ∨ Option.Rel Sink.Like sink' sink) :
    Mode (!ws) sink' φ keyed moved := by
  rcases hlike with ⟨rfl, rfl⟩ | hlike
  · cases h with
    | plain _ _ _ => exact .plain nofun nofun nofun
    | ws => exact .ws
  · cases hlike with
    | none => exact h
    | @some y' y hy =>
        obtain ⟨hkind, -, henc⟩ := hy
        generalize htcp : (!ws) = tcp at h ⊢
        cases h with
        | plain hplain hk hmoved =>
            have hnone : y'.encrypt = none := by
              rw [hplain y rfl] at henc
              simpa using henc
            refine .plain ?_ (fun ht z hz => ?_) fun ht _ => hmoved ht nofun
            · rintro z ⟨⟩; exact hnone
            · cases hz; rw [hkind]; exact hk ht y rfl
        | @keyed _ enc hk hkey =>
            rw [hkey] at henc
            obtain ⟨enc', henc', hpair⟩ := Option.map_eq_some_iff.mp henc
            obtain ⟨hkey', hrec'⟩ := Prod.mk.inj hpair
            rw [← hkey', ← hrec']
            exact .keyed (hkind.trans hk) henc'
        | ws => exact .ws

/-- Giving the sink away. -/
theorem Mode.moved {tcp : Bool} {sink : Option Sink} {φ : Phase}
    {keyed moved : Bool} (h : Mode tcp sink φ keyed moved) :
    Mode tcp none φ keyed true := by
  cases h with
  | plain _ _ _ => exact .plain nofun (fun _ => nofun) fun _ h => (h rfl).elim
  | keyed _ _ => exact .gone
  | gone => exact .gone
  | ws => exact .ws

theorem Mode.fresh {y : Sink} (hkind : y.kind = .tss) (key : Bytes) :
    Mode true (some { y with encrypt := some { key } }) (.keyed key []) true false :=
  @Mode.keyed { y with encrypt := some { key } } { key } hkind rfl

variable (cfg) in
/-- The key exchange: from here on the trace is under the new key. -/
theorem Mode.setKey {tcp : Bool} {y : Sink} {φ : Phase} {keyed moved : Bool}
    (h : Mode tcp (some y) φ keyed moved) (key : Bytes) :
    Mode tcp (some { y with encrypt := some { key } }) (.keyed key []) true moved
      ∧ ∀ w, Agree cfg tcp (.keyed key []) true moved w →
        Agree cfg tcp φ keyed moved (.setKey key :: w) := by
  cases h with
  | plain _ hkind hmoved =>
      refine ⟨?_, fun w hw => hw⟩
      cases tcp with
      | false => exact .ws
      | true =>
          rw [hmoved rfl nofun]
          exact .fresh (hkind rfl y rfl) key
  | keyed hkind _ => exact ⟨.fresh hkind key, fun w hw => hw⟩
  | ws => exact ⟨.ws, fun w hw => hw⟩

/-! ## Connections -/

variable (cfg)

/-- One message, after it has been handed over: what follows sees the mode
the message leaves, or the end of the connection. -/
theorem handleTcpMessage_shows (conn : ConnId) {sink : Option Sink}
    (addr : SocketAddr) (ws : Bool) (msg : Option Union) {φ : Phase}
    {keyed moved : Bool} (hmode : Mode (!ws) sink φ keyed moved) {β : Type}
    {g : Bool × Option Sink → ServerTask β}
    (hgo : ∀ sink φ keyed moved, Mode (!ws) sink φ keyed moved →
      (g (true, sink)).Says Op.wire (Agree cfg (!ws) φ keyed moved))
    (hstop : ∀ sink (R : List Wire → Prop), R [] → (g (false, sink)).Says Op.wire R) :
    (handleTcpMessage cfg rs conn sink addr ws msg >>= g).Says Op.wire
      (Agree cfg (!ws) φ keyed (moved || movesSink msg)) := by
  by_cases hex : ∃ ex, msg = some (.keyExchange ex)
  · obtain ⟨ex, rfl⟩ := hex
    rw [show (moved || movesSink (some (.keyExchange ex))) = moved from Bool.or_false _]
    show (handleKeyExchange cfg rs conn ex sink >>= g).Says _ _
    obtain ⟨why, h⟩ | h | ⟨rfl, h⟩ | ⟨y, key, rfl, h⟩ :=
      handleKeyExchange_cases cfg rs conn ex sink
    · rw [h]; exact rfl
    · rw [h]; exact hstop _ _ rfl
    · rw [h]; exact hgo _ _ _ _ hmode
    · rw [h]
      obtain ⟨hmode', hagree⟩ := hmode.setKey cfg key
      exact ⟨rfl, fun _ _ => (hgo _ _ _ _ hmode').mono hagree⟩
  · have hne : ∀ ex, msg ≠ some (.keyExchange ex) := fun ex h => hex ⟨ex, h⟩
    have hnil : Agree cfg (!ws) φ keyed (moved || movesSink msg) [] := rfl
    refine Task.Meets.says_bind hnil
      (handleTcpMessage_silent (fun _ h _ => h) conn sink addr ws hne (.start .empty)) ?_
    rintro ⟨go, sink'⟩ s hkeeps
    cases go with
    | false => exact hstop _ _ rfl
    | true =>
        obtain ⟨hmoves, hsink⟩ | ⟨hmoves, hlike⟩ := hkeeps rfl
        · dsimp only at hsink
          subst hsink
          rw [hmoves, Bool.or_true]
          exact hgo _ _ _ _ hmode.moved
        · rw [hmoves, Bool.or_false]
          exact hgo _ _ _ _ (hmode.like hlike)

theorem decryptFrame_plain (conn : ConnId) {sink : Option Sink} (frame : Bytes)
    (hplain : ∀ y ∈ sink, y.encrypt = none) :
    decryptFrame cfg conn sink frame = .done (some frame, sink) := by
  cases sink with
  | none => rfl
  | some y => simp [decryptFrame, hplain y rfl]

theorem decryptFrame_keyed (conn : ConnId) {y : Sink} {enc : Encrypt} (frame : Bytes)
    (hkind : y.kind = .tss) (hkey : y.encrypt = some enc) :
    decryptFrame cfg conn (some y) frame = (do
      note (.decrypt conn enc frame)
      return (cfg.x.dec enc frame,
        some { y with encrypt := some { enc with received := enc.received ++ [frame] } })) := by
  simp [decryptFrame, hkind, hkey]

theorem serveTcp_shows (conn : ConnId) (addr : SocketAddr) {sink : Option Sink}
    (frames : List Bytes) {φ : Phase} {keyed moved : Bool}
    (hmode : Mode true sink φ keyed moved) :
    (serveTcp cfg rs conn addr sink frames).Says Op.wire
      (Agree cfg true φ keyed moved) := by
  induction frames generalizing sink φ keyed moved with
  | nil => exact rfl
  | cons frame rest ih =>
      refine ⟨rfl, fun _ _ => ?_⟩
      -- what is left of the iteration once the bytes to handle are known
      have hhandle {sink : Option Sink} {φ : Phase} {keyed moved : Bool} (bytes : Bytes)
          (hmode : Mode true sink φ keyed moved) :
          (do let r ← handleTcpMessage cfg rs conn sink addr false (cfg.message bytes)
              if r.1 then serveTcp cfg rs conn addr r.2 rest else return r.2).Says Op.wire
            (Agree cfg true φ keyed (moved || movesSink (cfg.message bytes))) :=
        handleTcpMessage_shows cfg rs conn addr false (cfg.message bytes) hmode
          (fun _ _ _ _ h => ih h) fun _ _ hR => hR
      cases hmode with
      | plain hplain hkind hmoved =>
          show (decryptFrame cfg conn sink frame >>= _).Says _ _
          rw [decryptFrame_plain cfg conn frame hplain]
          exact ⟨rfl, fun _ _ => hhandle frame (.plain hplain hkind hmoved)⟩
      | @keyed y enc hkind hkey =>
          show (decryptFrame cfg conn (some y) frame >>= _).Says _ _
          rw [decryptFrame_keyed cfg conn frame hkind hkey]
          have hagree (w : List Wire) :
              Agree cfg true (.opened enc.key (enc.received ++ [frame]) (cfg.x.dec enc frame))
                true false w →
              Agree cfg true (.keyed enc.key enc.received) true false
                (.recv frame :: .decrypt enc frame :: w) := by
            simp [Agree, Phase.accepts, Phase.next, covered]
          refine ⟨rfl, fun _ _ => Task.Says.mono hagree ?_⟩
          cases cfg.x.dec enc frame with
          | none => exact rfl
          | some bytes =>
              refine ⟨rfl, fun _ _ => ?_⟩
              refine Task.Says.mono ?_ (hhandle bytes (.keyed (y := { y with
                encrypt := some { enc with received := enc.received ++ [frame] } }) hkind rfl))
              intro w hw
              show Agree cfg true (.opened enc.key (enc.received ++ [frame]) (some bytes))
                true false (.handle bytes :: w)
              simpa [Agree, Phase.accepts, Phase.next, covered] using hw
      | gone =>
          refine ⟨rfl, fun _ _ => ?_⟩
          exact Task.says_of_forall (fun w => rfl) _

theorem serveWs_shows (conn : ConnId) (addr : SocketAddr) {sink : Option Sink}
    (frames : List WsMessage) {φ : Phase} {keyed moved : Bool}
    (hmode : Mode false sink φ keyed moved) :
    (serveWs cfg rs conn addr sink frames).Says Op.wire
      (Agree cfg false φ keyed moved) := by
  induction frames generalizing sink φ keyed moved with
  | nil => exact rfl
  | cons frame rest ih =>
      cases frame with
      | other => exact ih hmode
      | binary frame =>
          cases hmode with
          | plain hplain hkind hmoved =>
              refine ⟨rfl, fun _ _ => ⟨rfl, fun _ _ => ?_⟩⟩
              exact handleTcpMessage_shows cfg rs conn addr true (cfg.message frame)
                (.plain hplain hkind hmoved) (fun _ _ _ _ h => ih h) fun _ _ hR => hR
          | ws => exact ⟨rfl, fun _ _ => ⟨rfl, fun _ _ => Task.says_of_forall (fun w => rfl) _⟩⟩

/-- The mode a connection starts in. -/
theorem Mode.start {tcp : Bool} {y : Sink} (hplain : y.encrypt = none)
    (hkind : tcp = true → y.kind = .tss) : Mode tcp (some y) .plain false false := by
  refine .plain ?_ (fun htcp z hz => ?_) fun _ _ => rfl
  · rintro z ⟨⟩; exact hplain
  · cases hz; exact hkind htcp

def Stream.isTcp : Stream → Bool
  | .tcp _ => true
  | .ws _ => false

theorem serve_shows (conn : ConnId) (addr : SocketAddr) (stream : Stream) :
    (serve cfg rs conn addr stream).Says Op.wire
      (Agree cfg stream.isTcp .plain false false) := by
  cases stream with
  | ws frames =>
      exact serveWs_shows cfg rs conn addr frames (.start rfl nofun)
  | tcp frames =>
      have hmode : Mode (!false) (some { kind := .tss, conn }) .plain false false :=
        .start rfl fun _ => rfl
      show Task.Says _ (bind (if cfg.key ≠ "" then _ else _) _) _
      split
      · have hnil : Agree cfg true .plain false false [] := rfl
        have hanswers := (keyExchangePhase1_replying cfg rs (some { kind := .tss, conn })).meets
          (silent_answering fun _ h _ => h) (.start .empty)
        refine hanswers.says_bind hnil fun sink s hlike => ?_
        exact serveTcp_shows cfg rs conn addr frames (hmode.like (.inr hlike))
      · exact serveTcp_shows cfg rs conn addr frames hmode

theorem handleListenerInner_shows (conn : ConnId) (addr : SocketAddr) (stream : Stream) :
    (handleListenerInner cfg rs conn addr stream).Says Op.wire
      (Agree cfg stream.isTcp .plain false false) := by
  refine (serve_shows cfg rs conn addr stream).bind_silent (fun sink s => ?_) (.start .empty)
  exact closing_silent cfg addr sink conn (fun _ => rfl) rfl s

/-- What a run shows of the frames of one of its connections. -/
def wireTrace {ι : Type} [DecidableEq ι] (i : ι) (es : List (ι × Event Env Op Shared)) :
    List Wire :=
  (own i es).filterMap fun ev => ev.op.wire

/-- **Encrypted sessions.** In every run, a connection's frames keep to the
protocol exactly if each one that was handled under a key came over TCP,
before a punch-hole or relay request had moved the sink. -/
theorem wireTrace_accepted_iff {ι : Type} [DecidableEq ι] (jobs : ι → Job)
    (s : Shared) {es} {q} (h : (server cfg jobs s).Run es q) {i : ι} {conn : ConnId}
    {addr : SocketAddr} {stream : Stream} (hi : jobs i = .stream rs conn addr stream) :
    Phase.plain.accepts cfg.x (wireTrace i es) = true
      ↔ covered cfg stream.isTcp false false (wireTrace i es) = true := by
  have hpath := h.path i
  rw [show (server cfg jobs s).tasks i = handleListenerInner cfg rs conn addr stream by
    simp [server, hi, Job.task]] at hpath
  have hagree := Task.Says.path hpath (handleListenerInner_shows cfg rs conn addr stream)
  exact Bool.eq_iff_iff.mp hagree

/-! A server with one client, that sends a key exchange (`[0]`) and then
encrypted messages (`[1]`, enciphered as `[254]`). -/

def sessionConfig (msg : Union) : Config where
  x := .sample [([0], .keyExchange { keys := [List.replicate 32 0, List.replicate 48 0] }),
    ([1], msg)]

def sessionServer (msg : Union) (stream : Stream) : Pool Unit Env Op Shared fun _ => Unit :=
  server (sessionConfig msg) (fun _ => .stream {} 0 .unspecified stream) (.start .empty)

def sessionRun (msg : Union) (stream : Stream) : List (Unit × Event Env Op Shared) :=
  ((sessionServer msg stream).play (List.replicate 30 ((), { now := 0 }))).1

/-- Over TCP, registering a key leaves the session encrypted. -/
theorem wireTrace_accepted_registerPk :
    Phase.plain.accepts
      (sessionConfig (.registerPk { id := "123456", uuid := [1], pk := [2] })).x
      (wireTrace () (sessionRun (.registerPk { id := "123456", uuid := [1], pk := [2] })
        (.tcp [[0], [254], [254]]))) = true := by
  have hrun := Pool.play_run (sessionServer (.registerPk { id := "123456", uuid := [1], pk := [2] })
    (.tcp [[0], [254], [254]])) (List.replicate 30 ((), { now := 0 }))
  have hiff := wireTrace_accepted_iff _ {} _ _ hrun (i := ()) rfl
  exact hiff.mpr (by decide)

/-- After an encrypted punch-hole request over TCP, and at once over
WebSocket, the next frame is handled as it arrives. -/
theorem punchHoleRequest_ends_encryption :
    (∃ es q, (sessionServer (.punchHoleRequest {}) (.tcp [[0], [254], [254]])).Run es q
      ∧ Phase.plain.accepts (sessionConfig (.punchHoleRequest {})).x (wireTrace () es) = false
      ∧ wireTrace () es = [.recv [0], .handle [0], .setKey (List.replicate 32 0),
          .recv [254], .decrypt { key := List.replicate 32 0 } [254], .handle [1],
          .recv [254], .handle [254]])
    ∧ ∃ es q, (sessionServer (.testNatRequest {}) (.ws [.binary [0], .binary [254]])).Run es q
      ∧ Phase.plain.accepts (sessionConfig (.testNatRequest {})).x (wireTrace () es) = false
      ∧ wireTrace () es = [.recv [0], .handle [0], .setKey (List.replicate 32 0),
          .recv [254], .handle [254]] :=
  ⟨⟨_, _, Pool.play_run _ (List.replicate 30 ((), { now := 0 })), by decide, by decide⟩,
    _, _, Pool.play_run _ (List.replicate 30 ((), { now := 0 })), by decide, by decide⟩

end KustDesk
