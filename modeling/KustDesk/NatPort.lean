import KustDesk.Administration
import KustDesk.Handlers
import KustDesk.OnlineBits

/-!
# KustDesk — NatPort

The port for NAT tests, seen by a client. What it is told about other clients
is put together from one look after the other, while registrations go on: each
bit is right for a moment of its own.
-/

namespace KustDesk

open Async

/-! ## A step of the server, in the process -/

def HbbsEvent.server (ev : HbbsEvent) : Option (Event Env Op Shared) :=
  match ev.op with
  | .server op => some ⟨op, ev.env, ev.pre.shared, ev.post.shared⟩
  | _ => none

theorem inHbbs_heeds {α : Type} {P : List (Event Env Op Shared) → Event Env Op Shared → Prop}
    {Q : List (Event Env Op Shared) → α → Prop} {t : ServerTask α} {es : List HbbsEvent}
    (ht : t.Heeds P Q (es.filterMap HbbsEvent.server)) :
    (inHbbs t).Heeds
      (fun es ev => ∃ ev₀, HbbsEvent.server ev = some ev₀
        ∧ P (es.filterMap HbbsEvent.server) ev₀)
      (fun es a => Q (es.filterMap HbbsEvent.server) a) es := by
  unfold inHbbs
  induction t generalizing es with
  | done a => exact ht
  | abort why => exact ht
  | step op f k ih =>
      intro e w
      obtain ⟨hP, hk⟩ := ht e w.shared
      let ev : HbbsEvent := ⟨.server op, e, w,
        (HbbsOp.server op).queues e { w with shared := f e w.shared }⟩
      have hev : HbbsEvent.server ev = some ⟨op, e, w.shared, f e w.shared⟩ := by
        simp [ev, HbbsEvent.server]
      refine ⟨⟨_, hev, hP⟩, ih e w.shared ?_⟩
      show (k e w.shared).Heeds P Q ((es ++ [ev]).filterMap HbbsEvent.server)
      rw [List.filterMap_append, List.filterMap_cons_some hev]
      exact hk

/-! ## What is answered -/

/-- What a step writes to a connection that is answered in place. -/
def natFrame (ev : Event Env Op Shared) : Option (ConnId × Union × Bytes) :=
  match ev.op with
  | .sinkSend .direct conn msg wire => some (conn, msg, wire)
  | _ => none

namespace NatConnection

/-- The first message on the connection. -/
def request (cfg : Config) (c : NatConnection) : Option Union := c.first.bind cfg.message

/-- An answer, written to the connection if it can be serialised. -/
def frames (cfg : Config) (c : NatConnection) (answer : Option Union) :
    List (ConnId × Union × Bytes) :=
  (answer.bind fun msg => (cfg.x.writeToBytes ⟨some msg⟩).map fun wire =>
    (c.conn, msg, wire)).toList

end NatConnection

/-- The answer to a request, after these looks at the peer map. -/
inductive NatAnswer (c : NatConnection) :
    Option Union → List (Event Env PmOp PeerMap) → Option Union → Prop
  | port (m : TestNatRequest) :
      NatAnswer c (some (.testNatRequest m)) []
        (some (.testNatResponse { port := c.addr.port.toNat }))
  | online (or : OnlineRequest) {es : List (Event Env PmOp PeerMap)} {bits : List Bool}
      {states : Bytes} (hlooked : LookedUp or.peers es bits)
      (hlength : states.length = (or.peers.length + 7) / 8) (hbits : Bitmap states bits) :
      NatAnswer c (some (.onlineRequest or)) es (some (.onlineResponse { states }))
  | silent {request : Option Union} (hport : ∀ m, request ≠ some (.testNatRequest m))
      (honline : ∀ or, request ≠ some (.onlineRequest or)) : NatAnswer c request [] none

section answer
variable (cfg : Config) (c : NatConnection) (request : Option Union)

/-- The connection has been answered, and that was all that was written. -/
def NatServed (es : List (Event Env Op Shared)) : Prop :=
  ∃ answer, NatAnswer c request (es.filterMap pmEvent) answer
    ∧ es.filterMap natFrame = c.frames cfg answer

/-- Nothing has been written yet, or the answer has. -/
def NatTold (es : List (Event Env Op Shared)) : Prop :=
  es.filterMap natFrame = [] ∨ NatServed cfg c request es

variable {cfg c request} {es : List (Event Env Op Shared)}

/-- The answer is the last step, if there is one to write. -/
theorem natSend_heeds {msg : Union} (hnone : es.filterMap natFrame = [])
    (hanswer : NatAnswer c request (es.filterMap pmEvent) (some msg)) :
    (c.sink.send cfg.x .direct msg >>= fun _ => Task.done ()).Heeds
      (fun es ev => NatTold cfg c request (es ++ [ev]))
      (fun es _ => NatServed cfg c request es) es := by
  unfold Sink.send
  cases hwire : cfg.x.writeToBytes ⟨some msg⟩ with
  | none =>
      refine ⟨some msg, hanswer, ?_⟩
      simp [hnone, NatConnection.frames, hwire]
  | some wire =>
      intro e s
      have hserved : NatServed cfg c request
          (es ++ [⟨.sinkSend .direct c.sink.conn msg wire, e, s, s⟩]) := by
        refine ⟨some msg, ?_, ?_⟩
        · rw [List.filterMap_append, List.filterMap_cons_none (by rfl), List.filterMap_nil,
            List.append_nil]
          exact hanswer
        · simp [hnone, NatConnection.frames, hwire, natFrame, NatConnection.sink]
      exact ⟨.inr hserved, hserved⟩

theorem answerNat_heeds : (answerNat cfg c request).Heeds
    (fun es ev => NatTold cfg c request (es ++ [ev]))
    (fun es _ => NatServed cfg c request es) [] := by
  unfold answerNat
  split
  · exact natSend_heeds rfl (.port _)
  · rename_i or
    have hsees : Sees Shared.pmPart Op.pm pmEvent := ⟨fun _ _ _ _ => rfl⟩
    have hlift := (Task.Heeds.lift hsees (peersOnlineState_heeds or.peers) :
      Task.Heeds _ _ (liftPm (peersOnlineState or.peers)) [])
    -- while the ids are looked up, nothing is written
    have hquiet : (liftPm (peersOnlineState or.peers)).Heeds
        (fun es ev => NatTold cfg c (some (.onlineRequest or)) (es ++ [ev]))
        (fun es states => (states.length = (or.peers.length + 7) / 8
          ∧ ∃ bits, LookedUp or.peers (es.filterMap pmEvent) bits ∧ Bitmap states bits)
          ∧ es.filterMap natFrame = []) [] := by
      refine hlift.invariant rfl fun es ev hnone hev => ?_
      obtain ⟨op, hop⟩ := hev.label
      have hnext : (es ++ [ev]).filterMap natFrame = [] := by
        simp [List.filterMap_append, hnone, natFrame, hop]
      exact ⟨.inl hnext, hnext⟩
    refine hquiet.bind ?_
    rintro es states ⟨⟨hlength, bits, hlooked, hbits⟩, hnone⟩
    exact natSend_heeds hnone (.online or hlooked hlength hbits)
  · rename_i hport honline
    exact ⟨none, .silent hport honline, rfl⟩

end answer

/-! ## In every run -/

section Run
variable {ι : Type} [DecidableEq ι] {cfg : Config} {turns : List Ready} {jobs : ι → HbbsJob}
  {w : Hbbs} {es : List (Option ι × HbbsEvent)}
  {q : Pool (Option ι) Env HbbsOp Hbbs fun _ => Unit}

/-- The steps that the server takes for a task. -/
def served (j : ι) (es : List (Option ι × HbbsEvent)) : List (Event Env Op Shared) :=
  (own (some j) es).filterMap HbbsEvent.server

theorem answerNat_inHbbs {c : NatConnection} {request : Option Union} {es : List HbbsEvent}
    (hes : es.filterMap HbbsEvent.server = []) : (inHbbs (answerNat cfg c request)).Heeds
      (fun es ev => NatTold cfg c request ((es ++ [ev]).filterMap HbbsEvent.server))
      (fun es _ => NatServed cfg c request (es.filterMap HbbsEvent.server)) es := by
  have hanswer : (answerNat cfg c request).Heeds
      (fun es ev => NatTold cfg c request (es ++ [ev]))
      (fun es _ => NatServed cfg c request es) (es.filterMap HbbsEvent.server) := by
    rw [hes]
    exact answerNat_heeds
  refine (inHbbs_heeds hanswer).imp ?_ fun _ _ h => h
  rintro es ev ⟨ev₀, hev, htold⟩
  rwa [List.filterMap_append, List.filterMap_cons_some hev]

theorem natPort_heeds {c : NatConnection} (hforeign : c.isLocal cfg = false) :
    ((HbbsJob.natPort c).task cfg).Heeds
      (fun es ev => NatTold cfg c (c.request cfg) ((es ++ [ev]).filterMap HbbsEvent.server))
      (fun es _ => NatServed cfg c (c.request cfg) (es.filterMap HbbsEvent.server)) [] := by
  intro e w
  refine ⟨.inl rfl, ?_⟩
  show (if c.isLocal cfg = true then _ else _ : HbbsTask Unit).Heeds _ _ _
  rw [if_neg (by simp [hforeign])]
  intro e' w'
  refine ⟨.inl rfl, ?_⟩
  exact answerNat_inHbbs rfl

/-- **The port for NAT tests.** In every run, a client from elsewhere changes
nothing, cannot make its task panic, and is written to at most once: the port
it is seen with, or one bit for each id that it asks about, each found out at a
moment of the request. A task that is over has written that answer. -/
theorem nat_port_answer (h : (hbbs cfg turns jobs w).Run es q) {j : ι} {c : NatConnection}
    (hjob : jobs j = .natPort c) (hforeign : c.isLocal cfg = false) :
    (∀ ev ∈ own (some j) es, ev.post = ev.pre)
    ∧ (∀ why, q.tasks (some j) ≠ .abort why)
    ∧ NatTold cfg c (c.request cfg) (served j es)
    ∧ (q.tasks (some j) = .done () → NatServed cfg c (c.request cfg) (served j es)) := by
  have htask : ((hbbs cfg turns jobs w).tasks (some j)).Heeds
      (fun es ev => NatTold cfg c (c.request cfg) ((es ++ [ev]).filterMap HbbsEvent.server))
      (fun es _ => NatServed cfg c (c.request cfg) (es.filterMap HbbsEvent.server)) [] := by
    show ((jobs j).task cfg).Heeds _ _ _
    rw [hjob]
    exact natPort_heeds hforeign
  have hend := (htask.path (h.path (some j))).2
  have hnothing : NatTold cfg c (c.request cfg) (([] : List HbbsEvent).filterMap HbbsEvent.server) :=
    .inl rfl
  have htold := h.own_invariant
    (J := fun es => NatTold cfg c (c.request cfg) (es.filterMap HbbsEvent.server)) hnothing htask
  refine ⟨fun ev hev => ?_, fun why habort => ?_, htold, fun hdone => ?_⟩
  · have hstep := hbbs_job_step h (mem_own.mp hev)
    rw [hjob] at hstep
    cases hstep with
    | accept conn hop hpost => exact hpost
    | note c' hjob' hop hpost => exact hpost
    | answer c' hjob' hforeign' hop hpost => exact hpost
    | server c' hjob' => cases hjob'
    | command c' cmd hjob' hlocal =>
        cases hjob'
        simp [hforeign] at hlocal
    | tell c' cmd d hjob' hlocal =>
        cases hjob'
        simp [hforeign] at hlocal
    | probe k host ok hjob' => cases hjob'
    | check k hjob' => cases hjob'
  · rw [habort] at hend
    exact hend
  · rw [hdone] at hend
    exact hend

end Run

/-! A client asks about two ids. The first one has registered long ago, and
does so again after it has been found and before its age is looked at. -/

def onlineConfig : Config where
  x := .sample [([1], .onlineRequest { peers := ["123456", "654321"] }),
    ([2], .registerPeer { id := "123456" })]
  key := ""
  secret := ""

def askerOutside : NatConnection :=
  { conn := 0, addr := ⟨.v4 0x0A000002#32, 50000⟩, first := some [1] }

def registeredAddr : SocketAddr := ⟨.v4 0x0A000001#32, 40000⟩

def registeredBefore : PeerMap :=
  ((PeerMap.new .empty).enter "123456"
    { Peer.default 0 0 with pk := [1], socketAddr := registeredAddr }).2

def askedMeanwhile : Pool (Option Unit) Env HbbsOp Hbbs fun _ => Unit :=
  hbbs onlineConfig [.datagram [2] registeredAddr] (fun _ => .natPort askerOutside)
    { shared := { Shared.start .empty with pm := registeredBefore }, main := oneRelay }

/-- Forty seconds after the first registration. -/
def meanwhileSchedule : List (Option Unit × Env) :=
  ([some (), some (), some ()] ++ List.replicate 6 none ++ List.replicate 3 (some ())).map
    fun i => (i, { now := 40000000000 })

theorem nat_port_answer_meanwhile : ∃ es q, askedMeanwhile.Run es q
    ∧ q.tasks (some ()) = .done ()
    ∧ (served () es).filterMap natFrame = [(0, .onlineResponse { states := [0x80] }, [])]
    ∧ NatServed onlineConfig askerOutside (askerOutside.request onlineConfig) (served () es) := by
  have hrun := Pool.play_run askedMeanwhile meanwhileSchedule
  have hdone : ((askedMeanwhile.play meanwhileSchedule).2.tasks (some ())).result = some () := by
    decide +kernel
  have hover := Task.eq_done_of_result hdone
  have hforeign : askerOutside.isLocal onlineConfig = false := by decide +kernel
  exact ⟨_, _, hrun, hover, by decide +kernel, (nat_port_answer hrun rfl hforeign).2.2.2 hover⟩

end KustDesk
