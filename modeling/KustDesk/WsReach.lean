import KustDesk.Replies

/-!
# KustDesk — WsReach

A peer that is registered over a WebSocket is reached through the sink that
`ws_map` holds for it. One request over TCP or WebSocket takes the sink out;
requests over UDP and relay requests do not look for it.
-/

namespace KustDesk

open Async

/-- The key of the receiver of a session, through `ws_map` or by address. -/
def Op.sessionKey (cfg : Config) : Op → Option SocketAddr
  | .queue msg a => if msg.startsSession then some (cfg.x.tryIntoV4 a) else none
  | .sinkSend (.ws k) _ msg _ => if msg.startsSession then some k else none
  | _ => none

theorem Op.sessionKey_eq_some {cfg : Config} {op : Op} {k : SocketAddr}
    (h : op.sessionKey cfg = some k) :
    (∃ msg a, op = .queue msg a ∧ msg.startsSession = true ∧ cfg.x.tryIntoV4 a = k)
      ∨ ∃ conn msg wire, op = .sinkSend (.ws k) conn msg wire := by
  cases op with
  | queue msg a =>
      simp only [Op.sessionKey, Option.ite_none_right_eq_some, Option.some.injEq] at h
      exact .inl ⟨msg, a, rfl, h.1, h.2⟩
  | sinkSend via conn msg wire =>
      cases via with
      | direct => cases h
      | punch k' => cases h
      | ws k' =>
          simp only [Op.sessionKey, Option.ite_none_right_eq_some, Option.some.injEq] at h
          obtain ⟨-, rfl⟩ := h
          exact .inr ⟨conn, msg, wire, rfl⟩
  | _ => cases h

/-- Whether the step puts a sink into `ws_map` under `k`, or takes it out. -/
def Op.stores (k : SocketAddr) : Op → Option Bool
  | .wsInsert k' _ => if k' = k then some true else none
  | .wsTake k' => if k' = k then some false else none
  | _ => none

/-- A sink has been put into `ws_map` under `k`, and no request has taken it
since. -/
def Stored {ι : Type} (k : SocketAddr) (es : List (ι × Event Env Op Shared)) : Prop :=
  (es.filterMap fun x => x.2.op.stores k).getLast? = some true

section runs
variable {cfg : Config} {ι : Type} [DecidableEq ι] {jobs : ι → Job} {db : Database}
  {es : List (ι × Event Env Op Shared)} {q : Pool ι Env Op Shared fun _ => Unit}

/-- Only registrations put a sink into `ws_map`, only requests take it out. -/
theorem lookup_ws_isSome_iff (h : (server cfg jobs (.start db)).Run es q)
    (k : SocketAddr) : (q.shared.wsMap.lookup k).isSome ↔ Stored k es := by
  induction h with
  | start =>
      have hempty : (Shared.start db).wsMap.lookup k = none := AList.lookup_empty k
      show ((Shared.start db).wsMap.lookup k).isSome ↔ _
      rw [hempty]
      exact iff_of_false nofun nofun
  | @step es q j e op f kont hrun hj ih =>
      obtain ⟨heffect, -⟩ := (server_places cfg jobs (hrun.step j e hj)).1 j
        ⟨op, e, q.shared, f e q.shared⟩ (by simp)
      replace heffect : op.effect q.shared (f e q.shared) := heffect
      show ((f e q.shared).wsMap.lookup k).isSome ↔ _
      rw [Stored, List.filterMap_append, List.getLast?_append]
      cases op with
      | pm op => obtain ⟨pm, hpm⟩ := heffect; rw [hpm]; exact ih
      | wsInsert k' y =>
          rw [heffect]
          by_cases hk : k = k'
          · subst hk
            simp [Op.stores, AList.lookup_insert]
          · have hnone : (Op.wsInsert k' y).stores k = none := if_neg (Ne.symm hk)
            rw [AList.lookup_insert_ne hk]
            simpa only [Stored, List.filterMap_cons, hnone, List.filterMap_nil,
              List.getLast?_nil, Option.none_or] using ih
      | wsTake k' =>
          rw [heffect]
          by_cases hk : k = k'
          · subst hk
            simp [Op.stores, AList.lookup_erase]
          · have hnone : (Op.wsTake k').stores k = none := if_neg (Ne.symm hk)
            rw [AList.lookup_erase_ne hk]
            simpa only [Stored, List.filterMap_cons, hnone, List.filterMap_nil,
              List.getLast?_nil, Option.none_or] using ih
      | _ => rw [heffect]; exact ih

end runs

/-! A peer that registers over a WebSocket, and four requests for it. -/

inductive Requester where
  | peer
  | tcp
  | tcpAgain
  | udp
  | relay
  deriving DecidableEq

def wsAddr : SocketAddr := ⟨.v4 1, 0⟩

def wsConfig : Config where
  x := .sample [([0], .registerPk { id := "123456", uuid := [1], pk := [2] }),
    ([1], .punchHoleRequest { id := "123456" }), ([2], .requestRelay { id := "123456" })]

def wsJobs : Requester → Job
  | .peer => .stream {} 0 wsAddr (.ws [.binary [0]])
  | .tcp => .stream {} 1 ⟨.v4 2, 50001⟩ (.tcp [[1]])
  | .tcpAgain => .stream {} 2 ⟨.v4 3, 50002⟩ (.tcp [[1]])
  | .udp => .datagram {} [1] ⟨.v4 4, 50003⟩
  | .relay => .stream {} 3 ⟨.v4 5, 50004⟩ (.tcp [[2]])

def wsSchedule (requesters : List Requester) : List (Requester × Env) :=
  List.replicate 14 (.peer, { now := 0 })
    ++ requesters.flatMap fun i => List.replicate 9 (i, { now := 0 })

def wsRun (requesters : List Requester) : List (Requester × Event Env Op Shared) :=
  ((server wsConfig wsJobs (.start .empty)).play (wsSchedule requesters)).1

/-- A session is queued for `a`. -/
def Op.queues (a : SocketAddr) : Op → Bool
  | .queue msg a' => msg.startsSession && decide (a' = a)
  | _ => false

theorem Op.queues_eq_true {a : SocketAddr} {op : Op} (h : op.queues a = true) :
    ∃ msg, msg.startsSession = true ∧ op = .queue msg a := by
  unfold Op.queues at h
  split at h
  · simp only [Bool.and_eq_true, decide_eq_true_eq] at h
    obtain ⟨hstarts, rfl⟩ := h
    exact ⟨_, hstarts, rfl⟩
  · cases h

end KustDesk
