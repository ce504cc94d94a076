import KustDesk.SinkTables
import KustDesk.WsReach

/-!
# KustDesk — Cleanup

What `tcp_punch` and `ws_map` still hold of a connection that has returned.
Leaving, a connection clears its key in `tcp_punch`; nobody clears `ws_map`,
where the sink stays until a request for the peer takes it.
-/

namespace KustDesk

open Async

/-! ## The end of a connection -/

/-- The step puts a sink into a table. -/
def Op.inserts : Op → Bool
  | .punchInsert _ _ | .wsInsert _ _ => true
  | _ => false

/-- To put no sink into a table. -/
def insertsNone : Contract Env Op Shared where
  rely _ _ := True
  given _ _ _ := True
  guar op _ _ _ := op.inserts = false

theorem insertsNone_answering : Answering insertsNone where
  pm _ := liftPm_meets (fun _ _ _ _ => rfl) _
  punch := liftPm_get_meets fun _ _ _ _ => rfl
  looks op _ _ h := by cases op <;> first | rfl | cases h
  rotate _ _ := rfl
  punchTake _ _ _ := rfl
  reply _ _ _ _ _ _ _ _ _ _ _ := rfl

theorem kept_of_meets {α : Type} {Q : α → Shared → Prop} {t t' : ServerTask α}
    {es : List (Event Env Op Shared)} {s : Shared} (ht : t.Meets insertsNone Q s)
    (h : t.Path es t') :
    ∀ ev ∈ es, ev.op.inserts = false :=
  ht.path (fun _ _ => trivial) h fun _ _ => trivial

theorem path_note_bind {α : Type} {op : Op} {g : Unit → ServerTask α}
    {es : List (Event Env Op Shared)} {a : α} (h : (note op >>= g).Path es (.done a)) :
    ∃ e s es', es = ⟨op, e, s, s⟩ :: es' ∧ (g ()).Path es' (.done a) := by
  cases h with
  | cons e s h => exact ⟨e, s, _, rfl, h⟩

theorem path_note_cases {α : Type} {op : Op} {g : Unit → ServerTask α}
    {es : List (Event Env Op Shared)} {t} (h : (note op >>= g).Path es t) :
    (es = [] ∧ ∀ a, t ≠ .done a) ∨ ∃ e s es', es = ⟨op, e, s, s⟩ :: es' ∧ (g ()).Path es' t := by
  cases h with
  | nil => exact .inl ⟨rfl, fun a ha => by cases ha⟩
  | cons e s h => exact .inr ⟨e, s, _, rfl, h⟩

section paths
variable (cfg : Config) (rs : RendezvousServer) {conn : ConnId} {addr : SocketAddr}
  {es : List (Event Env Op Shared)} {y : Sink}

/-- As long as `handle_tcp` leaves the connection its sink, it has put none
into a table. -/
theorem handleTcpMessage_kept {sink : Option Sink} {ws go : Bool} {msg : Option Union} (s : Shared)
    (h : (handleTcpMessage cfg rs conn sink addr ws msg).Path es (.done (go, some y))) :
    ∀ ev ∈ es, ev.op.inserts = false := by
  have hcases := handleTcpMessage_cases cfg rs conn sink addr ws msg
  generalize handleTcpMessage cfg rs conn sink addr ws msg = t at hcases h
  cases hcases with
  | answers _ ht => exact kept_of_meets (ht.meets insertsNone_answering s) h
  | enters _ _ ht =>
      obtain ⟨es₁, r, es₂, rfl, h₁, h⟩ := Task.path_bind_done h
      have hkept := kept_of_meets (ht.meets insertsNone_answering s) h₁
      obtain ⟨go', sink'⟩ := r
      cases go' with
      | false =>
          rw [(Task.path_done h).1, List.append_nil]
          exact hkept
      | true =>
          cases sink' with
          | none => cases (Task.path_done h).2
          | some y' =>
              obtain ⟨_, _, _, rfl, _, h⟩ := Task.path_bind_done h
              cases (Task.path_done h).2
  | forwards _ _ =>
      -- the sink has been given away, and none is returned
      obtain ⟨_, _, _, rfl, _, h⟩ := Task.path_bind_done h
      obtain ⟨_, _, _, rfl, _, h⟩ := Task.path_bind_done h
      cases (Task.path_done h).2
  | panics _ => cases h
  | setsKey _ _ =>
      obtain ⟨e, s', es', rfl, hend⟩ := path_note_bind h
      rw [(Task.path_done hend).1]
      simp [Op.inserts]

/-- A connection without a sink does not get one. -/
theorem handleTcpMessage_none {ws : Bool} {msg : Option Union} {r : Bool × Option Sink}
    (h : (handleTcpMessage cfg rs conn none addr ws msg).Path es (.done r)) : r.2 = none := by
  have hcases := handleTcpMessage_cases cfg rs conn none addr ws msg
  generalize handleTcpMessage cfg rs conn none addr ws msg = t at hcases h
  have hmeets : t.Meets (.free Env Op Shared) (fun r _ => r.2 = none) (.start .empty) := by
    have hlike {sink : Option Sink} (h : Option.Rel Sink.Like sink none) : sink = none := by
      cases h
      rfl
    cases hcases with
    | answers _ ht => exact (ht.meets free_answering _).mono fun _ _ h => hlike h
    | enters _ _ ht =>
        refine (ht.meets free_answering _).bind fun r s hr => ?_
        refine (enterWs_meets cfg addr r (fun _ _ _ _ => trivial) s).mono ?_
        rintro r' - (⟨-, hnone⟩ | ⟨rfl, -⟩)
        · exact hnone
        · exact hlike hr
    | forwards _ _ =>
        exact (Task.meets_free _ _).bind fun _ s _ => (Task.meets_free _ s).bind fun _ _ _ => rfl
    | panics _ => trivial
    | setsKey _ hsink => cases hsink
  obtain ⟨s, hr⟩ := hmeets.path_done (fun _ _ => trivial) h fun _ _ => trivial
  exact hr

theorem decryptFrame_kept {sink : Option Sink} {frame : Bytes} {r : Option Bytes × Option Sink}
    (h : (decryptFrame cfg conn sink frame).Path es (.done r)) :
    (r.2 = none ↔ sink = none) ∧ ∀ ev ∈ es, ev.op.inserts = false := by
  cases sink with
  | none =>
      obtain ⟨rfl, hr⟩ := Task.path_done h
      cases hr
      simp
  | some y =>
      simp only [decryptFrame] at h
      split at h
      · cases h with
        | cons e s h =>
            obtain ⟨rfl, hr⟩ := Task.path_done h
            cases hr
            simp [Op.inserts]
      · obtain ⟨rfl, hr⟩ := Task.path_done h
        cases hr
        simp

/-- The same of a whole frame. -/
theorem handleTcp_kept {sink : Option Sink} {bytes : Bytes} {ws go : Bool} (s : Shared)
    (h : (handleTcp cfg rs conn bytes sink addr ws).Path es (.done (go, some y))) :
    sink ≠ none ∧ ∀ ev ∈ es, ev.op.inserts = false := by
  obtain ⟨e, s', es', rfl, hrest⟩ := path_note_bind h
  constructor
  · rintro rfl
    cases handleTcpMessage_none cfg rs hrest
  · simpa [Op.inserts] using handleTcpMessage_kept cfg rs s hrest

theorem serveTcp_kept {sink : Option Sink} (frames : List Bytes) (s : Shared)
    (h : (serveTcp cfg rs conn addr sink frames).Path es (.done (some y))) :
    sink ≠ none ∧ ∀ ev ∈ es, ev.op.inserts = false := by
  induction frames generalizing sink es with
  | nil =>
      obtain ⟨rfl, hr⟩ := Task.path_done h
      cases hr
      simp
  | cons frame rest ih =>
      obtain ⟨e, s', es', rfl, hrest⟩ := path_note_bind h
      obtain ⟨es₁, r, es₂, rfl, h₁, hrest⟩ := Task.path_bind_done hrest
      obtain ⟨bytes, sink'⟩ := r
      obtain ⟨hnone, hkept₁⟩ := decryptFrame_kept cfg h₁
      rw [Ne, ← hnone]
      simp only [List.forall_mem_cons, List.forall_mem_append]
      cases bytes with
      | none =>
          dsimp only at hrest
          obtain ⟨rfl, hr⟩ := Task.path_done hrest
          cases hr
          exact ⟨by simp, rfl, hkept₁, by simp⟩
      | some bytes =>
          dsimp only at hrest
          obtain ⟨es₂, r, es₃, rfl, h₂, hrest⟩ := Task.path_bind_done hrest
          obtain ⟨go, sink''⟩ := r
          rw [List.forall_mem_append]
          cases go with
          | true =>
              dsimp only at hrest
              -- a sink at the end means one at every turn of the loop
              obtain ⟨hsome, hkept₃⟩ := ih hrest
              obtain ⟨y', rfl⟩ := Option.ne_none_iff_exists'.mp hsome
              obtain ⟨hsink, hkept₂⟩ := handleTcp_kept cfg rs s h₂
              exact ⟨hsink, rfl, hkept₁, hkept₂, hkept₃⟩
          | false =>
              dsimp only at hrest
              obtain ⟨rfl, hr⟩ := Task.path_done hrest
              cases hr
              obtain ⟨hsink, hkept₂⟩ := handleTcp_kept cfg rs s h₂
              exact ⟨hsink, rfl, hkept₁, hkept₂, by simp⟩

theorem serveWs_kept {sink : Option Sink} (frames : List WsMessage) (s : Shared)
    (h : (serveWs cfg rs conn addr sink frames).Path es (.done (some y))) :
    sink ≠ none ∧ ∀ ev ∈ es, ev.op.inserts = false := by
  induction frames generalizing sink es with
  | nil =>
      obtain ⟨rfl, hr⟩ := Task.path_done h
      cases hr
      simp
  | cons frame rest ih =>
      cases frame with
      | other => exact ih h
      | binary frame =>
          obtain ⟨e, s', es', rfl, hrest⟩ := path_note_bind h
          obtain ⟨es₂, r, es₃, rfl, h₂, hrest⟩ := Task.path_bind_done hrest
          obtain ⟨go, sink'⟩ := r
          simp only [List.forall_mem_cons, List.forall_mem_append]
          cases go with
          | true =>
              dsimp only at hrest
              -- a sink at the end means one at every turn of the loop
              obtain ⟨hsome, hkept₃⟩ := ih hrest
              obtain ⟨y', rfl⟩ := Option.ne_none_iff_exists'.mp hsome
              obtain ⟨hsink, hkept₂⟩ := handleTcp_kept cfg rs s h₂
              exact ⟨hsink, rfl, hkept₂, hkept₃⟩
          | false =>
              dsimp only at hrest
              obtain ⟨rfl, hr⟩ := Task.path_done hrest
              cases hr
              obtain ⟨hsink, hkept₂⟩ := handleTcp_kept cfg rs s h₂
              exact ⟨hsink, rfl, hkept₂, by simp⟩

theorem serve_kept {stream : Stream} (s : Shared)
    (h : (serve cfg rs conn addr stream).Path es (.done (some y))) :
    ∀ ev ∈ es, ev.op.inserts = false := by
  cases stream with
  | ws frames => exact (serveWs_kept cfg rs frames s h).2
  | tcp frames =>
      obtain ⟨es₁, sink, es₂, rfl, h₁, h⟩ := Task.path_bind_done h
      rw [List.forall_mem_append]
      refine ⟨?_, (serveTcp_kept cfg rs frames s h).2⟩
      split at h₁
      · exact kept_of_meets ((keyExchangePhase1_replying cfg rs _).meets insertsNone_answering s) h₁
      · simp [(Task.path_done h₁).1]

/-- **The exit.** A connection that returns with its sink has put it nowhere;
without, it clears its key in `tcp_punch` last. -/
theorem handleListenerInner_closes {stream : Stream} (s : Shared)
    (h : (handleListenerInner cfg rs conn addr stream).Path es (.done ()))
    {es₁ es₂ : List (Event Env Op Shared)} {ev : Event Env Op Shared}
    (hes : es = es₁ ++ ev :: es₂) (hev : ev.op.inserts = true) :
    ∃ ev' ∈ es₂, ev'.op = .punchClose (cfg.x.tryIntoV4 addr) := by
  obtain ⟨served, sink, es₃, rfl, hserve, h⟩ := Task.path_bind_done h
  obtain ⟨closing, _, es₄, rfl, hclose, h⟩ := Task.path_bind_done h
  cases h with
  | cons e s' h =>
  obtain ⟨rfl, -⟩ := Task.path_done h
  rw [← List.append_assoc] at hes
  have hnot {op : Op} (hop : op.inserts = false) (hev' : ev.op = op) : False := by
    rw [hev', hop] at hev
    cases hev
  rcases snoc_eq_split hes with ⟨-, hlast, -⟩ | ⟨es₅, hbefore, rfl⟩
  · exact (hnot rfl (congrArg Event.op hlast.symm)).elim
  cases sink with
  | some y =>
      obtain ⟨rfl, -⟩ := Task.path_done hclose
      have hmem : ev ∈ served := by
        have hsplit : served = es₁ ++ ev :: es₅ := by simpa using hbefore
        simp [hsplit]
      rw [serve_kept cfg rs s hserve ev hmem] at hev
      cases hev
  | none =>
      cases hclose with
      | cons e₁ s₁ hclose =>
          obtain ⟨rfl, -⟩ := Task.path_done hclose
          rcases snoc_eq_split hbefore with ⟨-, hlast, -⟩ | ⟨es₆, -, rfl⟩
          · exact (hnot rfl (congrArg Event.op hlast.symm)).elim
          · have hlast (l : List (Event Env Op Shared)) (a b : Event Env Op Shared) :
                a ∈ l ++ [a] ++ [b] := by simp
            exact ⟨_, hlast es₆ _ _, rfl⟩

end paths

/-! ## Runs -/

section runs
variable {cfg : Config} {ι : Type} [DecidableEq ι] (jobs : ι → Job) {db : Database}
  (es : List (ι × Event Env Op Shared)) (q : Pool ι Env Op Shared fun _ => Unit)

/-- Every connection is served by one task. -/
def ServedOnce : Prop :=
  ∀ i j conn addr addr', (jobs i).owner = some (conn, addr) →
    (jobs j).owner = some (conn, addr') → i = j

/-- The table holds no sink of a connection that has returned. -/
def Cleaned (t : Table) : Prop :=
  ∀ i conn addr, (jobs i).owner = some (conn, addr) → q.tasks i = .done () →
    ∀ k y, (q.shared.table t).lookup k = some y → y.conn ≠ conn

/-- What a connection that has returned put into the table has since been
taken out or replaced. -/
def Recovered (t : Table) : Prop :=
  ∀ es₁ i ev es₂ k y, es = es₁ ++ (i, ev) :: es₂ → q.tasks i = .done () →
    ev.op.leaves t k = some (some y) → ∃ x ∈ es₂, (x.2.op.leaves t k).isSome

/-- The table has at most as many entries as there are connections that have
begun and not returned. -/
def Bounded (t : Table) : Prop :=
  ∀ serving : Finset ι, (∀ i ev, (i, ev) ∈ es → (jobs i).owner.isSome → q.tasks i ≠ .done () →
    i ∈ serving) → (q.shared.table t).keys.length ≤ serving.card

variable {jobs es q}

theorem cleaned_iff (h : (server cfg jobs (.start db)).Run es q) (hone : ServedOnce jobs)
    (t : Table) : Cleaned jobs q t ↔ Recovered es q t := by
  have hplaced := (server_places cfg jobs h).1
  constructor
  · intro hcleaned es₁ i ev es₂ k y hes hdone hleaves
    by_contra hnone
    have huntouched : ∀ x ∈ es₂, x.2.op.leaves t k = none := by simpa using hnone
    have hlookup := (lookup_table_iff h).mpr ⟨es₁, i, ev, es₂, hes, hleaves, huntouched⟩
    obtain ⟨addr, howner, -⟩ := (hplaced i ev (by simp [hes])).2.inserted hleaves
    exact hcleaned i _ addr howner hdone k y hlookup rfl
  · intro hrecovered i conn addr howner hdone k y hlookup hconn
    obtain ⟨es₁, j, ev, es₂, hes, hleaves, hnone⟩ := (lookup_table_iff h).mp hlookup
    obtain ⟨addr', howner', -⟩ := (hplaced j ev (by simp [hes])).2.inserted hleaves
    have hji : j = i := hone j i conn addr' addr (hconn ▸ howner') howner
    obtain ⟨x, hx, hsome⟩ := hrecovered es₁ j ev es₂ k y hes (hji ▸ hdone) hleaves
    rw [hnone x hx] at hsome
    cases hsome

theorem Op.inserts_of_leaves {op : Op} {t : Table} {k : SocketAddr} {y : Sink}
    (h : op.leaves t k = some (some y)) : op.inserts = true := by
  cases op <;> simp [Op.leaves, Op.inserts] at *

/-- Nothing is ever left in `tcp_punch`. -/
theorem recovered_tcpPunch (h : (server cfg jobs (.start db)).Run es q) :
    Recovered es q .tcpPunch := by
  intro es₁ i ev es₂ k y hes hdone hleaves
  have hplaced := ((server_places cfg jobs h).1 i ev (by simp [hes])).2
  obtain ⟨addr, howner, hkey⟩ := hplaced.inserted hleaves
  have hpath := h.path i
  rw [hdone, hes, own_split] at hpath
  cases hjob : jobs i with
  | datagram rs bytes addr' =>
      rw [hjob] at howner
      cases howner
  | stream rs conn addr' stream =>
      rw [hjob] at howner
      cases howner
      have htask : (server cfg jobs (.start db)).tasks i
          = handleListenerInner cfg rs y.conn addr stream := by simp [server, hjob, Job.task]
      rw [htask] at hpath
      obtain ⟨ev', hev', hop⟩ := handleListenerInner_closes cfg rs q.shared hpath rfl
        (Op.inserts_of_leaves hleaves)
      exact ⟨(i, ev'), mem_own.mp hev', by simp [hop, Op.leaves, hkey]⟩

theorem Cleaned.bounded {t : Table} (hcleaned : Cleaned jobs q t)
    (h : (server cfg jobs (.start db)).Run es q) : Bounded jobs es q t := by
  intro serving hserving
  have hkeys : (q.shared.table t).keys.toFinset.image some
      ⊆ serving.image fun i => (jobs i).owner.map fun o => cfg.x.tryIntoV4 o.2 := by
    intro k' hk'
    obtain ⟨k, hk, rfl⟩ := Finset.mem_image.mp hk'
    rw [List.mem_toFinset, ← AList.mem_keys, ← AList.lookup_isSome] at hk
    obtain ⟨y, hlookup⟩ := Option.isSome_iff_exists.mp hk
    obtain ⟨es₁, i, ev, es₂, hes, hleaves, -⟩ := (lookup_table_iff h).mp hlookup
    have hev : (i, ev) ∈ es := by simp [hes]
    obtain ⟨addr, howner, hkey⟩ := ((server_places cfg jobs h).1 i ev hev).2.inserted hleaves
    have hrunning : q.tasks i ≠ .done () := fun hdone =>
      hcleaned i _ addr howner hdone k y hlookup rfl
    refine Finset.mem_image.mpr ⟨i, hserving i ev hev ?_ hrunning, by simp [howner, hkey]⟩
    rw [howner]
    rfl
  calc (q.shared.table t).keys.length
      = (q.shared.table t).keys.toFinset.card :=
        (List.toFinset_card_of_nodup (q.shared.table t).keys_nodup).symm
    _ = ((q.shared.table t).keys.toFinset.image some).card :=
        (Finset.card_image_of_injective _ (Option.some_injective _)).symm
    _ ≤ _ := Finset.card_le_card hkeys
    _ ≤ serving.card := Finset.card_image_le

/-- Where a task writes through the table, it has taken the sink out at a time
when the sink's connection had not returned. -/
def TakenWhileOpen (cfg : Config) (jobs : ι → Job) (db : Database)
    (es : List (ι × Event Env Op Shared)) (t : Table) : Prop :=
  ∀ es₁ j ev es₂ k conn, es = es₁ ++ (j, ev) :: es₂ → ev.op.writes t = some (k, conn) →
    ∃ es₃ ev₀ es₄ q₀, es₁ = es₃ ++ (j, ev₀) :: es₄ ∧ own j es₄ = []
      ∧ ev₀.op.leaves t k = some none ∧ (server cfg jobs (.start db)).Run es₃ q₀
      ∧ ∀ i addr, (jobs i).owner = some (conn, addr) → q₀.tasks i ≠ .done ()

theorem takenWhileOpen_of_cleaned {t : Table} (h : (server cfg jobs (.start db)).Run es q)
    (hcleaned : ∀ es₁ es₂ q₁, es = es₁ ++ es₂ → (server cfg jobs (.start db)).Run es₁ q₁ →
      Cleaned jobs q₁ t) : TakenWhileOpen cfg jobs db es t := by
  intro es₁ j ev es₂ k conn hes hwrites
  obtain ⟨es₃, ev₀, es₄, y, hes₁, hown, hleaves, hlookup, rfl⟩ :=
    taken_before_write h hes hwrites
  have hsplit : es = es₃ ++ (j, ev₀) :: (es₄ ++ (j, ev) :: es₂) := by simp [hes, hes₁]
  obtain ⟨q₀, hrun₀, hshared⟩ := h.cut hsplit
  refine ⟨es₃, ev₀, es₄, q₀, hes₁, hown, hleaves, hrun₀, fun i addr howner hdone => ?_⟩
  exact hcleaned es₃ _ q₀ hsplit hrun₀ i _ addr howner hdone k y (hshared ▸ hlookup) rfl

/-- **Cleanup.** A connection that has returned leaves nothing in `tcp_punch`;
it leaves its sink in `ws_map` exactly if it put it there and no request has
taken it since. Where it leaves none, the table is bounded by the connections
that have not returned, and no later request is written to its sink. -/
theorem connection_cleanup_iff (h : (server cfg jobs (.start db)).Run es q)
    (hone : ServedOnce jobs) :
    (Cleaned jobs q .tcpPunch ∧ Bounded jobs es q .tcpPunch ∧ TakenWhileOpen cfg jobs db es .tcpPunch)
    ∧ (Cleaned jobs q .wsMap ↔ Recovered es q .wsMap)
    ∧ (Recovered es q .wsMap → Bounded jobs es q .wsMap)
    ∧ ((∀ es₁ es₂ q₁, es = es₁ ++ es₂ → (server cfg jobs (.start db)).Run es₁ q₁ →
        Recovered es₁ q₁ .wsMap) → TakenWhileOpen cfg jobs db es .wsMap) := by
  have hpunch {es₁ : List (ι × Event Env Op Shared)}
      {q₁ : Pool ι Env Op Shared fun _ => Unit} (hrun : (server cfg jobs (.start db)).Run es₁ q₁) :
      Cleaned jobs q₁ .tcpPunch := (cleaned_iff hrun hone _).mpr (recovered_tcpPunch hrun)
  refine ⟨⟨hpunch h, (hpunch h).bounded h, ?_⟩, cleaned_iff h hone .wsMap, ?_, ?_⟩
  · exact takenWhileOpen_of_cleaned h fun es₁ es₂ q₁ _ hrun => hpunch hrun
  · exact fun hrecovered => ((cleaned_iff h hone .wsMap).mpr hrecovered).bounded h
  · intro hrecovered
    apply takenWhileOpen_of_cleaned h
    exact fun es₁ es₂ q₁ hes hrun =>
      (cleaned_iff hrun hone .wsMap).mpr (hrecovered es₁ es₂ q₁ hes hrun)

end runs

/-! A peer that registers over a WebSocket and goes away. -/

/-- The peer is served to its end before the requests. -/
def goneSchedule (requesters : List Requester) : List (Requester × Env) :=
  List.replicate 18 (.peer, { now := 0 })
    ++ requesters.flatMap fun i => List.replicate 9 (i, { now := 0 })

def gone (requesters : List Requester) :
    List (Requester × Event Env Op Shared) × Pool Requester Env Op Shared fun _ => Unit :=
  (server wsConfig wsJobs (.start .empty)).play (goneSchedule requesters)

theorem wsJobs_servedOnce : ServedOnce wsJobs := by
  intro i j conn addr addr' hi hj
  cases i <;> cases j <;> first
    | rfl
    | cases hi; done
    | cases hj; done
    | (cases hi; cases hj)

theorem connection_cleanup_iff_taken :
    (gone [.tcp]).2.tasks .peer = .done ()
      ∧ (∃ ev y, (Requester.peer, ev) ∈ (gone [.tcp]).1 ∧ ev.op = .wsInsert wsAddr y)
      ∧ Recovered (gone [.tcp]).1 (gone [.tcp]).2 .wsMap := by
  have hrun := Pool.play_run (server wsConfig wsJobs (.start .empty)) (goneSchedule [.tcp])
  have hempty : ((gone [.tcp]).2.shared.table .wsMap).entries = [] := rfl
  have hput : ∃ x ∈ (gone [.tcp]).1, x.1 = .peer ∧ x.2.op = .wsInsert wsAddr ⟨.wss, 0, none⟩ := by
    decide +kernel
  refine ⟨rfl, ?_, (connection_cleanup_iff hrun wsJobs_servedOnce).2.1.mp ?_⟩
  · obtain ⟨⟨i, ev⟩, hev, rfl, hop⟩ := hput
    exact ⟨ev, _, hev, hop⟩
  · intro i conn addr _ _ k y hlookup
    have hmem := AList.mem_lookup_iff.mp hlookup
    rw [show ((server wsConfig wsJobs (.start .empty)).play (goneSchedule [.tcp])).2.shared.table
      .wsMap = (gone [.tcp]).2.shared.table .wsMap from rfl, hempty] at hmem
    cases hmem

/-- The peer has returned, `ws_map` still has its sink, and a request that comes
afterwards is written to it. -/
theorem ws_sink_left :
    (gone []).2.tasks .peer = .done () ∧ ¬ Cleaned wsJobs (gone []).2 .wsMap
      ∧ ∃ es q ev, (server wsConfig wsJobs (.start .empty)).Run ((gone []).1 ++ es) q
        ∧ (.tcp, ev) ∈ es ∧ ev.op.writes .wsMap = some (wsAddr, 0) := by
  have hleft : ((gone []).2.shared.table .wsMap).lookup wsAddr = some ⟨.wss, 0, none⟩ := by
    decide +kernel
  have hwritten : ∃ x ∈ (gone [.tcp]).1.drop (gone []).1.length,
      x.1 = .tcp ∧ x.2.op.writes .wsMap = some (wsAddr, 0) := by decide +kernel
  have hprefix : (gone [.tcp]).1.take (gone []).1.length = (gone []).1 := rfl
  have hwhole : (gone []).1 ++ (gone [.tcp]).1.drop (gone []).1.length = (gone [.tcp]).1 := by
    nth_rewrite 1 [← hprefix]
    exact List.take_append_drop _ _
  refine ⟨rfl, fun hcleaned => hcleaned .peer 0 wsAddr rfl rfl wsAddr _ hleft rfl, ?_⟩
  obtain ⟨⟨i, ev⟩, hev, rfl, hwrites⟩ := hwritten
  refine ⟨(gone [.tcp]).1.drop (gone []).1.length, (gone [.tcp]).2, ev, ?_, hev, hwrites⟩
  rw [hwhole]
  exact Pool.play_run (server wsConfig wsJobs (.start .empty)) (goneSchedule [.tcp])

end KustDesk
