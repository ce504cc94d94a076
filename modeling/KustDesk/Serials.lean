import KustDesk.ConfigAnswers

/-!
# KustDesk — Serials

The serial of the configuration, in a process with its `io_loop` and any
number of connections. A `ConfigureUpdate` replaces the server of `io_loop`; a
connection works with the clone that was made when it was accepted.
-/

namespace KustDesk

open Async

/-! ## The process -/

/-- What the tasks of the process share, and the server of `io_loop`. -/
structure Process where
  shared : Shared
  rs : RendezvousServer

def Process.sharedPart : Part Process Shared where
  get := Process.shared
  put shared p := { p with shared }
  get_put _ _ := rfl

inductive ProcessOp where
  /-- `handle_listener`: the server is cloned for a connection. -/
  | accept (conn : ConnId)
  /-- `io_loop` takes a datagram off the socket. -/
  | datagram (bytes : Bytes) (addr : SocketAddr)
  /-- `handle_udp` is back. -/
  | handled
  | server (op : Op)
  deriving DecidableEq

abbrev ProcessTask := Task Env ProcessOp Process

abbrev ProcessEvent := Event Env ProcessOp Process

/-- A connection, with everything that will arrive on it. -/
structure Connection where
  conn : ConnId
  addr : SocketAddr
  stream : Stream

variable (cfg : Config)

/-- A task of the server, run in the process. -/
def inProcess {α : Type} (t : ServerTask α) : ProcessTask α :=
  t.lift Process.sharedPart .server

/-- `handle_listener`. -/
def handleListener (c : Connection) : ProcessTask Unit := do
  let rs ← Task.look (.accept c.conn) fun _ p => p.rs
  inProcess (handleListenerInner cfg rs c.conn c.addr c.stream)

/-- The branch of `io_loop` for datagrams. When `handle_udp` fails, `start`
creates the socket anew and calls `io_loop` again, with the same server. -/
def udpLoop : List (Bytes × SocketAddr) → ProcessTask Unit
  | [] => return ()
  | (bytes, addr) :: rest => do
    let rs ← Task.look (.datagram bytes addr) fun _ p => p.rs
    let r ← inProcess (handleUdp cfg rs bytes addr)
    Task.act .handled fun _ p => ((), match r with
      | .ok rs => { p with rs }
      | .error _ => p)
    udpLoop rest

/-- `io_loop` and the connections it has accepted, each at any time. -/
def process {ι : Type} (conns : ι → Connection) (datagrams : List (Bytes × SocketAddr))
    (p : Process) : Pool (Option ι) Env ProcessOp Process fun _ => Unit where
  tasks
    | none => udpLoop cfg datagrams
    | some i => handleListener cfg (conns i)
  shared := p

def ProcessOp.configUpdate : ProcessOp → Option ConfigUpdate
  | .server op => op.configUpdate
  | _ => none

/-! ## Whose serial a reply carries -/

/-- `io_loop` alone changes its server, and answers with it. -/
def loopContract : Contract Env ProcessOp Process where
  rely p p' := p'.rs = p.rs
  given _ _ _ := True
  guar op _ p p' := (∀ cu, op.configUpdate = some cu → cu = p.rs.configUpdate)
    ∧ p.rs.inner.serial ≤ p'.rs.inner.serial

/-- The connections leave the server of `io_loop` alone. -/
def connContract : Contract Env ProcessOp Process where
  rely _ _ := True
  given _ _ _ := True
  guar _ _ p p' := p'.rs = p.rs

variable {cfg} {rs : RendezvousServer}

theorem inProcess_connMeets {α : Type} (t : ServerTask α) (p : Process) :
    (inProcess t).Meets connContract (fun _ _ => True) p :=
  Task.Meets.lift (c := .free Env Op Shared) (fun _ _ _ => trivial) (fun _ _ _ _ => trivial)
    (fun _ _ _ _ _ => rfl) (Task.meets_free t _)

/-- A task in order that works with the current server keeps the contract of
`io_loop`. -/
theorem Task.Follows.loopMeets {α : Type} {Q : α → Prop} {t : ServerTask α}
    {prev : Option (Event Env Op Shared)} (ht : t.Follows (ServerStep rs) Q prev) {p : Process}
    (hp : p.rs = rs) :
    (inProcess t).Meets loopContract (fun a p' => Q a ∧ p'.rs = rs) p := by
  induction t generalizing prev p with
  | done a => exact ⟨ht, hp⟩
  | abort why => trivial
  | step op f k ih =>
      intro e p' hrely _
      have hrs : p'.rs = rs := hrely.trans hp
      obtain ⟨hstep, hk⟩ := ht e p'.shared
      refine ⟨⟨fun cu hcu => ?_, le_refl _⟩, ih e _ hk hrs⟩
      rw [hrs]
      exact hstep.config cu hcu

theorem Task.Follows.config {α : Type} {Q : α → Prop} {t : ServerTask α}
    {prev : Option (Event Env Op Shared)} (ht : t.Follows (ServerStep rs) Q prev) :
    (inProcess t).All fun ev => ∀ cu, ev.op.configUpdate = some cu → cu = rs.configUpdate := by
  induction t generalizing prev with
  | done a => trivial
  | abort why => trivial
  | step op f k ih =>
      intro e p
      obtain ⟨hstep, hk⟩ := ht e p.shared
      exact ⟨hstep.config, ih e _ hk⟩

theorem udpLoop_meets (datagrams : List (Bytes × SocketAddr)) (p : Process) :
    (udpLoop cfg datagrams).Meets loopContract (fun _ _ => True) p := by
  induction datagrams generalizing p with
  | nil => trivial
  | cons d rest ih =>
      intro e p' hrely _
      refine ⟨⟨nofun, le_refl _⟩, ?_⟩
      refine (Task.Follows.loopMeets (handleUdp_orderly cfg p'.rs d.2 d.1 none) rfl).bind
        fun r p₁ hr => ?_
      obtain ⟨hkept, hp₁⟩ := hr
      intro e₂ p₂ hrely₂ _
      have hp₂ : p₂.rs = p'.rs := hrely₂.trans hp₁
      refine ⟨⟨nofun, ?_⟩, ih _⟩
      cases r with
      | error _ => exact le_refl _
      | ok rs =>
          show p₂.rs.inner.serial ≤ rs.inner.serial
          rw [hp₂]
          exact hkept rs rfl

section runs
variable {ι : Type} [DecidableEq ι] {conns : ι → Connection}
  {datagrams : List (Bytes × SocketAddr)} {p : Process}
  {es : List (Option ι × ProcessEvent)} {es' : List ProcessEvent}
  {q : Pool (Option ι) Env ProcessOp Process fun _ => Unit}

/-- What the steps of a run do to the server of `io_loop`. -/
theorem process_meets (h : (process cfg conns datagrams p).Run es q) :
    (∀ ev, (none, ev) ∈ es → (∀ cu, ev.op.configUpdate = some cu → cu = ev.pre.rs.configUpdate)
      ∧ ev.pre.rs.inner.serial ≤ ev.post.rs.inner.serial)
    ∧ ∀ i ev, (some i, ev) ∈ es → ev.post.rs = ev.pre.rs := by
  let c : Option ι → Contract Env ProcessOp Process
    | none => loopContract
    | some _ => connContract
  have hstart (i : Option ι) : (c i).rely p p
      ∧ ((process cfg conns datagrams p).tasks i).Meets (c i) (fun _ _ => True) p := by
    cases i with
    | none => exact ⟨rfl, udpLoop_meets datagrams p⟩
    | some i => exact ⟨trivial, fun _ _ _ _ => ⟨rfl, inProcess_connMeets _ _⟩⟩
  obtain ⟨hguar, -⟩ := h.meets (c := c) (Q := fun _ _ _ => True)
    (fun i ev _ => by cases i <;> trivial) hstart
    (fun i _ _ _ _ _ _ _ => by
      cases i with
      | none => exact (rfl : _ = _)
      | some _ => trivial)
    (fun i j _ _ _ _ _ hij hrely hg => by
      cases i with
      | some _ => trivial
      | none =>
          cases j with
          | none => exact (hij rfl).elim
          | some _ => exact Eq.trans hg hrely)
  exact ⟨fun ev hev => hguar none ev hev, fun i ev hev => hguar (some i) ev hev⟩

theorem serial_le_post (h : (process cfg conns datagrams p).Run es q)
    {x : Option ι × ProcessEvent} (hx : x ∈ es) :
    x.2.pre.rs.inner.serial ≤ x.2.post.rs.inner.serial := by
  obtain ⟨i, ev⟩ := x
  cases i with
  | none => exact ((process_meets h).1 ev hx).2
  | some i => exact le_of_eq (congrArg (fun rs => rs.inner.serial) ((process_meets h).2 i ev hx).symm)

/-- The serial of `io_loop` never goes back. -/
theorem serial_le (h : (process cfg conns datagrams p).Run es q) :
    ∀ x ∈ es, x.2.pre.rs.inner.serial ≤ q.shared.rs.inner.serial := by
  induction h with
  | start => simp
  | @step es q i e op f k hrun hi ih =>
      have hlast : q.shared.rs.inner.serial ≤ (f e q.shared).rs.inner.serial :=
        serial_le_post (hrun.step i e hi)
          (x := (i, ⟨op, e, q.shared, f e q.shared⟩)) (by simp)
      intro x hx
      rcases List.mem_append.mp hx with hx | hx
      · exact (ih x hx).trans hlast
      · rw [List.mem_singleton.mp hx]
        exact hlast

theorem serial_le_of_before (h : (process cfg conns datagrams p).Run es q)
    {es₁ es₂ : List (Option ι × ProcessEvent)} {i : Option ι} {ev : ProcessEvent}
    (hes : es = es₁ ++ (i, ev) :: es₂) {x : Option ι × ProcessEvent} (hx : x ∈ es₁) :
    x.2.pre.rs.inner.serial ≤ ev.pre.rs.inner.serial := by
  obtain ⟨q₁, hrun, hshared⟩ := h.cut hes
  rw [← hshared]
  exact serial_le hrun x hx

theorem inProcess_all {α : Type} (t : ServerTask α) :
    (inProcess t).All fun ev => ∃ op, ev.op = .server op :=
  Task.all_lift (fun op _ _ _ => ⟨op, rfl⟩) t

/-- A connection begins with the clone, and is served with it. -/
theorem conn_path (h : (process cfg conns datagrams p).Run es q) {i : ι} {ev : ProcessEvent}
    (hev : (some i, ev) ∈ es) :
    ∃ ac es', own (some i) es = ac :: es' ∧ ac.op = .accept (conns i).conn
      ∧ (inProcess (handleListenerInner cfg ac.pre.rs (conns i).conn (conns i).addr
        (conns i).stream)).Path es' (q.tasks (some i))
      ∧ ∀ ev ∈ es', ∃ op, ev.op = .server op := by
  have hpath := h.path (some i)
  rw [← mem_own] at hev
  generalize own (some i) es = own', q.tasks (some i) = t' at hpath hev
  replace hpath : Task.Path (handleListener cfg (conns i)) own' t' := hpath
  cases hpath with
  | nil => cases hev
  | cons e p₀ hrest => exact ⟨_, _, rfl, rfl, hrest, ((inProcess_all _).path hrest).1⟩

/-- There is one such step. -/
theorem accept_eq {i : ι} {ac ac' : ProcessEvent} {es' : List ProcessEvent} {conn : ConnId}
    (hown : own (some i) es = ac :: es') (hserver : ∀ ev ∈ es', ∃ op, ev.op = .server op)
    (hac : (some i, ac') ∈ es) (hop : ac'.op = .accept conn) : ac' = ac := by
  rw [← mem_own, hown, List.mem_cons] at hac
  rcases hac with hac | hac
  · exact hac
  · obtain ⟨op, hop'⟩ := hserver ac' hac
    rw [hop] at hop'
    cases hop'

/-- What is before a later step of the connection. -/
theorem own_after_accept {i : ι} {ac ev : ProcessEvent} {es' : List ProcessEvent}
    {es₁ es₂ : List (Option ι × ProcessEvent)} {conn : ConnId}
    (hown : own (some i) es = ac :: es') (hes : es = es₁ ++ (some i, ev) :: es₂)
    (haccept : ac.op = .accept conn) (hev : ev.op ≠ .accept conn) :
    ∃ own₁, own (some i) es₁ = ac :: own₁ ∧ es' = own₁ ++ ev :: own (some i) es₂ := by
  have hsplit : ac :: es' = own (some i) es₁ ++ ev :: own (some i) es₂ := by
    rw [← hown, hes, own_split]
  cases hown₁ : own (some i) es₁ with
  | nil =>
      rw [hown₁] at hsplit
      obtain ⟨rfl, -⟩ := List.cons.inj hsplit
      exact (hev haccept).elim
  | cons ac' own₁ =>
      rw [hown₁] at hsplit
      obtain ⟨rfl, htail⟩ := List.cons.inj hsplit
      exact ⟨own₁, rfl, htail⟩

/-- All replies of a connection carry the configuration of its clone. -/
theorem conn_config (h : (process cfg conns datagrams p).Run es q) {i : ι}
    {es₁ es₂ : List (Option ι × ProcessEvent)} {ev : ProcessEvent} {cu : ConfigUpdate}
    (hes : es = es₁ ++ (some i, ev) :: es₂) (hcu : ev.op.configUpdate = some cu) :
    ∃ ac, (some i, ac) ∈ es₁ ∧ ac.op = .accept (conns i).conn ∧ cu = ac.pre.rs.configUpdate := by
  have hev : (some i, ev) ∈ es := by simp [hes]
  obtain ⟨ac, es', hown, haccept, hpath, hserver⟩ := conn_path h hev
  have hnot : ev.op ≠ .accept (conns i).conn := by
    intro hop
    rw [hop] at hcu
    cases hcu
  obtain ⟨own₁, hown₁, hes'⟩ := own_after_accept hown hes haccept hnot
  have hconfig : cu = ac.pre.rs.configUpdate :=
    ((Task.Follows.config (handleListenerInner_orderly cfg ac.pre.rs _ _ _ none)).path hpath).1 ev
      (by simp [hes']) cu hcu
  exact ⟨ac, mem_own.mp (by simp [hown₁]), haccept, hconfig⟩

/-- The serial of a reply has been reached when it is sent. -/
theorem reply_serial_le (h : (process cfg conns datagrams p).Run es q) {i : Option ι}
    {es₁ es₂ : List (Option ι × ProcessEvent)} {ev : ProcessEvent} {cu : ConfigUpdate}
    (hes : es = es₁ ++ (i, ev) :: es₂) (hcu : ev.op.configUpdate = some cu) :
    cu.serial ≤ ev.pre.rs.inner.serial := by
  cases i with
  | none =>
      rw [((process_meets h).1 ev (by simp [hes])).1 cu hcu]
      exact le_refl _
  | some i =>
      obtain ⟨ac, hac, -, rfl⟩ := conn_config h hes hcu
      exact serial_le_of_before h hes hac

/-! ## Who asks with an old serial -/

/-- A request with an old serial on connection `i`, in the process. -/
def ProcessOp.Asks (cfg : Config) (serial : Int) : ProcessOp → Prop
  | .server op => op.Asks cfg serial
  | _ => False

def ProcessOp.Tells (conn : ConnId) (cu : ConfigUpdate) : ProcessOp → Prop
  | .server op => op.Tells conn cu
  | _ => False

def ProcessOp.inserts : ProcessOp → Bool
  | .server op => op.inserts
  | _ => false

def ProcessOp.backs : ProcessOp → Bool
  | .server op => op.backs
  | _ => false

/-- All requests of a connection that are older than its clone, and come before
it gives its sink away, are answered before it goes on. -/
theorem conn_answers (hwrites : cfg.Writes) (h : (process cfg conns datagrams p).Run es q) {i : ι}
    {ac : ProcessEvent} (hac : (some i, ac) ∈ es) (haccept : ac.op = .accept (conns i).conn)
    {es₁ es₂ es₃ : List (Option ι × ProcessEvent)} {ev back : ProcessEvent}
    (hes : es = es₁ ++ (some i, ev) :: (es₂ ++ (some i, back) :: es₃))
    (hheld : ∀ ev', (some i, ev') ∈ es₁ → ev'.op.inserts ≠ true)
    (hasks : ev.op.Asks cfg ac.pre.rs.inner.serial) (hback : back.op.backs = true) :
    ∃ ev', (some i, ev') ∈ es₂ ∧ ev'.op.Tells (conns i).conn ac.pre.rs.configUpdate := by
  obtain ⟨ac', es', hown, haccept', hpath, hserver⟩ := conn_path h hac
  obtain rfl := accept_eq hown hserver hac haccept
  have hnot : ev.op ≠ .accept (conns i).conn := by
    intro hop
    rw [hop] at hasks
    exact hasks
  obtain ⟨own₁, hown₁, hes'⟩ := own_after_accept hown hes haccept hnot
  obtain ⟨es₀, t₀, hpath₀, -, hmap⟩ := Task.path_lift hpath
  rw [own_split] at hes'
  have hops : own₁.map Event.op ++ ev.op :: ((own (some i) es₂).map Event.op
      ++ back.op :: (own (some i) es₃).map Event.op)
      = (es₀.map Event.op).map ProcessOp.server := by
    have hfst := congrArg (List.map Prod.fst) hmap
    simpa [hes', Function.comp_def] using hfst
  -- so the handler's labels split where the connection's own steps do
  obtain ⟨ops₁, ops', hops₀, hmap₁, hmap'⟩ := List.map_eq_append_iff.mp hops.symm
  obtain ⟨op, later, rfl, hop, hmap'⟩ := List.map_eq_cons_iff.mp hmap'
  obtain ⟨ops₂, ops', rfl, hmap₂, hmap'⟩ := List.map_eq_append_iff.mp hmap'
  obtain ⟨next, ops₃, rfl, hnext, -⟩ := List.map_eq_cons_iff.mp hmap'
  rw [← hop] at hasks
  rw [← hnext] at hback
  have hfree : ∀ op₁ ∈ ops₁, ¬ op₁.inserts = true := by
    intro op₁ hop₁ hins
    have hmem := List.mem_map_of_mem (f := ProcessOp.server) hop₁
    rw [hmap₁] at hmem
    obtain ⟨ev', hev', hev'op⟩ := List.mem_map.mp hmem
    apply hheld ev' (mem_own.mp (by simp [hown₁, hev']))
    rw [hev'op]
    exact hins
  obtain ⟨op', hop', htells⟩ := handleListenerInner_answers hwrites p.shared hpath₀ ops₁ op _ hops₀
    hfree ops₂ next ops₃ rfl hback hasks
  have hmem := List.mem_map_of_mem (f := ProcessOp.server) hop'
  rw [hmap₂] at hmem
  obtain ⟨ev', hev', hev'op⟩ := List.mem_map.mp hmem
  refine ⟨ev', mem_own.mp hev', ?_⟩
  rw [hev'op]
  exact htells

theorem mem_of_label {es₀ : List (Event Env Op Shared)} {ev₀ : Event Env Op Shared}
    (hmap : es'.map (fun ev => (ev.op, ev.env)) = es₀.map fun ev => (ProcessOp.server ev.op, ev.env))
    (hev₀ : ev₀ ∈ es₀) : ∃ ev ∈ es', ev.op = .server ev₀.op ∧ ev.env = ev₀.env := by
  have hmem := List.mem_map_of_mem
    (f := fun ev : Event Env Op Shared => (ProcessOp.server ev.op, ev.env)) hev₀
  rw [← hmap] at hmem
  obtain ⟨ev, hev, hlabel⟩ := List.mem_map.mp hmem
  exact ⟨ev, hev, Prod.mk.inj hlabel⟩

/-- A datagram that has been handled, in the process. -/
theorem handled_tells {rs : RendezvousServer} {bytes : Bytes} {addr : SocketAddr} {rp : RegisterPeer}
    {r : Except Unit RendezvousServer}
    (h : (inProcess (handleUdp cfg rs bytes addr)).Path es' (.done r))
    (hmsg : cfg.message bytes = some (.registerPeer rp))
    (hold : Outdated rs.inner.serial (some (.registerPeer rp)))
    (hworks : ∀ ev ∈ es', ∀ op, ev.op = .server op → UdpWorks op ev.env) :
    ∃ ev ∈ es', ev.op = .server (.udpSend (.configureUpdate rs.configUpdate) addr) := by
  obtain ⟨es₀, t₀, hpath₀, ht₀, hmap⟩ := Task.path_lift h
  cases t₀ with
  | abort why => cases ht₀
  | step op f k => cases ht₀
  | done r₀ =>
      have hworks₀ : ∀ ev₀ ∈ es₀, UdpWorks ev₀.op ev₀.env := by
        intro ev₀ hev₀
        obtain ⟨ev, hev, hop, henv⟩ := mem_of_label hmap hev₀
        rw [← henv]
        exact hworks ev hev ev₀.op hop
      obtain ⟨ev₀, hev₀, hop₀⟩ := handleUdp_tells hpath₀ hmsg hold hworks₀
      obtain ⟨ev, hev, hop, -⟩ := mem_of_label hmap hev₀
      exact ⟨ev, hev, by rw [hop, hop₀]⟩

/-- What is owed to a datagram of `io_loop` by the steps that follow it. -/
def Owed (cfg : Config) (ev : ProcessEvent) (later : List ProcessEvent) : Prop :=
  (∀ ev' ∈ later, ∀ op, ev'.op = .server op → UdpWorks op ev'.env) →
    ∀ bytes addr rp, ev.op = .datagram bytes addr → cfg.message bytes = some (.registerPeer rp) →
      Outdated ev.pre.rs.inner.serial (some (.registerPeer rp)) →
      ∃ ev' ∈ later, ev'.op = .server (.udpSend (.configureUpdate ev.pre.rs.configUpdate) addr)

theorem owed_server {ev : ProcessEvent} {op : Op} (h : ev.op = .server op)
    (later : List ProcessEvent) : Owed cfg ev later := by
  intro _ bytes addr rp hop
  rw [h] at hop
  cases hop

/-- The registrations that are older than the server of `io_loop` are answered
before `handle_udp` is back, unless a send has failed. -/
theorem udpLoop_answers {t} (h : (udpLoop cfg datagrams).Path es' t) :
    Responds (fun _ => False) (fun ev => Before (fun back => back.op = .handled) (Owed cfg ev))
      es' := by
  induction datagrams generalizing es' with
  | nil =>
      rw [(Task.path_done h).1]
      exact responds_nil
  | cons d rest ih =>
      -- one round: the server is read, the datagram handled, the result stored
      obtain ⟨bytes, addr⟩ := d
      cases h with
      | nil => exact responds_nil
      | @cons _ _ _ es _ e p₀ h =>
      have hserver {es₁ r} (h₁ : (inProcess (handleUdp cfg p₀.rs bytes addr)).Path es₁ r) :
          ∀ ev ∈ es₁, ∃ op, ev.op = .server op := ((inProcess_all _).path h₁).1
      have hgoing {es₁ r} (h₁ : (inProcess (handleUdp cfg p₀.rs bytes addr)).Path es₁ r) :
          ∀ ev ∈ es₁, ¬ ev.op = .handled := by
        intro ev hev hop
        obtain ⟨op, hop'⟩ := hserver h₁ ev hev
        rw [hop] at hop'
        cases hop'
      have hquiet {es₁ r} (h₁ : (inProcess (handleUdp cfg p₀.rs bytes addr)).Path es₁ r) :
          ∀ ev ∈ es₁, ∀ l, Before (fun back => back.op = .handled) (Owed cfg ev) l := by
        intro ev hev l l₁ back l₂ _ _
        obtain ⟨op, hop⟩ := hserver h₁ ev hev
        exact owed_server hop l₁
      replace h : Task.Path (inProcess (handleUdp cfg p₀.rs bytes addr) >>= fun r => do
        Task.act .handled fun _ p => ((), match r with
          | .ok rs => { p with rs }
          | .error _ => p)
        udpLoop cfg rest) _ t := h
      obtain ⟨t₁, h₁, -⟩ | ⟨es₁, r, es₂, rfl, h₁, h₂⟩ := Task.path_bind h
      · refine responds_cons (before_free (hgoing h₁)) fun _ => ?_
        rw [← List.append_nil es]
        exact responds_append (hquiet h₁) fun _ => responds_nil
      · refine responds_cons (before_append (hgoing h₁) fun l₁ => ?_) fun _ =>
          responds_append (hquiet h₁) fun _ => ?_
        · rintro hworks bytes' addr' rp ⟨⟩ hmsg hold
          obtain ⟨ev, hev, hop⟩ := handled_tells h₁ hmsg hold fun ev hev =>
            hworks ev (List.mem_append_left _ hev)
          exact ⟨ev, List.mem_append_left _ hev, hop⟩
        · cases h₂ with
          | nil => exact responds_nil
          | cons e₁ p₁ h₂ =>
              apply responds_cons
              · intro l₁ back l₂ _ _ _ bytes' addr' rp hop
                cases hop
              · exact fun _ => ih h₂

theorem Outdated.mono {serial serial' : Int} {msg : Option Union} (h : Outdated serial msg)
    (hle : serial ≤ serial') : Outdated serial' msg := by
  rcases msg with _ | msg
  · exact h
  cases msg with
  | registerPeer rp => exact ⟨h.1, lt_of_lt_of_le h.2 hle⟩
  | testNatRequest tar => exact lt_of_lt_of_le h hle
  | _ => exact h

theorem ProcessOp.Asks.mono {serial serial' : Int} {op : ProcessOp} (h : op.Asks cfg serial)
    (hle : serial ≤ serial') : op.Asks cfg serial' := by
  cases op with
  | server op =>
      cases op with
      | handleTcp conn bytes => exact Outdated.mono h hle
      | _ => exact h
  | _ => exact h

/-- The replies over UDP after one with the serial `serial` have it or a later
one, and who asks with an older one is answered by the time `handle_udp` is
back. -/
structure LoopFrom (cfg : Config) (serial : Int) (es : List (Option ι × ProcessEvent)) : Prop where
  replies : ∀ ev cu, (none, ev) ∈ es → ev.op.configUpdate = some cu → serial ≤ cu.serial
  answers : ∀ es₁ ev es₂ back es₃ bytes addr rp,
    es = es₁ ++ (none, ev) :: (es₂ ++ (none, back) :: es₃) →
    ev.op = .datagram bytes addr → cfg.message bytes = some (.registerPeer rp) →
    Outdated serial (some (.registerPeer rp)) → back.op = .handled →
    (∀ ev', (none, ev') ∈ es₂ → ∀ op, ev'.op = .server op → UdpWorks op ev'.env) →
    ∃ ev' cu, (none, ev') ∈ es₂ ∧ ev'.op = .server (.udpSend (.configureUpdate cu) addr)
      ∧ serial ≤ cu.serial

/-- Likewise on the connection `i`, while it has its sink: who asks is answered
before the connection takes its next frame or is closed. -/
structure ConnFrom (cfg : Config) (serial : Int) (i : ι) (conn : ConnId)
    (es : List (Option ι × ProcessEvent)) : Prop where
  replies : ∀ ev cu, (some i, ev) ∈ es → ev.op.configUpdate = some cu → serial ≤ cu.serial
  answers : ∀ es₁ ev es₂ back es₃, es = es₁ ++ (some i, ev) :: (es₂ ++ (some i, back) :: es₃) →
    (∀ ev', (some i, ev') ∈ es₁ → ev'.op.inserts ≠ true) → ev.op.Asks cfg serial →
    back.op.backs = true →
    ∃ ev' cu, (some i, ev') ∈ es₂ ∧ ev'.op.Tells conn cu ∧ serial ≤ cu.serial

/-- The connection `i` is accepted once, and answers from then on with the
configuration of the clone that was made there. -/
structure CloneServes (cfg : Config) (i : ι) (conn : ConnId)
    (es : List (Option ι × ProcessEvent)) : Prop where
  once : ∀ ac ac', (some i, ac) ∈ es → (some i, ac') ∈ es → ac.op = .accept conn →
    ac'.op = .accept conn → ac' = ac
  replies : ∀ es₁ ev es₂ cu, es = es₁ ++ (some i, ev) :: es₂ → ev.op.configUpdate = some cu →
    ∃ ac, (some i, ac) ∈ es₁ ∧ ac.op = .accept conn ∧ cu = ac.pre.rs.configUpdate
  answers : ∀ ac, (some i, ac) ∈ es → ac.op = .accept conn → ∀ es₁ ev es₂ back es₃,
    es = es₁ ++ (some i, ev) :: (es₂ ++ (some i, back) :: es₃) →
    (∀ ev', (some i, ev') ∈ es₁ → ev'.op.inserts ≠ true) →
    ev.op.Asks cfg ac.pre.rs.inner.serial → back.op.backs = true →
    ∃ ev', (some i, ev') ∈ es₂ ∧ ev'.op.Tells conn ac.pre.rs.configUpdate

theorem cloneServes (hwrites : cfg.Writes) (h : (process cfg conns datagrams p).Run es q) (i : ι) :
    CloneServes cfg i (conns i).conn es where
  once ac ac' hac hac' hop hop' := by
    obtain ⟨_, _, hown, -, -, hserver⟩ := conn_path h hac
    rw [accept_eq hown hserver hac hop, accept_eq hown hserver hac' hop']
  replies es₁ ev es₂ cu hes hcu := conn_config h hes hcu
  answers ac hac haccept es₁ ev es₂ back es₃ hes hheld hasks hback :=
    conn_answers hwrites h hac haccept hes hheld hasks hback

omit [DecidableEq ι] in
/-- A connection that is accepted at a serial stays with it. -/
theorem CloneServes.connFrom {i : ι} {conn : ConnId} (h : CloneServes cfg i conn es)
    {ac : ProcessEvent} (hac : (some i, ac) ∈ es) (haccept : ac.op = .accept conn) {serial : Int}
    (hserial : serial ≤ ac.pre.rs.inner.serial) : ConnFrom cfg serial i conn es where
  replies ev cu hev hcu := by
    obtain ⟨es₁, es₂, hes⟩ := List.append_of_mem hev
    obtain ⟨ac', hac', haccept', rfl⟩ := h.replies es₁ ev es₂ cu hes hcu
    rw [h.once ac ac' hac (by simp [hes, hac']) haccept haccept']
    exact hserial
  answers es₁ ev es₂ back es₃ hes hheld hasks hback := by
    obtain ⟨ev', hev', htells⟩ :=
      h.answers ac hac haccept es₁ ev es₂ back es₃ hes hheld (hasks.mono hserial) hback
    exact ⟨ev', _, hev', htells, hserial⟩

/-- **Serials.** Once a reply has carried a serial, the later replies over UDP
carry it or a later one, as do those on every connection that is accepted when
`io_loop` has reached it; and who then asks with an older serial is answered
before the handler is back. `io_loop` has reached it for all connections that
are accepted after the reply; one that was accepted before keeps to its
clone. -/
theorem serials_monotone (hwrites : cfg.Writes) (h : (process cfg conns datagrams p).Run es q)
    {es₁ es₂ : List (Option ι × ProcessEvent)} {i : Option ι} {ev : ProcessEvent}
    {cu : ConfigUpdate} (hes : es = es₁ ++ (i, ev) :: es₂) (hcu : ev.op.configUpdate = some cu) :
    LoopFrom cfg cu.serial es₂
    ∧ (∀ j ac, (some j, ac) ∈ es → ac.op = .accept (conns j).conn →
        cu.serial ≤ ac.pre.rs.inner.serial → ConnFrom cfg cu.serial j (conns j).conn es)
    ∧ (∀ j ac, (some j, ac) ∈ es₂ → cu.serial ≤ ac.pre.rs.inner.serial)
    ∧ ∀ j, CloneServes cfg j (conns j).conn es := by
  have hreached := reply_serial_le h hes hcu
  have hlater {j : Option ι} {ev' : ProcessEvent} (hev' : (j, ev') ∈ es₂) :
      cu.serial ≤ ev'.pre.rs.inner.serial := by
    obtain ⟨es₃, es₄, rfl⟩ := List.append_of_mem hev'
    have hsplit : es = (es₁ ++ (i, ev) :: es₃) ++ (j, ev') :: es₄ := by simp [hes]
    exact hreached.trans (serial_le_of_before h hsplit (x := (i, ev)) (by simp))
  refine ⟨⟨fun ev' cu' hev' hcu' => ?_, ?_⟩,
    fun j ac hac haccept => (cloneServes hwrites h j).connFrom hac haccept,
    fun j ac hac => hlater hac, cloneServes hwrites h⟩
  · rw [((process_meets h).1 ev' (by simp [hes, hev'])).1 cu' hcu']
    exact hlater hev'
  · intro es₃ d es₄ back es₅ bytes addr rp hes₂ hop hmsg hold hback hworks
    have hd : (none, d) ∈ es₂ := by simp [hes₂]
    have hserial := hlater hd
    have hown : own none es = own none (es₁ ++ (i, ev) :: es₃)
        ++ d :: (own none es₄ ++ back :: own none es₅) := by
      rw [hes, hes₂, ← own_split, ← own_split]
      simp
    obtain ⟨ev', hev', hop'⟩ := udpLoop_answers (h.path none) _ d _ hown (fun _ _ => not_false) _
      back _ rfl hback (fun ev' hev' op hop => hworks ev' (mem_own.mp hev') op hop) bytes addr rp hop
      hmsg (hold.mono hserial)
    exact ⟨ev', _, mem_own.mp hev', hop', hserial⟩

end runs

/-! A configuration with the serial 5 arrives after `false` is accepted, and
before `true` is. -/

def serialConfig : Config where
  x := .sample [([0], .configureUpdate { serial := 5 }),
    ([1], .registerPeer { id := "123456", serial := 0 }), ([2], .testNatRequest { serial := 0 })]

def serialConns (i : Bool) : Connection where
  conn := if i then 1 else 0
  addr := ⟨.v4 2, if i then 50001 else 50000⟩
  stream := .tcp [[2]]

def serialDatagrams : List (Bytes × SocketAddr) :=
  [([0], ⟨.v4 0x7F000001#32, 40000⟩), ([1], ⟨.v4 3, 50002⟩)]

def serialSchedule : List (Option Bool × Env) :=
  (some false, { now := 0 }) :: List.replicate 9 (none, { now := 0 })
    ++ List.replicate 5 (some true, { now := 0 }) ++ List.replicate 4 (some false, { now := 0 })

def serialStart : Pool (Option Bool) Env ProcessOp Process fun _ => Unit :=
  process serialConfig serialConns serialDatagrams ⟨.start .empty, { inner := { serial := 1 } }⟩

def serialRun : List (Option Bool × ProcessEvent) :=
  (serialStart.play serialSchedule).1

/-- The registration over UDP is told the new configuration. -/
theorem serialRun_reply : ∃ es₁ ev es₂, serialRun = es₁ ++ (none, ev) :: es₂
    ∧ es₂ = serialRun.drop 9 ∧ ev.op.configUpdate = some { serial := 5 } := by
  refine ⟨serialRun.take 8, _, serialRun.drop 9, rfl, rfl, ?_⟩
  decide +kernel

theorem serials_monotone_accepted :
    ConnFrom serialConfig 5 true 1 serialRun ∧ CloneServes serialConfig false 0 serialRun := by
  have hrun := Pool.play_run serialStart serialSchedule
  obtain ⟨es₁, ev, es₂, hes, rfl, hcu⟩ := serialRun_reply
  obtain ⟨-, hconn, hlater, hclone⟩ := serials_monotone (fun _ => rfl) hrun hes hcu
  have haccept : ∃ x ∈ serialRun.drop 9, x.1 = some true ∧ x.2.op = .accept 1 := by decide +kernel
  obtain ⟨⟨j, ac⟩, hac, rfl, hop⟩ := haccept
  exact ⟨hconn true ac (List.mem_of_mem_drop hac) hop (hlater true ac hac), hclone false⟩

/-- The connection `false` still has its clone. -/
theorem serials_go_back : ∃ es q, serialStart.Run es q ∧ ∃ es₁ i ev cu es₂ j ev' cu',
    es = es₁ ++ (i, ev) :: es₂ ∧ ev.op.configUpdate = some cu ∧ (j, ev') ∈ es₂
      ∧ ev'.op.configUpdate = some cu' ∧ cu'.serial < cu.serial := by
  obtain ⟨es₁, ev, es₂, hes, rfl, hcu⟩ := serialRun_reply
  have hback : ∃ x ∈ serialRun.drop 9, x.2.op.configUpdate = some { serial := 1 } := by
    decide +kernel
  obtain ⟨⟨j, ev'⟩, hev', hcu'⟩ := hback
  exact ⟨_, _, Pool.play_run serialStart serialSchedule, es₁, none, ev, _, _, j, ev', _, hes, hcu,
    hev', hcu', by decide⟩

end KustDesk
