import KustDesk.PeerUse

/-!
# KustDesk — Freshness

A request is led to a peer only while the peer's registration is fresh. The
handler compares the milliseconds since `last_reg_time`, truncated to an
`i32`, with the timeout; a peer that has not registered in this run counts
as registered an hour before its entry was made, if an `Instant` goes back that
far, which depends on the platform. Both are said here in terms of the steps of
the run.
-/

namespace KustDesk

open Async

/-! ## Registrations in a run -/

/-- The registration of `id` in a step: when it was, and from where. -/
def registration (id : String) (ev : Event Env Op Shared) : Option (Instant × SocketAddr) :=
  match ev.op with
  | .pm (.writePk id' _ addr) => if id' = id then some (ev.env.now, addr) else none
  | .pm (.writeAddr id' h addr) =>
      if id' = id ∧ ((ev.pre.pm.peers h).updateAddr addr ev.env.now).1 = false then
        some (ev.env.now, addr)
      else none
  | _ => none

/-- The peer that a step enters for `id`: the earliest `Instant` of the platform,
and the clock when the peer was made. -/
def entered (id : String) (ev : Event Env Op Shared) : Option (Instant × Instant) :=
  match ev.op with
  | .pm (.mapInsert id' since) => if id' = id then some (ev.env.earliest, since) else none
  | .pm (.mapEntry id') =>
      if id' = id ∧ ev.pre.pm.map.lookup id = none then some (ev.env.earliest, ev.env.now)
      else none
  | _ => none

section
variable {ι : Type}

def lastRegistration (id : String) (es : List (ι × Event Env Op Shared)) :
    Option (Instant × SocketAddr) :=
  (es.filterMap fun x => registration id x.2).getLast?

def entrySince (id : String) (es : List (ι × Event Env Op Shared)) :
    Option (Instant × Instant) :=
  (es.filterMap fun x => entered id x.2).getLast?

theorem lastRegistration_append (id : String) (es : List (ι × Event Env Op Shared))
    (i : ι) (ev : Event Env Op Shared) :
    lastRegistration id (es ++ [(i, ev)])
      = (registration id ev).or (lastRegistration id es) := by
  cases h : registration id ev <;>
    simp [lastRegistration, h]

theorem entrySince_append (id : String) (es : List (ι × Event Env Op Shared))
    (i : ι) (ev : Event Env Op Shared) :
    entrySince id (es ++ [(i, ev)]) = (entered id ev).or (entrySince id es) := by
  cases h : entered id ev <;>
    simp [entrySince, h]

/-- What the peer map knows of an id is the last registration of the run,
or else when the entry was made. -/
def Dated (id : String) (es : List (ι × Event Env Op Shared)) (s : PeerMap) : Prop :=
  match s.map.lookup id, lastRegistration id es with
  | none, last => last = none
  | some h, some (t, addr) =>
      (s.peers h).lastRegTime = t ∧ (s.peers h).socketAddr = addr
  | some h, none =>
      ∃ earliest since, entrySince id es = some (earliest, since)
        ∧ (s.peers h).lastRegTime = getExpiredTime earliest since

variable {id : String} {es : List (ι × Event Env Op Shared)} {s s' : PeerMap}

/-- A step that neither registers the id nor enters it, and leaves its entry
as it is. -/
theorem Dated.quiet (hdated : Dated id es s) (i : ι) {ev : Event Env Op Shared}
    (hreg : registration id ev = none) (hent : entered id ev = none)
    (hmap : s'.map.lookup id = s.map.lookup id)
    (hpeer : ∀ h, s.map.lookup id = some h →
      (s'.peers h).lastRegTime = (s.peers h).lastRegTime
        ∧ (s'.peers h).socketAddr = (s.peers h).socketAddr) :
    Dated id (es ++ [(i, ev)]) s' := by
  unfold Dated at hdated ⊢
  rw [hmap, lastRegistration_append, entrySince_append, hreg, hent]
  cases hlookup : s.map.lookup id with
  | none =>
      rw [hlookup] at hdated
      exact hdated
  | some h =>
      rw [hlookup] at hdated
      obtain ⟨htime, haddr⟩ := hpeer h hlookup
      cases hlast : lastRegistration id es with
      | none =>
          rw [hlast] at hdated
          obtain ⟨earliest, since, hsince, hdate⟩ := hdated
          exact ⟨earliest, since, hsince, htime.trans hdate⟩
      | some last =>
          rw [hlast] at hdated
          exact ⟨htime.trans hdated.1, haddr.trans hdated.2⟩

/-- The id is entered. -/
theorem Dated.enter (hdated : Dated id es s) (hnone : s.map.lookup id = none) (i : ι)
    {ev : Event Env Op Shared} {earliest since : Instant} {p : Peer}
    (hreg : registration id ev = none) (hent : entered id ev = some (earliest, since))
    (hp : p.lastRegTime = getExpiredTime earliest since) :
    Dated id (es ++ [(i, ev)]) (s.enter id p).2 := by
  unfold Dated at hdated ⊢
  rw [hnone] at hdated
  have hlast : lastRegistration id es = none := hdated
  rw [PeerMap.enter_lookup, lastRegistration_append, entrySince_append, hreg, hent, hlast]
  refine ⟨earliest, since, rfl, ?_⟩
  rw [PeerMap.enter_peers_self, hp]

/-- The id is registered. -/
theorem Dated.register {h : LockPeer} (hlookup : s.map.lookup id = some h) (i : ι)
    {ev : Event Env Op Shared} {t : Instant} {addr : SocketAddr} {p : Peer}
    (hreg : registration id ev = some (t, addr)) (htime : p.lastRegTime = t)
    (haddr : p.socketAddr = addr) :
    Dated id (es ++ [(i, ev)]) (s.set h p) := by
  unfold Dated
  rw [PeerMap.set_map, hlookup, lastRegistration_append, hreg]
  show ((s.set h p).peers h).lastRegTime = t ∧ ((s.set h p).peers h).socketAddr = addr
  rw [PeerMap.set_peers_self]
  exact ⟨htime, haddr⟩

/-- The entry of an id does not notice what happens at another handle. -/
theorem Dated.setOther (hdated : Dated id es s) (i : ι) {ev : Event Env Op Shared}
    {h : LockPeer} {p : Peer} (hne : s.map.lookup id ≠ some h)
    (hreg : registration id ev = none) (hent : entered id ev = none) :
    Dated id (es ++ [(i, ev)]) (s.set h p) := by
  refine hdated.quiet i hreg hent rfl fun h' hlookup => ?_
  have hne' : h' ≠ h := by
    rintro rfl
    exact hne hlookup
  rw [PeerMap.set_peers_of_ne _ _ _ hne']
  exact ⟨rfl, rfl⟩

/-- Nor does it notice that another id is entered. -/
theorem Dated.enterOther (hdated : Dated id es s) (hsound : s.Sound) (i : ι)
    {ev : Event Env Op Shared} {id' : String} {p : Peer} (hid : id' ≠ id)
    (hreg : registration id ev = none) (hent : entered id ev = none) :
    Dated id (es ++ [(i, ev)]) (s.enter id' p).2 := by
  refine hdated.quiet i hreg hent (PeerMap.enter_lookup_ne _ _ _ (Ne.symm hid)) ?_
  intro h hlookup
  rw [PeerMap.enter_peers_of_ne _ _ _ (Nat.ne_of_lt (hsound.lt id h hlookup))]
  exact ⟨rfl, rfl⟩

/-- A write that leaves time and address as they are. -/
theorem Dated.setSame (hdated : Dated id es s) (i : ι) {ev : Event Env Op Shared}
    {h : LockPeer} {p : Peer} (htime : p.lastRegTime = (s.peers h).lastRegTime)
    (haddr : p.socketAddr = (s.peers h).socketAddr) (hreg : registration id ev = none)
    (hent : entered id ev = none) : Dated id (es ++ [(i, ev)]) (s.set h p) := by
  refine hdated.quiet i hreg hent rfl fun h' _ => ?_
  by_cases heq : h' = h
  · subst heq
    rw [PeerMap.set_peers_self]
    exact ⟨htime, haddr⟩
  · rw [PeerMap.set_peers_of_ne _ _ _ heq]
    exact ⟨rfl, rfl⟩

/-- The entry of an id is made where there is none. -/
theorem Dated.mapEntry (hdated : Dated id es s) (hsound : s.Sound) (i : ι)
    {ev : Event Env Op Shared} {id' : String}
    (hop : ev.op = .pm (.mapEntry id')) (hpre : ev.pre.pm = s)
    (heffect : (PmOp.mapEntry id').effect ev.env s s') : Dated id (es ++ [(i, ev)]) s' := by
  have hreg : registration id ev = none := by simp [registration, hop]
  simp only [PmOp.effect] at heffect
  split at heffect
  · rename_i hsome
    have hent : entered id ev = none := by
      simp only [entered, hop, hpre, ite_eq_right_iff, reduceCtorEq, imp_false, not_and]
      rintro rfl hnone
      simp [hnone] at hsome
    exact hdated.quiet i hreg hent (by rw [heffect]) fun h _ => by rw [heffect]; simp
  · rename_i hnone
    have hnone : s.map.lookup id' = none := by simpa using hnone
    rw [heffect]
    by_cases hid : id' = id
    · subst hid
      exact hdated.enter hnone i hreg (by simp [entered, hop, hpre, hnone]) rfl
    · exact hdated.enterOther hsound i hid hreg (by simp [entered, hop, hid])

/-- A registration at an address is one unless it asks for the key. -/
theorem Dated.writeAddr (hdated : Dated id es s) (hsound : s.Sound) (i : ι)
    {ev : Event Env Op Shared} {id' : String} {h : LockPeer} {addr : SocketAddr}
    (hop : ev.op = .pm (.writeAddr id' h addr)) (hpre : ev.pre.pm = s)
    (hlive : s.map.lookup id' = some h)
    (heffect : (PmOp.writeAddr id' h addr).effect ev.env s s') : Dated id (es ++ [(i, ev)]) s' := by
  have hent : entered id ev = none := by simp [entered, hop]
  rw [show s' = _ from heffect]
  by_cases hid : id' = id
  · subst hid
    have hp := (s.peers h).updateAddr_snd addr ev.env.now
    cases hrequest : ((s.peers h).updateAddr addr ev.env.now).1 with
    | false =>
        rw [hrequest] at hp
        have hreg : registration id' ev = some (ev.env.now, addr) := by
          simp [registration, hop, hpre, hrequest]
        rw [hp]
        exact Dated.register hlive i hreg rfl rfl
    | true =>
        rw [hrequest] at hp
        have hreg : registration id' ev = none := by
          simp [registration, hop, hpre, hrequest]
        exact hdated.setSame i (by rw [hp]; rfl) (by rw [hp]; rfl) hreg hent
  · have hne : s.map.lookup id ≠ some h := fun h' => hid (hsound.inj _ _ h hlive h')
    exact hdated.setOther i hne (by simp [registration, hop, hid]) hent

/-- One step on the peer map, taken through the entries of the map. -/
theorem Dated.step (hdated : Dated id es s) (hsound : s.Sound) (i : ι)
    {ev : Event Env Op Shared} {op : PmOp} (hop : ev.op = .pm op) (hpre : ev.pre.pm = s)
    (hlive : op.OnLive s) (hnew : op.Rechecked s) (heffect : op.effect ev.env s s') :
    Dated id (es ++ [(i, ev)]) s' := by
  cases op with
  | mapInsert id' since =>
      obtain ⟨p, hs, hp⟩ := heffect
      have hreg : registration id ev = none := by simp [registration, hop]
      by_cases hid : id' = id
      · subst hid
        rw [hs]
        exact hdated.enter (hnew _ _ rfl) i hreg (by simp [entered, hop]) hp
      · rw [hs]
        exact hdated.enterOther hsound i hid hreg (by simp [entered, hop, hid])
  | mapEntry id' => exact hdated.mapEntry hsound i hop hpre heffect
  | writePk id' h addr =>
      obtain ⟨p, hs, htime, haddr⟩ := heffect
      have hent : entered id ev = none := by simp [entered, hop]
      rw [hs]
      by_cases hid : id' = id
      · subst hid
        exact Dated.register hlive i (by simp [registration, hop]) htime haddr
      · have hne : s.map.lookup id ≠ some h := fun h' => hid (hsound.inj _ _ h hlive h')
        exact hdated.setOther i hne (by simp [registration, hop, hid]) hent
  | writeAddr id' h addr => exact hdated.writeAddr hsound i hop hpre hlive heffect
  | writeRegPk h =>
      obtain ⟨p, hs, htime, haddr⟩ := heffect
      rw [hs]
      exact hdated.setSame i htime haddr (by simp [registration, hop]) (by simp [entered, hop])
  | writeGuid h =>
      obtain ⟨p, hs, htime, haddr⟩ := heffect
      rw [hs]
      exact hdated.setSame i htime haddr (by simp [registration, hop]) (by simp [entered, hop])
  | insertPeer id' uuid pk info =>
      obtain ⟨db, rfl⟩ := heffect
      exact hdated.quiet i (by simp [registration, hop]) (by simp [entered, hop]) rfl
        fun _ _ => ⟨rfl, rfl⟩
  | updatePk guid id' pk info =>
      obtain ⟨db, rfl⟩ := heffect
      exact hdated.quiet i (by simp [registration, hop]) (by simp [entered, hop]) rfl
        fun _ _ => ⟨rfl, rfl⟩
  | ipBlocker =>
      obtain ⟨blocker, rfl⟩ := heffect
      exact hdated.quiet i (by simp [registration, hop]) (by simp [entered, hop]) rfl
        fun _ _ => ⟨rfl, rfl⟩
  | ipChanges =>
      obtain ⟨changes, rfl⟩ := heffect
      exact hdated.quiet i (by simp [registration, hop]) (by simp [entered, hop]) rfl
        fun _ _ => ⟨rfl, rfl⟩
  | _ =>
      have hs : s' = s := heffect
      subst hs
      exact hdated.quiet i (by simp [registration, hop]) (by simp [entered, hop]) rfl
        fun _ _ => ⟨rfl, rfl⟩

end

/-! ## The age -/

/-- The age reads as an old one after the cast to `i32`. -/
def StaysOld (ms : Nat) : Prop := 30000 ≤ ms % 2 ^ 32 ∧ ms % 2 ^ 32 < 2 ^ 31

theorem staysOld_iff (ms : Nat) : StaysOld ms ↔ asI32 ms ≥ regTimeout := by
  have hlt := @asI32_lt ms
  have hmod : ms % 2 ^ 32 < 2 ^ 32 := Nat.mod_lt _ (by decide)
  simp only [StaysOld, regTimeout, ge_iff_le]
  omega

/-- The last registration of the run was less than 30 seconds ago, from `addr`. -/
def Fresh {ι : Type} (id : String) (es : List (ι × Event Env Op Shared)) (now : Instant)
    (addr : SocketAddr) : Prop :=
  ∃ t, lastRegistration id es = some (t, addr)
    ∧ Instant.asMillis (Instant.elapsed now t) < 30000

/-- The age of a registration is small or reads as an old one. Without a
registration, the age reads as an old one that counts from an hour before the
entry was made, or from that moment where the platform has no `Instant` for the
hour before. -/
def AgeReads {ι : Type} (id : String) (es : List (ι × Event Env Op Shared))
    (now : Instant) : Prop :=
  match lastRegistration id es with
  | some (t, _) =>
      Instant.asMillis (Instant.elapsed now t) < 30000
        ∨ StaysOld (Instant.asMillis (Instant.elapsed now t))
  | none => ∀ earliest since, entrySince id es = some (earliest, since) →
      StaysOld (Instant.asMillis (Instant.elapsed now (getExpiredTime earliest since)))

/-- What the handler reads of an entry leads to a fresh peer only, exactly if
its age reads right. -/
theorem fresh_iff_ageReads {ι : Type} {id : String} {es : List (ι × Event Env Op Shared)}
    {s : PeerMap} {peer : LockPeer} (hdated : Dated id es s)
    (hlookup : s.map.lookup id = some peer) (now : Instant) :
    ((s.peers peer).age now < regTimeout → Fresh id es now (s.peers peer).socketAddr)
      ↔ AgeReads id es now := by
  unfold Dated at hdated
  rw [hlookup] at hdated
  have hage (ms : Nat) : asI32 ms < regTimeout ↔ ¬ StaysOld ms := by
    rw [staysOld_iff]
    omega
  have hsmall (ms : Nat) (hms : ms < 30000) : ¬ StaysOld ms := by
    intro h
    have hmod := Nat.mod_le ms (2 ^ 32)
    have hle := h.1
    omega
  unfold AgeReads Fresh Peer.age
  rw [hage]
  cases hlast : lastRegistration id es with
  | none =>
      rw [hlast] at hdated
      obtain ⟨earliest, since, hsince, htime⟩ := hdated
      rw [htime]
      constructor
      · intro h earliest' since' hsince'
        rw [hsince] at hsince'
        cases hsince'
        by_contra hold
        obtain ⟨t, ht, -⟩ := h hold
        cases ht
      · intro h hold
        exact (hold (h earliest since hsince)).elim
  | some last =>
      obtain ⟨t, addr⟩ := last
      rw [hlast] at hdated
      obtain ⟨htime, haddr⟩ := hdated
      rw [htime, haddr]
      constructor
      · intro h
        by_cases hold : StaysOld (Instant.asMillis (Instant.elapsed now t))
        · exact .inr hold
        · obtain ⟨t', ht', hms⟩ := h hold
          cases ht'
          exact .inl hms
      · intro h hold
        rcases h with hms | hold'
        · exact ⟨t, rfl, hms⟩
        · exact (hold hold').elim

/-! ## Requests in a run -/

theorem tending_peersOnly : PeersOnly (onPeers tending) := by
  refine onPeers_peersOnly PmCall.meets fun x id s => ?_
  refine (get_tending x id s).mono ?_
  intro r s hpeer peer hr e s' hkept _
  exact ⟨hkept _ _ (hpeer peer hr), rfl, fun _ _ h => h⟩

/-- The result of a request among jobs. -/
abbrev Answer {ι : Type} : Option ι → Type
  | none => Union × Option SocketAddr
  | some _ => Unit

/-- A server in which, besides its jobs, one punch-hole request is handled. -/
def withRequest {ι : Type} (cfg : Config) (jobs : ι → Job) (rs : RendezvousServer)
    (addr : SocketAddr) (ph : PunchHoleRequest) (ws : Bool) (s : Shared) :
    Pool (Option ι) Env Op Shared Answer where
  tasks
    | none => handlePunchHoleRequest cfg rs addr ph ws
    | some i => (jobs i).task cfg
  shared := s

/-- Past its checks, a request is answered from the registration it reads, if
there is an entry to read. -/
theorem handlePunchHoleRequest_answer {cfg : Config} {rs : RendezvousServer}
    {addr : SocketAddr} {ph : PunchHoleRequest} {ws : Bool}
    {es : List (Event Env Op Shared)} {msg : Union} {toAddr : Option SocketAddr}
    (h : Task.Path (handlePunchHoleRequest cfg rs addr ph ws) es (.done (msg, toAddr)))
    (hkey : cfg.key = "" ∨ ph.licenceKey = cfg.key)
    (hlogin : ∀ ev ∈ es, ev.op = .loginCheck ph.token →
      loginCheck cfg.x cfg.secret ev.pre.mustLogin ph.token ev.env.utc = none) :
    (toAddr = none ∧ msg = .punchHoleResponse { failure := some .idNotExist })
    ∨ ∃ ev ∈ es, ∃ peer, ev.op = .pm (.readPunch ph.id peer)
      ∧ if (ev.pre.pm.peers peer).age ev.env.now < regTimeout
        then toAddr = some (ev.pre.pm.peers peer).socketAddr
        else toAddr = none ∧ msg = .punchHoleResponse { failure := some .offline } := by
  have hkey' : (decide (cfg.key ≠ "") && decide (ph.licenceKey ≠ cfg.key)) = false := by
    rcases hkey with hkey | hkey <;> simp [hkey]
  unfold handlePunchHoleRequest at h
  rw [if_neg (by simpa using hkey')] at h
  obtain ⟨es₁, refused, es₂, rfl, h₁, h⟩ := Task.path_bind_done h
  obtain ⟨e, s, rfl, rfl⟩ := Task.path_act_done h₁
  have hnone := hlogin _ (List.mem_append_left _ (List.mem_singleton_self _)) rfl
  simp only at hnone
  simp only [hnone] at h
  obtain ⟨es₃, peer, es₄, rfl, -, h⟩ := Task.path_bind_done h
  cases peer with
  | none =>
      obtain ⟨-, hdone⟩ := Task.path_done h
      cases hdone
      exact .inl ⟨rfl, rfl⟩
  | some peer =>
      obtain ⟨es₅, r, es₆, rfl, h₅, h⟩ := Task.path_bind_done h
      cases h₅ with
      | cons e s h₅ =>
          obtain ⟨rfl, hr⟩ := Task.path_done h₅
          cases hr
          have hmem (ev : Event Env Op Shared) : ev ∈ [ev] ++ es₆ := by simp
          refine .inr ⟨_, List.mem_append_right _ (List.mem_append_right _ (hmem _)),
            peer, rfl, ?_⟩
          show if (s.pm.peers peer).age e.now < regTimeout then _ else _
          change Task.Path (if (s.pm.peers peer).age e.now ≥ regTimeout then _ else _) es₆ _ at h
          by_cases hfresh : (s.pm.peers peer).age e.now < regTimeout
          · rw [if_pos hfresh]
            rw [if_neg (by omega)] at h
            obtain ⟨es₇, msg', es₈, rfl, -, h⟩ := Task.path_bind_done h
            obtain ⟨-, hdone⟩ := Task.path_done h
            cases hdone
            rfl
          · rw [if_neg hfresh]
            rw [if_pos (by omega)] at h
            obtain ⟨-, hdone⟩ := Task.path_done h
            cases hdone
            exact ⟨rfl, rfl⟩

section runs
variable {cfg : Config} {ι : Type} [DecidableEq ι] {jobs : ι → Job} {rs : RendezvousServer}
  {addr : SocketAddr} {ph : PunchHoleRequest} {ws : Bool} {db : Database}
  {es : List (Option ι × Event Env Op Shared)} {q : Pool (Option ι) Env Op Shared Answer}

/-- The steps of a run in which no entry is replaced keep the contract. -/
theorem withRequest_tending (h : (withRequest cfg jobs rs addr ph ws (.start db)).Run es q)
    (hnew : ∀ i ev op, (i, ev) ∈ es → ev.op = .pm op → op.Rechecked ev.pre.pm) :
    ∀ i ev, (i, ev) ∈ es → (onPeers tending).guar ev.op ev.env ev.pre ev.post := by
  have hgiven : ∀ i ev, (i, ev) ∈ es → (onPeers tending).given ev.op ev.env ev.pre :=
    fun i ev hev o hop => hnew i ev o hev hop
  have hkept {s s' : Shared} {op : Op} {e : Env} (hguar : (onPeers tending).guar op e s s') :
      s.pm.Kept s'.pm := by
    cases hpm : op.isPm with
    | true =>
        obtain ⟨o, rfl⟩ : ∃ o, op = .pm o := by
          cases op with
          | pm o => exact ⟨o, rfl⟩
          | _ => cases hpm
        exact (hguar.1 o rfl).2.2
    | false =>
        have hsame := hguar.2 hpm
        intro id peer hpeer
        rwa [hsame]
  refine (h.meets (c := fun _ => onPeers tending) (Q := fun _ _ _ => True) hgiven ?_ ?_ ?_).1
  · intro i
    refine ⟨fun _ _ h => h, ?_⟩
    cases i with
    | none => exact handlePunchHoleRequest_free tending_peersOnly cfg rs addr ph ws _
    | some i => exact Job.task_free tending_peersOnly cfg (jobs i) _
  · exact fun _ _ _ _ _ _ _ _ _ _ h => h
  · exact fun _ _ _ _ _ _ _ _ hrely hguar id peer hpeer =>
      hkept hguar id peer (hrely id peer hpeer)

/-- In such a run the entries know the last registration of their id. -/
theorem withRequest_dated (h : (withRequest cfg jobs rs addr ph ws (.start db)).Run es q)
    (hnew : ∀ i ev op, (i, ev) ∈ es → ev.op = .pm op → op.Rechecked ev.pre.pm) (id : String) :
    Dated id es q.shared.pm ∧ q.shared.pm.Sound := by
  have hguar := withRequest_tending h hnew
  induction h with
  | start => exact ⟨rfl, PeerMap.new_sound db⟩
  | @step es q i e op f k hrun hi ih =>
      obtain ⟨hdated, hsound⟩ := ih
        (fun i ev o hev hop => hnew i ev o (List.mem_append_left _ hev) hop)
        fun i ev hev => hguar i ev (List.mem_append_left _ hev)
      have hlast : (i, (⟨op, e, q.shared, f e q.shared⟩ : Event Env Op Shared))
          ∈ es ++ [(i, ⟨op, e, q.shared, f e q.shared⟩)] := by simp
      have hstep := hguar _ _ hlast
      by_cases hop : ∃ o, op = .pm o
      · obtain ⟨o, rfl⟩ := hop
        obtain ⟨hlive, heffect, -⟩ := hstep.1 o rfl
        exact ⟨hdated.step hsound i rfl rfl hlive (hnew _ _ o hlast rfl) heffect,
          heffect.sound hsound⟩
      · have hpm : op.isPm = false := by
          cases op with
          | pm o => exact (hop ⟨o, rfl⟩).elim
          | _ => rfl
        have hsame : (f e q.shared).pm = q.shared.pm := hstep.2 hpm
        have hreg : registration id (⟨op, e, q.shared, f e q.shared⟩ : Event Env Op Shared)
            = none := by
          cases op with
          | pm o => cases hpm
          | _ => rfl
        have hent : entered id (⟨op, e, q.shared, f e q.shared⟩ : Event Env Op Shared)
            = none := by
          cases op with
          | pm o => cases hpm
          | _ => rfl
        show Dated id _ (f e q.shared).pm ∧ (f e q.shared).pm.Sound
        rw [hsame]
        exact ⟨hdated.quiet i hreg hent rfl fun _ _ => ⟨rfl, rfl⟩, hsound⟩

/-- **Freshness of routing.** In a run in which every loaded peer finds no
entry at its insertion, a request past its checks finds no entry for the id
or reads one. In the second case it is led only to a peer whose last
registration was less than 30 seconds ago, at the address of it, exactly if
the age reads right; led nowhere, it is answered that the peer is offline. -/
theorem punchHole_fresh_iff
    (h : (withRequest cfg jobs rs addr ph ws (.start db)).Run es q)
    (hkey : cfg.key = "" ∨ ph.licenceKey = cfg.key)
    (hlogin : ∀ ev, (none, ev) ∈ es → ev.op = .loginCheck ph.token →
      loginCheck cfg.x cfg.secret ev.pre.mustLogin ph.token ev.env.utc = none)
    (hnew : ∀ i ev id since, (i, ev) ∈ es → ev.op = .pm (.mapInsert id since) →
      ev.pre.pm.map.lookup id = none)
    {msg : Union} {toAddr : Option SocketAddr} (hdone : q.tasks none = .done (msg, toAddr)) :
    (toAddr = none ∧ msg = .punchHoleResponse { failure := some .idNotExist })
    ∨ ∃ es₁ ev es₂ peer, es = es₁ ++ (none, ev) :: es₂
      ∧ ev.op = .pm (.readPunch ph.id peer)
      ∧ (toAddr = none → msg = .punchHoleResponse { failure := some .offline })
      ∧ ((∀ a, toAddr = some a → Fresh ph.id es₁ ev.env.now a)
        ↔ AgeReads ph.id es₁ ev.env.now) := by
  have hrechecked : ∀ i ev op, (i, ev) ∈ es → ev.op = .pm op → op.Rechecked ev.pre.pm := by
    rintro i ev op hev hop id since rfl
    exact hnew i ev id since hev hop
  have hpath := h.path none
  rw [hdone] at hpath
  rcases handlePunchHoleRequest_answer hpath hkey
    (fun ev hev => hlogin ev (mem_own.mp hev)) with hnone | ⟨ev, hev, peer, hop, hanswer⟩
  · exact .inl hnone
  · right
    have hmem := mem_own.mp hev
    obtain ⟨es₁, es₂, hes⟩ := List.append_of_mem hmem
    obtain ⟨q₁, hrun, hshared⟩ := h.cut hes
    obtain ⟨hdated, -⟩ := withRequest_dated hrun
      (fun i ev o hev => hrechecked i ev o (by rw [hes]; exact List.mem_append_left _ hev)) ph.id
    rw [hshared] at hdated
    have hlookup : ev.pre.pm.map.lookup ph.id = some peer :=
      ((withRequest_tending h hrechecked none ev hmem).1 _ hop).1
    refine ⟨es₁, ev, es₂, peer, hes, hop, ?_, ?_⟩
    · rintro rfl
      split at hanswer
      · cases hanswer
      · exact hanswer.2
    · rw [← fresh_iff_ageReads hdated hlookup]
      by_cases hage : (ev.pre.pm.peers peer).age ev.env.now < regTimeout
      · rw [if_pos hage] at hanswer
        simp [hanswer, hage]
      · rw [if_neg hage] at hanswer
        simp [hanswer.1, hage]

end runs

/-! A peer registers its key over UDP, ten seconds after an hour on the
clock, and a request comes some time later. -/

def freshConfig : Config where
  x := .sample [([0], .registerPk { id := "123456", uuid := [1], pk := [2] })]

def freshServer : Pool (Option Unit) Env Op Shared Answer :=
  withRequest freshConfig (fun _ => .datagram {} [0] ⟨.v4 1, 50000⟩) {} ⟨.v4 2, 50001⟩
    { id := "123456" } false (.start .empty)

def freshSchedule (later : Nat) : List (Option Unit × Env) :=
  List.replicate 13 (some (), { now := 3610 * 1000000000 })
    ++ List.replicate 6 (none, { now := 3610 * 1000000000 + later * 1000000 })

def freshRun (later : Nat) : List (Option Unit × Event Env Op Shared) :=
  (freshServer.play (freshSchedule later)).1

def Op.enters : Op → Bool
  | .pm (.mapInsert ..) => true
  | _ => false

/-- One second later the request is led to the peer. -/
theorem punchHole_fresh_second :
    ∃ es₁ ev es₂, freshRun 1000 = es₁ ++ (none, ev) :: es₂
      ∧ Fresh "123456" es₁ ev.env.now ⟨.v4 1, 50000⟩ := by
  have hrun := Pool.play_run freshServer (freshSchedule 1000)
  have hlogin : ∀ y ∈ freshRun 1000, y.2.pre.mustLogin = false := by decide
  have hnew : ∀ y ∈ freshRun 1000, y.2.op.enters = false := by decide
  have hlater : ∀ y ∈ freshRun 1000, y.1 = none →
      y.2.env.now = 3611 * 1000000000 := by decide
  have hregistered : ∀ n < (freshRun 1000).length,
      (freshRun 1000)[n]?.any (fun x => x.1.isNone) →
        lastRegistration "123456" ((freshRun 1000).take n)
          = some (3610 * 1000000000, ⟨.v4 1, 50000⟩) := by decide +kernel
  have hdone : ∃ msg, (freshServer.play (freshSchedule 1000)).2.tasks none
      = .done (msg, some ⟨.v4 1, 50000⟩) := ⟨_, rfl⟩
  obtain ⟨msg, hdone⟩ := hdone
  have hchecked : ∀ ev, (none, ev) ∈ freshRun 1000 → ev.op = .loginCheck "" →
      loginCheck freshConfig.x freshConfig.secret ev.pre.mustLogin "" ev.env.utc = none := by
    intro ev hev _
    rw [hlogin _ hev]
    rfl
  have hentries : ∀ i ev id since, (i, ev) ∈ freshRun 1000 → ev.op = .pm (.mapInsert id since) →
      ev.pre.pm.map.lookup id = none := by
    intro i ev id since hev hop
    have hnone := hnew _ hev
    rw [hop] at hnone
    cases hnone
  rcases punchHole_fresh_iff hrun (.inl rfl) hchecked hentries hdone with hnone | hread
  · cases hnone.1
  · obtain ⟨es₁, ev, es₂, peer, hsplit, -, -, hiff⟩ := hread
    have hes : freshRun 1000 = es₁ ++ (none, ev) :: es₂ := hsplit
    rw [hes] at hlater hregistered
    refine ⟨es₁, ev, es₂, hes, hiff.mpr ?_ _ rfl⟩
    have hnow : ev.env.now = 3611 * 1000000000 := hlater (none, ev) (by simp) rfl
    have hlast := hregistered es₁.length (by simp) (by simp)
    rw [List.take_left' rfl] at hlast
    unfold AgeReads
    rw [hnow, hlast]
    exact .inl (by decide)

/-- 2^32 milliseconds after its only registration, a request is led to the
peer. And where no `Instant` is before the clock's origin, one that comes five
seconds after it is led to a peer that has not registered at all. -/
theorem punchHole_stale :
    (∃ es q msg, freshServer.Run es q ∧ q.tasks none = .done (msg, some ⟨.v4 1, 50000⟩)
      ∧ lastRegistration "123456" es = some (3610 * 1000000000, ⟨.v4 1, 50000⟩)
      ∧ ∀ y ∈ es, y.1 = none → y.2.env.now = (3610 * 1000 + 2 ^ 32) * 1000000)
    ∧ ∃ es q msg, (withRequest freshConfig (fun _ : Unit => .datagram {} [0] ⟨.v4 1, 50000⟩) {}
        ⟨.v4 2, 50001⟩ { id := "123456" } false
        (.start ⟨[⟨[7], "123456", [1], [2], "0.0.0.1"⟩], List.pairwise_singleton _ _⟩)).Run es q
      ∧ q.tasks none = .done (msg, some .unspecified) ∧ lastRegistration "123456" es = none
      ∧ ∀ y ∈ es, y.2.env.now = y.2.env.earliest + 5 * 1000000000 := by
  refine ⟨⟨_, _, _, Pool.play_run freshServer (freshSchedule (2 ^ 32)), rfl, ?_, ?_⟩,
    ⟨_, _, _, Pool.play_run _ (List.replicate 7
      (none, { now := 5 * 1000000000, earliest := 0 })), rfl, ?_, ?_⟩⟩
  · exact (by decide : lastRegistration "123456" (freshRun (2 ^ 32))
      = some (3610 * 1000000000, ⟨.v4 1, 50000⟩))
  · exact (by decide : ∀ y ∈ freshRun (2 ^ 32), y.1 = none →
      y.2.env.now = (3610 * 1000 + 2 ^ 32) * 1000000)
  · decide
  · decide

end KustDesk
