import KustDesk.Visits
import KustDesk.Handshake

/-!
# KustDesk — Authority

Where requests for an id are forwarded to. The address in memory is the one
of the last accepted registration or, before the first one, of the row; a
refresh from any other address is answered with a request to register.
-/

namespace KustDesk

open Async

/-! ## What a history vouches for -/

/-- The call, if it is a registration of `id` that was accepted. -/
def Handler.accepted (id : String) : Handler → Option Handler.Answer → Option RegCall
  | .registerPk c, some (.registered (.ok _)) => if c.id = id then some c else none
  | _, _ => none

/-- The last registration of `id` that was accepted. -/
def lastAccepted (ran : Handled) (id : String) : Option RegCall :=
  (ran.filterMap fun r => r.call.accepted id r.result).getLast?

theorem lastAccepted_concat (ran : Handled) (r : Ran Handler Env Op Shared Handler.Answer)
    (id : String) : lastAccepted (ran ++ [r]) id
      = (r.call.accepted id r.result).or (lastAccepted ran id) := by
  rw [lastAccepted, List.filterMap_append, List.getLast?_append]
  cases h : r.call.accepted id r.result with
  | none => simp [h, lastAccepted]
  | some c => simp [h]

/-- Who is known under an id: whoever was accepted last or, if nobody was,
the one that the row names. -/
def vouched (x : External) (row : Option DbPeer) (last : Option RegCall) : Option Identity :=
  (last.map RegCall.identity).or (row.map (DbPeer.identity x))

/-- Memory has no other identity than the one that is vouched for. `row₀` is
the row at the start. -/
structure Record.Vouched (x : External) (row₀ : Option DbPeer) (last : Option RegCall)
    (rec : Record) : Prop where
  entry : ∀ p, rec.entry = some p → vouched x row₀ last = some p.identity
  inMemory : last ≠ none → rec.entry ≠ none
  row : last = none → rec.row = row₀

section
variable {x : External} {row₀ : Option DbPeer} {last refresh} {rec rec' : Record} {p : Peer}

theorem Peer.identity_updateAddr (p : Peer) (addr : SocketAddr) (now : Instant) :
    (p.updateAddr addr now).2.identity = p.identity := by
  rw [updateAddr_snd]
  split <;> rfl

theorem Record.Vouched.visited (h : rec.Vouched x row₀ last) (hvisit : rec.Visited x refresh rec') :
    rec'.Vouched x row₀ last := by
  cases hvisit with
  | same => exact h
  | @loaded v earliest since hentry hrow =>
      have hlast : last = none := by
        by_contra hne
        exact h.inMemory hne hentry
      refine ⟨?_, fun hne => (hne hlast).elim, h.row⟩
      rintro _ ⟨⟩
      rw [hlast, ← h.row hlast, hrow]
      rfl
  | moved now hrefresh hentry =>
      refine ⟨?_, nofun, h.row⟩
      rintro _ ⟨⟩
      rw [Peer.identity_updateAddr]
      exact h.entry _ hentry

/-- The peer that is found or loaded has the vouched identity, and one that is
created is never refused. -/
theorem Record.Vouched.opened {failed : Bool} (h : rec.Vouched x row₀ last)
    (hopen : rec.Opened x failed p) :
    vouched x row₀ last = some p.identity ∨ ∃ earliest now, p = .default earliest now := by
  cases hopen with
  | found hentry => exact .inl (h.entry p hentry)
  | loaded earliest since hentry hrow =>
      have hlast : last = none := by
        by_contra hne
        exact h.inMemory hne hentry
      left
      rw [hlast, ← h.row hlast, hrow]
      rfl
  | created earliest now hentry hrow => exact .inr ⟨earliest, now, rfl⟩

theorem Record.Vouched.registered {c : RegCall} {failed : Bool}
    {w : Option ((Bytes × String) × Bool)} {r : Except RegisterPkResult RegisterPkResult}
    (h : rec.Vouched x row₀ last) (hreg : rec.Registered x c failed w r rec') :
    rec'.Vouched x row₀ (((Handler.registerPk c).accepted c.id (some (.registered r))).or last) := by
  have haccepted (k : RegisterPkResult) :
      ((Handler.registerPk c).accepted c.id (some (.registered (.ok k)))).or last = some c := by
    simp [Handler.accepted]
  cases hreg with
  | rejected => exact h
  | refused hopen hcheck =>
      rcases h.opened hopen with hknown | ⟨earliest, now, rfl⟩
      · refine ⟨?_, nofun, h.row⟩
        rintro _ ⟨⟩
        exact hknown
      · exact (Peer.default_passes _ now hcheck).elim
  | @unchanged _ p ipChanged regPk hopen hcheck =>
      obtain ⟨huuid, hpk, hip⟩ := Peer.eq_of_checkUuid hcheck
      rw [haccepted]
      refine ⟨?_, nofun, nofun⟩
      rintro _ ⟨⟩
      have hinfo : p.info = { ip := c.ip } := by rw [← hip]
      show some c.identity = some ⟨p.uuid, p.pk, p.info⟩
      rw [huuid, hpk, hinfo]
      rfl
  | written regPk now hopen huuid hcheck hrow =>
      rw [haccepted]
      refine ⟨?_, nofun, nofun⟩
      rintro _ ⟨⟩
      rfl

end

/-- After a history of calls, every record is vouched for. -/
structure Standing (x : External) (db : Database) (ran : Handled) (s : PeerMap) : Prop where
  intact : Intact s
  vouched : ∀ id, (s.record id).Vouched x (db.getPeer id) (lastAccepted ran id)

theorem Standing.new (x : External) (db : Database) : Standing x db [] (.new db) :=
  ⟨.new db, fun _ => ⟨nofun, fun hne => (hne rfl).elim, fun _ => rfl⟩⟩

theorem Standing.serves {x : External} {db : Database} {ran : Handled} {s s' : PeerMap}
    {h : Handler} {es : List (Event Env Op Shared)} {a : Handler.Answer} (hs : Standing x db ran s)
    (hcall : h.Serves x s (es.filterMap pmEvent) a s') :
    Standing x db (ran ++ [⟨h, es, some a⟩]) s' := by
  obtain ⟨hs', hrecords⟩ := hcall.served hs.intact
  refine ⟨hs', fun id => ?_⟩
  rw [lastAccepted_concat]
  cases hrecords id with
  | registered hcall hid ha hreg =>
      subst hcall hid ha
      exact (hs.vouched _).registered hreg
  | visited hother hvisit =>
      have hnone : h.accepted id (some a) = none := by
        cases h with
        | registerPk c =>
            cases a with
            | registered r =>
                cases r with
                | ok k => exact if_neg (hother c rfl)
                | error e => rfl
            | _ => rfl
        | _ => rfl
      rw [hnone]
      exact (hs.vouched id).visited hvisit

theorem standing {cfg : Config} {db : Database} {ran : Handled} {s : Shared}
    (h : Session (Handler.task cfg) (.start db) ran s) : Standing cfg.x db ran s.pm :=
  h.invariant (J := fun ran s => Standing cfg.x db ran s.pm) (Handler.serves cfg)
    (.new cfg.x db) fun _ _ _ _ _ _ hs hcall => hs.serves hcall

/-! ## The address -/

/-- No address yet, a local one, or the one that the peer has registered
from. -/
def Peer.Authorised (p : Peer) : Prop :=
  p.socketAddr = .unspecified ∨ p.socketAddr.ip.isLoopback = true
    ∨ p.socketAddr.ip.toString = p.info.ip

section
variable {x : External} {rec rec' : Record} {p : Peer} {addr : SocketAddr} {now : Instant}

/-- A refresh from elsewhere. -/
theorem Peer.Authorised.updateAddr_of_stranger (h : p.Authorised)
    (hloop : addr.ip.isLoopback = false) (hip : addr.ip.toString ≠ p.info.ip) :
    p.updateAddr addr now = (true, p) := by
  have hchange : (if p.socketAddr.port ≠ 0 then decide (addr.ip ≠ p.socketAddr.ip)
      else decide (addr.ip.toString ≠ p.info.ip)) = true := by
    split
    · rename_i hport
      apply decide_eq_true
      rintro heq
      rw [Peer.Authorised, ← heq, hloop] at h
      rcases h with hnone | hlocal | htext
      · rw [hnone] at hport
        exact hport rfl
      · cases hlocal
      · exact hip htext
    · exact decide_eq_true hip
  simp only [updateAddr, hchange, hloop, Bool.not_false, Bool.and_true, Bool.or_true, if_true]

theorem Peer.Authorised.updateAddr (h : p.Authorised) : (p.updateAddr addr now).2.Authorised := by
  by_cases hloop : addr.ip.isLoopback = true
  · rw [updateAddr_snd]
    split
    · exact h
    · exact .inr (.inl hloop)
  · by_cases hip : addr.ip.toString = p.info.ip
    · rw [updateAddr_snd]
      split
      · exact h
      · exact .inr (.inr hip)
    · rwa [h.updateAddr_of_stranger (Bool.eq_false_iff.mpr hloop) hip]

theorem Record.Opened.authorised {failed : Bool} (hopen : rec.Opened x failed p)
    (h : ∀ p, rec.entry = some p → p.Authorised) : p.Authorised := by
  cases hopen with
  | found hentry => exact h p hentry
  | loaded earliest since hentry hrow => exact .inl rfl
  | created earliest now hentry hrow => exact .inl rfl

theorem Record.Served.authorised {h : Handler} {a : Handler.Answer} {id : String}
    (hserved : rec.Served x h a id rec') (hrec : ∀ p, rec.entry = some p → p.Authorised) :
    ∀ p, rec'.entry = some p → p.Authorised := by
  cases hserved with
  | registered hcall hid ha hreg =>
      cases hreg with
      | rejected => exact hrec
      | refused hopen hcheck =>
          rintro _ ⟨⟩
          exact hopen.authorised hrec
      | unchanged hopen hcheck =>
          rintro _ ⟨⟩
          exact hopen.authorised hrec
      | written regPk now hopen huuid hcheck hrow =>
          rintro _ ⟨⟩
          exact .inr (.inr rfl)
  | visited hother hvisit =>
      cases hvisit with
      | same => exact hrec
      | loaded earliest since hentry hrow =>
          rintro _ ⟨⟩
          exact .inl rfl
      | moved now hrefresh hentry =>
          rintro _ ⟨⟩
          exact (hrec _ hentry).updateAddr

end

section
variable {cfg : Config} {db : Database} {ran : Handled} {s : Shared} {id : String} {p : Peer}

theorem authorised (h : Session (Handler.task cfg) (.start db) ran s)
    (hp : (s.pm.record id).entry = some p) : p.Authorised := by
  suffices hall : Intact s.pm ∧ ∀ id p, (s.pm.record id).entry = some p → p.Authorised from
    hall.2 id p hp
  refine h.invariant (J := fun _ s => Intact s.pm
    ∧ ∀ id p, (s.pm.record id).entry = some p → p.Authorised) (Handler.serves cfg)
    ⟨.new db, fun _ _ => nofun⟩ ?_
  intro ran s h es a s' ih hcall
  obtain ⟨hs', hrecords⟩ := hcall.served ih.1
  exact ⟨hs', fun id => (hrecords id).authorised (ih.2 id)⟩

/-- The IP that an id has registered from. -/
def vouchedIp (x : External) (db : Database) (ran : Handled) (id : String) : Option String :=
  (vouched x (db.getPeer id) (lastAccepted ran id)).map (·.info.ip)

/-- **Address authority.** After any history, the address of a peer in memory
is the default, a local one, or of the IP that the id has registered from; a
refresh from another IP that is not local leaves everything as it is; and a
request is forwarded to such an address only. -/
theorem address_authority (h : Session (Handler.task cfg) (.start db) ran s) :
    (∀ id p, (s.pm.record id).entry = some p →
      vouchedIp cfg.x db ran id = some p.info.ip ∧ p.Authorised)
    ∧ (∀ id p addr η, (s.pm.record id).entry = some p → addr.ip.isLoopback = false →
        addr.ip.toString ≠ p.info.ip →
        ((Handler.updateAddr id addr).task cfg).run η s = (some (.requestPk true), s))
    ∧ ∀ rs addr ph ws η msg toAddr,
        (((Handler.punchHoleRequest rs addr ph ws).task cfg).run η s).1
          = some (.punchHole msg (some toAddr)) →
        toAddr = .unspecified ∨ toAddr.ip.isLoopback = true
          ∨ vouchedIp cfg.x db ran ph.id = some toAddr.ip.toString := by
  have hip {ran : Handled} {s : Shared} (h : Session (Handler.task cfg) (.start db) ran s)
      (id : String) (p : Peer) (hp : (s.pm.record id).entry = some p) :
      vouchedIp cfg.x db ran id = some p.info.ip := by
    rw [vouchedIp, ((standing h).vouched id).entry p hp]
    rfl
  refine ⟨fun id p hp => ⟨hip h id p hp, authorised h hp⟩, ?_, ?_⟩
  · intro id p addr η hp hloop hne
    obtain ⟨old, hlookup, rfl⟩ := Option.map_eq_some_iff.mp hp
    rw [run_updateAddr hlookup, (authorised h hp).updateAddr_of_stranger hloop hne]
    simp [PeerMap.set]
  · intro rs addr ph ws η msg toAddr hto
    -- the call is one more of the history
    have hcalled := Session.call (.punchHoleRequest rs addr ph ws) η h
    obtain ⟨-, halone⟩ := Handler.serves cfg (.punchHoleRequest rs addr ph ws) s
    obtain ⟨-, -, p, hp, rfl⟩ := halone.run η hto
    have hsame (es r) : vouchedIp cfg.x db (ran ++ [⟨.punchHoleRequest rs addr ph ws, es, r⟩]) ph.id
        = vouchedIp cfg.x db ran ph.id := by
      rw [vouchedIp, lastAccepted_concat]
      rfl
    have hvouched := hip hcalled ph.id p hp
    rw [hsame] at hvouched
    rw [hvouched, Option.some.injEq, eq_comm (a := p.info.ip)]
    exact authorised hcalled hp

end

/-- Someone else sends a refresh for an id that is registered. -/
theorem address_authority_stranger :
    ∃ p, ((handled (.registerPk firstKey) (.start .empty)).pm.record "123456").entry = some p
      ∧ p.socketAddr = firstKey.addr ∧ p.Authorised
      ∧ ((Handler.updateAddr "123456" ⟨.v4 2, 50002⟩).task { x := .sample [] }).run
          (fun _ => { now := 1 }) (handled (.registerPk firstKey) (.start .empty))
        = (some (.requestPk true), handled (.registerPk firstKey) (.start .empty)) := by
  have hrun := Session.call (.registerPk firstKey) (fun _ => { now := 0 })
    (.nil : Session (Handler.task { x := .sample [] }) (.start .empty) [] _)
  have hentry :
      ((handled (.registerPk firstKey) (.start .empty)).pm.record "123456").entry = some _ := rfl
  obtain ⟨haddress, hstranger, -⟩ := address_authority hrun
  exact ⟨_, hentry, rfl, (haddress _ _ hentry).2,
    hstranger _ _ ⟨.v4 2, 50002⟩ (fun _ => { now := 1 }) hentry (by decide) (by decide)⟩

end KustDesk
