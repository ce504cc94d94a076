import KustDesk.Handlers

/-!
# KustDesk — Pinning

What a history of handler calls can do to the identity of a peer in memory.
Once it has an owner, it keeps this owner; a registration that is accepted
changes the key or the address, not both; and nothing else changes either.
-/

namespace KustDesk

open Async

/-- What every call keeps of a peer map. -/
structure Intact (s : PeerMap) : Prop where
  sound : s.Sound
  linked : ∀ id, (s.record id).Linked

theorem Intact.new (db : Database) : Intact (.new db) :=
  ⟨PeerMap.new_sound db, fun _ => nofun⟩

/-- What a call can do to the record of an id. -/
inductive Record.Handled (x : External) (h : Handler) (a : Handler.Answer) (id : String)
    (rec rec' : Record) : Prop
  | registered {c failed w r} (hcall : h = .registerPk c) (hid : c.id = id)
      (ha : a = .registered r) (hreg : rec.Registered x c failed w r rec')
  | refreshed (hother : ∀ c, h = .registerPk c → c.id ≠ id) (hrefresh : rec.Refreshed x rec')

section
variable {x : External} {h : Handler} {a : Handler.Answer} {s s' : PeerMap}
  {es : List (Event Env PmOp PeerMap)} {id : String} {rec rec' : Record} {p : Peer}

theorem Handler.Outcome.handled (hcall : h.Outcome x s es a s') (hs : Intact s) :
    Intact s' ∧ ∀ id, (s.record id).Handled x h a id (s'.record id) := by
  have hother (hrefresh : Refreshing x s es s') (hne : ∀ c, h ≠ .registerPk c) :
      Intact s' ∧ ∀ id, (s.record id).Handled x h a id (s'.record id) := by
    obtain ⟨hs', hrecords⟩ := hrefresh.1 hs.sound
    constructor
    · exact ⟨hs', fun id => (hrecords id).linked (hs.linked id)⟩
    · exact fun id => .refreshed (fun c hc => (hne c hc).elim) (hrecords id)
  cases h with
  | registerPk c =>
      obtain ⟨r, rfl, failed, w, hreg, -⟩ := hcall
      obtain ⟨hs', hreg', hothers⟩ := hreg.record hs.sound (hs.linked c.id)
      have hrecord (id : String) : (s.record id).Handled x (.registerPk c) (.registered r) id
          (s'.record id) := by
        by_cases hid : c.id = id
        · subst hid
          exact .registered rfl rfl rfl hreg'
        · rw [hothers id (Ne.symm hid)]
          refine .refreshed ?_ .same
          rintro _ ⟨⟩
          exact hid
      refine ⟨⟨hs', fun id => ?_⟩, hrecord⟩
      by_cases hid : id = c.id
      · subst hid
        exact hreg'.linked (hs.linked c.id)
      · rw [hothers id hid]
        exact hs.linked id
  | _ => exact hother hcall.2 nofun

/-! ## One call -/

/-- The call is a registration, and has been accepted. -/
def Handler.Accepts (h : Handler) (a : Option Handler.Answer) (c : RegCall) : Prop :=
  h = .registerPk c ∧ ∃ r, a = some (.registered (.ok r))

/-- Owner, key and address are the same. -/
def Peer.SameIdentity (p p' : Peer) : Prop :=
  p'.uuid = p.uuid ∧ p'.pk = p.pk ∧ p'.info.ip = p.info.ip

theorem Record.Opened.eq_of_entry {failed : Bool} {q : Peer} (h : rec.Opened x failed q)
    (hp : rec.entry = some p) : q = p := by
  cases h with
  | found hentry =>
      rw [hp] at hentry
      exact (Option.some.inj hentry).symm
  | loaded earliest since hentry hrow =>
      rw [hp] at hentry
      cases hentry
  | created earliest now hentry hrow =>
      rw [hp] at hentry
      cases hentry

theorem Record.Refreshed.sameIdentity (h : rec.Refreshed x rec') (hp : rec.entry = some p) :
    ∃ p', rec'.entry = some p' ∧ p.SameIdentity p' := by
  cases h with
  | same => exact ⟨p, hp, rfl, rfl, rfl⟩
  | opened hopen => exact ⟨_, rfl, by rw [hopen.eq_of_entry hp]; exact ⟨rfl, rfl, rfl⟩⟩
  | touched socketAddr lastRegTime hentry =>
      rw [hp, Option.some.injEq] at hentry
      subst hentry
      exact ⟨_, rfl, rfl, rfl, rfl⟩

/-- Of an owned peer, the check lets pass one change. -/
theorem Peer.one_change_of_checkUuid {rk : RegisterPk} {ip : String} {changed : Bool × Bool}
    (h : p.checkUuid rk ip = some changed) (huuid : p.uuid ≠ []) :
    p.uuid = rk.uuid ∧ (rk.pk = p.pk ∨ ip = p.info.ip) := by
  have howner := (Peer.uuid_of_checkUuid h).resolve_left huuid
  refine ⟨howner, ?_⟩
  by_contra hboth
  obtain ⟨hpk, hip⟩ := not_or.mp hboth
  rw [checkUuid, if_neg huuid, if_pos howner, if_pos ⟨Ne.symm hip, Ne.symm hpk⟩] at h
  cases h

theorem Record.Registered.identity {c : RegCall} {failed : Bool}
    {w : Option ((Bytes × String) × Bool)} {r : Except RegisterPkResult RegisterPkResult}
    (h : rec.Registered x c failed w r rec') (hp : rec.entry = some p) :
    ∃ p', rec'.entry = some p'
      ∧ ((∃ e, r = .error e) ∧ p.SameIdentity p'
        ∨ (∃ k, r = .ok k) ∧ (p.uuid ≠ [] → c.rk.uuid = p.uuid ∧ p'.uuid = p.uuid
          ∧ (p'.pk = p.pk ∨ p'.info.ip = p.info.ip))) := by
  cases h with
  | rejected => exact ⟨p, hp, .inl ⟨⟨_, rfl⟩, rfl, rfl, rfl⟩⟩
  | refused hopen hcheck =>
      rw [hopen.eq_of_entry hp]
      exact ⟨p, rfl, .inl ⟨⟨_, rfl⟩, rfl, rfl, rfl⟩⟩
  | unchanged hopen hcheck =>
      rw [hopen.eq_of_entry hp] at hcheck ⊢
      refine ⟨_, rfl, .inr ⟨⟨_, rfl⟩, fun _ => ?_⟩⟩
      exact ⟨(Peer.eq_of_checkUuid hcheck).1.symm, rfl, .inl rfl⟩
  | written regPk now hopen huuid hcheck hwrote =>
      rw [hopen.eq_of_entry hp] at hcheck ⊢
      refine ⟨_, rfl, .inr ⟨⟨_, rfl⟩, fun howned => ?_⟩⟩
      obtain ⟨howner, hchange⟩ := Peer.one_change_of_checkUuid hcheck howned
      exact ⟨howner.symm, howner.symm, hchange⟩

/-- A call keeps an owner; what it changes otherwise, it changes as an
accepted registration. -/
theorem Record.Handled.identity (h' : rec.Handled x h a id rec') (hp : rec.entry = some p)
    (huuid : p.uuid ≠ []) :
    ∃ p', rec'.entry = some p' ∧ p'.uuid = p.uuid
      ∧ (∀ c, h.Accepts (some a) c → c.id = id →
        c.rk.uuid = p.uuid ∧ (p'.pk = p.pk ∨ p'.info.ip = p.info.ip))
      ∧ ((∀ c, h.Accepts (some a) c → c.id ≠ id) → p.SameIdentity p') := by
  cases h' with
  | @registered c failed w r hcall hid ha hreg =>
      subst hcall ha
      obtain ⟨p', hp', ⟨⟨e, rfl⟩, hsame⟩ | ⟨⟨k, rfl⟩, howned⟩⟩ := hreg.identity hp
      · refine ⟨p', hp', hsame.1, ?_, fun _ => hsame⟩
        rintro _ ⟨-, r, hr⟩
        cases hr
      · obtain ⟨howner, hkept, hchange⟩ := howned huuid
        refine ⟨p', hp', hkept, ?_, fun hnone => (hnone c ⟨rfl, k, rfl⟩ hid).elim⟩
        rintro _ ⟨⟨⟩, -⟩ -
        exact ⟨howner, hchange⟩
  | refreshed hother hrefresh =>
      obtain ⟨p', hp', hsame⟩ := hrefresh.sameIdentity hp
      refine ⟨p', hp', hsame.1, fun c hc hid => ?_, fun _ => hsame⟩
      exact (hother c hc.1 hid).elim

end

/-! ## Histories -/

section
variable {cfg : Config} {db : Database} {ran later : Handled} {s t : Shared} {id : String}
  {p : Peer}

theorem Intact.session (h : Session (Handler.task cfg) s ran t) (hs : Intact s.pm) :
    Intact t.pm :=
  h.invariant (J := fun _ t => Intact t.pm) (Handler.returns cfg) hs
    fun _ _ _ _ _ _ ih hcall => (hcall.handled ih).1

theorem owner_kept (h : Session (Handler.task cfg) s later t) (hs : Intact s.pm)
    (hp : (s.pm.record id).entry = some p) (huuid : p.uuid ≠ []) :
    ∃ p', (t.pm.record id).entry = some p' ∧ p'.uuid = p.uuid := by
  suffices hkept : Intact t.pm ∧ ∃ p', (t.pm.record id).entry = some p' ∧ p'.uuid = p.uuid from
    hkept.2
  refine h.invariant (J := fun _ t => Intact t.pm
    ∧ ∃ p', (t.pm.record id).entry = some p' ∧ p'.uuid = p.uuid) (Handler.returns cfg)
    ⟨hs, p, hp, rfl⟩ ?_
  intro ran t call es a t' ih hcall
  obtain ⟨ht, p', hp', howner⟩ := ih
  obtain ⟨ht', hrecords⟩ := hcall.handled ht
  obtain ⟨p'', hp'', hkept, -⟩ := (hrecords id).identity hp' (howner ▸ huuid)
  exact ⟨ht', p'', hp'', hkept.trans howner⟩

/-- **Identity pinning.** Once an id has an owner in memory, then in every
later state `t` it has the same one, and of any call that follows in `t`: the
owner stays; if the call is an accepted registration of the id, it is the
owner's and changes at most one of key and address; if it is not, it changes
neither. -/
theorem identity_pinned (hran : Session (Handler.task cfg) (.start db) ran s)
    (hp : (s.pm.record id).entry = some p) (huuid : p.uuid ≠ [])
    (hlater : Session (Handler.task cfg) s later t) (call : Handler) (η : Nat → Env) :
    ∃ p₁ p₂, (t.pm.record id).entry = some p₁
      ∧ (((call.task cfg).run η t).2.pm.record id).entry = some p₂
      ∧ p₁.uuid = p.uuid ∧ p₂.uuid = p.uuid
      ∧ (∀ c, call.Accepts ((call.task cfg).run η t).1 c → c.id = id →
        c.rk.uuid = p.uuid ∧ (p₂.pk = p₁.pk ∨ p₂.info.ip = p₁.info.ip))
      ∧ ((∀ c, call.Accepts ((call.task cfg).run η t).1 c → c.id ≠ id) →
        p₁.SameIdentity p₂) := by
  have hs := Intact.session hran (.new db)
  obtain ⟨p₁, hp₁, howner⟩ := owner_kept hlater hs hp huuid
  obtain ⟨hreturns, halone⟩ := Handler.returns cfg call t
  obtain ⟨a, ha⟩ := hreturns.run η t
  obtain ⟨-, hrecords⟩ := (halone.run η ha).handled (Intact.session hlater hs)
  obtain ⟨p₂, hp₂, hkept, haccepted, hsame⟩ := (hrecords id).identity hp₁ (howner ▸ huuid)
  rw [ha]
  refine ⟨p₁, p₂, hp₁, hp₂, howner, hkept.trans howner, fun c hc hid => ?_, hsame⟩
  obtain ⟨hcuuid, hchange⟩ := haccepted c hc hid
  exact ⟨hcuuid.trans howner, hchange⟩

end

/-! The owner of an id comes back with a new key, from the same address. -/

def firstKey : RegCall := ⟨{ id := "123456", uuid := [1], pk := [2] }, ⟨.v4 1, 50000⟩, false⟩

def newKey : RegCall := ⟨{ id := "123456", uuid := [1], pk := [5] }, ⟨.v4 1, 50001⟩, false⟩

/-- The server of the example, after the call. -/
def handled (h : Handler) (s : Shared) : Shared :=
  ((h.task { x := .sample [] }).run (fun _ => { now := 0 }) s).2

theorem identity_pinned_newKey :
    ∃ p₁ p₂,
      ((handled (.registerPk firstKey) (.start .empty)).pm.record "123456").entry = some p₁
        ∧ ((handled (.registerPk newKey)
          (handled (.registerPk firstKey) (.start .empty))).pm.record "123456").entry = some p₂
        ∧ newKey.rk.uuid = p₁.uuid ∧ p₁.pk ≠ p₂.pk ∧ p₁.info.ip = p₂.info.ip := by
  have hrun := Session.call (.registerPk firstKey) (fun _ => { now := 0 })
    (.nil : Session (Handler.task { x := .sample [] }) (.start .empty) [] _)
  have hentry :
      ((handled (.registerPk firstKey) (.start .empty)).pm.record "123456").entry = some _ := rfl
  obtain ⟨p₁, p₂, hp₁, hp₂, howner, -, haccepted, -⟩ :=
    identity_pinned hrun hentry (by decide) .nil (.registerPk newKey) (fun _ => { now := 0 })
  obtain ⟨huuid, hchange⟩ := haccepted newKey ⟨rfl, .ok, rfl⟩ rfl
  have hpk : p₁.pk ≠ p₂.pk := by
    cases hp₁
    cases hp₂
    decide
  exact ⟨p₁, p₂, hp₁, hp₂, huuid.trans howner.symm, hpk,
    (hchange.resolve_left (Ne.symm hpk)).symm⟩

end KustDesk
