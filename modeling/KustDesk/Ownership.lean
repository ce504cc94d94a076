import KustDesk.RegisterSteps
import KustDesk.PeerSteps

/-!
# KustDesk — Ownership

One owner for an id that several clients register at once. The check of the
owner, the write to memory and the write to the database are steps of their
own: of two clients that pass the check before either has written, both are
answered `OK`, and memory and database may end up with different owners.
Where nobody passes the check while another client is between its check and
its end, and no entry of the map is replaced, there is one owner.
-/

namespace KustDesk

open Async

/-! ## Ranges of program counters -/

namespace RegPc

/-- Past the check, and not at the end. -/
def inFlight : RegPc → Bool
  | count .. | note .. | ipChange .. | write _ | insertRow .. | updateRow .. | writeGuid .. => true
  | _ => false

/-- Sure to write. -/
def willWrite : RegPc → Bool
  | note _ _ changed _ | ipChange _ changed => changed
  | write _ => true
  | _ => false

/-- Going to write, unless the peer has another owner or has been
registering too often. -/
def mayWrite : RegPc → Bool
  | check _ => true
  | count _ changed _ => changed
  | _ => false

def inserts : RegPc → Bool
  | insertRow .. => true
  | _ => false

def updates : RegPc → Bool
  | updateRow .. => true
  | _ => false

def keepsGuid : RegPc → Bool
  | writeGuid .. => true
  | _ => false

/-- The guid of the row that is being worked on. -/
def rowGuid : RegPc → Option Bytes
  | updateRow _ guid _ | writeGuid _ guid => some guid
  | _ => none

/-- What a registration relies on: who owns the peer in memory. -/
def Claim (c : RegCall) (entry : Option Peer) : RegPc → Prop
  | insert .. => entry ≠ none
  | count _ changed _ | note _ _ changed _ | ipChange _ changed =>
      ∃ p, entry = some p ∧ (p.uuid = c.rk.uuid ∨ p.uuid = [] ∧ changed = true)
  | write _ => ∃ p, entry = some p ∧ (p.uuid = c.rk.uuid ∨ p.uuid = [])
  | insertRow .. | updateRow .. | writeGuid .. =>
      ∃ p, entry = some p ∧ p.uuid = c.rk.uuid ∧ p.pk = c.rk.pk
  | done (.ok _) => ∃ p, entry = some p ∧ p.uuid = c.rk.uuid
  | _ => True

end RegPc

namespace RegPc

theorem finish_claim {c : RegCall} {entry : Option Peer} {peer : LockPeer} {changed : Bool}
    (h : ∃ p, entry = some p ∧ (p.uuid = c.rk.uuid ∨ p.uuid = [] ∧ changed = true)) :
    (finish c peer changed).Claim c entry := by
  obtain ⟨p, hp, howner⟩ := h
  unfold finish
  split
  · rename_i hwrite
    exact ⟨p, hp, howner.imp_right fun h => h.1⟩
  · rename_i hwrite
    refine ⟨p, hp, howner.resolve_right ?_⟩
    rintro ⟨-, rfl⟩
    exact hwrite rfl

theorem of_idle {pc : RegPc} (h : pc.idle = true) :
    pc.inFlight = false ∧ pc.rowGuid = none ∧ pc.inserts = false ∧ pc.willWrite = false
      ∧ pc.mayWrite = false ∧ ∀ c entry, pc.Claim c entry := by
  cases pc <;> first
    | exact ⟨rfl, rfl, rfl, rfl, rfl, fun _ _ => trivial⟩
    | cases h

theorem rowGuid_ne_none {pc : RegPc} (h : pc.updates = true ∨ pc.keepsGuid = true) :
    pc.rowGuid ≠ none := by
  cases pc <;> simp [updates, keepsGuid, rowGuid] at h ⊢

theorem eq_writeGuid {pc : RegPc} (h : pc.keepsGuid = true) :
    ∃ peer guid, pc = .writeGuid peer guid := by
  cases pc <;> first
    | exact ⟨_, _, rfl⟩
    | cases h

@[simp] theorem finish_rowGuid (c : RegCall) (peer : LockPeer) (changed : Bool) :
    (finish c peer changed).rowGuid = none := by
  unfold finish
  split <;> rfl

theorem finish_willWrite (c : RegCall) (peer : LockPeer) :
    (finish c peer true).willWrite = true := rfl

end RegPc

/-- The owner that a registration is for. -/
def RegCall.key (c : RegCall) : Bytes × Bytes := (c.rk.uuid, c.rk.pk)

/-! ## The invariant -/

section
variable {ι : Type}

/-- The registrations between check and end agree; memory has an owner, or
will have one; the row is that of memory, or will be. -/
structure Owning (calls : ι → RegCall) (es : List (ι × Event Env PmOp PeerMap))
    (pcs : ι → RegPc) (rec : Record) : Prop where
  absent : rec.entry = none → rec.row = none
  valid : ∀ i, (calls i).rk.uuid ≠ [] ∨ ∃ r, pcs i = .done (.error r)
  passed : ∀ i, (pcs i).inFlight = true → ∃ ev, (i, ev) ∈ es ∧ (calls i).Passes ev
  agree : ∀ i j, (pcs i).inFlight = true → (pcs j).inFlight = true →
    (calls i).key = (calls j).key
  claim : ∀ i, (pcs i).Claim (calls i) rec.entry
  rowGuid : ∀ i guid, (pcs i).rowGuid = some guid → ∃ r, rec.row = some r ∧ r.guid = guid
  unowned : ∀ p, rec.entry = some p → p.uuid = [] →
    (∃ i, (pcs i).willWrite = true) ∨ (p.regPk.1 = 0 ∧ ∃ i, (pcs i).mayWrite = true)
  unstored : ∀ p, rec.entry = some p → rec.row = none →
    p.guid = [] ∧ (p.uuid ≠ [] → ∃ i, (pcs i).inserts = true)
  stored : ∀ p r, rec.entry = some p → rec.row = some r →
    r.guid ≠ [] ∧ p.uuid ≠ [] ∧ r.uuid = p.uuid
      ∧ ((r.guid = p.guid ∧ (r.pk = p.pk ∨ ∃ i, (pcs i).updates = true))
        ∨ (p.guid = [] ∧ r.pk = p.pk ∧ ∃ i, (pcs i).keepsGuid = true))

variable [DecidableEq ι] {calls : ι → RegCall} {es : List (ι × Event Env PmOp PeerMap)}
  {pcs : ι → RegPc} {rec rec' : Record} {i : ι} {ev : Event Env PmOp PeerMap} {pc pc' : RegPc}

theorem exists_update {P : RegPc → Prop} (h : ∃ j, P (pcs j)) (hi : P (pcs i) → P pc') :
    ∃ j, P (Function.update pcs i pc' j) := by
  obtain ⟨j, hj⟩ := h
  by_cases hij : j = i
  · subst hij
    exact ⟨j, by simpa using hi hj⟩
  · exact ⟨j, by simpa [Function.update_of_ne hij] using hj⟩

/-- One registration moves on: what is to be shown of its new place and of
the record. -/
theorem Owning.update (h : Owning calls es pcs rec) (hpc : pcs i = pc)
    (hvalid : (calls i).rk.uuid ≠ [])
    (hflight : pc'.inFlight = true → pc.inFlight = true
      ∨ ((calls i).Passes ev ∧ ∀ j, (pcs j).inFlight = true → (calls j).key = (calls i).key))
    (hclaim : pc'.Claim (calls i) rec'.entry)
    (hclaims : ∀ j, j ≠ i → (pcs j).Claim (calls j) rec.entry →
      (pcs j).Claim (calls j) rec'.entry)
    (hguid : ∀ guid, pc'.rowGuid = some guid → ∃ r, rec'.row = some r ∧ r.guid = guid)
    (hguids : ∀ r, rec.row = some r → ∃ r', rec'.row = some r' ∧ r'.guid = r.guid)
    (habsent : rec'.entry = none → rec'.row = none)
    (hunowned : ∀ p, rec'.entry = some p → p.uuid = [] →
      (∃ j, (Function.update pcs i pc' j).willWrite = true)
        ∨ (p.regPk.1 = 0 ∧ ∃ j, (Function.update pcs i pc' j).mayWrite = true))
    (hunstored : ∀ p, rec'.entry = some p → rec'.row = none →
      p.guid = [] ∧ (p.uuid ≠ [] → ∃ j, (Function.update pcs i pc' j).inserts = true))
    (hstored : ∀ p r, rec'.entry = some p → rec'.row = some r →
      r.guid ≠ [] ∧ p.uuid ≠ [] ∧ r.uuid = p.uuid
        ∧ ((r.guid = p.guid
            ∧ (r.pk = p.pk ∨ ∃ j, (Function.update pcs i pc' j).updates = true))
          ∨ (p.guid = [] ∧ r.pk = p.pk
            ∧ ∃ j, (Function.update pcs i pc' j).keepsGuid = true))) :
    Owning calls (es ++ [(i, ev)]) (Function.update pcs i pc') rec' where
  absent := habsent
  valid j := by
    by_cases hij : j = i
    · subst hij
      exact .inl hvalid
    · rw [Function.update_of_ne hij]
      exact h.valid j
  passed j hj := by
    by_cases hij : j = i
    · subst hij
      rw [Function.update_self] at hj
      rcases hflight hj with hold | ⟨hpasses, -⟩
      · obtain ⟨ev', hmem, hev'⟩ := h.passed j (hpc ▸ hold)
        exact ⟨ev', List.mem_append_left _ hmem, hev'⟩
      · exact ⟨ev, by simp, hpasses⟩
    · rw [Function.update_of_ne hij] at hj
      obtain ⟨ev', hmem, hev'⟩ := h.passed j hj
      exact ⟨ev', List.mem_append_left _ hmem, hev'⟩
  agree := by
    -- who is between check and end agrees with the one that moves
    have hwith : pc'.inFlight = true → ∀ j, (pcs j).inFlight = true →
        (calls j).key = (calls i).key := by
      intro hpc' j hj
      rcases hflight hpc' with hold | ⟨-, hagree⟩
      · exact h.agree j i hj (hpc ▸ hold)
      · exact hagree j hj
    intro j k hj hk
    by_cases hij : j = i
    · subst hij
      rw [Function.update_self] at hj
      by_cases hik : k = j
      · rw [hik]
      · rw [Function.update_of_ne hik] at hk
        exact (hwith hj k hk).symm
    · rw [Function.update_of_ne hij] at hj
      by_cases hik : k = i
      · subst hik
        rw [Function.update_self] at hk
        exact hwith hk j hj
      · rw [Function.update_of_ne hik] at hk
        exact h.agree j k hj hk
  claim j := by
    by_cases hij : j = i
    · subst hij
      rwa [Function.update_self]
    · rw [Function.update_of_ne hij]
      exact hclaims j hij (h.claim j)
  rowGuid j guid hj := by
    by_cases hij : j = i
    · subst hij
      rw [Function.update_self] at hj
      exact hguid guid hj
    · rw [Function.update_of_ne hij] at hj
      obtain ⟨r, hr, rfl⟩ := h.rowGuid j guid hj
      exact hguids r hr
  unowned := hunowned
  unstored := hunstored
  stored := hstored

/-- A step that leaves the record as it is. -/
theorem Owning.move (h : Owning calls es pcs rec) (hpc : pcs i = pc)
    (hvalid : (calls i).rk.uuid ≠ [])
    (hflight : pc'.inFlight = true → pc.inFlight = true
      ∨ ((calls i).Passes ev ∧ ∀ j, (pcs j).inFlight = true → (calls j).key = (calls i).key))
    (hclaim : pc'.Claim (calls i) rec.entry) (hguid : pc'.rowGuid = none)
    (hguid' : pc.rowGuid = none) (hinserts : pc.inserts = true → rec.row ≠ none)
    (hunowned : ∀ p, rec.entry = some p → p.uuid = [] →
      (pc.willWrite = true → pc'.willWrite = true)
        ∧ (pc.mayWrite = true → p.regPk.1 = 0 → pc'.willWrite = true ∨ pc'.mayWrite = true)) :
    Owning calls (es ++ [(i, ev)]) (Function.update pcs i pc') rec := by
  refine h.update hpc hvalid hflight hclaim (fun _ _ hj => hj) (by simp [hguid])
    (fun r hr => ⟨r, hr, rfl⟩) h.absent ?_ ?_ ?_
  · intro p hp huuid
    obtain ⟨hwill, hmay⟩ := hunowned p hp huuid
    rcases h.unowned p hp huuid with hj | ⟨hzero, j, hj⟩
    · exact .inl (exists_update (P := fun pc => pc.willWrite = true) hj (hpc ▸ hwill))
    · by_cases hij : j = i
      · subst hij
        rcases hmay (hpc ▸ hj) hzero with hpc' | hpc'
        · exact .inl ⟨j, by simpa using hpc'⟩
        · exact .inr ⟨hzero, j, by simpa using hpc'⟩
      · exact .inr ⟨hzero, j, by simpa [Function.update_of_ne hij] using hj⟩
  · intro p hp hrow
    refine ⟨(h.unstored p hp hrow).1, fun huuid => ?_⟩
    exact exists_update (P := fun pc => pc.inserts = true) ((h.unstored p hp hrow).2 huuid)
      fun hi => (hinserts (hpc ▸ hi) hrow).elim
  · intro p r hp hr
    obtain ⟨hrguid, huuid, howner, hpk⟩ := h.stored p r hp hr
    refine ⟨hrguid, huuid, howner, ?_⟩
    rcases hpk with ⟨hsame, hpk | hj⟩ | ⟨hempty, hpk, hj⟩
    · exact .inl ⟨hsame, .inl hpk⟩
    · refine .inl ⟨hsame, .inr (exists_update (P := fun pc => pc.updates = true) hj fun hi => ?_)⟩
      rw [hpc] at hi
      exact (RegPc.rowGuid_ne_none (.inl hi) hguid').elim
    · refine .inr ⟨hempty, hpk, exists_update (P := fun pc => pc.keepsGuid = true) hj fun hi => ?_⟩
      rw [hpc] at hi
      exact (RegPc.rowGuid_ne_none (.inr hi) hguid').elim

/-- Nobody relies on a peer that is not there. -/
theorem RegPc.Claim.of_none {c : RegCall} (h : pc.Claim c none) (entry : Option Peer) :
    pc.Claim c entry := by
  cases pc with
  | done r => cases r <;> simp_all [RegPc.Claim]
  | _ => simp_all [RegPc.Claim]

/-- A claim is about the owner alone. -/
theorem RegPc.Claim.congr {c : RegCall} {p p' : Peer} (h : pc.Claim c (some p))
    (huuid : p'.uuid = p.uuid) (hpk : p'.pk = p.pk) : pc.Claim c (some p') := by
  cases pc with
  | done r => cases r <;> simp_all [RegPc.Claim]
  | _ => simp_all [RegPc.Claim]

/-- A write by a registration with the same key. -/
theorem RegPc.Claim.owner_kept {c : RegCall} {p p' : Peer} (h : pc.Claim c (some p))
    (huuid : p.uuid = [] ∨ p'.uuid = p.uuid)
    (hflight : pc.inFlight = true → c.key = (p'.uuid, p'.pk))
    (hdone : ∀ r, pc = .done (.ok r) → c.rk.uuid ≠ []) : pc.Claim c (some p') := by
  have hkey : pc.inFlight = true → p'.uuid = c.rk.uuid ∧ p'.pk = c.rk.pk := by
    intro hpc
    have heq := hflight hpc
    rw [RegCall.key, Prod.mk.injEq] at heq
    exact ⟨heq.1.symm, heq.2.symm⟩
  cases pc with
  | insert v since => nofun
  | count peer changed ipChanged => exact ⟨p', rfl, .inl (hkey rfl).1⟩
  | note peer regPk changed ipChanged => exact ⟨p', rfl, .inl (hkey rfl).1⟩
  | ipChange peer changed => exact ⟨p', rfl, .inl (hkey rfl).1⟩
  | write peer => exact ⟨p', rfl, .inl (hkey rfl).1⟩
  | insertRow peer info => exact ⟨p', rfl, hkey rfl⟩
  | updateRow peer guid info => exact ⟨p', rfl, hkey rfl⟩
  | writeGuid peer guid => exact ⟨p', rfl, hkey rfl⟩
  | done r =>
      cases r with
      | error r => trivial
      | ok r =>
          obtain ⟨p₀, hp₀, howner⟩ := h
          cases hp₀
          refine ⟨p', rfl, ?_⟩
          rcases huuid with hempty | hsame
          · exact (hdone r rfl (howner.symm.trans hempty)).elim
          · exact hsame.trans howner
  | _ => trivial

/-! ## The steps that write -/

/-- A step after which memory has the owner that the registration is for. -/
theorem Owning.owned (h : Owning calls es pcs rec) (hpc : pcs i = pc)
    (hvalid : (calls i).rk.uuid ≠ []) {p : Peer} (hentry : rec'.entry = some p)
    (howner : p.uuid = (calls i).rk.uuid) (hflight : pc'.inFlight = true → pc.inFlight = true)
    (hclaim : pc'.Claim (calls i) (some p))
    (hclaims : ∀ j, (pcs j).Claim (calls j) rec.entry → (pcs j).Claim (calls j) (some p))
    (hguid : ∀ guid, pc'.rowGuid = some guid → ∃ r, rec'.row = some r ∧ r.guid = guid)
    (hguids : ∀ r, rec.row = some r → ∃ r', rec'.row = some r' ∧ r'.guid = r.guid)
    (hunstored : rec'.row = none →
      p.guid = [] ∧ ∃ j, (Function.update pcs i pc' j).inserts = true)
    (hstored : ∀ r, rec'.row = some r → r.guid ≠ [] ∧ r.uuid = p.uuid
      ∧ ((r.guid = p.guid ∧ (r.pk = p.pk ∨ ∃ j, (Function.update pcs i pc' j).updates = true))
        ∨ (p.guid = [] ∧ r.pk = p.pk
          ∧ ∃ j, (Function.update pcs i pc' j).keepsGuid = true))) :
    Owning calls (es ++ [(i, ev)]) (Function.update pcs i pc') rec' := by
  have huuid : p.uuid ≠ [] := by rwa [howner]
  have heq {p' : Peer} (hp' : rec'.entry = some p') : p' = p := by
    rw [hentry, Option.some.injEq] at hp'
    exact hp'.symm
  refine h.update hpc hvalid (fun hpc' => .inl (hflight hpc')) (hentry ▸ hclaim)
    (fun j _ hj => hentry ▸ hclaims j hj) hguid hguids ?_ ?_ ?_ ?_
  · intro hnone
    rw [hentry] at hnone
    cases hnone
  · intro p' hp' hempty
    rw [heq hp'] at hempty
    exact (huuid hempty).elim
  · intro p' hp' hnone
    rw [heq hp']
    exact ⟨(hunstored hnone).1, fun _ => (hunstored hnone).2⟩
  · intro p' r hp' hr
    obtain ⟨hne, hrow, hguid⟩ := hstored r hr
    rw [heq hp']
    exact ⟨hne, huuid, hrow, hguid⟩

/-- A step that sets up a peer nobody owns yet. -/
theorem Owning.created (h : Owning calls es pcs rec) (hpc : pcs i = .entry)
    (hvalid : (calls i).rk.uuid ≠ []) (hentry : rec.entry = none) (peer : LockPeer)
    (earliest now : Instant) : Owning calls (es ++ [(i, ev)]) (Function.update pcs i (.check peer))
      ⟨some (.default earliest now), rec.row⟩ := by
  have hrow := h.absent hentry
  refine h.update hpc hvalid nofun trivial ?_ nofun (fun r hr => ⟨r, hr, rfl⟩) nofun ?_ ?_ ?_
  · intro j _ hj
    rw [hentry] at hj
    exact hj.of_none _
  · rintro p ⟨⟩ -
    exact .inr ⟨rfl, i, by simp [RegPc.mayWrite]⟩
  · rintro p ⟨⟩ -
    exact ⟨rfl, fun huuid => (huuid rfl).elim⟩
  · intro p r _ hr
    rw [hrow] at hr
    cases hr

/-- A step that counts the registration in memory. -/
theorem Owning.noted (h : Owning calls es pcs rec) {peer : LockPeer} {p : Peer}
    {regPk : Nat × Instant} {changed ipChanged : Bool}
    (hpc : pcs i = .note peer regPk changed ipChanged) (hvalid : (calls i).rk.uuid ≠ [])
    (hentry : rec.entry = some p) : Owning calls (es ++ [(i, ev)])
      (Function.update pcs i
        (if ipChanged then .ipChange peer changed else .finish (calls i) peer changed))
      ⟨some { p with regPk }, rec.row⟩ := by
  have hclaim : ∃ p', some { p with regPk } = some p'
      ∧ (p'.uuid = (calls i).rk.uuid ∨ p'.uuid = [] ∧ changed = true) := by
    have hclaim := h.claim i
    rw [hpc, hentry] at hclaim
    obtain ⟨_, ⟨⟩, howner⟩ := hclaim
    exact ⟨_, rfl, howner⟩
  refine h.update hpc hvalid (fun _ => .inl rfl) ?_ ?_ ?_ (fun r hr => ⟨r, hr, rfl⟩) nofun
    ?_ ?_ ?_
  · cases ipChanged with
    | true => exact hclaim
    | false => exact RegPc.finish_claim hclaim
  · intro j _ hj
    rw [hentry] at hj
    exact hj.congr rfl rfl
  · cases ipChanged with
    | true => nofun
    | false => simp
  · rintro _ ⟨⟩ huuid
    obtain ⟨_, ⟨⟩, howner | ⟨-, rfl⟩⟩ := hclaim
    · exact (hvalid (howner.symm.trans huuid)).elim
    · refine .inl ⟨i, ?_⟩
      rw [Function.update_self]
      cases ipChanged <;> rfl
  · rintro _ ⟨⟩ hrow
    refine ⟨(h.unstored p hentry hrow).1, fun huuid => ?_⟩
    exact exists_update (P := fun pc => pc.inserts = true)
      ((h.unstored p hentry hrow).2 huuid) (by simp [hpc, RegPc.inserts])
  · rintro _ r ⟨⟩ hr
    obtain ⟨hrguid, huuid, howner, hpk⟩ := h.stored p r hentry hr
    refine ⟨hrguid, huuid, howner, hpk.imp ?_ ?_⟩
    · exact fun ⟨hsame, hpk⟩ => ⟨hsame, hpk.imp_right fun hj =>
        exists_update (P := fun pc => pc.updates = true) hj (by simp [hpc, RegPc.updates])⟩
    · exact fun ⟨hempty, hpk, hj⟩ => ⟨hempty, hpk,
        exists_update (P := fun pc => pc.keepsGuid = true) hj (by simp [hpc, RegPc.keepsGuid])⟩

omit [DecidableEq ι] in
/-- With a row, the guid of the peer is that of the row or not yet written. -/
theorem Owning.guid_stored (h : Owning calls es pcs rec) {p : Peer} (hentry : rec.entry = some p)
    (hguid : p.guid ≠ []) : ∃ r, rec.row = some r ∧ r.guid = p.guid := by
  cases hr : rec.row with
  | none => exact (hguid (h.unstored p hentry hr).1).elim
  | some r =>
      obtain ⟨-, -, -, ⟨hsame, -⟩ | ⟨hempty, -⟩⟩ := h.stored p r hentry hr
      · exact ⟨r, rfl, hsame⟩
      · exact (hguid hempty).elim

omit [DecidableEq ι] in
/-- Who has inserted the row has written its key to memory, and shares it with
whoever is between check and end. -/
theorem Owning.inserted_pk (h : Owning calls es pcs rec) {p : Peer} (hentry : rec.entry = some p)
    (hflight : (pcs i).inFlight = true) (hkeeps : ∃ j, (pcs j).keepsGuid = true) :
    p.pk = (calls i).rk.pk := by
  obtain ⟨j, hj⟩ := hkeeps
  obtain ⟨peer, guid, hpcj⟩ := RegPc.eq_writeGuid hj
  have hclaim := h.claim j
  rw [hpcj, hentry] at hclaim
  obtain ⟨_, ⟨⟩, -, hpk⟩ := hclaim
  have hkey := h.agree j i (by rw [hpcj]; rfl) hflight
  exact hpk.trans (congrArg Prod.snd hkey)

/-- A step that writes the key to memory. -/
theorem Owning.wrote (h : Owning calls es pcs rec) {peer : LockPeer} {p : Peer}
    (hpc : pcs i = .write peer) (hvalid : (calls i).rk.uuid ≠ []) (hentry : rec.entry = some p)
    (info : String) (now : Instant) : Owning calls (es ++ [(i, ev)])
      (Function.update pcs i
        (if p.guid = [] then .insertRow peer info else .updateRow peer p.guid info))
      ⟨some ((calls i).write p now), rec.row⟩ := by
  have hflight : (pcs i).inFlight = true := by
    rw [hpc]
    rfl
  have hclaim := h.claim i
  rw [hpc, hentry] at hclaim
  obtain ⟨_, ⟨⟩, howner⟩ := hclaim
  refine h.owned hpc hvalid rfl rfl (fun _ => rfl) ?_ (fun j hj => ?_) (fun guid hguid => ?_)
    (fun r hr => ⟨r, hr, rfl⟩) (fun hnone => ?_) fun r hr => ?_
  · split <;> exact ⟨_, rfl, rfl, rfl⟩
  · -- whoever relies on the peer has this key, or is done with this uuid
    rw [hentry] at hj
    refine hj.owner_kept (howner.symm.imp_right Eq.symm) (fun hj => h.agree j i hj hflight)
      fun r hdone => (h.valid j).resolve_right ?_
    rintro ⟨r', hr'⟩
    rw [hdone] at hr'
    cases hr'
  · split at hguid
    · cases hguid
    · rename_i hne
      cases hguid
      exact h.guid_stored hentry hne
  · have hempty := (h.unstored p hentry hnone).1
    refine ⟨hempty, i, ?_⟩
    rw [Function.update_self, if_pos hempty]
    rfl
  · obtain ⟨hne, huuid, howned, hguid⟩ := h.stored p r hentry hr
    refine ⟨hne, howned.trans (howner.resolve_right huuid), hguid.imp ?_ ?_⟩
    -- the row is behind now, and is updated next, unless it is new
    · rintro ⟨hsame, -⟩
      refine ⟨hsame, .inr ⟨i, ?_⟩⟩
      rw [Function.update_self, if_neg (hsame ▸ hne)]
      rfl
    · rintro ⟨hempty, hpk, hkeeps⟩
      exact ⟨hempty, hpk.trans (h.inserted_pk hentry hflight hkeeps),
        exists_update (P := fun pc => pc.keepsGuid = true) hkeeps (by simp [hpc, RegPc.keepsGuid])⟩

/-- A step that inserts the row. -/
theorem Owning.rowInserted (h : Owning calls es pcs rec) {peer : LockPeer} {info : String}
    {guid : Bytes} (hpc : pcs i = .insertRow peer info) (hvalid : (calls i).rk.uuid ≠ [])
    (hguid : guid ≠ []) (hrow : rec.row = none) : Owning calls (es ++ [(i, ev)])
      (Function.update pcs i (.writeGuid peer guid))
      ⟨rec.entry, some ⟨guid, (calls i).id, (calls i).rk.uuid, (calls i).rk.pk, info⟩⟩ := by
  have hclaim := h.claim i
  rw [hpc] at hclaim
  obtain ⟨p, hp, howner, hpk⟩ := hclaim
  refine h.owned hpc hvalid hp howner (fun _ => rfl) ⟨p, rfl, howner, hpk⟩ (fun j hj => hp ▸ hj)
    ?_ (fun r hr => ?_) nofun ?_
  · rintro _ ⟨⟩
    exact ⟨_, rfl, rfl⟩
  · rw [hrow] at hr
    cases hr
  · rintro r ⟨⟩
    exact ⟨hguid, howner.symm, .inr ⟨(h.unstored p hp hrow).1, hpk.symm, i,
      by simp [RegPc.keepsGuid]⟩⟩

/-- A step that updates the row. -/
theorem Owning.rowUpdated (h : Owning calls es pcs rec) {peer : LockPeer} {info : String}
    {guid : Bytes} (hpc : pcs i = .updateRow peer guid info) (hvalid : (calls i).rk.uuid ≠ [])
    (hentry : rec'.entry = rec.entry)
    (hrow : ∀ r, rec.row = some r → r.guid = guid →
      rec'.row = some { r with pk := (calls i).rk.pk, info }) :
    Owning calls (es ++ [(i, ev)]) (Function.update pcs i (.done (.ok .ok))) rec' := by
  have hclaim := h.claim i
  rw [hpc] at hclaim
  obtain ⟨p, hp, howner, hpk⟩ := hclaim
  obtain ⟨r, hr, hrguid⟩ := h.rowGuid i guid (by rw [hpc]; rfl)
  have hr' := hrow r hr hrguid
  refine h.owned hpc hvalid (hentry.trans hp) howner nofun ⟨p, rfl, howner⟩ (fun j hj => hp ▸ hj)
    nofun (fun r₀ hr₀ => ?_) (fun hnone => ?_) fun r₀ hr₀ => ?_
  · rw [hr, Option.some.injEq] at hr₀
    subst hr₀
    exact ⟨_, hr', rfl⟩
  · rw [hr'] at hnone
    cases hnone
  · rw [hr', Option.some.injEq] at hr₀
    subst hr₀
    obtain ⟨hne, -, howned, hguid⟩ := h.stored p r hp hr
    refine ⟨hne, howned, hguid.imp ?_ ?_⟩
    · exact fun ⟨hsame, _⟩ => ⟨hsame, .inl hpk.symm⟩
    · exact fun ⟨hempty, _, hj⟩ => ⟨hempty, hpk.symm,
        exists_update (P := fun pc => pc.keepsGuid = true) hj (by simp [hpc, RegPc.keepsGuid])⟩

/-- A step that writes the guid of the new row to memory. -/
theorem Owning.guidWritten (h : Owning calls es pcs rec) {peer : LockPeer} {guid : Bytes}
    {p : Peer} (hpc : pcs i = .writeGuid peer guid) (hvalid : (calls i).rk.uuid ≠ [])
    (hentry : rec.entry = some p) : Owning calls (es ++ [(i, ev)])
      (Function.update pcs i (.done (.ok .ok))) ⟨some { p with guid }, rec.row⟩ := by
  have hclaim := h.claim i
  rw [hpc, hentry] at hclaim
  obtain ⟨_, ⟨⟩, howner, hpk⟩ := hclaim
  obtain ⟨r, hr, hrguid⟩ := h.rowGuid i guid (by rw [hpc]; rfl)
  refine h.owned hpc hvalid rfl howner nofun ⟨_, rfl, howner⟩ (fun j hj => ?_) nofun
    (fun r hr => ⟨r, hr, rfl⟩) (fun hnone => ?_) fun r₀ hr₀ => ?_
  · rw [hentry] at hj
    exact hj.congr rfl rfl
  · rw [show rec.row = some r from hr] at hnone
    cases hnone
  · rw [show rec.row = some r from hr, Option.some.injEq] at hr₀
    subst hr₀
    obtain ⟨hne, -, howned, hguid⟩ := h.stored p r hentry hr
    refine ⟨hne, howned, .inl ⟨hrguid, ?_⟩⟩
    rcases hguid with ⟨-, hsame | hj⟩ | ⟨-, hsame, -⟩
    · exact .inl hsame
    · exact .inr (exists_update (P := fun pc => pc.updates = true) hj
        (by simp [hpc, RegPc.updates]))
    · exact .inl hsame

/-- **One step.** A registration moves on, and the invariant stays, if
nobody with another key is between check and end when it passes the check. -/
theorem Owning.step {x : External} (h : Owning calls es pcs rec)
    (hstep : RegStep x (calls i) ev (pcs i) rec pc' rec')
    (hexclusive : (calls i).Passes ev →
      ∀ j, (pcs j).inFlight = true → (calls j).key = (calls i).key) :
    Owning calls (es ++ [(i, ev)]) (Function.update pcs i pc') rec' := by
  have hvalid : (calls i).rk.uuid ≠ [] := by
    refine (h.valid i).resolve_right ?_
    rintro ⟨r, hr⟩
    rw [hr] at hstep
    cases hstep with
    | idle hpc => cases hpc
    | opened hpc => cases hpc
  have hclaim := h.claim i
  generalize hpc : pcs i = pc at hstep hclaim
  cases hstep with
  | idle hidle hidle' =>
      obtain ⟨-, hguid, hinserts, hwill, hmay, -⟩ := RegPc.of_idle hidle
      obtain ⟨hflight', hguid', -, -, -, hclaim'⟩ := RegPc.of_idle hidle'
      exact h.move hpc hvalid (by simp [hflight']) (hclaim' _ _) hguid' hguid
        (by simp [hinserts]) (by simp [hwill, hmay])
  | rejected => exact h.move hpc hvalid nofun trivial rfl rfl nofun fun _ _ _ => ⟨nofun, nofun⟩
  | loaded since hrow =>
      -- who has a row is in the map: there is nothing to load
      refine h.move hpc hvalid nofun ?_ rfl rfl nofun fun _ _ _ => ⟨nofun, nofun⟩
      intro hentry
      rw [h.absent hentry] at hrow
      cases hrow
  | inserted hentry => exact (hclaim hentry).elim
  | opened hidle hentry =>
      obtain ⟨-, hguid, hinserts, hwill, hmay, -⟩ := RegPc.of_idle hidle
      exact h.move hpc hvalid nofun trivial rfl hguid (by simp [hinserts]) (by simp [hwill, hmay])
  | created earliest now hentry => exact h.created hpc hvalid hentry _ earliest now
  | mismatch hentry hcheck =>
      refine h.move hpc hvalid nofun trivial rfl rfl nofun fun p' hp' huuid => ?_
      rw [hentry, Option.some.injEq] at hp'
      subst hp'
      rw [Peer.checkUuid_of_uuid_nil huuid] at hcheck
      cases hcheck
  | @passed _ p changed ipChanged _ hentry hcheck hev =>
      refine h.move hpc hvalid (fun _ => .inr ⟨hev, hexclusive hev⟩) ⟨p, hentry, ?_⟩ rfl rfl nofun
        fun p' hp' huuid => ⟨nofun, fun _ _ => .inr ?_⟩
      · rcases Peer.uuid_of_checkUuid hcheck with hempty | howner
        · rw [Peer.checkUuid_of_uuid_nil hempty, Option.some.injEq, Prod.mk.injEq] at hcheck
          exact .inr ⟨hempty, hcheck.1.symm⟩
        · exact .inl howner
      · rw [hentry, Option.some.injEq] at hp'
        subst hp'
        rw [Peer.checkUuid_of_uuid_nil huuid, Option.some.injEq, Prod.mk.injEq] at hcheck
        exact hcheck.1.symm
  | @tooFrequent peer p changed ipChanged _ _ hentry hcount =>
      refine h.move hpc hvalid nofun trivial rfl rfl nofun
        fun p' hp' huuid => ⟨nofun, fun _ hzero => ?_⟩
      rw [hentry, Option.some.injEq] at hp'
      subst hp'
      rw [← Prod.eta p.regPk, hzero] at hcount
      exact (countRegPk_zero _ _ hcount).elim
  | counted =>
      exact h.move hpc hvalid (fun _ => .inl rfl) hclaim rfl rfl nofun
        fun p' hp' huuid => ⟨nofun, fun hmay _ => .inl hmay⟩
  | noted hentry => exact h.noted hpc hvalid hentry
  | @ipChanged peer changed _ =>
      refine h.move hpc hvalid (fun _ => .inl rfl) (RegPc.finish_claim hclaim)
        (RegPc.finish_rowGuid _ _ _) rfl nofun fun p' hp' huuid => ⟨?_, nofun⟩
      intro hwill
      obtain rfl : changed = true := hwill
      exact RegPc.finish_willWrite _ _
  | wrote now hentry => exact h.wrote hpc hvalid hentry _ now
  | insertRefused hrow =>
      obtain ⟨p, hp, howner, -⟩ := hclaim
      exact h.move hpc hvalid nofun ⟨p, hp, howner⟩ rfl rfl (by simp [hrow])
        fun _ _ _ => ⟨nofun, nofun⟩
  | rowInserted hguid hrow => exact h.rowInserted hpc hvalid hguid hrow
  | rowUpdated hentry hrow => exact h.rowUpdated hpc hvalid hentry hrow
  | guidWritten hentry => exact h.guidWritten hpc hvalid hentry

end

/-! ## Runs -/

section
variable {ι : Type} [DecidableEq ι] {x : External} {calls : ι → RegCall} {id : String}
  {s : PeerMap} {es : List (ι × Event Env PmOp PeerMap)}
  {q : Pool ι Env PmOp PeerMap fun _ => Except RegisterPkResult RegisterPkResult}

/-- Any number of registrations on one map. -/
def registrations (x : External) (calls : ι → RegCall) (s : PeerMap) :
    Pool ι Env PmOp PeerMap fun _ => Except RegisterPkResult RegisterPkResult where
  tasks i := (calls i).task x
  shared := s

/-- Where a registration starts: at the end already, if its request is
malformed. -/
def RegCall.first (c : RegCall) : RegPc :=
  if c.rk.uuid = [] || c.rk.pk = [] then .done (.error .invalidIdFormat)
  else if c.id.utf8ByteSize < 6 then .done (.error .uuidMismatch)
  else .start

theorem RegCall.prog_first (x : External) (c : RegCall) : c.task x = c.prog x c.first := by
  rw [task_eq, first]
  split
  · rfl
  · split <;> rfl

theorem RegCall.first_cases (c : RegCall) :
    (c.rk.uuid ≠ [] ∧ c.first = .start) ∨ ∃ r, c.first = .done (.error r) := by
  unfold first
  split
  · exact .inr ⟨_, rfl⟩
  · rename_i hkeys
    split
    · exact .inr ⟨_, rfl⟩
    · exact .inl ⟨fun huuid => hkeys (by simp [huuid]), rfl⟩

/-- Only at the end there is nothing left to do. -/
theorem RegPc.eq_done {c : RegCall} {pc : RegPc}
    {r : Except RegisterPkResult RegisterPkResult} (h : c.prog x pc = .done r) :
    pc = .done r := by
  cases pc <;> cases h
  rfl

/-- The runs in which the database writes what it is told, no entry of the
map is replaced, and nobody passes the check while a registration with
another key has passed it and not returned. -/
structure Orderly (x : External) (calls : ι → RegCall) (s : PeerMap)
    (es : List (ι × Event Env PmOp PeerMap)) : Prop where
  database : ∀ i ev, (i, ev) ∈ es → DbSucceeds ev
  rechecked : ∀ i ev, (i, ev) ∈ es → ev.op.Rechecked ev.pre
  exclusive : ∀ es₁ i ev es₂ q, es = es₁ ++ (i, ev) :: es₂ →
    (registrations x calls s).Run es₁ q → (calls i).Passes ev →
    ∀ j ev', (j, ev') ∈ es₁ → (calls j).Passes ev' → (calls j).key ≠ (calls i).key →
      ∃ r, q.tasks j = .done r

theorem Orderly.take {es' : List (ι × Event Env PmOp PeerMap)}
    (h : Orderly x calls s (es ++ es')) : Orderly x calls s es where
  database i ev hev := h.database i ev (List.mem_append_left _ hev)
  rechecked i ev hev := h.rechecked i ev (List.mem_append_left _ hev)
  exclusive es₁ i ev es₂ q hes := h.exclusive es₁ i ev (es₂ ++ es') q (by simp [hes])

omit [DecidableEq ι] in
/-- Before any step, there is nothing to know of the id. -/
theorem Owning.first (calls : ι → RegCall) :
    Owning calls [] (fun i => (calls i).first) ⟨none, none⟩ := by
  have hfirst (i : ι) : (calls i).first.inFlight = false ∧ (calls i).first.rowGuid = none
      ∧ (calls i).first.Claim (calls i) none := by
    rcases (calls i).first_cases with ⟨-, hfirst⟩ | ⟨r, hfirst⟩ <;> rw [hfirst]
    · exact ⟨rfl, rfl, trivial⟩
    · exact ⟨rfl, rfl, trivial⟩
  constructor
  · exact fun _ => rfl
  · exact fun i => (calls i).first_cases.imp And.left fun h => h
  · intro i hi
    rw [(hfirst i).1] at hi
    cases hi
  · intro i _ hi
    rw [(hfirst i).1] at hi
    cases hi
  · exact fun i => (hfirst i).2.2
  · intro i guid hi
    rw [(hfirst i).2.1] at hi
    cases hi
  all_goals nofun

/-- All registrations of the id are at counters of which the invariant
holds. -/
theorem registrations_owning (hid : ∀ i, (calls i).id = id)
    (hentry : s.map.lookup id = none) (hrow : s.db.getPeer id = none)
    (h : (registrations x calls s).Run es q) (horderly : Orderly x calls s es) :
    ∃ pcs, (∀ i, q.tasks i = (calls i).prog x (pcs i))
      ∧ Owning calls es pcs (q.shared.record id) := by
  suffices hJ : ∃ pcs, (∀ i, q.tasks i = (calls i).prog x (pcs i))
      ∧ (Orderly x calls s es →
        (∀ i, (pcs i).Live id q.shared) ∧ Owning calls es pcs (q.shared.record id)) by
    obtain ⟨pcs, htasks, hJ⟩ := hJ
    exact ⟨pcs, htasks, (hJ horderly).2⟩
  refine h.control (J := fun es pcs s' => Orderly x calls s es →
      (∀ i, (pcs i).Live id s') ∧ Owning calls es pcs (s'.record id))
    (fun i => (calls i).prog_steps x) (fun i => (calls i).prog_first x) ?_ ?_
  · have hrecord : s.record id = ⟨none, none⟩ := by
      simp [PeerMap.record, hentry, hrow]
    refine fun _ => ⟨fun i => ?_, ?_⟩
    · rcases (calls i).first_cases with ⟨-, hfirst⟩ | ⟨r, hfirst⟩ <;>
        exact .of_none (by rw [hfirst]; rfl)
    · show Owning calls [] _ (s.record id)
      rw [hrecord]
      exact .first calls
  · intro es q pcs i ev q' pc' hrun htasks hrun' hnext ih horderly
    obtain ⟨hlive, howning⟩ := ih horderly.take
    have hev : (i, ev) ∈ es ++ [(i, ev)] := by simp
    have hrechecked := horderly.rechecked i ev hev
    have hkept : ev.pre.Kept ev.post := by
      have heffect := hrun'.all (fun i => (PmCall.registerPk _ _ _).effects) hev
      exact PmOp.effect.kept heffect hrechecked
    obtain ⟨hlive', hstep⟩ := hnext (hid i ▸ hlive i) hrechecked (horderly.database i ev hev)
    rw [hid i] at hlive' hstep
    refine ⟨fun j => ?_, howning.step hstep fun hpasses j hflight => ?_⟩
    · refine (Function.forall_update_iff pcs fun _ pc => pc.Live id ev.post).mpr
        ⟨hlive', fun k _ peer hpeer => ?_⟩ j
      exact hkept id peer (hlive k peer hpeer)
    · by_contra hkey
      obtain ⟨ev', hmem, hpasses'⟩ := howning.passed j hflight
      obtain ⟨r, hr⟩ := horderly.exclusive es i ev [] q rfl hrun hpasses j ev' hmem hpasses' hkey
      rw [htasks j] at hr
      rw [RegPc.eq_done hr] at hflight
      cases hflight

/-- **One owner per id.** Of an id with neither an entry nor a row, in every
run of any number of registrations in which the database writes what it is
told, no entry is replaced, and nobody passes the check of the owner while a
registration with another key is between that check and its end: all that
are answered `OK` have the same uuid, and when all have returned, memory and
database agree on the owner and the key. -/
theorem one_owner (hid : ∀ i, (calls i).id = id) (hentry : s.map.lookup id = none)
    (hrow : s.db.getPeer id = none) (h : (registrations x calls s).Run es q)
    (horderly : Orderly x calls s es) :
    (∀ i j a b, q.tasks i = .done (.ok a) → q.tasks j = .done (.ok b) →
        (calls i).rk.uuid = (calls j).rk.uuid)
      ∧ ((∀ i, ∃ r, q.tasks i = .done r) →
        q.shared.identity id = (q.shared.db.getPeer id).map fun r => (r.uuid, r.pk)) := by
  obtain ⟨pcs, htasks, howning⟩ := registrations_owning hid hentry hrow h horderly
  have hdone {i : ι} {r : Except RegisterPkResult RegisterPkResult}
      (hi : q.tasks i = .done r) : pcs i = .done r := by
    rw [htasks i] at hi
    exact RegPc.eq_done hi
  constructor
  · intro i j a b hi hj
    have hclaim := howning.claim i
    rw [hdone hi] at hclaim
    obtain ⟨p, hp, howner⟩ := hclaim
    have hclaim' := howning.claim j
    rw [hdone hj, hp] at hclaim'
    obtain ⟨_, ⟨⟩, howner'⟩ := hclaim'
    exact howner.symm.trans howner'
  · intro hall
    have hnone {P : RegPc → Bool} (hP : ∀ r, P (.done r) = false) :
        ¬ ∃ i, P (pcs i) = true := by
      rintro ⟨i, hi⟩
      obtain ⟨r, hr⟩ := hall i
      rw [hdone hr, hP] at hi
      cases hi
    rw [PeerMap.record_identity]
    show _ = (q.shared.record id).row.map _
    cases hp : (q.shared.record id).entry with
    | none => rw [howning.absent hp]; rfl
    | some p =>
        have howned : p.uuid ≠ [] := by
          intro hempty
          rcases howning.unowned p hp hempty with hwill | ⟨-, hmay⟩
          · exact hnone (fun _ => rfl) hwill
          · exact hnone (fun _ => rfl) hmay
        cases hr : (q.shared.record id).row with
        | none => exact (hnone (fun _ => rfl) ((howning.unstored p hp hr).2 howned)).elim
        | some r =>
            obtain ⟨-, -, huuid, hpk⟩ := howning.stored p r hp hr
            have hsame : r.pk = p.pk := by
              rcases hpk with ⟨-, hsame | hupdates⟩ | ⟨-, hsame, -⟩
              · exact hsame
              · exact (hnone (fun _ => rfl) hupdates).elim
              · exact hsame
            simp [huuid, hsame]

end

/-! Two clients with one id, each with an identity of its own. -/

inductive Rival where
  | first
  | second
  deriving DecidableEq

def rivals : Rival → RegCall
  | .first => ⟨{ id := "123456", uuid := [1], pk := [2] }, ⟨.v4 1, 50000⟩, false⟩
  | .second => ⟨{ id := "123456", uuid := [3], pk := [4] }, ⟨.v4 2, 50000⟩, false⟩

def rivalEnv : Rival → Env
  | .first => { now := 0 }
  | .second => { now := 0, guid := ⟨List.replicate 16 1, rfl⟩ }

def rivalSchedule (turns : List (Rival × Nat)) : List (Rival × Env) :=
  turns.flatMap fun y => List.replicate y.2 (y.1, rivalEnv y.1)

def rivalRun (turns : List (Rival × Nat)) :
    List (Rival × Event Env PmOp PeerMap)
      × Pool Rival Env PmOp PeerMap fun _ => Except RegisterPkResult RegisterPkResult :=
  (registrations (.sample []) rivals (.new .empty)).play (rivalSchedule turns)

/-- What is asked of one step, as a test. -/
def Rival.orderly (i : Rival) (ev : Event Env PmOp PeerMap) : Bool :=
  match ev.op with
  | .mapInsert id _ => (ev.pre.map.lookup id).isNone
  | .checkUuid peer =>
      i = .first || ((ev.pre.peers peer).checkUuid (rivals i).rk (rivals i).ip).isNone
  | _ => true

theorem Rival.of_orderly {i : Rival} {ev : Event Env PmOp PeerMap} (h : i.orderly ev = true) :
    ev.op.Rechecked ev.pre ∧ ((rivals i).Passes ev → i = .first) := by
  obtain ⟨op, e, s, s'⟩ := ev
  cases op <;> simp_all [Rival.orderly, PmOp.Rechecked, RegCall.Passes]
  rcases h with rfl | h
  · exact fun _ => rfl
  · exact fun hpasses => (hpasses h).elim

theorem rivals_id (i : Rival) : (rivals i).id = "123456" := by
  cases i <;> rfl

/-- The first registration returns before the second one starts, which is
refused. -/
theorem one_owner_sequential :
    (rivalRun [(.first, 10), (.second, 3)]).2.shared.identity "123456" = some ([1], [2]) := by
  have hrun := Pool.play_run (registrations (.sample []) rivals (.new .empty))
    (rivalSchedule [(.first, 10), (.second, 3)])
  have hdb : ∀ y ∈ (rivalRun [(.first, 10), (.second, 3)]).1, DbSucceeds y.2 := by decide
  have htest : ∀ y ∈ (rivalRun [(.first, 10), (.second, 3)]).1, y.1.orderly y.2 = true := by
    decide
  have horderly (i : Rival) (ev : Event Env PmOp PeerMap)
      (hev : (i, ev) ∈ (rivalRun [(.first, 10), (.second, 3)]).1) :
      ev.op.Rechecked ev.pre ∧ ((rivals i).Passes ev → i = .first) :=
    Rival.of_orderly (htest (i, ev) hev)
  obtain ⟨-, hagree⟩ := one_owner rivals_id rfl rfl hrun {
    database := fun i ev hev => hdb (i, ev) hev
    rechecked := fun i ev hev => (horderly i ev hev).1
    exclusive := by
      intro es₁ i ev es₂ q hes hrun₁ hpasses j ev' hev' hpasses' hkey
      -- only the first one passes the check
      have hmem : ∀ y ∈ es₁ ++ (i, ev) :: es₂, y ∈ (rivalRun [(.first, 10), (.second, 3)]).1 :=
        fun y hy => hes ▸ hy
      have hi := (horderly i ev (hmem _ (by simp))).2 hpasses
      have hj := (horderly j ev' (hmem _ (by simp [hev']))).2 hpasses'
      rw [hi, hj] at hkey
      exact (hkey rfl).elim }
  rw [rivalRun, hagree]
  · decide
  · intro i
    cases i
    · exact ⟨_, rfl⟩
    · exact ⟨_, rfl⟩

/-- Both clients pass the check before either has written: both are answered
`OK`, the second one owns the id in memory, and the first one on disk. -/
theorem two_owners :
    ∃ es q, (registrations (.sample []) rivals (.new .empty)).Run es q
      ∧ (∀ i ev, (i, ev) ∈ es → DbSucceeds ev)
      ∧ (∀ i, (rivals i).id = "123456")
      ∧ (∀ i, q.tasks i = .done (.ok .ok))
      ∧ (rivals .first).rk.uuid ≠ (rivals .second).rk.uuid
      ∧ q.shared.identity "123456" = some ([3], [4])
      ∧ (q.shared.db.getPeer "123456").map (fun r => (r.uuid, r.pk)) = some ([1], [2]) := by
  refine ⟨_, _, Pool.play_run _ (rivalSchedule [(.first, 5), (.second, 3), (.first, 3),
    (.second, 3), (.first, 2), (.second, 1)]), ?_, rivals_id, ?_, by decide, by decide, by decide⟩
  · have hdb : ∀ y ∈ (rivalRun [(.first, 5), (.second, 3), (.first, 3), (.second, 3),
        (.first, 2), (.second, 1)]).1, DbSucceeds y.2 := by decide
    exact fun i ev hev => hdb (i, ev) hev
  · intro i
    cases i
    · rfl
    · rfl

end KustDesk
