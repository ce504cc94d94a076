import KustDesk.Authority

/-!
# KustDesk — SignedIdentity

What the server signs. Between calls no peer in memory is without an owner or
a key: a peer that is entered without a row is registered in the same call.
So whatever `get_pk` returns is about the key that the id is known by.
-/

namespace KustDesk

open Async

/-- A registration without a uuid or a key is not accepted. -/
theorem keys_alone (x : External) (c : RegCall) (s : PeerMap) :
    (c.task x).Alone s fun _ r _ => (∃ k, r = .ok k) → c.rk.uuid ≠ [] ∧ c.rk.pk ≠ [] := by
  apply register_rule
  · rintro - ⟨k, hk⟩
    cases hk
  · rintro - - ⟨k, hk⟩
    cases hk
  · rintro es s' - - ⟨k, hk⟩
    cases hk
  · intro hkeys _ es failed peer s₀ s₁ _ _ _ _
    refine (settle_alone x c peer s₁).mono fun _ _ _ _ _ => ?_
    exact not_or.mp hkeys

theorem Handler.accepted_keys (cfg : Config) (h : Handler) (s : Shared) :
    (h.task cfg).NoAbort ∧ (h.task cfg).Alone s fun _ a _ =>
      ∀ id c, h.accepted id (some a) = some c → c.rk.uuid ≠ [] ∧ c.rk.pk ≠ [] := by
  obtain ⟨hreturns, houtcome⟩ := Handler.returns cfg h s
  refine ⟨hreturns, ?_⟩
  cases h with
  | registerPk c =>
      refine (liftPm_alone (keys_alone cfg.x c s.pm)).bind fun _ r _ hkeys id c' hc => ?_
      cases r with
      | error e => cases hc
      | ok k =>
          obtain ⟨-, hsome⟩ := Option.ite_none_right_eq_some.mp hc
          cases hsome
          exact hkeys ⟨k, rfl⟩
  | _ => exact houtcome.mono fun _ a _ _ id c hc => by cases a <;> cases hc

section
variable {cfg : Config} {db : Database} {ran : Handled} {s : Shared}

theorem lastAccepted_keys (h : Session (Handler.task cfg) (.start db) ran s) {id : String}
    {c : RegCall} (hc : lastAccepted ran id = some c) : c.rk.uuid ≠ [] ∧ c.rk.pk ≠ [] := by
  obtain ⟨r, hr, hr'⟩ := List.mem_filterMap.mp (List.mem_of_getLast? hc)
  obtain ⟨s₁, a, s₂, ha, hkeys⟩ := h.of_mem (Handler.accepted_keys cfg) hr
  rw [ha] at hr'
  exact hkeys id c hr'

/-- Who is vouched for has a uuid and a key. -/
theorem vouched_keys (hrows : ∀ r ∈ db.rows, r.uuid ≠ [] ∧ r.pk ≠ [])
    (h : Session (Handler.task cfg) (.start db) ran s) {id : String} {i : Identity}
    (hi : vouched cfg.x (db.getPeer id) (lastAccepted ran id) = some i) :
    i.uuid ≠ [] ∧ i.pk ≠ [] := by
  cases hlast : lastAccepted ran id with
  | some c =>
      rw [hlast] at hi
      cases hi
      exact lastAccepted_keys h hlast
  | none =>
      rw [hlast] at hi
      obtain ⟨r, hr, rfl⟩ := Option.map_eq_some_iff.mp hi
      exact hrows r (Database.getPeer_eq_some.mp hr).1

/-- **Signed identities.** If all rows of the database have a uuid and a key,
then after any history, whatever has failed on the way, so has every peer in
memory; and what `get_pk` returns, unless it is empty, is the signature over
the id and the key of its last accepted registration or, if there is none, of
its row. -/
theorem signed_identities (hrows : ∀ r ∈ db.rows, r.uuid ≠ [] ∧ r.pk ≠ [])
    (hidPk : ∀ id pk, (cfg.x.idPk id pk).isSome)
    (h : Session (Handler.task cfg) (.start db) ran s) :
    (∀ id p, (s.pm.record id).entry = some p → p.uuid ≠ [] ∧ p.pk ≠ [])
    ∧ ∀ rs version id η bytes,
        (((Handler.getPk rs version id).task cfg).run η s).1 = some (.pk bytes) → bytes ≠ [] →
        ∃ sk pk m, rs.inner.sk = some sk ∧ cfg.x.idPk id pk = some m ∧ bytes = cfg.x.sign m sk
          ∧ pk ≠ [] ∧ match lastAccepted ran id with
            | some c => pk = c.rk.pk
            | none => ∃ r, db.getPeer id = some r ∧ pk = r.pk := by
  have hkeys {ran : Handled} {s : Shared} (h : Session (Handler.task cfg) (.start db) ran s)
      (id : String) (p : Peer) (hp : (s.pm.record id).entry = some p) : p.uuid ≠ [] ∧ p.pk ≠ [] :=
    vouched_keys hrows h (((standing h).vouched id).entry p hp)
  refine ⟨hkeys h, fun rs version id η bytes hbytes hne => ?_⟩
  have hcalled := Session.call (.getPk rs version id) η h
  obtain ⟨-, halone⟩ := Handler.serves cfg (.getPk rs version id) s
  obtain ⟨-, -, hread⟩ := halone.run η hbytes
  obtain ⟨sk, p, hsk, hp, hsigned⟩ := hread.resolve_left hne
  obtain ⟨m, hm⟩ := Option.isSome_iff_exists.mp (hidPk id p.pk)
  refine ⟨sk, p.pk, m, hsk, hm, by rw [hsigned, hm]; rfl, (hkeys hcalled id p hp).2, ?_⟩
  have hvouched := ((standing hcalled).vouched id).entry p hp
  rw [lastAccepted_concat] at hvouched
  replace hvouched : vouched cfg.x (db.getPeer id) (lastAccepted ran id) = some p.identity :=
    hvouched
  cases hlast : lastAccepted ran id with
  | some c =>
      rw [hlast] at hvouched
      exact (congrArg Identity.pk (Option.some.inj hvouched)).symm
  | none =>
      rw [hlast] at hvouched
      obtain ⟨r, hr, hidentity⟩ := Option.map_eq_some_iff.mp hvouched
      exact ⟨r, hr, (congrArg Identity.pk hidentity).symm⟩

end

/-- The key that is signed is the one that has been registered. -/
theorem signed_identities_firstKey :
    ∃ bytes, (((Handler.getPk { inner := { sk := some [7] } } "1.2" "123456").task
        { x := .sample [] }).run (fun _ => { now := 1 })
          (handled (.registerPk firstKey) (.start .empty))).1 = some (.pk bytes)
      ∧ bytes ≠ [] ∧ ∃ sk pk m, (External.sample []).idPk "123456" pk = some m
        ∧ bytes = (External.sample []).sign m sk ∧ pk = firstKey.rk.pk := by
  have hrun := Session.call (.registerPk firstKey) (fun _ => { now := 0 })
    (.nil : Session (Handler.task { x := .sample [] }) (.start .empty) [] _)
  obtain ⟨-, hsigned⟩ := signed_identities (List.forall_mem_nil _) (fun _ _ => rfl) hrun
  obtain ⟨sk, pk, m, -, hm, hbytes, -, hpk⟩ :=
    hsigned { inner := { sk := some [7] } } "1.2" "123456" (fun _ => { now := 1 }) [7, 2] rfl
      (by decide)
  exact ⟨[7, 2], rfl, by decide, sk, pk, m, hm, hbytes, hpk⟩

end KustDesk
