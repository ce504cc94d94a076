import KustDesk.Sinks
import KustDesk.ServerSteps

/-!
# KustDesk — SinkTables

`tcp_punch` and `ws_map` as the steps of a run have left them. Whoever writes
to a sink of a table has taken it out with the step before.
-/

namespace KustDesk

open Async

theorem lookup_insert_eq (m : HashMap SocketAddr Sink) (k k' : SocketAddr) (y : Sink) :
    (m.insert k' y).lookup k = (if k' = k then some (some y) else none).getD (m.lookup k) := by
  by_cases hk : k' = k
  · simp [hk]
  · simp [hk, AList.lookup_insert_ne (Ne.symm hk)]

theorem lookup_erase_eq (m : HashMap SocketAddr Sink) (k k' : SocketAddr) :
    (m.erase k').lookup k = (if k' = k then some none else none).getD (m.lookup k) := by
  by_cases hk : k' = k
  · simp [hk]
  · simp [hk, AList.lookup_erase_ne (Ne.symm hk)]

theorem Op.effect.lookup {op : Op} {s s' : Shared} (h : op.effect s s') (t : Table)
    (k : SocketAddr) :
    (s'.table t).lookup k = (op.leaves t k).getD ((s.table t).lookup k) := by
  cases op with
  | pm op =>
      obtain ⟨pm, rfl⟩ := h
      cases t <;> rfl
  | punchInsert k' y | wsInsert k' y =>
      cases h
      cases t <;> simp [Op.leaves, Shared.table, lookup_insert_eq]
  | punchTake k' | punchClose k' | wsTake k' =>
      cases h
      cases t <;> simp [Op.leaves, Shared.table, lookup_erase_eq]
  | _ =>
      cases h
      rfl

/-- What is put into a table belongs to its owner, under its key. -/
theorem Op.Placed.inserted {cfg : Config} {At : SocketAddr → ConnId → Prop}
    {owner : Option (ConnId × SocketAddr)} {op : Op} (h : op.Placed cfg At owner)
    {t : Table} {k : SocketAddr} {y : Sink} (hleaves : op.leaves t k = some (some y)) :
    ∃ addr, owner = some (y.conn, addr) ∧ cfg.x.tryIntoV4 addr = k := by
  cases op with
  | punchInsert k' y' =>
      simp only [Op.leaves, Option.ite_none_right_eq_some, Option.some.injEq] at hleaves
      obtain ⟨⟨-, rfl⟩, rfl⟩ := hleaves
      exact h
  | wsInsert k' y' =>
      simp only [Op.leaves, Option.ite_none_right_eq_some, Option.some.injEq] at hleaves
      obtain ⟨⟨-, rfl⟩, rfl⟩ := hleaves
      exact h
  | _ => simp [Op.leaves] at hleaves

section tables
variable {cfg : Config} {ι : Type} [DecidableEq ι] {jobs : ι → Job} {db : Database}
  {es : List (ι × Event Env Op Shared)} {q : Pool ι Env Op Shared fun _ => Unit}

theorem lookup_table (h : (server cfg jobs (.start db)).Run es q) (t : Table) (k : SocketAddr) :
    (q.shared.table t).lookup k
      = (es.filterMap fun x => x.2.op.leaves t k).getLast?.join := by
  induction h with
  | start => cases t <;> rfl
  | @step es q j e op f kont hrun hj ih =>
      obtain ⟨heffect, -⟩ := (server_places cfg jobs (hrun.step j e hj)).1 j
        ⟨op, e, q.shared, f e q.shared⟩ (by simp)
      have hlookup := Op.effect.lookup heffect t k
      rw [List.filterMap_append, List.getLast?_append]
      show ((f e q.shared).table t).lookup k = _
      rw [hlookup]
      cases hleaves : op.leaves t k with
      | none => simpa [hleaves] using ih
      | some left => simp [hleaves]

/-- A table holds what was put there last and has not been touched since. -/
theorem lookup_table_iff (h : (server cfg jobs (.start db)).Run es q) {t : Table}
    {k : SocketAddr} {y : Sink} :
    (q.shared.table t).lookup k = some y ↔ ∃ es₁ i ev es₂, es = es₁ ++ (i, ev) :: es₂
      ∧ ev.op.leaves t k = some (some y) ∧ ∀ x ∈ es₂, x.2.op.leaves t k = none := by
  rw [lookup_table h, Option.join_eq_some_iff, List.getLast?_filterMap, List.findSome?_eq_some_iff]
  constructor
  · rintro ⟨l₁, ⟨i, ev⟩, l₂, hes, hleaves, hnone⟩
    refine ⟨l₂.reverse, i, ev, l₁.reverse, ?_, hleaves, by simpa using hnone⟩
    have hrev := congrArg List.reverse hes
    simpa using hrev
  · rintro ⟨es₁, i, ev, es₂, rfl, hleaves, hnone⟩
    exact ⟨es₂.reverse, (i, ev), es₁.reverse, by simp, hleaves, by simpa using hnone⟩

end tables

section writes
variable {cfg : Config} {ι : Type} [DecidableEq ι] {jobs : ι → Job} {s : Shared}
  {es : List (ι × Event Env Op Shared)} {q : Pool ι Env Op Shared fun _ => Unit}

/-- Before a task writes through a table, its last step took the sink out. -/
theorem taken_before_write (h : (server cfg jobs s).Run es q)
    {es₁ es₂ : List (ι × Event Env Op Shared)} {j : ι} {ev : Event Env Op Shared}
    (hes : es = es₁ ++ (j, ev) :: es₂) {t : Table} {k : SocketAddr} {conn : ConnId}
    (hwrites : ev.op.writes t = some (k, conn)) :
    ∃ es₃ ev₀ es₄ y, es₁ = es₃ ++ (j, ev₀) :: es₄ ∧ own j es₄ = []
      ∧ ev₀.op.leaves t k = some none ∧ (ev₀.pre.table t).lookup k = some y ∧ y.conn = conn := by
  have hstep := Task.Follows.path (Job.task_orderly cfg (jobs j) none) (h.path j)
    (hes ▸ own_split j es₁ es₂ ev)
  obtain ⟨ev₀, y, hlast, hleaves, hlookup, hconn⟩ := hstep.taken t k conn hwrites
  rw [Option.or_none] at hlast
  obtain ⟨es₃, es₄, hes₁, hown⟩ := own_getLast hlast
  exact ⟨es₃, ev₀, es₄, y, hes₁, hown, hleaves, hlookup, hconn⟩

end writes

end KustDesk
