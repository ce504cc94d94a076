import KustDesk.Async.Trace
import KustDesk.Async.Log

/-!
# Async — Pool

Any number of tasks over one shared state, interleaved at their await
points by an arbitrary scheduler. A run is the list of the steps executed,
each with the task that took it. A task not yet spawned is one that has not
taken a step; a task that panics takes no further step.
-/

namespace Async

variable {ι ε ο σ : Type} {α : ι → Type}

structure Pool (ι ε ο σ : Type) (α : ι → Type) where
  tasks : (i : ι) → Task ε ο σ (α i)
  shared : σ

/-- The steps of task `i` in a run. -/
def own [DecidableEq ι] (i : ι) (es : List (ι × Event ε ο σ)) :
    List (Event ε ο σ) :=
  es.filterMap fun x => if x.1 = i then some x.2 else none

section own
variable [DecidableEq ι]

@[simp] theorem own_nil (i : ι) :
    own i ([] : List (ι × Event ε ο σ)) = [] := rfl

@[simp] theorem own_append (i : ι) (es es' : List (ι × Event ε ο σ)) :
    own i (es ++ es') = own i es ++ own i es' := List.filterMap_append ..

@[simp] theorem own_self (i : ι) (ev : Event ε ο σ) :
    own i [(i, ev)] = [ev] := by simp [own]

theorem own_other {i j : ι} (h : j ≠ i) (ev : Event ε ο σ) :
    own i [(j, ev)] = [] := by simp [own, h]

/-- A step of the task's own, among its others. -/
theorem own_split (i : ι) (es₁ es₂ : List (ι × Event ε ο σ)) (ev : Event ε ο σ) :
    own i (es₁ ++ (i, ev) :: es₂) = own i es₁ ++ ev :: own i es₂ := by
  rw [own_append]
  simp [own]

/-- The last step of a task, and what came after it. -/
theorem own_getLast {i : ι} {es : List (ι × Event ε ο σ)} {ev : Event ε ο σ}
    (h : (own i es).getLast? = some ev) :
    ∃ es₁ es₂, es = es₁ ++ (i, ev) :: es₂ ∧ own i es₂ = [] := by
  rw [own, List.getLast?_filterMap, List.findSome?_eq_some_iff] at h
  obtain ⟨l₁, ⟨j, ev'⟩, l₂, hes, hev, hnone⟩ := h
  rw [Option.ite_none_right_eq_some, Option.some.injEq] at hev
  obtain ⟨rfl, rfl⟩ := hev
  refine ⟨l₂.reverse, l₁.reverse, ?_, ?_⟩
  · simpa using congrArg List.reverse hes
  · rw [own, List.filterMap_eq_nil_iff]
    simpa using hnone

theorem mem_own {i : ι} {es : List (ι × Event ε ο σ)} {ev : Event ε ο σ} :
    ev ∈ own i es ↔ (i, ev) ∈ es := by
  simp only [own, List.mem_filterMap, Option.ite_none_right_eq_some,
    Option.some.injEq, Prod.exists]
  constructor
  · rintro ⟨j, ev', hmem, rfl, rfl⟩; exact hmem
  · intro hmem; exact ⟨i, ev, hmem, rfl, rfl⟩

end own

namespace Pool

variable [DecidableEq ι]

/-- One step of task `i`. -/
def advance (q : Pool ι ε ο σ α) (i : ι) (e : ε) (f : ε → σ → σ)
    (k : ε → σ → Task ε ο σ (α i)) : Pool ι ε ο σ α where
  tasks := Function.update q.tasks i (k e q.shared)
  shared := f e q.shared

/-- The pools reachable from `p`, with the steps that lead there. -/
inductive Run (p : Pool ι ε ο σ α) :
    List (ι × Event ε ο σ) → Pool ι ε ο σ α → Prop
  | start : Run p [] p
  | step {es q} (i) (e) {op f k} : Run p es q →
      q.tasks i = .step op f k →
      Run p (es ++ [(i, ⟨op, e, q.shared, f e q.shared⟩)]) (q.advance i e f k)

/-- One turn of a given schedule; a task that has no step is skipped. -/
def turn (r : List (ι × Event ε ο σ) × Pool ι ε ο σ α) (x : ι × ε) :
    List (ι × Event ε ο σ) × Pool ι ε ο σ α :=
  match r.2.tasks x.1 with
  | .step op f k =>
      (r.1 ++ [(x.1, ⟨op, x.2, r.2.shared, f x.2 r.2.shared⟩)], r.2.advance x.1 x.2 f k)
  | _ => r

/-- The run that a given schedule leads to. -/
def play (p : Pool ι ε ο σ α) (schedule : List (ι × ε)) :
    List (ι × Event ε ο σ) × Pool ι ε ο σ α :=
  schedule.foldl turn ([], p)

variable {p q : Pool ι ε ο σ α} {es : List (ι × Event ε ο σ)}

theorem Run.turn {r : List (ι × Event ε ο σ) × Pool ι ε ο σ α}
    (h : Run p r.1 r.2) (x : ι × ε) : Run p (turn r x).1 (turn r x).2 := by
  unfold Pool.turn
  split
  · rename_i hx
    exact .step x.1 x.2 h hx
  · exact h

theorem play_run (p : Pool ι ε ο σ α) (schedule : List (ι × ε)) :
    Run p (p.play schedule).1 (p.play schedule).2 := by
  have hfold : ∀ (r : List (ι × Event ε ο σ) × Pool ι ε ο σ α), Run p r.1 r.2 →
      Run p (schedule.foldl Pool.turn r).1 (schedule.foldl Pool.turn r).2 := by
    induction schedule with
    | nil => exact fun r h => h
    | cons x rest ih => exact fun r h => ih _ (h.turn x)
  exact hfold ([], p) .start

/-- What the run shows of one task is a path of that task. -/
theorem Run.path (h : Run p es q) (i : ι) :
    Task.Path (p.tasks i) (own i es) (q.tasks i) := by
  induction h with
  | start => exact .nil _
  | step j e _ hj ih =>
      by_cases hij : j = i
      · subst hij
        rw [hj] at ih
        simpa [advance] using ih.snoc e _
      · simpa [own_other hij, advance, Function.update_of_ne (Ne.symm hij)]
          using ih

/-- A run can be cut before any of its steps. -/
theorem Run.cut {es₁ es₂ : List (ι × Event ε ο σ)} {i : ι}
    {ev : Event ε ο σ} (h : Run p es q) (hes : es = es₁ ++ (i, ev) :: es₂) :
    ∃ q₁, Run p es₁ q₁ ∧ q₁.shared = ev.pre := by
  induction h generalizing es₂ with
  | start => simp at hes
  | @step es q j e op f k hrun hj ih =>
      rcases snoc_eq_split hes with ⟨rfl, hev, -⟩ | ⟨es₃, hold, -⟩
      · cases hev
        exact ⟨q, hrun, rfl⟩
      · exact ih hold

/-- What holds at the start and survives every step holds throughout. -/
theorem Run.invariant {J : List (ι × Event ε ο σ) → σ → Prop}
    (h : Run p es q) (h0 : J [] p.shared)
    (hstep : ∀ es q i e op f k, Run p es q → q.tasks i = .step op f k →
      J es q.shared →
      J (es ++ [(i, ⟨op, e, q.shared, f e q.shared⟩)]) (f e q.shared)) :
    J es q.shared := by
  induction h with
  | start => exact h0
  | step i e hrun hi ih => exact hstep _ _ i e _ _ _ hrun hi ih

/-- Facts proved of each task's steps hold of the steps of every run. -/
theorem Run.all {P : ι → Event ε ο σ → Prop} (h : Run p es q)
    (hP : ∀ i, (p.tasks i).All (P i)) {i : ι} {ev : Event ε ο σ}
    (hev : (i, ev) ∈ es) : P i ev :=
  ((hP i).path (h.path i)).1 ev (mem_own.mpr hev)

/-- The next step of a task satisfies what all its steps satisfy. -/
theorem Run.next {P : Event ε ο σ → Prop} (h : Run p es q) {i : ι}
    (hP : (p.tasks i).All P) {op f k} (hi : q.tasks i = .step op f k) (e s) :
    P ⟨op, e, s, f e s⟩ := by
  have hq := (hP.path (h.path i)).2
  rw [hi] at hq
  exact (hq e s).1

/-- A task that cannot panic under the labels of the run has not. -/
theorem Run.noAbortIf {given : ο → Prop} (h : Run p es q) {i : ι}
    (hi : (p.tasks i).NoAbortIf given)
    (hes : ∀ ev, (i, ev) ∈ es → given ev.op) : (q.tasks i).NoAbortIf given :=
  (h.path i).noAbortIf hi fun ev hev => hes ev (mem_own.mp hev)

/-- **Rely-guarantee.** Where every task's guarantee is allowed by the rely
of every other, all tasks keep their contracts in every run whose steps
satisfy what the contracts take as given. -/
theorem Run.meets {c : ι → Contract ε ο σ} {Q : (i : ι) → α i → σ → Prop}
    (h : Run p es q)
    (hgiven : ∀ i ev, (i, ev) ∈ es → (c i).given ev.op ev.env ev.pre)
    (h0 : ∀ i, (c i).rely p.shared p.shared
      ∧ (p.tasks i).Meets (c i) (Q i) p.shared)
    (hself : ∀ i op e s₀ s s', (c i).rely s₀ s → (c i).guar op e s s' →
      (c i).rely s' s')
    (hothers : ∀ i j op e s₀ s s', i ≠ j → (c i).rely s₀ s →
      (c j).guar op e s s' → (c i).rely s₀ s') :
    (∀ i ev, (i, ev) ∈ es → (c i).guar ev.op ev.env ev.pre ev.post)
      ∧ ∀ i, ∃ s, (c i).rely s q.shared ∧ (q.tasks i).Meets (c i) (Q i) s := by
  induction h with
  | start => exact ⟨by simp, fun i => ⟨_, h0 i⟩⟩
  | @step es q j e op f k hrun hj ih =>
      obtain ⟨hguar, hmeets⟩ :=
        ih fun i ev hev => hgiven i ev (List.mem_append_left _ hev)
      obtain ⟨s, hrely, hm⟩ := hmeets j
      rw [hj] at hm
      have hg := hgiven j ⟨op, e, q.shared, f e q.shared⟩ (by simp)
      obtain ⟨hstep, hk⟩ := hm e _ hrely hg
      refine ⟨fun i ev hev => ?_, fun i => ?_⟩
      · rcases List.mem_append.mp hev with hev | hev
        · exact hguar i ev hev
        · simp only [List.mem_singleton] at hev
          cases hev
          exact hstep
      · by_cases hij : i = j
        · subst hij
          exact ⟨_, hself i _ _ _ _ _ hrely hstep, by simpa [advance] using hk⟩
        · obtain ⟨s', hrely', hm'⟩ := hmeets i
          exact ⟨s', hothers i j _ _ _ _ _ hij hrely' hstep,
            by simpa [advance, Function.update_of_ne hij] using hm'⟩

/-- The start of a run is a run. -/
theorem Run.take {es₁ es₂ : List (ι × Event ε ο σ)} (h : Run p (es₁ ++ es₂) q) :
    ∃ q₁, Run p es₁ q₁ := by
  cases es₂ with
  | nil => exact ⟨q, by simpa using h⟩
  | cons x es₂ =>
      obtain ⟨q₁, h₁, -⟩ := h.cut rfl
      exact ⟨q₁, h₁⟩

theorem Run.shared_snoc {i : ι} {ev : Event ε ο σ} (h : Run p (es ++ [(i, ev)]) q) :
    q.shared = ev.post := by
  generalize hes : es ++ [(i, ev)] = es' at h
  cases h with
  | start => simp at hes
  | step j e hrun hj =>
      obtain ⟨-, hev⟩ := List.append_inj' hes rfl
      cases hev
      rfl

/-! ## Steps and their own task's history -/

/-- Every step satisfies what its task's own earlier steps let it. -/
def Heeded (P : ι → List (Event ε ο σ) → Event ε ο σ → Prop)
    (es : List (ι × Event ε ο σ)) : Prop :=
  ∀ es₁ i ev es₂, es = es₁ ++ (i, ev) :: es₂ → P i (own i es₁) ev

theorem Run.heeds {P : ι → List (Event ε ο σ) → Event ε ο σ → Prop}
    {Q : (i : ι) → List (Event ε ο σ) → α i → Prop} (h : Run p es q)
    (hP : ∀ i, (p.tasks i).Heeds (P i) (Q i) []) :
    Heeded P es ∧ ∀ i, (q.tasks i).Heeds (P i) (Q i) (own i es) := by
  have hpath (i : ι) := (hP i).path (h.path i)
  refine ⟨fun es₁ i ev es₂ hes => ?_, fun i => (hpath i).2⟩
  exact (hpath i).1 _ ev _ (hes ▸ own_split i es₁ es₂ ev)

/-- **Invariants from histories.** What holds at the start and survives every
step that its task's history lets be, holds throughout. -/
theorem Run.heeds_invariant {P : ι → List (Event ε ο σ) → Event ε ο σ → Prop}
    {Q : (i : ι) → List (Event ε ο σ) → α i → Prop} (h : Run p es q)
    (hP : ∀ i, (p.tasks i).Heeds (P i) (Q i) []) {J : List (ι × Event ε ο σ) → σ → Prop}
    (h₀ : J [] p.shared)
    (hstep : ∀ es i ev, Heeded P (es ++ [(i, ev)]) → J es ev.pre →
      J (es ++ [(i, ev)]) ev.post) : J es q.shared :=
  h.invariant h₀ fun es _ i e _ _ _ hrun hi hJ =>
    hstep es i _ ((hrun.step i e hi).heeds hP).1 hJ

end Pool

end Async
