import KustDesk.Async.Component

/-!
# Async — Channel

A first-in first-out channel between tasks: what is sent goes to the end of the
queue, and the receiver takes from its front. Whatever the schedule, what has
been sent is what has been taken, and then what still waits.
-/

namespace Async

variable {ι ε ο σ μ α : Type}

/-! ## Tasks -/

/-- What holds of no steps, and after every step that the task takes, holds of
its steps in every run. -/
theorem Pool.Run.own_invariant {β : ι → Type} [DecidableEq ι] {p q : Pool ι ε ο σ β}
    {es : List (ι × Event ε ο σ)} (h : p.Run es q) {i : ι} {J : List (Event ε ο σ) → Prop}
    {Q : List (Event ε ο σ) → β i → Prop} (h₀ : J [])
    (hi : (p.tasks i).Heeds (fun es ev => J (es ++ [ev])) Q []) : J (own i es) := by
  rcases List.eq_nil_or_concat (own i es) with hnil | ⟨es', ev, hes⟩
  · rwa [hnil]
  · rw [hes, List.concat_eq_append]
    exact (hi.path (h.path i)).1 es' ev [] (by simp [hes])

/-- Every step of the task does `g` as well. -/
def Task.also (g : ο → ε → σ → σ) : Task ε ο σ α → Task ε ο σ α
  | .done a => .done a
  | .abort why => .abort why
  | .step op f k => .step op (fun e s => g op e (f e s)) fun e s => (k e s).also g

namespace Task

variable {g : ο → ε → σ → σ} {t : Task ε ο σ α} {P R : Event ε ο σ → Prop}

theorem All.also (ht : t.All P)
    (hg : ∀ op e s s', P ⟨op, e, s, s'⟩ → R ⟨op, e, s, g op e s'⟩) : (t.also g).All R := by
  induction t with
  | done a => trivial
  | abort why => trivial
  | step op f k ih => exact fun e s => ⟨hg _ _ _ _ (ht e s).1, ih e s (ht e s).2⟩

theorem All.mono (hP : ∀ ev, P ev → R ev) (ht : t.All P) : t.All R := by
  induction t with
  | done a => trivial
  | abort why => trivial
  | step op f k ih => exact fun e s => ⟨hP _ (ht e s).1, ih e s (ht e s).2⟩

theorem NoAbort.also (ht : t.NoAbort) : (t.also g).NoAbort := by
  induction t with
  | done a => trivial
  | abort why => exact ht
  | step op f k ih => exact fun e s => ih e s (ht e s)

end Task

/-! ## The queue -/

/-- A channel: where the state has its queue, and what a step puts at the end
of it and takes from its front. -/
structure Channel (ε ο σ μ : Type) where
  queue : σ → List μ
  sends : Event ε ο σ → List μ
  takes : Event ε ο σ → List μ

namespace Channel

variable (c : Channel ε ο σ μ)

/-- The step does to the queue what it is said to do. -/
def Flows (ev : Event ε ο σ) : Prop :=
  c.queue ev.pre ++ c.sends ev = c.takes ev ++ c.queue ev.post

/-- What has been sent in a run, in order. -/
def sent (es : List (ι × Event ε ο σ)) : List μ := es.flatMap fun x => c.sends x.2

/-- What has been taken in a run, in order. -/
def taken (es : List (ι × Event ε ο σ)) : List μ := es.flatMap fun x => c.takes x.2

@[simp] theorem sent_snoc (es : List (ι × Event ε ο σ)) (i : ι) (ev : Event ε ο σ) :
    c.sent (es ++ [(i, ev)]) = c.sent es ++ c.sends ev := by
  simp [sent]

@[simp] theorem taken_snoc (es : List (ι × Event ε ο σ)) (i : ι) (ev : Event ε ο σ) :
    c.taken (es ++ [(i, ev)]) = c.taken es ++ c.takes ev := by
  simp [taken]

/-- **Nothing is lost, doubled or overtaken.** -/
theorem conserved {β : ι → Type} [DecidableEq ι] {p q : Pool ι ε ο σ β}
    {es : List (ι × Event ε ο σ)} (h : p.Run es q) (hp : ∀ i, (p.tasks i).All c.Flows) :
    c.queue p.shared ++ c.sent es = c.taken es ++ c.queue q.shared := by
  refine h.invariant (J := fun es s => c.queue p.shared ++ c.sent es = c.taken es ++ c.queue s)
    (by simp [sent, taken]) ?_
  intro es q i e op f k hrun hi ih
  have hnext : c.Flows ⟨op, e, q.shared, f e q.shared⟩ := hrun.next (hp i) hi e q.shared
  rw [sent_snoc, taken_snoc, ← List.append_assoc, ih, List.append_assoc, hnext,
    ← List.append_assoc]

/-! ## One receiver -/

/-- What the steps of one task take from the queue. -/
def takenBy (es : List (Event ε ο σ)) : List μ := es.flatMap c.takes

variable (handles : Event ε ο σ → List μ)

/-- What the steps of one task are done with. -/
def handledBy (handles : Event ε ο σ → List μ) (es : List (Event ε ο σ)) : List μ :=
  es.flatMap handles

/-- The task is done with all it has taken but what it has in hand. -/
def InHand (es : List (Event ε ο σ)) : Prop :=
  ∃ hand, c.takenBy es = handledBy handles es ++ hand ∧ hand.length ≤ 1

/-- Its hands are free. -/
def Free (es : List (Event ε ο σ)) : Prop := c.takenBy es = handledBy handles es

variable {c handles} {es : List (Event ε ο σ)} {ev : Event ε ο σ}

theorem Free.inHand (h : c.Free handles es) : c.InHand handles es :=
  ⟨[], h.trans (List.append_nil _).symm, by simp⟩

/-- A step that has nothing to do with the queue. -/
theorem Free.snoc_idle (h : c.Free handles es) (htakes : c.takes ev = [])
    (hhandles : handles ev = []) : c.Free handles (es ++ [ev]) := by
  simpa [Free, takenBy, handledBy, htakes, hhandles] using h

/-- What is taken is done with at once. -/
theorem Free.snoc_both (h : c.Free handles es) (hboth : c.takes ev = handles ev) :
    c.Free handles (es ++ [ev]) := by
  unfold Free takenBy handledBy at *
  simp [h, hboth]

/-- Something is taken, and stays in hand. -/
theorem Free.snoc_takes (h : c.Free handles es) (htakes : (c.takes ev).length ≤ 1)
    (hhandles : handles ev = []) : c.InHand handles (es ++ [ev]) := by
  refine ⟨c.takes ev, ?_, htakes⟩
  unfold Free takenBy handledBy at *
  simp [h, hhandles]

/-- The task is done with what the step before has taken. -/
theorem Free.snoc_handles {ev' : Event ε ο σ} (h : c.Free handles es) (hnone : handles ev = [])
    (htakes : c.takes ev' = []) (hhandles : c.takes ev = handles ev') :
    c.Free handles (es ++ [ev] ++ [ev']) := by
  unfold Free takenBy handledBy at *
  simp [h, hnone, htakes, hhandles]

/-- Where no other task takes, the run takes what the receiver does. -/
theorem taken_eq [DecidableEq ι] {i : ι} {es : List (ι × Event ε ο σ)}
    (h : ∀ j ev, (j, ev) ∈ es → j ≠ i → c.takes ev = []) :
    c.taken es = c.takenBy (own i es) := by
  induction es with
  | nil => rfl
  | cons x es ih =>
      obtain ⟨j, ev⟩ := x
      have hrest := ih fun j' ev' hev' => h j' ev' (List.mem_cons_of_mem _ hev')
      have hcons : own i ((j, ev) :: es) = own i [(j, ev)] ++ own i es := own_append i [(j, ev)] es
      have htaken : c.taken ((j, ev) :: es) = c.takes ev ++ c.taken es := by simp [taken]
      rw [htaken, hcons, hrest]
      by_cases hj : j = i
      · subst hj
        simp [takenBy]
      · rw [own_other hj, h j ev (by simp) hj]
        simp

end Channel

end Async
