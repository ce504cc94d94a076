import KustDesk.Async.Pool
import Mathlib.Data.List.Forall2
import Mathlib.Data.List.Induction

/-!
# Async — Added

A pool, and the same pool with more tasks, under the same scheduler. Where the
added tasks keep to a relation of the two shared states, and the others cannot
tell two states apart that are so related, the others go the same way in both
runs.
-/

namespace Async

variable {ι κ ε ο σ : Type} {R : ε → σ → σ → Prop}

namespace Task

variable {α β : Type} {given owed : Event ε ο σ → Event ε ο σ → Prop}

/-- In related states the task goes on the same way and leaves related states,
as long as its two steps are as `given`; they are then as `owed`. -/
def Respects (R : ε → σ → σ → Prop) (given owed : Event ε ο σ → Event ε ο σ → Prop) :
    Task ε ο σ α → Prop
  | .done _ => True
  | .abort _ => True
  | .step op f k => ∀ e s s', R e s s' → given ⟨op, e, s, f e s⟩ ⟨op, e, s', f e s'⟩ →
      owed ⟨op, e, s, f e s⟩ ⟨op, e, s', f e s'⟩ ∧ R e (f e s) (f e s')
        ∧ k e s = k e s' ∧ (k e s).Respects R given owed

/-- The steps of the task, taken in the first of two related states only, keep
them related. -/
def Hidden (R : ε → σ → σ → Prop) : Task ε ο σ α → Prop
  | .done _ => True
  | .abort _ => True
  | .step _ f k => ∀ e s s', R e s s' → R e (f e s) s' ∧ (k e s).Hidden R

theorem Respects.act {op : ο} {f : ε → σ → α × σ}
    (h : ∀ e s s', R e s s' → given ⟨op, e, s, (f e s).2⟩ ⟨op, e, s', (f e s').2⟩ →
      owed ⟨op, e, s, (f e s).2⟩ ⟨op, e, s', (f e s').2⟩ ∧ R e (f e s).2 (f e s').2
        ∧ (f e s).1 = (f e s').1) : (Task.act op f).Respects R given owed := by
  intro e s s' hR hgiven
  obtain ⟨howed, hpost, hresult⟩ := h e s s' hR hgiven
  exact ⟨howed, hpost, congrArg Task.done hresult, trivial⟩

theorem Respects.unwrap (why : String) (o : Option α) :
    (Task.unwrap why o : Task ε ο σ α).Respects R given owed := by
  cases o <;> trivial

theorem Respects.bind {t : Task ε ο σ α} {g : α → Task ε ο σ β} (ht : t.Respects R given owed)
    (hg : ∀ a, (g a).Respects R given owed) : (t >>= g).Respects R given owed := by
  induction t with
  | done a => exact hg a
  | abort why => trivial
  | step op f k ih =>
      intro e s s' hR hgiven
      obtain ⟨howed, hpost, hsame, hk⟩ := ht e s s' hR hgiven
      exact ⟨howed, hpost, congrArg (· >>= g) hsame, ih e s hk⟩

/-- In a component of the state, where the rest of it is related by itself. -/
theorem Respects.lift {ο' τ : Type} {part : Part τ σ} {emb : ο → ο'} {R' : ε → τ → τ → Prop}
    {given' owed' : Event ε ο' τ → Event ε ο' τ → Prop}
    (hget : ∀ e w w', R' e w w' → R e (part.get w) (part.get w'))
    (hput : ∀ e w w' x x', R' e w w' → R e x x' → R' e (part.put x w) (part.put x' w'))
    (hgiven : ∀ op e w w' x x',
      given' ⟨emb op, e, w, part.put x w⟩ ⟨emb op, e, w', part.put x' w'⟩ →
      given ⟨op, e, part.get w, x⟩ ⟨op, e, part.get w', x'⟩)
    (howed : ∀ op e w w' x x', owed ⟨op, e, part.get w, x⟩ ⟨op, e, part.get w', x'⟩ →
      owed' ⟨emb op, e, w, part.put x w⟩ ⟨emb op, e, w', part.put x' w'⟩)
    {t : Task ε ο σ α} (ht : t.Respects R given owed) :
    (t.lift part emb).Respects R' given' owed' := by
  induction t with
  | done a => trivial
  | abort why => trivial
  | step op f k ih =>
      intro e w w' hR hstep
      obtain ⟨howed₀, hpost, hsame, hk⟩ := ht e _ _ (hget e w w' hR) (hgiven _ _ _ _ _ _ hstep)
      exact ⟨howed _ _ _ _ _ _ howed₀, hput _ _ _ _ _ hR hpost,
        congrArg (Task.lift part emb) hsame, ih e _ hk⟩

end Task

/-- What concerns the tasks that are not added. -/
def others {β : Type} (l : List ((ι ⊕ κ) × β)) : List (ι × β) :=
  l.filterMap fun y => y.1.getLeft?.map fun i => (i, y.2)

section others
variable {β : Type} (l l' : List ((ι ⊕ κ) × β)) (b : β)

theorem others_append : others (l ++ l') = others l ++ others l' := List.filterMap_append

theorem others_left (i : ι) : others (l ++ [(.inl i, b)]) = others l ++ [(i, b)] :=
  others_append l _

theorem others_right (k : κ) : others (l ++ [(.inr k, b)]) = others l := by
  rw [others_append]
  exact List.append_nil _

end others

theorem zip_grows {β γ : Type} (l₁ : List β) (l₂ : List γ) (r₁ : List β) (r₂ : List γ) :
    l₁.zip l₂ <+: (l₁ ++ r₁).zip (l₂ ++ r₂) := by
  induction l₁ generalizing l₂ with
  | nil => exact List.nil_prefix
  | cons b l₁ ih =>
      cases l₂ with
      | nil => exact List.nil_prefix
      | cons c l₂ => exact (List.cons_prefix_cons).mpr ⟨rfl, ih l₂⟩

namespace Pool

variable {α : ι ⊕ κ → Type}

/-- The pool without the added tasks. -/
def without (p : Pool (ι ⊕ κ) ε ο σ α) : Pool ι ε ο σ fun i => α (.inl i) where
  tasks i := p.tasks (.inl i)
  shared := p.shared

section play
variable [DecidableEq ι] {α : ι → Type}

theorem play_concat (p : Pool ι ε ο σ α) (schedule : List (ι × ε)) (x : ι × ε) :
    p.play (schedule ++ [x]) = turn (p.play schedule) x := List.foldl_concat ..

/-- A turn adds to the run. -/
theorem turn_grows (r : List (ι × Event ε ο σ) × Pool ι ε ο σ α) (x : ι × ε) :
    r.1 <+: (turn r x).1 := by
  unfold turn
  split
  · exact List.prefix_append _ _
  · exact List.prefix_rfl

end play

section advance
variable [DecidableEq ι] {α : ι → Type} (q : Pool ι ε ο σ α) {i : ι} (e : ε) (f : ε → σ → σ)
  (k : ε → σ → Task ε ο σ (α i))

theorem advance_self : (q.advance i e f k).tasks i = k e q.shared := Function.update_self ..

theorem advance_of_ne {j : ι} (h : j ≠ i) : (q.advance i e f k).tasks j = q.tasks j :=
  Function.update_of_ne h ..

end advance

/-- Two runs side by side, the first one with added tasks, up to a time before
those that are `later`. -/
structure Beside (R : ε → σ → σ → Prop) (given owed : ι → Event ε ο σ → Event ε ο σ → Prop)
    (later : ε → Prop) (r : List ((ι ⊕ κ) × Event ε ο σ) × Pool (ι ⊕ κ) ε ο σ α)
    (r' : List (ι × Event ε ο σ) × Pool ι ε ο σ fun i => α (.inl i)) : Prop where
  tasks : ∀ i, r.2.tasks (.inl i) = r'.2.tasks i
  respects : ∀ i, (r.2.tasks (.inl i)).Respects R (given i) (owed i)
  hidden : ∀ k, (r.2.tasks (.inr k)).Hidden R
  shared : ∀ e, later e → R e r.2.shared r'.2.shared
  events : List.Forall₂ (fun y y' => y.1 = y'.1 ∧ owed y.1 y.2 y'.2) (others r.1) r'.1

variable [DecidableEq ι] [DecidableEq κ] {given owed : ι → Event ε ο σ → Event ε ο σ → Prop}
  {later later' : ε → Prop} {r : List ((ι ⊕ κ) × Event ε ο σ) × Pool (ι ⊕ κ) ε ο σ α}
  {r' : List (ι × Event ε ο σ) × Pool ι ε ο σ fun i => α (.inl i)}

omit [DecidableEq ι] [DecidableEq κ] in
theorem Beside.mono (h : Beside R given owed later r r') (hlater : ∀ e, later' e → later e) :
    Beside R given owed later' r r' :=
  { h with shared := fun e he => h.shared e (hlater e he) }

/-- A turn of an added task. -/
theorem Beside.turn_added (h : Beside R given owed later r r') {k : κ} {e : ε} (he : later e)
    (hmono : ∀ e' s s', later' e' → R e s s' → R e' s s') (hlater : ∀ e', later' e' → later e') :
    Beside R given owed later' (turn r (.inr k, e)) r' := by
  unfold turn
  split
  · rename_i op f k' htask
    have hstep := h.hidden k
    rw [htask] at hstep
    obtain ⟨hpost, hk'⟩ := hstep e _ _ (h.shared e he)
    constructor
    · intro i
      rw [advance_of_ne _ _ _ _ Sum.inl_ne_inr]
      exact h.tasks i
    · intro i
      rw [advance_of_ne _ _ _ _ Sum.inl_ne_inr]
      exact h.respects i
    · intro j
      by_cases hj : j = k
      · subst hj
        rw [advance_self]
        exact hk'
      · rw [advance_of_ne _ _ _ _ (by simpa using hj)]
        exact h.hidden j
    · intro e' he'
      exact hmono e' _ _ he' hpost
    · rw [others_right]
      exact h.events
  · exact h.mono hlater

/-- A turn of another task, in both runs. -/
theorem Beside.turn_both (h : Beside R given owed later r r') {i : ι} {e : ε} (he : later e)
    (hmono : ∀ e' s s', later' e' → R e s s' → R e' s s') (hlater : ∀ e', later' e' → later e')
    (hgiven : ∀ y ∈ (others (turn r (.inl i, e)).1).zip (turn r' (i, e)).1,
      given y.1.1 y.1.2 y.2.2) :
    Beside R given owed later' (turn r (.inl i, e)) (turn r' (i, e)) := by
  unfold turn at hgiven ⊢
  rw [h.tasks i] at hgiven ⊢
  cases htask : r'.2.tasks i with
  | done a => exact h.mono hlater
  | abort why => exact h.mono hlater
  | step op f k =>
      rw [htask] at hgiven
      dsimp only at hgiven ⊢
      rw [others_left, List.zip_append h.events.length_eq] at hgiven
      have hstep := h.respects i
      rw [h.tasks i, htask] at hstep
      obtain ⟨howed, hpost, hsame, hk⟩ :=
        hstep e _ _ (h.shared e he) (hgiven _ (List.mem_append_right _ (List.mem_singleton_self _)))
      constructor
      · intro j
        by_cases hj : j = i
        · subst hj
          rw [advance_self, advance_self]
          exact hsame
        · rw [advance_of_ne _ _ _ _ (by simpa using hj), advance_of_ne _ _ _ _ hj]
          exact h.tasks j
      · intro j
        by_cases hj : j = i
        · subst hj
          rw [advance_self]
          exact hk
        · rw [advance_of_ne _ _ _ _ (by simpa using hj)]
          exact h.respects j
      · intro j
        rw [advance_of_ne _ _ _ _ Sum.inr_ne_inl]
        exact h.hidden j
      · intro e' he'
        exact hmono e' _ _ he' hpost
      · rw [others_left]
        exact List.rel_append h.events (.cons ⟨rfl, howed⟩ .nil)

/-- **Added tasks.** Where the added tasks only do what the others cannot tell,
the others go the same way with and without them, under the same scheduler. -/
theorem play_beside {p : Pool (ι ⊕ κ) ε ο σ α} {le : ε → ε → Prop}
    (hmono : ∀ e e' s s', le e e' → R e s s' → R e' s s') (hstart : ∀ e, R e p.shared p.shared)
    (hothers : ∀ i, (p.tasks (.inl i)).Respects R (given i) (owed i))
    (hadded : ∀ k, (p.tasks (.inr k)).Hidden R) {schedule : List ((ι ⊕ κ) × ε)}
    (hle : schedule.Pairwise fun x y => le x.2 y.2)
    (hgiven : ∀ y ∈ (others (p.play schedule).1).zip (p.without.play (others schedule)).1,
      given y.1.1 y.1.2 y.2.2) :
    Beside R given owed (fun e => ∀ x ∈ schedule, le x.2 e) (p.play schedule)
      (p.without.play (others schedule)) := by
  induction schedule using List.reverseRecOn with
  | nil => exact ⟨fun _ => rfl, hothers, hadded, fun e _ => hstart e, .nil⟩
  | append_singleton schedule x ih =>
      obtain ⟨hle₀, -, hx⟩ := List.pairwise_append.mp hle
      have hlast (y : (ι ⊕ κ) × ε) (hy : y ∈ schedule) : le y.2 x.2 := hx y hy x (by simp)
      have hlater (e : ε) (he : ∀ y ∈ schedule ++ [x], le y.2 e) : ∀ y ∈ schedule, le y.2 e :=
        fun y hy => he y (List.mem_append_left _ hy)
      have hnext (e : ε) (s s' : σ) (he : ∀ y ∈ schedule ++ [x], le y.2 e) (hR : R x.2 s s') :
          R e s s' := hmono _ _ _ _ (he x (by simp)) hR
      obtain ⟨i | k, e⟩ := x
      · rw [others_left, play_concat, play_concat] at hgiven ⊢
        refine (ih hle₀ fun y hy => hgiven y ?_).turn_both hlast hnext hlater hgiven
        obtain ⟨l, hl⟩ := turn_grows (p.play schedule) (.inl i, e)
        obtain ⟨l', hl'⟩ := turn_grows (p.without.play (others schedule)) (i, e)
        rw [← hl, ← hl', others_append]
        exact (zip_grows _ _ _ _).subset hy
      · rw [others_right, play_concat] at hgiven ⊢
        refine (ih hle₀ fun y hy => hgiven y ?_).turn_added hlast hnext hlater
        obtain ⟨l, hl⟩ := turn_grows (p.play schedule) (.inr k, e)
        rw [← hl, others_append]
        have hgrows := zip_grows (others (p.play schedule).1)
          (p.without.play (others schedule)).1 (others l) []
        rw [List.append_nil] at hgrows
        exact hgrows.subset hy

end Pool

end Async
