import KustDesk.Async.Pool

/-!
# Async — Component

Tasks of a component that run as part of a larger program: their steps among
those of the whole, and what is known of them there.
-/

namespace Async

variable {ι ε ο ο' σ τ α : Type}

/-! ## Steps of a component -/

/-- `see` finds the steps of the component among those of the whole. -/
structure Sees (part : Part τ σ) (emb : ο → ο') (see : Event ε ο' τ → Option (Event ε ο σ)) :
    Prop where
  lifted : ∀ op e w w', see ⟨emb op, e, w, w'⟩ = some ⟨op, e, part.get w, part.get w'⟩

/-- What the whole knows of a step of the component. -/
structure Within (part : Part τ σ) (emb : ο → ο') (see : Event ε ο' τ → Option (Event ε ο σ))
    (P : List (Event ε ο σ) → Event ε ο σ → Prop) (es : List (Event ε ο' τ))
    (ev : Event ε ο' τ) : Prop where
  step : ∃ ev₀, see ev = some ev₀ ∧ P (es.filterMap see) ev₀
  label : ∃ op, ev.op = emb op
  frame : ∃ x, ev.post = part.put x ev.pre

variable {part : Part τ σ} {emb : ο → ο'} {see : Event ε ο' τ → Option (Event ε ο σ)}

/-- A task of the component heeds in the whole what it heeds by itself. -/
theorem Task.Heeds.lift (hsee : Sees part emb see) {P : List (Event ε ο σ) → Event ε ο σ → Prop}
    {Q : List (Event ε ο σ) → α → Prop} {t : Task ε ο σ α} {es : List (Event ε ο' τ)}
    (ht : t.Heeds P Q (es.filterMap see)) :
    (t.lift part emb).Heeds (Within part emb see P) (fun es a => Q (es.filterMap see) a) es := by
  induction t generalizing es with
  | done a => exact ht
  | abort why => exact ht
  | step op f k ih =>
      intro e w
      obtain ⟨hP, hk⟩ := ht e (part.get w)
      have hev := hsee.lifted op e w (part.put (f e (part.get w)) w)
      rw [part.get_put] at hev
      refine ⟨⟨⟨_, hev, hP⟩, ⟨op, rfl⟩, ⟨_, rfl⟩⟩, ih e (part.get w) ?_⟩
      rw [List.filterMap_append, List.filterMap_cons_some hev]
      exact hk

/-- The steps of the component in a run of the whole. -/
def component (see : Event ε ο' τ → Option (Event ε ο σ)) (es : List (ι × Event ε ο' τ)) :
    List (ι × Event ε ο σ) :=
  es.filterMap fun x => (see x.2).map fun ev => (x.1, ev)

section component
variable (es : List (ι × Event ε ο' τ)) {i : ι} {ev : Event ε ο' τ} {ev₀ : Event ε ο σ}

@[simp] theorem component_nil : component see ([] : List (ι × Event ε ο' τ)) = [] := rfl

theorem component_snoc_some (h : see ev = some ev₀) :
    component see (es ++ [(i, ev)]) = component see es ++ [(i, ev₀)] := by
  simp [component, h]

theorem component_snoc_none (h : see ev = none) :
    component see (es ++ [(i, ev)]) = component see es := by
  simp [component, h]

theorem own_component [DecidableEq ι] (i : ι) :
    own i (component see es) = (own i es).filterMap see := by
  rw [own, component, own, List.filterMap_filterMap, List.filterMap_filterMap]
  congr 1
  funext x
  cases hx : see x.2 with
  | none => by_cases hi : x.1 = i <;> simp [hx, hi]
  | some ev₀ => by_cases hi : x.1 = i <;> simp [hx, hi]

end component

end Async
