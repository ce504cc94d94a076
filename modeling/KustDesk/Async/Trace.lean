import KustDesk.Async.Task

/-!
# Async — Trace

What a task does under interference: a path is any sequence of steps the
task can take when the state before each of them is arbitrary, so a fact
about every path holds whatever runs in between. `All` and `Meets` are the
two ways of proving such facts step by step.
-/

namespace Async

/-- One executed step, with the shared state before and after it. -/
structure Event (ε ο σ : Type) where
  op : ο
  env : ε
  pre : σ
  post : σ

namespace Task

variable {ε ο ο' σ τ α β : Type}

/-- `t` can take the steps `es` and is `t'` afterwards. -/
inductive Path : Task ε ο σ α → List (Event ε ο σ) → Task ε ο σ α → Prop
  | nil (t) : Path t [] t
  | cons {op f k es t'} (e s) : Path (k e s) es t' →
      Path (.step op f k) (⟨op, e, s, f e s⟩ :: es) t'

theorem Path.append {t t₁ t₂ : Task ε ο σ α} {es es'}
    (h : Path t es t₁) (h' : Path t₁ es' t₂) : Path t (es ++ es') t₂ := by
  induction h with
  | nil t => exact h'
  | cons e s _ ih => exact .cons e s (ih h')

theorem Path.snoc {t : Task ε ο σ α} {es op f k}
    (h : Path t es (.step op f k)) (e s) :
    Path t (es ++ [⟨op, e, s, f e s⟩]) (k e s) :=
  h.append (.cons e s (.nil _))

theorem path_done {a : α} {es : List (Event ε ο σ)} {t'}
    (h : Path (.done a) es t') : es = [] ∧ t' = .done a := by
  cases h; exact ⟨rfl, rfl⟩

/-- A path of a lifted task is one of the task itself, with the same labels and
inputs. -/
theorem path_lift {τ : Type} {part : Part τ σ} {emb : ο → ο'} {t : Task ε ο σ α}
    {es : List (Event ε ο' τ)} {t'} (h : Path (t.lift part emb) es t') :
    ∃ es₀ t₀, Path t es₀ t₀ ∧ t' = t₀.lift part emb
      ∧ es.map (fun ev => (ev.op, ev.env)) = es₀.map fun ev => (emb ev.op, ev.env) := by
  induction t generalizing es with
  | done a =>
      obtain ⟨rfl, rfl⟩ := path_done h
      exact ⟨[], .done a, .nil _, rfl, rfl⟩
  | abort why =>
      cases h
      exact ⟨[], .abort why, .nil _, rfl, rfl⟩
  | step op f k ih =>
      cases h with
      | nil => exact ⟨[], .step op f k, .nil _, rfl, rfl⟩
      | cons e w h =>
          obtain ⟨es₀, t₀, h₀, ht, hes⟩ := ih e _ h
          exact ⟨_ :: es₀, t₀, .cons e (part.get w) h₀, ht, by simp [hes]⟩

/-- A completed path of a sequence is a completed path of each half. -/
theorem path_bind_done {t : Task ε ο σ α} {g : α → Task ε ο σ β} {es b}
    (h : Path (t >>= g) es (.done b)) :
    ∃ es₁ a es₂, es = es₁ ++ es₂ ∧ Path t es₁ (.done a)
      ∧ Path (g a) es₂ (.done b) := by
  induction t generalizing es with
  | done a => exact ⟨[], a, es, rfl, .nil _, h⟩
  | abort why => cases h
  | step op f k ih =>
      cases h with
      | cons e s h =>
          obtain ⟨es₁, a, es₂, rfl, h₁, h₂⟩ := ih e s h
          exact ⟨_ :: es₁, a, es₂, rfl, .cons e s h₁, h₂⟩

/-- Any path of a sequence ends in the first half, or goes on in the second. -/
theorem path_bind {t : Task ε ο σ α} {g : α → Task ε ο σ β} {es t'}
    (h : Path (t >>= g) es t') :
    (∃ t₁, Path t es t₁ ∧ ∀ b, t' ≠ .done b)
      ∨ ∃ es₁ a es₂, es = es₁ ++ es₂ ∧ Path t es₁ (.done a) ∧ Path (g a) es₂ t' := by
  induction t generalizing es with
  | done a => exact .inr ⟨[], a, es, rfl, .nil _, h⟩
  | abort why =>
      cases h
      exact .inl ⟨_, .nil _, nofun⟩
  | step op f k ih =>
      cases h with
      | nil => exact .inl ⟨_, .nil _, nofun⟩
      | cons e s h =>
          obtain ⟨t₁, h₁, ht'⟩ | ⟨es₁, a, es₂, rfl, h₁, h₂⟩ := ih e s h
          · exact .inl ⟨t₁, .cons e s h₁, ht'⟩
          · exact .inr ⟨_ :: es₁, a, es₂, rfl, .cons e s h₁, h₂⟩

theorem path_act_done {op : ο} {f : ε → σ → β × σ} {es b}
    (h : Path (act op f) es (.done b)) :
    ∃ e s, es = [⟨op, e, s, (f e s).2⟩] ∧ b = (f e s).1 := by
  cases h with
  | cons e s h =>
      obtain ⟨rfl, hb⟩ := path_done h
      cases hb
      exact ⟨e, s, rfl, rfl⟩

theorem Path.noAbortIf {given : ο → Prop} {t t' : Task ε ο σ α} {es}
    (h : Path t es t') (ht : t.NoAbortIf given) (hes : ∀ ev ∈ es, given ev.op) :
    t'.NoAbortIf given := by
  induction h with
  | nil t => exact ht
  | cons e s _ ih =>
      simp only [List.mem_cons, forall_eq_or_imp] at hes
      exact ih (ht hes.1 e s) hes.2

/-! ## Facts about single steps -/

/-- Every step the task can ever take satisfies `P`. -/
def All (P : Event ε ο σ → Prop) : Task ε ο σ α → Prop
  | .done _ => True
  | .abort _ => True
  | .step op f k => ∀ e s, P ⟨op, e, s, f e s⟩ ∧ (k e s).All P

section All
variable {P : Event ε ο σ → Prop}

@[simp] theorem all_done (a : α) : (Task.done a : Task ε ο σ α).All P :=
  trivial

@[simp] theorem all_abort (why : String) :
    (Task.abort why : Task ε ο σ α).All P := trivial

@[simp] theorem all_unwrap (why : String) (o : Option α) :
    (unwrap why o : Task ε ο σ α).All P := by
  cases o <;> trivial

@[simp] theorem all_step (op : ο) (f : ε → σ → σ)
    (k : ε → σ → Task ε ο σ α) :
    (Task.step op f k).All P
      ↔ ∀ e s, P ⟨op, e, s, f e s⟩ ∧ (k e s).All P := Iff.rfl

@[simp] theorem all_act (op : ο) (f : ε → σ → β × σ) :
    (act op f).All P ↔ ∀ e s, P ⟨op, e, s, (f e s).2⟩ := by
  simp [act]

@[simp] theorem all_look (op : ο) (f : ε → σ → β) :
    (look op f).All P ↔ ∀ e s, P ⟨op, e, s, s⟩ := by
  simp [look]

theorem All.bind {t : Task ε ο σ α} {g : α → Task ε ο σ β}
    (ht : t.All P) (hg : ∀ a, (g a).All P) : (t >>= g).All P := by
  induction t with
  | done a => exact hg a
  | abort why => trivial
  | step op f k ih => exact fun e s => ⟨(ht e s).1, ih e s (ht e s).2⟩

theorem All.path {t t' : Task ε ο σ α} {es} (ht : t.All P)
    (h : Path t es t') : (∀ ev ∈ es, P ev) ∧ t'.All P := by
  induction h with
  | nil t => exact ⟨by simp, ht⟩
  | cons e s _ ih =>
      obtain ⟨hes, ht'⟩ := ih (ht e s).2
      exact ⟨by simpa using ⟨(ht e s).1, hes⟩, ht'⟩

/-- The steps of a lifted task carry lifted labels and write only their
own part. -/
theorem all_lift {part : Part τ σ} {emb : ο → ο'} {P : Event ε ο' τ → Prop}
    (hP : ∀ op e t x, P ⟨emb op, e, t, part.put x t⟩) (t : Task ε ο σ α) :
    (t.lift part emb).All P := by
  induction t with
  | done a => trivial
  | abort why => trivial
  | step op f k ih => exact fun e s => ⟨hP _ _ _ _, ih e _⟩

end All

/-! ## Rely and guarantee -/

end Task

/-- What a task counts on and what it owes: `rely s s'`, what the others
may make of the state `s` the task left behind; `given`, what is assumed of
a step of its own (the environment's input, the schedule); `guar`, what
each of its steps does to the state. -/
structure Contract (ε ο σ : Type) where
  rely : σ → σ → Prop
  given : ο → ε → σ → Prop
  guar : ο → ε → σ → σ → Prop

/-- A contract that asks nothing. -/
def Contract.free (ε ο σ : Type) : Contract ε ο σ where
  rely _ _ := True
  given _ _ _ := True
  guar _ _ _ _ := True

namespace Task

variable {ε ο ο' σ τ α β : Type}

/-- From the state `s` on, the task keeps its contract, and what it returns
satisfies `Q` in the state of its last step. -/
def Meets (c : Contract ε ο σ) (Q : α → σ → Prop) : Task ε ο σ α → σ → Prop
  | .done a, s => Q a s
  | .abort _, _ => True
  | .step op f k, s => ∀ e s', c.rely s s' → c.given op e s' →
      c.guar op e s' (f e s') ∧ (k e s').Meets c Q (f e s')

section Meets
variable {c : Contract ε ο σ}

@[simp] theorem meets_done {Q : α → σ → Prop} (a : α) (s : σ) :
    (Task.done a : Task ε ο σ α).Meets c Q s ↔ Q a s := Iff.rfl

@[simp] theorem meets_abort {Q : α → σ → Prop} (why : String) (s : σ) :
    (Task.abort why : Task ε ο σ α).Meets c Q s := trivial

@[simp] theorem meets_step {Q : α → σ → Prop} (op : ο) (f : ε → σ → σ)
    (k : ε → σ → Task ε ο σ α) (s : σ) :
    (Task.step op f k).Meets c Q s
      ↔ ∀ e s', c.rely s s' → c.given op e s' →
          c.guar op e s' (f e s') ∧ (k e s').Meets c Q (f e s') := Iff.rfl

@[simp] theorem meets_act {Q : β → σ → Prop} (op : ο) (f : ε → σ → β × σ)
    (s : σ) :
    (act op f).Meets c Q s
      ↔ ∀ e s', c.rely s s' → c.given op e s' →
          c.guar op e s' (f e s').2 ∧ Q (f e s').1 (f e s').2 := Iff.rfl

@[simp] theorem meets_look {Q : β → σ → Prop} (op : ο) (f : ε → σ → β)
    (s : σ) :
    (look op f).Meets c Q s
      ↔ ∀ e s', c.rely s s' → c.given op e s' →
          c.guar op e s' s' ∧ Q (f e s') s' := Iff.rfl

@[simp] theorem meets_bind {Q : β → σ → Prop} (t : Task ε ο σ α)
    (g : α → Task ε ο σ β) (s : σ) :
    (t >>= g).Meets c Q s ↔ t.Meets c (fun a => (g a).Meets c Q) s := by
  induction t generalizing s with
  | done a => rfl
  | abort why => rfl
  | step op f k ih => simp only [step_bind, meets_step, ih]

theorem Meets.bind {Q : α → σ → Prop} {R : β → σ → Prop} {t : Task ε ο σ α}
    {g : α → Task ε ο σ β} {s : σ} (ht : t.Meets c Q s)
    (hg : ∀ a s, Q a s → (g a).Meets c R s) : (t >>= g).Meets c R s := by
  induction t generalizing s with
  | done a => exact hg _ _ ht
  | abort why => trivial
  | step op f k ih =>
      exact fun e s' hr hgv => ⟨(ht e s' hr hgv).1, ih e s' (ht e s' hr hgv).2⟩

theorem Meets.act_bind {op : ο} {f : ε → σ → α × σ} {g : α → Task ε ο σ β} {R : β → σ → Prop}
    {s : σ} (h : ∀ e s', c.rely s s' → c.given op e s' →
      c.guar op e s' (f e s').2 ∧ (g (f e s').1).Meets c R (f e s').2) :
    (act op f >>= g).Meets c R s := h

theorem Meets.look_bind {op : ο} {f : ε → σ → α} {g : α → Task ε ο σ β} {R : β → σ → Prop} {s : σ}
    (h : ∀ e s', c.rely s s' → c.given op e s' →
      c.guar op e s' s' ∧ (g (f e s')).Meets c R s') : (look op f >>= g).Meets c R s := h

theorem Meets.mono {Q Q' : α → σ → Prop} (hQ : ∀ a s, Q a s → Q' a s)
    {t : Task ε ο σ α} {s : σ} (ht : t.Meets c Q s) : t.Meets c Q' s := by
  induction t generalizing s with
  | done a => exact hQ _ _ ht
  | abort why => trivial
  | step op f k ih =>
      exact fun e s' hr hg => ⟨(ht e s' hr hg).1, ih e s' (ht e s' hr hg).2⟩

/-- A contract that asks for no more and owes no more is kept as well. -/
theorem Meets.weaken {d : Contract ε ο σ} {Q : α → σ → Prop}
    {t : Task ε ο σ α} {s : σ} (ht : t.Meets c Q s)
    (hr : ∀ s s', d.rely s s' → c.rely s s')
    (hv : ∀ op e s, d.given op e s → c.given op e s)
    (hg : ∀ op e s s', d.given op e s → c.guar op e s s' → d.guar op e s s') :
    t.Meets d Q s := by
  induction t generalizing s with
  | done a => exact ht
  | abort why => trivial
  | step op f k ih =>
      intro e s' hrs hvs
      obtain ⟨h₁, h₂⟩ := ht e s' (hr _ _ hrs) (hv _ _ _ hvs)
      exact ⟨hg _ _ _ _ hvs h₁, ih e s' h₂⟩

theorem meets_free (t : Task ε ο σ α) (s : σ) :
    t.Meets (Contract.free ε ο σ) (fun _ _ => True) s := by
  induction t generalizing s with
  | done a => trivial
  | abort why => trivial
  | step op f k ih => exact fun e s' _ _ => ⟨trivial, ih e s' _⟩

/-- Steps that satisfy the guarantee wherever they start need no rely. -/
theorem All.meets {P : Event ε ο σ → Prop} {t : Task ε ο σ α}
    (ht : t.All P)
    (hP : ∀ op e s s', P ⟨op, e, s, s'⟩ → c.given op e s → c.guar op e s s')
    (s : σ) : t.Meets c (fun _ _ => True) s := by
  induction t generalizing s with
  | done a => trivial
  | abort why => trivial
  | step op f k ih =>
      exact fun e s' _ hg => ⟨hP _ _ _ _ (ht e s').1 hg, ih e s' (ht e s').2 _⟩

/-- A task of a component keeps the contract of the whole that its own
contract implies. -/
theorem Meets.lift {part : Part τ σ} {emb : ο → ο'} {d : Contract ε ο' τ}
    (hr : ∀ t t', d.rely t t' → c.rely (part.get t) (part.get t'))
    (hg : ∀ op e t, d.given (emb op) e t → c.given op e (part.get t))
    (hG : ∀ op e t x, c.guar op e (part.get t) x →
      d.guar (emb op) e t (part.put x t))
    {Q : α → σ → Prop} {t : Task ε ο σ α} {w : τ}
    (ht : t.Meets c Q (part.get w)) :
    (t.lift part emb).Meets d (fun a w => Q a (part.get w)) w := by
  induction t generalizing w with
  | done a => exact ht
  | abort why => trivial
  | step op f k ih =>
      intro e w' hrw hgw
      obtain ⟨h₁, h₂⟩ := ht e _ (hr _ _ hrw) (hg _ _ _ hgw)
      exact ⟨hG _ _ _ _ h₁, ih e _ (by rwa [part.get_put])⟩

/-- A contract that relies on nothing is kept along every path. -/
theorem Meets.path {Q : α → σ → Prop} (hr : ∀ s s', c.rely s s')
    {t t' : Task ε ο σ α} {es} (h : Path t es t') {s : σ} (ht : t.Meets c Q s)
    (hgiven : ∀ ev ∈ es, c.given ev.op ev.env ev.pre) :
    ∀ ev ∈ es, c.guar ev.op ev.env ev.pre ev.post := by
  induction h generalizing s with
  | nil t => simp
  | cons e s' _ ih =>
      simp only [List.mem_cons, forall_eq_or_imp] at hgiven ⊢
      obtain ⟨hg, hk⟩ := ht e s' (hr _ _) hgiven.1
      exact ⟨hg, ih hk hgiven.2⟩

/-- And what the task returns satisfies the postcondition. -/
theorem Meets.path_done {Q : α → σ → Prop} (hr : ∀ s s', c.rely s s')
    {t : Task ε ο σ α} {es} {a : α} (h : Path t es (.done a)) {s : σ} (ht : t.Meets c Q s)
    (hgiven : ∀ ev ∈ es, c.given ev.op ev.env ev.pre) : ∃ s', Q a s' := by
  generalize ht' : (Task.done a : Task ε ο σ α) = t' at h
  induction h generalizing s with
  | nil t =>
      subst ht'
      exact ⟨s, ht⟩
  | cons e s' _ ih =>
      simp only [List.mem_cons, forall_eq_or_imp] at hgiven
      exact ih (ht e s' (hr _ _) hgiven.1).2 hgiven.2 ht'

end Meets

/-! ## What an observer sees -/

section Says
variable {ω : Type} {see : ο → Option ω}

/-- Whatever happens at the await points, what `see` shows of the steps the
task has taken satisfies `R` at any time. -/
def Says (see : ο → Option ω) : Task ε ο σ α → (List ω → Prop) → Prop
  | .done _, R => R []
  | .abort _, R => R []
  | .step op _ k, R =>
      R [] ∧ ∀ e s, (k e s).Says see fun w => R ((see op).toList ++ w)

theorem Says.path {t t' : Task ε ο σ α} {es} (h : Path t es t')
    {R : List ω → Prop} (ht : t.Says see R) :
    R (es.filterMap fun ev => see ev.op) := by
  induction h generalizing R with
  | nil t => cases t with
    | done a => exact ht
    | abort why => exact ht
    | step op f k => exact ht.1
  | @cons op f k es t' e s _ ih =>
      have := ih (ht.2 e s)
      rw [List.filterMap_cons]
      cases hop : see op <;> simpa [hop] using this

theorem Says.mono {R R' : List ω → Prop} (hR : ∀ w, R w → R' w)
    {t : Task ε ο σ α} (ht : t.Says see R) : t.Says see R' := by
  induction t generalizing R R' with
  | done a => exact hR _ ht
  | abort why => exact hR _ ht
  | step op f k ih =>
      exact ⟨hR _ ht.1, fun e s => ih e s (fun w => hR _) (ht.2 e s)⟩

theorem says_of_forall {R : List ω → Prop} (hR : ∀ w, R w) (t : Task ε ο σ α) :
    t.Says see R := by
  induction t generalizing R with
  | done a => exact hR []
  | abort why => exact hR []
  | step op f k ih => exact ⟨hR [], fun e s => ih e s fun w => hR _⟩

/-- The contract to do nothing that can be seen. -/
def silent (see : ο → Option ω) : Contract ε ο σ where
  rely _ _ := True
  given _ _ _ := True
  guar op _ _ _ := see op = none

/-- An unseen task in front changes nothing. -/
theorem Meets.says_bind {R : List ω → Prop} (hR : R []) {Q : α → σ → Prop}
    {t : Task ε ο σ α} {s : σ} (ht : t.Meets (silent see) Q s)
    {g : α → Task ε ο σ β} (hg : ∀ a s, Q a s → (g a).Says see R) :
    (t >>= g).Says see R := by
  induction t generalizing s with
  | done a => exact hg _ _ ht
  | abort why => exact hR
  | step op f k ih =>
      refine ⟨hR, fun e s => ?_⟩
      obtain ⟨hop, hk⟩ := ht e s trivial trivial
      replace hop : see op = none := hop
      show (k e s >>= g).Says see fun w => R ((see op).toList ++ w)
      rw [hop]
      exact ih e s hk

/-- Nor does an unseen task behind. -/
theorem Says.bind_silent {R : List ω → Prop} {t : Task ε ο σ α}
    (ht : t.Says see R) {g : α → Task ε ο σ β}
    (hg : ∀ a s, (g a).Meets (silent see) (fun _ _ => True) s) (s : σ) :
    (t >>= g).Says see R := by
  induction t generalizing R with
  | done a =>
      have h := (hg a s).says_bind (R := R) ht (g := .done) fun _ _ _ => ht
      rwa [bind_done] at h
  | abort why => exact ht
  | step op f k ih => exact ⟨ht.1, fun e s => ih e s (ht.2 e s)⟩

end Says

/-- What the task has returned, if it is over. -/
def result : Task ε ο σ α → Option α
  | .done a => some a
  | .abort _ | .step .. => none

theorem eq_done_of_result {t : Task ε ο σ α} {a : α} (h : t.result = some a) : t = .done a := by
  cases t with
  | done b => rw [Option.some.inj h]
  | abort why => cases h
  | step op f k => cases h

/-! ## Steps and what came before them -/

/-- With the steps `es` behind it, the task takes only steps that satisfy `P`
of all steps before them, what it returns satisfies `Q` of all steps, and it
does not panic. -/
def Heeds (P : List (Event ε ο σ) → Event ε ο σ → Prop) (Q : List (Event ε ο σ) → α → Prop) :
    Task ε ο σ α → List (Event ε ο σ) → Prop
  | .done a, es => Q es a
  | .abort _, _ => False
  | .step op f k, es => ∀ e s, P es ⟨op, e, s, f e s⟩
      ∧ (k e s).Heeds P Q (es ++ [⟨op, e, s, f e s⟩])

section Heeds
variable {P : List (Event ε ο σ) → Event ε ο σ → Prop} {es es' : List (Event ε ο σ)}

@[simp] theorem heeds_done {Q : List (Event ε ο σ) → α → Prop} (a : α) :
    (Task.done a : Task ε ο σ α).Heeds P Q es ↔ Q es a := Iff.rfl

@[simp] theorem heeds_act {Q : List (Event ε ο σ) → β → Prop} (op : ο) (f : ε → σ → β × σ) :
    (act op f).Heeds P Q es ↔ ∀ e s, P es ⟨op, e, s, (f e s).2⟩
      ∧ Q (es ++ [⟨op, e, s, (f e s).2⟩]) (f e s).1 := Iff.rfl

@[simp] theorem heeds_look {Q : List (Event ε ο σ) → β → Prop} (op : ο) (f : ε → σ → β) :
    (look op f).Heeds P Q es ↔ ∀ e s, P es ⟨op, e, s, s⟩
      ∧ Q (es ++ [⟨op, e, s, s⟩]) (f e s) := Iff.rfl

theorem Heeds.mono {Q Q' : List (Event ε ο σ) → α → Prop} (hQ : ∀ es a, Q es a → Q' es a)
    {t : Task ε ο σ α} (ht : t.Heeds P Q es) : t.Heeds P Q' es := by
  induction t generalizing es with
  | done a => exact hQ _ _ ht
  | abort why => exact ht.elim
  | step op f k ih => exact fun e s => ⟨(ht e s).1, ih e s (ht e s).2⟩

theorem Heeds.act_bind {op : ο} {f : ε → σ → α × σ} {g : α → Task ε ο σ β}
    {Q : List (Event ε ο σ) → β → Prop} {es : List (Event ε ο σ)}
    (h : ∀ e s, P es ⟨op, e, s, (f e s).2⟩
      ∧ (g (f e s).1).Heeds P Q (es ++ [⟨op, e, s, (f e s).2⟩])) :
    (act op f >>= g).Heeds P Q es := h

theorem Heeds.look_bind {op : ο} {f : ε → σ → α} {g : α → Task ε ο σ β}
    {Q : List (Event ε ο σ) → β → Prop} {es : List (Event ε ο σ)}
    (h : ∀ e s, P es ⟨op, e, s, s⟩ ∧ (g (f e s)).Heeds P Q (es ++ [⟨op, e, s, s⟩])) :
    (look op f >>= g).Heeds P Q es := h

theorem Heeds.bind {Q : List (Event ε ο σ) → α → Prop} {Q' : List (Event ε ο σ) → β → Prop}
    {t : Task ε ο σ α} {g : α → Task ε ο σ β} (ht : t.Heeds P Q es)
    (hg : ∀ es a, Q es a → (g a).Heeds P Q' es) : (t >>= g).Heeds P Q' es := by
  induction t generalizing es with
  | done a => exact hg _ _ ht
  | abort why => exact ht.elim
  | step op f k ih => exact fun e s => ⟨(ht e s).1, ih e s (ht e s).2⟩

theorem Heeds.imp {P' : List (Event ε ο σ) → Event ε ο σ → Prop}
    {Q Q' : List (Event ε ο σ) → α → Prop} {t : Task ε ο σ α} (hP : ∀ es ev, P es ev → P' es ev)
    (hQ : ∀ es a, Q es a → Q' es a) (h : t.Heeds P Q es) : t.Heeds P' Q' es := by
  induction t generalizing es with
  | done a => exact hQ es a h
  | abort why => exact h
  | step op f k ih => exact fun e s => ⟨hP es _ (h e s).1, ih e s (h e s).2⟩

theorem Heeds.and {P' : List (Event ε ο σ) → Event ε ο σ → Prop}
    {Q Q' : List (Event ε ο σ) → α → Prop} {t : Task ε ο σ α} (h : t.Heeds P Q es)
    (h' : t.Heeds P' Q' es) :
    t.Heeds (fun es ev => P es ev ∧ P' es ev) (fun es a => Q es a ∧ Q' es a) es := by
  induction t generalizing es with
  | done a => exact ⟨h, h'⟩
  | abort why => exact h
  | step op f k ih =>
      intro e s
      obtain ⟨hP, hk⟩ := h e s
      obtain ⟨hP', hk'⟩ := h' e s
      exact ⟨⟨hP, hP'⟩, ih e s hk hk'⟩

theorem Heeds.noAbort {Q : List (Event ε ο σ) → α → Prop} {t : Task ε ο σ α}
    (h : t.Heeds P Q es) : t.NoAbort := by
  induction t generalizing es with
  | done a => trivial
  | abort why => exact h
  | step op f k ih => exact fun e s => ih e s (h e s).2

/-- A task that cannot abort heeds what asks nothing. -/
theorem NoAbort.heeds {t : Task ε ο σ α} (ht : t.NoAbort) (es : List (Event ε ο σ)) :
    t.Heeds (fun _ _ => True) (fun _ _ => True) es := by
  induction t generalizing es with
  | done a => trivial
  | abort why => exact ht
  | step op f k ih => exact fun e s => ⟨trivial, ih e s (ht e s) _⟩

/-- Every step of a task that heeds `P` satisfies what `P` implies. -/
theorem Heeds.all {Q : List (Event ε ο σ) → α → Prop} {t : Task ε ο σ α} {R : Event ε ο σ → Prop}
    (hP : ∀ es ev, P es ev → R ev) (h : t.Heeds P Q es) : t.All R := by
  induction t generalizing es with
  | done a => trivial
  | abort why => trivial
  | step op f k ih => exact fun e s => ⟨hP es _ (h e s).1, ih e s (h e s).2⟩

/-- The task heeds what `P` implies of histories that satisfy an invariant. -/
theorem Heeds.invariant {P' : List (Event ε ο σ) → Event ε ο σ → Prop}
    {Q : List (Event ε ο σ) → α → Prop} {J : List (Event ε ο σ) → Prop} {t : Task ε ο σ α}
    (h : t.Heeds P Q es) (hJ : J es)
    (hstep : ∀ es ev, J es → P es ev → P' es ev ∧ J (es ++ [ev])) :
    t.Heeds P' (fun es a => Q es a ∧ J es) es := by
  induction t generalizing es with
  | done a => exact ⟨h, hJ⟩
  | abort why => exact h
  | step op f k ih =>
      intro e s
      obtain ⟨hP, hk⟩ := h e s
      obtain ⟨hP', hJ'⟩ := hstep es _ hJ hP
      exact ⟨hP', ih e s hk hJ'⟩

/-- **From histories to contracts.** What the history of a task says about the
state after a step becomes, through what the others leave of it, what the next
step needs. -/
theorem Heeds.meets {c : Contract ε ο σ} {Q : List (Event ε ο σ) → α → Prop} {R : α → σ → Prop}
    {J K : List (Event ε ο σ) → σ → Prop} {t : Task ε ο σ α} {s : σ} (h : t.Heeds P Q es)
    (hJ : J es s) (hrely : ∀ es s s', J es s → c.rely s s' → K es s')
    (hstep : ∀ es ev, K es ev.pre → P es ev → c.given ev.op ev.env ev.pre →
      c.guar ev.op ev.env ev.pre ev.post ∧ J (es ++ [ev]) ev.post)
    (hdone : ∀ es a s, J es s → Q es a → R a s) : t.Meets c R s := by
  induction t generalizing es s with
  | done a => exact hdone es a s hJ h
  | abort why => trivial
  | step op f k ih =>
      intro e s' hs hgiven
      obtain ⟨hP, hk⟩ := h e s'
      obtain ⟨hguar, hJ'⟩ := hstep es _ (hrely es s s' hJ hs) hP hgiven
      exact ⟨hguar, ih e s' hk hJ'⟩

/-- Steps that satisfy `R` wherever they stand, with an invariant of the
history that these keep. -/
theorem Heeds.extend {R : Event ε ο σ → Prop} {J : List (Event ε ο σ) → Prop}
    {t : Task ε ο σ α} (ht : t.Heeds (fun _ ev => R ev) (fun _ _ => True) es') (hJ : J es)
    (hstep : ∀ es ev, J es → R ev → P es ev ∧ J (es ++ [ev])) :
    t.Heeds P (fun es _ => J es) es := by
  induction t generalizing es es' with
  | done a => exact hJ
  | abort why => exact ht.elim
  | step op f k ih =>
      intro e s
      obtain ⟨hR, hk⟩ := ht e s
      obtain ⟨hP, hJ⟩ := hstep es _ hJ hR
      exact ⟨hP, ih e s hk hJ⟩

/-- What every step satisfies asks for no history. -/
theorem All.heeds {R : Event ε ο σ → Prop} {t : Task ε ο σ α} (ht : t.All R) (hn : t.NoAbort)
    (es : List (Event ε ο σ)) : t.Heeds (fun _ ev => R ev) (fun _ _ => True) es := by
  induction t generalizing es with
  | done a => trivial
  | abort why => exact hn
  | step op f k ih => exact fun e s => ⟨(ht e s).1, ih e s (ht e s).2 (hn e s) _⟩

theorem Heeds.path {Q : List (Event ε ο σ) → α → Prop} {t t' : Task ε ο σ α}
    (ht : t.Heeds P Q es) (h : Path t es' t') :
    (∀ es₁ ev es₂, es' = es₁ ++ ev :: es₂ → P (es ++ es₁) ev) ∧ t'.Heeds P Q (es ++ es') := by
  induction h generalizing es with
  | nil t => exact ⟨by simp, by simpa using ht⟩
  | @cons op f k es' t' e s _ ih =>
      obtain ⟨hP, hk⟩ := ht e s
      obtain ⟨hsteps, hrest⟩ := ih hk
      refine ⟨fun es₁ ev es₂ hes => ?_, by simpa using hrest⟩
      cases es₁ with
      | nil =>
          obtain ⟨rfl, -⟩ := List.cons.inj hes
          simpa using hP
      | cons ev₁ es₁ =>
          obtain ⟨rfl, htail⟩ := List.cons.inj hes
          simpa using hsteps es₁ ev es₂ htail

/-- What is said before every step and at the end is said at any time. -/
theorem Heeds.now {R : List (Event ε ο σ) → Option α → Prop} {t : Task ε ο σ α}
    (ht : t.Heeds (fun es _ => R es none) (fun es a => R es (some a)) es) (e : ε) (s : σ) :
    R es t.result := by
  cases t with
  | done a => exact ht
  | abort why => exact ht.elim
  | step op f k => exact (ht e s).1

end Heeds

/-! ## Steps and the one before them -/

/-- After the step `prev`, if there was one, the task takes only steps that
satisfy `P` of its step before them, and what it returns satisfies `Q`. -/
def Follows (P : Option (Event ε ο σ) → Event ε ο σ → Prop) (Q : α → Prop) :
    Task ε ο σ α → Option (Event ε ο σ) → Prop
  | .done a, _ => Q a
  | .abort _, _ => True
  | .step op f k, prev => ∀ e s, P prev ⟨op, e, s, f e s⟩
      ∧ (k e s).Follows P Q (some ⟨op, e, s, f e s⟩)

section Follows
variable {P : Option (Event ε ο σ) → Event ε ο σ → Prop} {prev : Option (Event ε ο σ)}

theorem Follows.bind {Q : α → Prop} {R : β → Prop} {t : Task ε ο σ α} {g : α → Task ε ο σ β}
    (ht : t.Follows P Q prev) (hg : ∀ a, Q a → ∀ prev, (g a).Follows P R prev) :
    (t >>= g).Follows P R prev := by
  induction t generalizing prev with
  | done a => exact hg a ht prev
  | abort why => trivial
  | step op f k ih => exact fun e s => ⟨(ht e s).1, ih e s (ht e s).2⟩

theorem Follows.mono {Q R : α → Prop} {t : Task ε ο σ α} (ht : t.Follows P Q prev)
    (h : ∀ a, Q a → R a) : t.Follows P R prev := by
  induction t generalizing prev with
  | done a => exact h a ht
  | abort why => trivial
  | step op f k ih => exact fun e s => ⟨(ht e s).1, ih e s (ht e s).2⟩

theorem Follows.act_bind {op : ο} {f : ε → σ → α × σ} {g : α → Task ε ο σ β} {R : β → Prop}
    (h : ∀ e s, P prev ⟨op, e, s, (f e s).2⟩
      ∧ (g (f e s).1).Follows P R (some ⟨op, e, s, (f e s).2⟩)) :
    (act op f >>= g).Follows P R prev := h

/-- What every step satisfies does not ask for the one before. -/
theorem All.follows {R : Event ε ο σ → Prop} {t : Task ε ο σ α} (ht : t.All R)
    (hR : ∀ prev ev, R ev → P prev ev) (prev : Option (Event ε ο σ)) :
    t.Follows P (fun _ => True) prev := by
  induction t generalizing prev with
  | done a => trivial
  | abort why => trivial
  | step op f k ih => exact fun e s => ⟨hR _ _ (ht e s).1, ih e s (ht e s).2 _⟩

theorem Follows.path {Q : α → Prop} {t t' : Task ε ο σ α} {es : List (Event ε ο σ)}
    (ht : t.Follows P Q prev) (h : Path t es t') {es₁ es₂ : List (Event ε ο σ)}
    {ev : Event ε ο σ} (hes : es = es₁ ++ ev :: es₂) : P (es₁.getLast?.or prev) ev := by
  induction h generalizing prev es₁ with
  | nil t => simp at hes
  | @cons op f k es t' e s _ ih =>
      obtain ⟨hP, hk⟩ := ht e s
      cases es₁ with
      | nil =>
          obtain ⟨rfl, -⟩ := List.cons.inj hes
          exact hP
      | cons ev₁ es₁ =>
          obtain ⟨rfl, htail⟩ := List.cons.inj hes
          have hrest := ih hk htail
          rw [List.getLast?_cons]
          cases hlast : es₁.getLast? with
          | none => simpa [hlast] using hrest
          | some ev₀ => simpa [hlast] using hrest

end Follows

end Task

end Async
