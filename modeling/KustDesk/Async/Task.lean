import Mathlib.Logic.Function.Basic

/-!
# Async — Task

An asynchronous function as what the scheduler sees of it: a tree of
atomic steps on a shared state. Between two await points nothing else
runs, so one node is one segment — the await completes, the code up to
the next await executes. The environment (`ε`: clock readings, I/O
outcomes, fresh randomness) is an input of every step; the label (`ο`)
names what the step does, for traces and for schedules.

Nothing in this directory is about a particular program.
-/

namespace Async

/-- A task returning `α`: finished, dead by a panic, or about to take one
atomic step. `f` is the step's effect on the shared state, `k` what the
task does next, from the state it saw. -/
inductive Task (ε ο σ α : Type) where
  | done (a : α)
  | abort (why : String)
  | step (op : ο) (f : ε → σ → σ) (k : ε → σ → Task ε ο σ α)

namespace Task

variable {ε ο σ α β γ : Type}

def bind : Task ε ο σ α → (α → Task ε ο σ β) → Task ε ο σ β
  | .done a, g => g a
  | .abort why, _ => .abort why
  | .step op f k, g => .step op f (fun e s => (k e s).bind g)

instance : Monad (Task ε ο σ) where
  pure := .done
  bind := bind

/-- One atomic step: read and update the shared state. -/
def act (op : ο) (f : ε → σ → β × σ) : Task ε ο σ β :=
  .step op (fun e s => (f e s).2) (fun e s => .done (f e s).1)

/-- One atomic step that leaves the shared state alone. -/
def look (op : ο) (f : ε → σ → β) : Task ε ο σ β :=
  act op fun e s => (f e s, s)

/-- `Option::unwrap`. -/
def unwrap (why : String) : Option α → Task ε ο σ α
  | some a => .done a
  | none => .abort why

@[simp] theorem pure_eq (a : α) : (pure a : Task ε ο σ α) = .done a := rfl

@[simp] theorem done_bind (a : α) (g : α → Task ε ο σ β) :
    (Task.done a >>= g) = g a := rfl

@[simp] theorem abort_bind (why : String) (g : α → Task ε ο σ β) :
    ((Task.abort why : Task ε ο σ α) >>= g) = .abort why := rfl

@[simp] theorem step_bind (op : ο) (f : ε → σ → σ)
    (k : ε → σ → Task ε ο σ α) (g : α → Task ε ο σ β) :
    (Task.step op f k >>= g) = .step op f (fun e s => k e s >>= g) := rfl

@[simp] theorem unwrap_some (why : String) (a : α) :
    (unwrap why (some a) : Task ε ο σ α) = .done a := rfl

@[simp] theorem unwrap_none (why : String) :
    (unwrap why none : Task ε ο σ α) = .abort why := rfl

theorem bind_done (t : Task ε ο σ α) : (t >>= .done) = t := by
  induction t with
  | done a => rfl
  | abort why => rfl
  | step op f k ih => simp only [step_bind, ih]

theorem bind_assoc (t : Task ε ο σ α) (g : α → Task ε ο σ β)
    (h : β → Task ε ο σ γ) :
    (t >>= g >>= h) = (t >>= fun a => g a >>= h) := by
  induction t with
  | done a => rfl
  | abort why => rfl
  | step op f k ih => simp only [step_bind, ih]

instance : LawfulMonad (Task ε ο σ) :=
  LawfulMonad.mk' (Task ε ο σ) (fun t => bind_done t) (fun _ _ => rfl)
    (fun t g h => bind_assoc t g h)

/-! ## Running alone

With no other task in between, a task is a function of the shared state
and of the environment's inputs, one for each step. -/

/-- Run to completion: the result (`none` after a panic) and the state. -/
def run : Task ε ο σ α → (Nat → ε) → σ → Option α × σ
  | .done a, _, s => (some a, s)
  | .abort _, _, s => (none, s)
  | .step _ f k, η, s => (k (η 0) s).run (fun n => η (n + 1)) (f (η 0) s)

@[simp] theorem run_done (a : α) (η : Nat → ε) (s : σ) :
    (Task.done a : Task ε ο σ α).run η s = (some a, s) := rfl

@[simp] theorem run_abort (why : String) (η : Nat → ε) (s : σ) :
    (Task.abort why : Task ε ο σ α).run η s = (none, s) := rfl

@[simp] theorem run_step (op : ο) (f : ε → σ → σ)
    (k : ε → σ → Task ε ο σ α) (η : Nat → ε) (s : σ) :
    (Task.step op f k).run η s
      = (k (η 0) s).run (fun n => η (n + 1)) (f (η 0) s) := rfl

theorem run_look_bind (op : ο) (f : ε → σ → α) (g : α → Task ε ο σ β) (η : Nat → ε) (s : σ) :
    (look op f >>= g).run η s = (g (f (η 0) s)).run (fun n => η (n + 1)) s := rfl

/-- A last computation on the result. -/
theorem run_map (t : Task ε ο σ α) (g : α → β) (η : Nat → ε) (s : σ) :
    (t >>= fun a => .done (g a)).run η s = ((t.run η s).1.map g, (t.run η s).2) := by
  induction t generalizing η s with
  | done a => rfl
  | abort why => rfl
  | step op f k ih => simp only [step_bind, run_step, ih]

/-! ## Never panicking -/

/-- The task cannot panic, whatever the other tasks and the environment do
at its await points. -/
def NoAbort : Task ε ο σ α → Prop
  | .done _ => True
  | .abort _ => False
  | .step _ _ k => ∀ e s, (k e s).NoAbort

@[simp] theorem noAbort_done (a : α) :
    (Task.done a : Task ε ο σ α).NoAbort := trivial

@[simp] theorem noAbort_abort (why : String) :
    ¬ (Task.abort why : Task ε ο σ α).NoAbort := id

@[simp] theorem noAbort_step (op : ο) (f : ε → σ → σ)
    (k : ε → σ → Task ε ο σ α) :
    (Task.step op f k).NoAbort ↔ ∀ e s, (k e s).NoAbort := Iff.rfl

@[simp] theorem noAbort_act (op : ο) (f : ε → σ → β × σ) :
    (act op f).NoAbort := fun _ _ => trivial

@[simp] theorem noAbort_look (op : ο) (f : ε → σ → β) :
    (look op f).NoAbort := fun _ _ => trivial

theorem NoAbort.bind {t : Task ε ο σ α} {g : α → Task ε ο σ β}
    (ht : t.NoAbort) (hg : ∀ a, (g a).NoAbort) : (t >>= g).NoAbort := by
  induction t with
  | done a => exact hg a
  | abort why => exact ht.elim
  | step op f k ih => exact fun e s => ih e s (ht e s)

/-- A task that cannot panic does return when it runs alone. -/
theorem NoAbort.run {t : Task ε ο σ α} (ht : t.NoAbort) (η : Nat → ε)
    (s : σ) : ∃ a, (t.run η s).1 = some a := by
  induction t generalizing η s with
  | done a => exact ⟨a, rfl⟩
  | abort why => exact ht.elim
  | step op f k ih => exact ih _ _ (ht _ _) _ _

/-- Likewise, as long as the steps it takes have labels in `given`. -/
def NoAbortIf (given : ο → Prop) : Task ε ο σ α → Prop
  | .done _ => True
  | .abort _ => False
  | .step op _ k => given op → ∀ e s, (k e s).NoAbortIf given

theorem NoAbort.noAbortIf {t : Task ε ο σ α} (ht : t.NoAbort)
    (given : ο → Prop) : t.NoAbortIf given := by
  induction t with
  | done a => trivial
  | abort why => exact ht.elim
  | step op f k ih => exact fun _ e s => ih e s (ht e s)

theorem NoAbortIf.bind {given : ο → Prop} {t : Task ε ο σ α}
    {g : α → Task ε ο σ β} (ht : t.NoAbortIf given)
    (hg : ∀ a, (g a).NoAbortIf given) : (t >>= g).NoAbortIf given := by
  induction t with
  | done a => exact hg a
  | abort why => exact ht.elim
  | step op f k ih => exact fun hop e s => ih e s (ht hop e s)

end Task

/-! ## Working on a part of the state -/

/-- A component of a larger state. -/
structure Part (τ σ : Type) where
  get : τ → σ
  put : σ → τ → τ
  get_put : ∀ x t, get (put x t) = x

/-- A task of the component as a task of the whole. -/
def Task.lift {ε ο ο' σ τ α : Type} (part : Part τ σ) (emb : ο → ο') :
    Task ε ο σ α → Task ε ο' τ α
  | .done a => .done a
  | .abort why => .abort why
  | .step op f k =>
      .step (emb op) (fun e t => part.put (f e (part.get t)) t)
        (fun e t => (k e (part.get t)).lift part emb)

/-- Where only the component counts and only it is overwritten, the task runs
as it does there. -/
theorem Task.run_lift {ε ο ο' σ τ α : Type} {part : Part τ σ} {emb : ο → ο'}
    (hself : ∀ w, part.put (part.get w) w = w)
    (hlast : ∀ x y w, part.put x (part.put y w) = part.put x w) (t : Task ε ο σ α)
    (η : Nat → ε) (w : τ) :
    (t.lift part emb).run η w
      = ((t.run η (part.get w)).1, part.put (t.run η (part.get w)).2 w) := by
  induction t generalizing η w with
  | done a => simp [lift, hself]
  | abort why => simp [lift, hself]
  | step op f k ih => simp only [lift, run_step, ih, part.get_put, hlast]

theorem Task.NoAbort.lift {ε ο ο' σ τ α : Type} {part : Part τ σ}
    {emb : ο → ο'} {t : Task ε ο σ α} (ht : t.NoAbort) :
    (t.lift part emb).NoAbort := by
  induction t with
  | done a => trivial
  | abort why => exact ht.elim
  | step op f k ih => exact fun e s => ih e _ (ht e _)

end Async
