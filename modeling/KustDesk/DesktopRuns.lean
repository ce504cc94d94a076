import KustDesk.Desktop

/-!
# KustDesk — DesktopRuns

What the window shows and what the service is asked for, over whole runs of
the desktop application, and the state in which it hangs.
-/

namespace KustDesk.Desktop

open Async

/-! ## What is under way -/

def Event.state : Event → Option DesktopServiceState
  | .viewRenderServiceState state => some state
  | _ => none

def Event.file : Event → Option String
  | .browserUpdate action data => if action = "file" then some data else none
  | _ => none

/-- What the presenter is about to send. -/
def Presenter.inHand (p : Presenter) : List Event :=
  match p.pc with
  | .sending ev _ => [ev]
  | _ => []

/-- What the view is about to send. -/
def View.inHand (v : View) : List Event :=
  match v.pc with
  | .sending ev => [ev]
  | _ => []

/-- The states that the window shows, or is about to show. -/
def App.states (d : App) : List DesktopServiceState :=
  d.view.title.toList ++ (d.toView ++ d.presenter.inHand).filterMap Event.state

/-- The files that are selected, or about to be. -/
def App.selections (d : App) : List String :=
  d.view.selected.toList ++ (d.toView ++ d.presenter.inHand).filterMap Event.file

section lists
variable {β γ : Type}

theorem filterMap_toList (f : β → Option γ) (o : Option β) :
    o.toList.filterMap f = (o.bind f).toList := by
  cases o with
  | none => rfl
  | some b => cases h : f b <;> simp [h]

theorem filterMap_cons_toList (f : β → Option γ) (b : β) (l : List β) :
    (b :: l).filterMap f = (f b).toList ++ l.filterMap f := by
  cases h : f b <;> simp [h]

/-- What is shown anew hides what was shown before. -/
theorem getLast?_or (o shown : Option β) (l : List β) :
    ((o.or shown).toList ++ l).getLast? = (shown.toList ++ (o.toList ++ l)).getLast? := by
  cases o with
  | none => rfl
  | some b => simp [List.getLast?_append, List.getLast?_cons]

end lists

/-! ## One event -/

section event
variable {p : Presenter} {v : View} {left : Nat} {ev reply : Event}

theorem Presenter.handle_inHand : (p.handle left ev).inHand = (p.reply ev).toList := by
  unfold Presenter.handle Presenter.inHand
  cases p.reply ev <;> rfl

theorem Presenter.handle_pc (h : (p.handle left ev).pc = .create) : False := by
  unfold Presenter.handle at h
  dsimp only at h
  split at h <;> cases h

theorem Presenter.handle_ended (h : (p.handle left ev).pc = .ended) : False := by
  unfold Presenter.handle at h
  dsimp only at h
  split at h <;> cases h

theorem Presenter.reply_state (h : p.reply ev = some reply) : reply.state = none := by
  unfold Presenter.reply at h
  split at h
  · cases h
    rfl
  · split at h
    · cases h
      rfl
    · cases h
  · split at h
    · cases h
      rfl
    · obtain ⟨file, -, rfl⟩ := Option.map_eq_some_iff.mp h
      rfl
  · cases h

/-- The presenter speaks of its own file, the new one if there is one. -/
theorem Presenter.reply_file (p : Presenter) (ev : Event) :
    ((p.reply ev).bind Event.file).getD (ev.chosen.getD p.file) = ev.chosen.getD p.file := by
  unfold Presenter.reply
  split
  · rfl
  · split <;> rfl
  · split
    · rfl
    · cases Event.chosen _ <;> rfl
  · rfl

/-- A file that is chosen is told to the view. -/
theorem Presenter.reply_chosen {file : String} (h : ev.chosen = some file) :
    (p.reply ev).bind Event.file = some file := by
  cases ev with
  | viewAction action =>
      have hne : action ≠ "exit" := by
        rintro rfl
        simp [Event.chosen] at h
      unfold Presenter.reply
      dsimp only
      rw [if_neg hne, h]
      rfl
  | _ => cases h

theorem View.handle_title : (v.handle left ev).title = ev.state.or v.title := by
  unfold View.handle
  split
  · split <;> rfl
  · rfl
  · rfl
  · cases ev <;> simp_all [Event.state]

theorem View.handle_inHand : (v.handle left ev).inHand = [] := by
  unfold View.handle
  split
  · split <;> rfl
  · rfl
  · rfl
  · rfl

theorem View.handle_selected (h : ∀ file, ev.file = some file → file ∈ files) :
    (v.handle left ev).selected = ev.file.or v.selected := by
  cases ev with
  | browserUpdate action data =>
      unfold View.handle
      by_cases haction : action = "file"
      · have hfile : data ∈ files := h data (by simp [Event.file, haction])
        simp [haction, hfile, Event.file]
      · simp [haction, Event.file]
  | _ => rfl

theorem Presenter.reply_mem {file : String} (hp : p.file ∈ files)
    (hchosen : ∀ file, ev.chosen = some file → file ∈ files)
    (h : (p.reply ev).bind Event.file = some file) : file ∈ files := by
  have hsame := p.reply_file ev
  rw [h, Option.getD_some] at hsame
  cases hev : ev.chosen with
  | none => rwa [hsame, hev]
  | some chosen =>
      rw [hsame, hev]
      exact hchosen chosen hev

end event

theorem View.inHand_length (v : View) : v.inHand.length ≤ 1 := by
  unfold View.inHand
  split
  · exact Nat.le_refl 1
  · exact Nat.zero_le 1

/-! ## Only the files of the menu -/

/-- Whatever is chosen, asked for or shown is one of the five files, and the view
sends what was clicked. -/
structure App.Known (d : App) : Prop where
  file : d.presenter.file ∈ files
  shown : ∀ ev ∈ d.toView ++ d.presenter.inHand, ∀ file, ev.file = some file → file ∈ files
  asked : ∀ ev ∈ d.toPresenter, ∀ file, ev.chosen = some file → file ∈ files
  clicked : ∀ ev ∈ d.view.inHand, ev ∈ clicks

theorem clicks_known : ∀ ev ∈ clicks, ∀ file, ev.chosen = some file → file ∈ files := by
  have hclicks : ∀ ev ∈ clicks, ∀ file ∈ ev.chosen, file ∈ files := by decide
  exact fun ev hev file hfile => hclicks ev hev file hfile

section known
variable {d d' : App} {s : Step}

theorem Presenter.inHand_sending {p : Presenter} {ev : Event} {left : Nat}
    (h : p.pc = .sending ev left) : p.inHand = [ev] := by
  rw [Presenter.inHand, h]

theorem View.inHand_sending {v : View} {ev : Event} (h : v.pc = .sending ev) :
    v.inHand = [ev] := by
  rw [View.inHand, h]

theorem App.Known.step (h : d.Known) (hstep : d.Does s d') : d'.Known := by
  obtain ⟨hfile, hshown, hasked, hclicked⟩ := h
  obtain ⟨htoView, hpresenter⟩ := List.forall_mem_append.mp hshown
  cases hstep with
  | created hpc =>
      refine ⟨hfile, List.forall_mem_append.mpr ⟨htoView, ?_⟩, hasked, hclicked⟩
      exact List.forall_mem_singleton.mpr fun file hnone => by cases hnone
  | noService hpc =>
      exact ⟨hfile, List.forall_mem_append.mpr ⟨htoView, List.forall_mem_nil _⟩, hasked, hclicked⟩
  | @taken left ev rest hpc hqueue =>
      rw [hqueue] at hasked
      obtain ⟨hev, hrest⟩ := List.forall_mem_cons.mp hasked
      have hchosen : (d.presenter.handle left ev).file ∈ files := by
        show ev.chosen.getD d.presenter.file ∈ files
        cases hev' : ev.chosen with
        | none => exact hfile
        | some file => exact hev file hev'
      refine ⟨hchosen, List.forall_mem_append.mpr ⟨htoView, ?_⟩, hrest, hclicked⟩
      rw [Presenter.handle_inHand]
      intro reply hreply file hsaid
      refine Presenter.reply_mem hfile hev ?_
      rw [Option.mem_toList.mp hreply]
      exact hsaid
  | turnOver hpc _ =>
      exact ⟨hfile, List.forall_mem_append.mpr ⟨htoView, List.forall_mem_nil _⟩, hasked, hclicked⟩
  | changed hpc _ =>
      refine ⟨hfile, List.forall_mem_append.mpr ⟨htoView, ?_⟩, hasked, hclicked⟩
      exact List.forall_mem_singleton.mpr fun file hnone => by cases hnone
  | unchanged hpc =>
      exact ⟨hfile, List.forall_mem_append.mpr ⟨htoView, List.forall_mem_nil _⟩, hasked, hclicked⟩
  | @shown ev left hpc _ =>
      rw [Presenter.inHand_sending hpc] at hpresenter
      refine ⟨hfile, ?_, hasked, hclicked⟩
      show ∀ ev' ∈ (d.toView ++ [ev]) ++ [], _
      rw [List.append_nil]
      exact List.forall_mem_append.mpr ⟨htoView, hpresenter⟩
  | unseen hpc _ =>
      exact ⟨hfile, List.forall_mem_append.mpr ⟨htoView, List.forall_mem_nil _⟩, hasked, hclicked⟩
  | @viewTaken left ev rest hpc hqueue =>
      rw [hqueue] at htoView
      have hrest := (List.forall_mem_cons.mp htoView).2
      refine ⟨hfile, List.forall_mem_append.mpr ⟨hrest, hpresenter⟩, hasked, ?_⟩
      rw [View.handle_inHand]
      exact List.forall_mem_nil _
  | viewTurnOver hpc _ => exact ⟨hfile, hshown, hasked, List.forall_mem_nil _⟩
  | rested due hpc =>
      refine ⟨hfile, hshown, hasked, ?_⟩
      cases due <;> exact List.forall_mem_nil _
  | clicked hpc hev => exact ⟨hfile, hshown, hasked, List.forall_mem_singleton.mpr hev⟩
  | iterated windows hpc =>
      refine ⟨hfile, hshown, hasked, ?_⟩
      cases windows <;> exact List.forall_mem_nil _
  | @told ev hpc _ =>
      rw [View.inHand_sending hpc, List.forall_mem_singleton] at hclicked
      refine ⟨hfile, hshown, List.forall_mem_append.mpr ⟨hasked, ?_⟩, List.forall_mem_nil _⟩
      exact List.forall_mem_singleton.mpr (clicks_known ev hclicked)
  | unheard hpc _ => exact ⟨hfile, hshown, hasked, List.forall_mem_nil _⟩
  | called call => exact ⟨hfile, hshown, hasked, hclicked⟩
  | @heard call _ _ =>
      refine ⟨hfile, hshown, List.forall_mem_append.mpr ⟨hasked, ?_⟩, hclicked⟩
      refine List.forall_mem_singleton.mpr fun file hnone => ?_
      cases call <;> cases hnone
  | ignored _ => exact ⟨hfile, hshown, hasked, hclicked⟩
  | fileChanged hpc => exact ⟨hfile, hshown, hasked, hclicked⟩
  | watched hpc _ =>
      refine ⟨hfile, hshown, List.forall_mem_append.mpr ⟨hasked, ?_⟩, hclicked⟩
      exact List.forall_mem_singleton.mpr fun file hnone => by cases hnone
  | unwatched hpc _ => exact ⟨hfile, hshown, hasked, hclicked⟩

end known

/-! ## What the window shows -/

/-- The last state and the last file on the way to the window are the
presenter's own. -/
structure App.Agreed (d : App) : Prop where
  fresh : d.presenter.pc = .create → d.presenter.serviceState = .unknown
  state : d.presenter.pc ≠ .create → d.presenter.pc ≠ .ended → d.view.pc ≠ .gone →
    d.states.getLast? = some d.presenter.serviceState
  file : d.view.pc ≠ .gone → ∀ file, d.selections.getLast? = some file → file = d.presenter.file

section agreed
variable {d d' : App} {s : Step}

/-- A step that tells the window nothing new. -/
theorem App.Agreed.same (h : d.Agreed)
    (hservice : d'.presenter.serviceState = d.presenter.serviceState)
    (hfile : d'.presenter.file = d.presenter.file) (hstates : d'.states = d.states)
    (hselections : d'.selections = d.selections) (hgone : d.view.pc = .gone → d'.view.pc = .gone)
    (hfresh : d'.presenter.pc = .create → d.presenter.pc = .create)
    (hlive : d.presenter.pc = .create ∨ d.presenter.pc = .ended →
      d'.presenter.pc = .create ∨ d'.presenter.pc = .ended) : d'.Agreed where
  fresh hpc := hservice.trans (h.fresh (hfresh hpc))
  state hcreate hended hview := by
    have hpc : ¬ (d.presenter.pc = .create ∨ d.presenter.pc = .ended) :=
      fun hpc => (hlive hpc).elim hcreate hended
    rw [not_or] at hpc
    rw [hstates, hservice]
    exact h.state hpc.1 hpc.2 fun hpc => hview (hgone hpc)
  file hview file hlast := by
    rw [hselections] at hlast
    exact (h.file (fun hpc => hview (hgone hpc)) file hlast).trans hfile.symm

/-- The presenter takes a message: what it says in return is the last file. -/
theorem App.Agreed.taken (h : d.Agreed) {left : Nat} {ev : Event} (rest : List Event)
    (hpc : d.presenter.pc = .turn (left + 1)) :
    App.Agreed { d with presenter := d.presenter.handle left ev, toPresenter := rest } := by
  have hlive : d.presenter.pc ≠ .create ∧ d.presenter.pc ≠ .ended := by simp [hpc]
  have hnone : d.presenter.inHand = [] := by rw [Presenter.inHand, hpc]
  refine ⟨fun hcreate => (Presenter.handle_pc hcreate).elim, fun _ _ hview => ?_,
    fun hview file hlast => ?_⟩
  · have hsame : ((d.presenter.reply ev).bind Event.state) = none := by
      cases hreply : d.presenter.reply ev with
      | none => rfl
      | some reply => exact Presenter.reply_state hreply
    have hstates := h.state hlive.1 hlive.2 hview
    unfold App.states at hstates ⊢
    rwa [Presenter.handle_inHand, List.filterMap_append, filterMap_toList, hsame,
      Option.toList_none, ← List.filterMap_nil, ← List.filterMap_append, ← hnone]
  · unfold App.selections at hlast
    rw [Presenter.handle_inHand, List.filterMap_append, filterMap_toList] at hlast
    have hreply := d.presenter.reply_file ev
    cases hsaid : (d.presenter.reply ev).bind Event.file with
    | some said =>
        rw [hsaid, Option.toList_some, ← List.append_assoc, List.getLast?_concat] at hlast
        rw [hsaid] at hreply
        exact (Option.some.inj hlast).symm.trans hreply
    | none =>
        have hchosen : ev.chosen = none := by
          by_contra hne
          obtain ⟨chosen, hchosen⟩ := Option.ne_none_iff_exists'.mp hne
          rw [Presenter.reply_chosen hchosen] at hsaid
          cases hsaid
        have hfile : (d.presenter.handle left ev).file = d.presenter.file := by
          rw [Presenter.handle, hchosen]
          rfl
        refine Eq.trans (h.file hview file ?_) hfile.symm
        unfold App.selections
        rwa [hnone, List.append_nil, ← List.append_nil (List.filterMap _ d.toView),
          ← Option.toList_none, ← hsaid]

theorem App.Agreed.step (h : d.Agreed) (hknown : d.Known) (hstep : d.Does s d') : d'.Agreed := by
  cases hstep with
  | created hpc =>
      refine ⟨fun hcreate => (by cases hcreate), fun _ _ _ => ?_, fun hview file hlast => ?_⟩
      · show (_ ++ (d.toView ++ [_]).filterMap Event.state).getLast? = _
        simp [Event.state, h.fresh hpc]
      · refine h.file hview file ?_
        simpa [App.selections, Presenter.inHand, hpc, Event.file] using hlast
  | noService hpc =>
      exact h.same rfl rfl (by simp [App.states, Presenter.inHand, hpc])
        (by simp [App.selections, Presenter.inHand, hpc]) id (fun hcreate => by cases hcreate)
        fun _ => .inr rfl
  | taken hpc hqueue => exact h.taken _ hpc
  | turnOver hpc _ =>
      exact h.same rfl rfl (by simp [App.states, Presenter.inHand, hpc])
        (by simp [App.selections, Presenter.inHand, hpc]) id (fun hcreate => by cases hcreate)
        fun hlive => by simp [hpc] at hlive
  | @changed state hpc _ =>
      refine ⟨fun hcreate => (by cases hcreate), fun _ _ _ => ?_, fun hview file hlast => ?_⟩
      · show (_ ++ (d.toView ++ [_]).filterMap Event.state).getLast? = _
        simp [Event.state]
      · refine h.file hview file ?_
        simpa [App.selections, Presenter.inHand, hpc, Event.file] using hlast
  | unchanged hpc =>
      exact h.same rfl rfl (by simp [App.states, Presenter.inHand, hpc])
        (by simp [App.selections, Presenter.inHand, hpc]) id (fun hcreate => by cases hcreate)
        fun hlive => by simp [hpc] at hlive
  | shown hpc _ =>
      exact h.same rfl rfl (by simp [App.states, Presenter.inHand, hpc])
        (by simp [App.selections, Presenter.inHand, hpc]) id (fun hcreate => by cases hcreate)
        fun hlive => by simp [hpc] at hlive
  | unseen hpc hgone =>
      exact ⟨fun hcreate => (by cases hcreate), fun _ _ hview => (hview hgone).elim,
        fun hview => (hview hgone).elim⟩
  | @viewTaken left ev rest hpc hqueue =>
      have hview : d.view.pc ≠ .gone := by simp [hpc]
      have hev : ∀ file, ev.file = some file → file ∈ files :=
        hknown.shown ev (by simp [hqueue])
      refine ⟨h.fresh, fun hcreate hended _ => ?_, fun _ file hlast => h.file hview file ?_⟩
      · rw [← h.state hcreate hended hview]
        unfold App.states
        rw [View.handle_title, getLast?_or, hqueue, List.cons_append, filterMap_cons_toList]
      · rw [← hlast]
        unfold App.selections
        rw [View.handle_selected hev, getLast?_or, hqueue, List.cons_append, filterMap_cons_toList]
  | viewTurnOver hpc _ => exact h.same rfl rfl rfl rfl (fun hgone => by simp [hpc] at hgone) id id
  | rested due hpc => exact h.same rfl rfl rfl rfl (fun hgone => by simp [hpc] at hgone) id id
  | clicked hpc _ => exact h.same rfl rfl rfl rfl (fun hgone => by simp [hpc] at hgone) id id
  | iterated windows hpc =>
      exact h.same rfl rfl rfl rfl (fun hgone => by simp [hpc] at hgone) id id
  | told hpc _ => exact h.same rfl rfl rfl rfl (fun hgone => by simp [hpc] at hgone) id id
  | unheard hpc _ => exact h.same rfl rfl rfl rfl (fun hgone => by simp [hpc] at hgone) id id
  | called call => exact h.same rfl rfl rfl rfl id id id
  | heard _ _ => exact h.same rfl rfl rfl rfl id id id
  | ignored _ => exact h.same rfl rfl rfl rfl id id id
  | fileChanged hpc => exact h.same rfl rfl rfl rfl id id id
  | watched hpc _ => exact h.same rfl rfl rfl rfl id id id
  | unwatched hpc _ => exact h.same rfl rfl rfl rfl id id id

/-- The title, and what can be clicked. -/
def View.Fits (v : View) : Prop :=
  ∀ state, v.title = some state → v.start = decide (state = .stopped)
    ∧ v.stop = decide (state = .started) ∧ v.restart = decide (state = .started)
    ∧ v.blink = decide (state ≠ .started)

theorem View.Fits.handle {v : View} (h : v.Fits) (left : Nat) (ev : Event) :
    (v.handle left ev).Fits := by
  unfold View.handle
  split
  · split
    · exact h
    · exact h
  · exact h
  · intro state hstate
    cases hstate
    exact ⟨rfl, rfl, rfl, rfl⟩
  · exact h

theorem View.Fits.step (h : d.view.Fits) (hstep : d.Does s d') : d'.view.Fits := by
  cases hstep with
  | viewTaken hpc hqueue => exact View.Fits.handle h _ _
  | _ => exact h

/-- No channel holds more than it can. -/
def App.Bounded (d : App) : Prop := d.toView.length ≤ buffer ∧ d.toPresenter.length ≤ buffer

theorem App.Bounded.step (h : d.Bounded) (hstep : d.Does s d') : d'.Bounded := by
  obtain ⟨hview, hpresenter⟩ := h
  cases hstep with
  | taken hpc hqueue =>
      rw [hqueue, List.length_cons] at hpresenter
      exact ⟨hview, by dsimp only; omega⟩
  | viewTaken hpc hqueue =>
      rw [hqueue, List.length_cons] at hview
      exact ⟨by dsimp only; omega, hpresenter⟩
  | shown hpc hroom => exact ⟨by rw [List.length_append, List.length_singleton]; omega, hpresenter⟩
  | told hpc hroom => exact ⟨hview, by rw [List.length_append, List.length_singleton]; omega⟩
  | heard _ hroom => exact ⟨hview, by rw [List.length_append, List.length_singleton]; omega⟩
  | watched hpc hroom => exact ⟨hview, by rw [List.length_append, List.length_singleton]; omega⟩
  | _ => exact ⟨hview, hpresenter⟩

variable {log : List (App × Step)}

theorem known_of_runs (h : Runs {} log d) : d.Known := by
  have hstart : App.Known {} :=
    ⟨by decide, List.forall_mem_nil _, List.forall_mem_nil _, List.forall_mem_nil _⟩
  refine h.invariant (J := fun _ d => d.Known) hstart ?_
  exact fun _ _ _ _ hknown hstep => hknown.step (App.step_does hstep).2

theorem bounded_of_runs (h : Runs {} log d) : d.Bounded := by
  refine h.invariant (J := fun _ d => d.Bounded) ⟨by decide, by decide⟩ ?_
  exact fun _ _ _ _ hbounded hstep => hbounded.step (App.step_does hstep).2

theorem agreed_of_runs (h : Runs {} log d) : d.Agreed := by
  have hboth : d.Known ∧ d.Agreed := by
    refine h.invariant (J := fun _ d => d.Known ∧ d.Agreed) ⟨known_of_runs .start, ?_⟩ ?_
    · exact ⟨fun _ => rfl, fun hcreate => (hcreate rfl).elim, fun _ file hlast => by cases hlast⟩
    · rintro log d₁ s d₂ ⟨hknown, hagreed⟩ hstep
      have hdoes := (App.step_does hstep).2
      exact ⟨hknown.step hdoes, hagreed.step hknown hdoes⟩
  exact hboth.2

theorem fits_of_runs (h : Runs {} log d) : d.view.Fits := by
  refine h.invariant (J := fun _ d => d.view.Fits) (fun state hstate => by cases hstate) ?_
  exact fun _ _ _ _ hfits hstep => hfits.step (App.step_does hstep).2

/-- **The window.** In every run, the last state on the way to the window is the
one that the presenter has found, and the last file the one that it reports,
which is one of the five of the menu. What can be clicked fits the title. Both
channels hold ten events at most. -/
theorem window_agrees (h : Runs {} log d) :
    (d.presenter.pc ≠ .create → d.presenter.pc ≠ .ended → d.view.pc ≠ .gone →
      d.states.getLast? = some d.presenter.serviceState)
    ∧ (d.view.pc ≠ .gone → ∀ file, d.selections.getLast? = some file → file = d.presenter.file)
    ∧ d.presenter.file ∈ files
    ∧ (∀ state, d.view.title = some state → d.view.start = decide (state = .stopped)
      ∧ d.view.stop = decide (state = .started) ∧ d.view.restart = decide (state = .started)
      ∧ d.view.blink = decide (state ≠ .started))
    ∧ d.toView.length ≤ buffer ∧ d.toPresenter.length ≤ buffer :=
  ⟨(agreed_of_runs h).state, (agreed_of_runs h).file, (known_of_runs h).file, fits_of_runs h,
    bounded_of_runs h⟩

end agreed

/-! Another log is chosen, the servers have been found running, and the window
has taken it in. -/

def glance : List Step :=
  [.create true, .presenterSend, .click (.viewAction "hbbr.out"), .viewSend, .take, .presenterSend,
    .take, .check true .started, .presenterSend, .iterated 1, .viewTake, .viewTake, .viewTake]

def glanced : App := (App.play {} glance).getD {}

theorem window_agrees_glanced : ∃ log, Runs {} log glanced
    ∧ glanced.view.title = some glanced.presenter.serviceState
    ∧ glanced.view.selected = some glanced.presenter.file
    ∧ glanced.view.stop = true ∧ glanced.view.start = false := by
  have hplay : App.play {} glance = some glanced := by decide +kernel
  obtain ⟨log, hrun⟩ := App.play_runs .start hplay
  obtain ⟨hstate, hfile, -, hfits, -⟩ := window_agrees hrun
  have htitle : glanced.view.title = some .started := by decide +kernel
  have hselected : glanced.view.selected = some "hbbr.out" := by decide +kernel
  have hstates : glanced.states = [.started] := by decide +kernel
  have hselections : glanced.selections = ["hbbr.out"] := by decide +kernel
  specialize hstate (by decide +kernel) (by decide +kernel) (by decide +kernel)
  rw [hstates] at hstate
  specialize hfile (by decide +kernel) "hbbr.out" (by rw [hselections]; rfl)
  obtain ⟨hstart, hstop, -⟩ := hfits .started htitle
  exact ⟨log, hrun, htitle.trans hstate, hfile ▸ hselected, hstop, hstart⟩

/-! ## What the service is asked for -/

/-- What is clicked. -/
def Step.clicked : Step → Option Event
  | .click ev => some ev
  | _ => none

/-- What the presenter takes from its channel. -/
def App.takes (d : App) : Step → Option Event
  | .take =>
    match d.presenter.pc with
    | .turn (_ + 1) => d.toPresenter.head?
    | _ => none
  | _ => none

/-- The call that an event from a menu or the tray asks for. -/
def Event.menuCall (ev : Event) : Option ServiceCall :=
  match ev with
  | .viewAction _ => ev.call
  | _ => none

/-- The calls that are asked for by clicks, in order. -/
def asked (log : List (App × Step)) : List ServiceCall :=
  log.filterMap fun y => y.2.clicked.bind Event.call

/-- The calls that are made, in order. -/
def made (log : List (App × Step)) : List ServiceCall :=
  log.filterMap fun y => (y.1.takes y.2).bind Event.call

/-- Those of them that were clicked. -/
def menuMade (log : List (App × Step)) : List ServiceCall :=
  log.filterMap fun y => (y.1.takes y.2).bind Event.menuCall

/-- How often the page has asked for a restart. -/
def pageAsked (log : List (App × Step)) : Nat :=
  log.countP fun y => y.2 = .pageCalls .restart

/-- How often one was made for it. -/
def pageMade (log : List (App × Step)) : Nat :=
  log.countP fun y => y.1.takes y.2 = some PageCall.restart.event

theorem filterMap_concat {β γ : Type} (f : β → Option γ) (l : List β) (b : β) :
    (l ++ [b]).filterMap f = l.filterMap f ++ (f b).toList := by
  rw [List.filterMap_append, filterMap_cons_toList, List.filterMap_nil, List.append_nil]

/-- The calls that were clicked and are on their way. -/
def App.pending (d : App) : List ServiceCall :=
  (d.toPresenter ++ d.view.inHand).filterMap Event.menuCall

/-- The restarts of the page that are on their way. -/
def App.pageWaiting (d : App) : Nat :=
  d.toPresenter.count PageCall.restart.event + d.page.count .restart

theorem clicks_menuCall : ∀ ev ∈ clicks, ev.menuCall = ev.call := by decide

section requests
variable {d d' : App} {s : Step} {log : List (App × Step)}

theorem App.takes_empty {left : Nat} (h : left = 0 ∨ d.toPresenter = [])
    (hpc : d.presenter.pc = .turn left) : d.takes .take = none := by
  rcases h with rfl | hempty
  · simp [App.takes, hpc]
  · unfold App.takes
    rw [hempty]
    dsimp only
    split <;> rfl

/-- One step loses no call that was clicked and makes none up. -/
theorem App.Does.pending (h : d.Does s d') (hlive : d'.presenter.pc ≠ .ended) :
    d.presenter.pc ≠ .ended ∧ d.pending ++ (s.clicked.bind Event.call).toList
      = ((d.takes s).bind Event.menuCall).toList ++ d'.pending := by
  cases h with
  | created hpc => exact ⟨by simp [hpc], by simp [App.pending, App.takes, Step.clicked]⟩
  | noService hpc => exact (hlive rfl).elim
  | @taken left ev rest hpc hqueue =>
      refine ⟨by simp [hpc], ?_⟩
      have htakes : d.takes .take = some ev := by simp [App.takes, hpc, hqueue]
      rw [htakes]
      simp [App.pending, Step.clicked, hqueue, filterMap_cons_toList]
  | turnOver hpc h =>
      refine ⟨by simp [hpc], ?_⟩
      rw [App.takes_empty h hpc]
      simp [App.pending, Step.clicked]
  | changed hpc _ => exact ⟨by simp [hpc], by simp [App.pending, App.takes, Step.clicked]⟩
  | unchanged hpc => exact ⟨by simp [hpc], by simp [App.pending, App.takes, Step.clicked]⟩
  | shown hpc _ => exact ⟨by simp [hpc], by simp [App.pending, App.takes, Step.clicked]⟩
  | unseen hpc _ => exact ⟨by simp [hpc], by simp [App.pending, App.takes, Step.clicked]⟩
  | viewTaken hpc _ =>
      refine ⟨hlive, ?_⟩
      have hnone : d.view.inHand = [] := by rw [View.inHand, hpc]
      simp [App.pending, App.takes, Step.clicked, View.handle_inHand, hnone]
  | viewTurnOver hpc _ =>
      exact ⟨hlive, by simp [App.pending, App.takes, Step.clicked, View.inHand, hpc]⟩
  | rested due hpc =>
      refine ⟨hlive, ?_⟩
      cases due <;> simp [App.pending, App.takes, Step.clicked, View.inHand, hpc]
  | @clicked ev hpc hev =>
      refine ⟨hlive, ?_⟩
      have hcall := clicks_menuCall ev hev
      simp [App.pending, App.takes, Step.clicked, View.inHand, hpc, filterMap_cons_toList, hcall]
  | iterated windows hpc =>
      refine ⟨hlive, ?_⟩
      cases windows <;> simp [App.pending, App.takes, Step.clicked, View.inHand, hpc]
  | told hpc _ =>
      refine ⟨hlive, ?_⟩
      simp [App.pending, App.takes, Step.clicked, View.inHand, hpc]
  | unheard hpc hended => exact (hlive hended).elim
  | called call => exact ⟨hlive, by simp [App.pending, App.takes, Step.clicked]⟩
  | @heard call _ _ =>
      refine ⟨hlive, ?_⟩
      have hnone : call.event.menuCall = none := by cases call <;> rfl
      simp [App.pending, App.takes, Step.clicked, hnone]
  | ignored hended => exact (hlive hended).elim
  | fileChanged hpc => exact ⟨hlive, by simp [App.pending, App.takes, Step.clicked]⟩
  | watched hpc _ =>
      refine ⟨hlive, ?_⟩
      simp [App.pending, App.takes, Step.clicked, filterMap_cons_toList, Event.menuCall]
  | unwatched hpc hended => exact (hlive hended).elim

theorem asked_eq (h : Runs {} log d) (hlive : d.presenter.pc ≠ .ended) :
    asked log = menuMade log ++ d.pending := by
  have hinvariant : d.presenter.pc ≠ .ended → asked log = menuMade log ++ d.pending := by
    refine h.invariant (J := fun log d => d.presenter.pc ≠ .ended →
      asked log = menuMade log ++ d.pending) (fun _ => rfl) ?_
    intro log d₁ s d₂ ih hstep hlive
    obtain ⟨hbefore, hpending⟩ := (App.step_does hstep).2.pending hlive
    have hold := ih hbefore
    unfold asked menuMade at hold ⊢
    rw [filterMap_concat, filterMap_concat, hold, List.append_assoc, List.append_assoc, hpending]
  exact hinvariant hlive

theorem clicks_page : ∀ ev ∈ clicks, ev ≠ PageCall.restart.event := by decide

/-- Nor does it lose a restart of the page. -/
theorem App.Does.pageWaiting (h : d.Does s d') (hknown : d.Known)
    (hlive : d'.presenter.pc ≠ .ended) :
    d.pageWaiting + (if s = .pageCalls .restart then 1 else 0)
      = (if d.takes s = some PageCall.restart.event then 1 else 0) + d'.pageWaiting := by
  cases h with
  | noService hpc => exact (hlive rfl).elim
  | @taken left ev rest hpc hqueue =>
      have htakes : d.takes .take = some ev := by simp [App.takes, hpc, hqueue]
      rw [htakes]
      by_cases hev : ev = PageCall.restart.event
      · simp [App.pageWaiting, hqueue, hev]
        omega
      · simp [App.pageWaiting, hqueue, hev]
  | turnOver hpc h =>
      rw [App.takes_empty h hpc]
      simp [App.pageWaiting]
  | @told ev hpc _ =>
      have hev : ev ≠ PageCall.restart.event :=
        clicks_page ev (hknown.clicked ev (by rw [View.inHand_sending hpc]; simp))
      simp [App.pageWaiting, App.takes, hev]
  | unheard hpc hended => exact (hlive hended).elim
  | called call =>
      cases call with
      | init => simp [App.pageWaiting, App.takes]
      | restart =>
          simp [App.pageWaiting, App.takes]
          omega
  | @heard call hwaits _ =>
      cases call with
      | init => simp [App.pageWaiting, App.takes, PageCall.event]
      | restart =>
          have hpos : 0 < d.page.count .restart := List.count_pos_iff.mpr hwaits
          simp [App.pageWaiting, App.takes]
          omega
  | ignored hended => exact (hlive hended).elim
  | watched hpc _ => simp [App.pageWaiting, App.takes, PageCall.event]
  | unwatched hpc hended => exact (hlive hended).elim
  | _ => simp [App.pageWaiting, App.takes]

theorem pageAsked_eq (h : Runs {} log d) (hlive : d.presenter.pc ≠ .ended) :
    pageAsked log = pageMade log + d.pageWaiting := by
  have hinvariant : d.Known ∧ (d.presenter.pc ≠ .ended →
      pageAsked log = pageMade log + d.pageWaiting) := by
    refine h.invariant (J := fun log d => d.Known ∧ (d.presenter.pc ≠ .ended →
      pageAsked log = pageMade log + d.pageWaiting)) ⟨known_of_runs .start, fun _ => rfl⟩ ?_
    rintro log d₁ s d₂ ⟨hknown, ih⟩ hstep
    have hdoes := (App.step_does hstep).2
    refine ⟨hknown.step hdoes, fun hlive => ?_⟩
    have hold := ih (hdoes.pending hlive).1
    have hnew := hdoes.pageWaiting hknown hlive
    unfold pageAsked pageMade at hold ⊢
    rw [List.countP_append, List.countP_append, List.countP_singleton, List.countP_singleton]
    simp only [decide_eq_true_eq]
    omega
  exact hinvariant.2 hlive

/-- Nothing is taken before there is a service, or without one. -/
theorem App.Does.idle (h : d.Does s d')
    (hpc : d'.presenter.pc = .create ∨ d'.presenter.pc = .ended) :
    (d.presenter.pc = .create ∨ d.presenter.pc = .ended) ∧ d.takes s = none := by
  cases h with
  | noService hcreate => exact ⟨.inl hcreate, rfl⟩
  | @taken left ev rest =>
      exfalso
      rcases hpc with hcreate | hended
      · exact Presenter.handle_pc hcreate
      · exact Presenter.handle_ended hended
  | created => simp at hpc
  | turnOver => simp at hpc
  | changed => simp at hpc
  | unchanged => simp at hpc
  | shown => simp at hpc
  | unseen => simp at hpc
  | _ => exact ⟨hpc, rfl⟩

theorem made_idle (h : Runs {} log d)
    (hpc : d.presenter.pc = .create ∨ d.presenter.pc = .ended) : made log = [] := by
  have hinvariant : d.presenter.pc = .create ∨ d.presenter.pc = .ended → made log = [] := by
    refine h.invariant (J := fun log d =>
      d.presenter.pc = .create ∨ d.presenter.pc = .ended → made log = []) (fun _ => rfl) ?_
    intro log d₁ s d₂ ih hstep hpc
    obtain ⟨hbefore, htakes⟩ := (App.step_does hstep).2.idle hpc
    have hold := ih hbefore
    unfold made at hold ⊢
    rw [filterMap_concat, hold, htakes]
    rfl
  exact hinvariant hpc

/-- No item of the menu asks to pause. -/
theorem asked_pause (h : Runs {} log d) : .pause ∉ asked log := by
  refine h.invariant (J := fun log _ => .pause ∉ asked log) List.not_mem_nil ?_
  intro log d₁ s d₂ ih hstep
  unfold asked at ih ⊢
  rw [filterMap_concat, List.mem_append, Option.mem_toList]
  have hclicks : ∀ ev ∈ clicks, ev.call ≠ some .pause := by decide
  rintro (hold | hnew)
  · exact ih hold
  · cases (App.step_does hstep).2 with
    | clicked _ hev => exact hclicks _ hev hnew
    | _ => cases hnew

/-- Only the menus know the pause. -/
theorem Event.menuCall_pause {ev : Event} (h : ev.call = some .pause) :
    ev.menuCall = some .pause := by
  cases ev with
  | viewAction action => exact h
  | browserAction action =>
      unfold Event.call at h
      dsimp only at h
      split at h <;> cases h
  | _ => cases h

theorem made_pause (h : .pause ∈ made log) : .pause ∈ menuMade log := by
  obtain ⟨y, hy, hcall⟩ := List.mem_filterMap.mp h
  obtain ⟨ev, hev, hpause⟩ := Option.bind_eq_some_iff.mp hcall
  refine List.mem_filterMap.mpr ⟨y, hy, ?_⟩
  rw [hev]
  exact Event.menuCall_pause hpause

end requests

/-! Clicks and a restart of the page, and a presenter that has taken one
event. -/

def restartClicked : List Step :=
  [.create true, .click (.viewAction "restart"), .viewSend, .pageCalls .restart, .presenterSend,
    .take, .click (.viewAction "stop"), .pageSend .restart]

def restarted : App := (App.play {} restartClicked).getD {}

/-- The presenter waits for room in the channel to the view, and the view for
room in the channel to the presenter. -/
structure App.Hung (d : App) : Prop where
  presenter : ∃ ev left, d.presenter.pc = .sending ev left
  view : ∃ ev, d.view.pc = .sending ev
  toView : d.toView.length = buffer
  toPresenter : d.toPresenter.length = buffer

section hang
variable {d d' : App} {s : Step} {log : List (App × Step)}

/-- The presenter can do nothing. -/
theorem presenter_stuck (hlive : d.presenter.pc ≠ .ended) (hexited : d.view.pc ≠ .exited)
    (h : ∀ s, s.party = .presenter → d.step s = none) :
    (∃ ev left, d.presenter.pc = .sending ev left) ∧ d.view.pc ≠ .gone
      ∧ buffer ≤ d.toView.length := by
  have hstep : ∀ s, s.party = .presenter → d.presenterStep s = none := by
    intro s hs
    have hnone := h s hs
    unfold App.step at hnone
    rwa [if_neg hexited, hs] at hnone
  cases hpc : d.presenter.pc with
  | create =>
      have hnone := hstep (.create true) rfl
      simp [App.presenterStep, hpc] at hnone
  | turn left =>
      have hnone := hstep .take rfl
      cases left with
      | zero => simp [App.presenterStep, hpc] at hnone
      | succ left => cases hqueue : d.toPresenter <;> simp [App.presenterStep, hpc, hqueue] at hnone
  | rest =>
      have hnone := hstep (.check false .unknown) rfl
      simp [App.presenterStep, hpc] at hnone
  | ended => exact (hlive hpc).elim
  | sending ev left =>
      have hnone := hstep .presenterSend rfl
      simp only [App.presenterStep, hpc, Option.map_eq_none_iff] at hnone
      unfold App.show at hnone
      split at hnone
      · cases hnone
      · rename_i hgone
        split at hnone
        · cases hnone
        · rename_i hfull
          exact ⟨⟨ev, left, rfl⟩, hgone, Nat.le_of_not_lt hfull⟩

/-- The view can do nothing. -/
theorem view_stuck (hgone : d.view.pc ≠ .gone) (hexited : d.view.pc ≠ .exited)
    (h : ∀ s, s.party = .view → d.step s = none) :
    (∃ ev, d.view.pc = .sending ev) ∧ buffer ≤ d.toPresenter.length := by
  have hstep : ∀ s, s.party = .view → d.viewStep s = none := by
    intro s hs
    have hnone := h s hs
    unfold App.step at hnone
    rwa [if_neg hexited, hs] at hnone
  cases hpc : d.view.pc with
  | turn left =>
      have hnone := hstep .viewTake rfl
      cases left with
      | zero => simp [App.viewStep, hpc] at hnone
      | succ left => cases hqueue : d.toView <;> simp [App.viewStep, hpc, hqueue] at hnone
  | rest =>
      have hnone := hstep (.viewRest true) rfl
      simp [App.viewStep, hpc] at hnone
  | iteration =>
      have hnone := hstep (.iterated 0) rfl
      simp [App.viewStep, hpc] at hnone
  | gone => exact (hgone hpc).elim
  | exited => exact (hexited hpc).elim
  | sending ev =>
      have hnone := hstep .viewSend rfl
      simp only [App.viewStep, hpc, Option.map_eq_none_iff] at hnone
      unfold App.tell at hnone
      split at hnone
      · cases hnone
      · split at hnone
        · cases hnone
        · rename_i hfull
          exact ⟨⟨ev, rfl⟩, Nat.le_of_not_lt hfull⟩

/-- Only the page and the watcher move in a hung state, and what they have to
say does not fit in either. -/
theorem App.Hung.step (h : d.Hung) (hstep : d.Does s d') :
    (s.party = .page ∨ s.party = .watcher)
      ∧ d' = { d with page := d'.page, watcher := d'.watcher } := by
  obtain ⟨⟨ev, left, hpresenter⟩, ⟨ev', hview⟩, htoView, htoPresenter⟩ := h
  cases hstep with
  | called call => exact ⟨.inl rfl, rfl⟩
  | heard _ hroom => omega
  | ignored hended => simp [hpresenter] at hended
  | fileChanged hpc => exact ⟨.inr rfl, rfl⟩
  | watched hpc hroom => omega
  | unwatched hpc hended => simp [hpresenter] at hended
  | shown _ hroom => omega
  | told _ hroom => omega
  | unseen _ hgone => simp [hview] at hgone
  | unheard _ hended => simp [hpresenter] at hended
  | _ => simp_all

/-- Nothing is taken out of the channels any more. -/
theorem App.Hung.runs (h : d.Hung) (hrun : Runs d log d') :
    d' = { d with page := d'.page, watcher := d'.watcher } ∧ made log = [] := by
  refine hrun.invariant (J := fun log d' =>
    d' = { d with page := d'.page, watcher := d'.watcher } ∧ made log = []) ⟨rfl, rfl⟩ ?_
  rintro log d₁ s d₂ ⟨hsame, hmade⟩ hstep
  have hhung : d₁.Hung := by
    rw [hsame]
    exact ⟨h.presenter, h.view, h.toView, h.toPresenter⟩
  have hdoes := (App.step_does hstep).2
  obtain ⟨hparty, hlast⟩ := hhung.step hdoes
  have htakes : d₁.takes s = none := by
    cases s with
    | take => simp [Step.party] at hparty
    | _ => rfl
  refine ⟨?_, ?_⟩
  · rw [hlast, hsame]
  · unfold made at hmade ⊢
    rw [filterMap_concat, hmade, htakes]
    rfl

/-- **The hang.** While the window is open and there is a service, the presenter
and the view can both do nothing exactly if each of them is about to send, the
view in a callback of the menu, the tray or `setup`, and both channels are full.
From then on they never do anything again, whatever the page and the watcher
do: no channel loses an event, and no call is made. -/
theorem hang_iff (h : Runs {} log d) (hlive : d.presenter.pc ≠ .ended)
    (hgone : d.view.pc ≠ .gone) (hexited : d.view.pc ≠ .exited) :
    ((∀ s, s.party = .presenter ∨ s.party = .view → d.step s = none) ↔ d.Hung)
    ∧ (d.Hung → ∀ log' d', Runs d log' d' →
      d' = { d with page := d'.page, watcher := d'.watcher } ∧ made log' = []) := by
  refine ⟨⟨fun hstuck => ?_, fun hhung s hs => ?_⟩, fun hhung log' d' hrun => hhung.runs hrun⟩
  · obtain ⟨hview, hpresenter⟩ := bounded_of_runs h
    obtain ⟨hsending, -, hfull⟩ :=
      presenter_stuck hlive hexited fun s hs => hstuck s (.inl hs)
    obtain ⟨hclicked, hfull'⟩ := view_stuck hgone hexited fun s hs => hstuck s (.inr hs)
    exact ⟨hsending, hclicked, Nat.le_antisymm hview hfull, Nat.le_antisymm hpresenter hfull'⟩
  · cases hstep : d.step s with
    | none => rfl
    | some d' =>
        have hparty := (hhung.step (App.step_does hstep).2).1
        rcases hs with hs | hs <;> simp [hs] at hparty

end hang

/-! Log lines that come faster than the view takes them, and a click. -/

section flood

def logLine : List Step := [.fileChanged "hbbs.out", .watcherSend]

def flood : List Step :=
  [.create true, .presenterSend]
    ++ (List.replicate 9 (logLine ++ [.take, .presenterSend])).flatten
    ++ [.take, .check false .unknown] ++ logLine ++ [.take]
    ++ (List.replicate 10 logLine).flatten ++ [.click (.viewAction "start")]

def flooded : App := (App.play {} flood).getD {}

theorem flooded_runs : ∃ log, Runs {} log flooded := by
  have hplay : App.play {} flood = some flooded := by decide +kernel
  exact App.play_runs .start hplay

/-- The servers are not started. -/
theorem hang_iff_flooded : ∃ log, Runs {} log flooded
    ∧ flooded.pending = [.start]
    ∧ (∀ s, s.party = .presenter ∨ s.party = .view → flooded.step s = none)
    ∧ ∀ log' d', Runs flooded log' d' →
      d' = { flooded with page := d'.page, watcher := d'.watcher } ∧ made log' = [] := by
  have hhung : flooded.Hung := by
    refine ⟨⟨.browserUpdate "file" "hbbs.out", 8, ?_⟩, ⟨.viewAction "start", ?_⟩, ?_, ?_⟩
    · decide +kernel
    · decide +kernel
    · decide +kernel
    · decide +kernel
  obtain ⟨log, hrun⟩ := flooded_runs
  obtain ⟨hiff, hforever⟩ := hang_iff hrun (by decide +kernel) (by decide +kernel)
    (by decide +kernel)
  exact ⟨log, hrun, by decide +kernel, hiff.mpr hhung, hforever hhung⟩

end flood

end KustDesk.Desktop
