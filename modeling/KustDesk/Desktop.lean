import KustDesk.Async.Log
import Mathlib.Logic.Basic

/-!
# KustDesk — Desktop

The desktop application that starts and stops the two servers: a presenter
that talks to the service, a view with the window and its menus, the page in
the window, and a watcher of the log files. They talk to each other over two
channels that hold ten events each, and `send` waits while a channel is full.

The callbacks of the menus and of the tray run inside `run_iteration`, so one
that waits holds up the view. Those of the page need not: each waits by itself.
-/

namespace KustDesk.Desktop

open Async

/-! ## Events -/

inductive DesktopServiceState where
  | paused
  | started
  | stopped
  | unknown
  deriving DecidableEq

inductive Event where
  | browserAction (action : String)
  | browserInit
  | browserUpdate (action data : String)
  | browserRender (data : String)
  | fileChange (path : String)
  | viewAction (action : String)
  | viewInit
  | viewUpdate (data : String)
  | viewRender (data : String)
  | viewRenderAppExit
  | viewRenderServiceState (state : DesktopServiceState)
  deriving DecidableEq

/-- `IDesktopService`, without `check`. -/
inductive ServiceCall where
  | start
  | stop
  | restart
  | pause
  deriving DecidableEq

/-- `BUFFER` -/
def buffer : Nat := 10

/-! ## The presenter -/

/-- Where the presenter is: how many events it still takes in this turn, and
what it is about to send. -/
inductive PresenterPc where
  | create
  | turn (left : Nat)
  | sending (ev : Event) (left : Nat)
  | rest
  /-- There is no service on this system. -/
  | ended
  deriving DecidableEq

structure Presenter where
  pc : PresenterPc := .create
  serviceState : DesktopServiceState := .unknown
  file : String := "hbbs.out"
  deriving DecidableEq

/-- The call of the service that an event asks for. -/
def Event.call : Event → Option ServiceCall
  | .browserAction action => if action = "restart" then some .restart else none
  | .viewAction action =>
    if action = "start" then some .start
    else if action = "stop" then some .stop
    else if action = "restart" then some .restart
    else if action = "pause" then some .pause
    else none
  | _ => none

/-- The file that an event chooses: any action that is not another one. -/
def Event.chosen (ev : Event) : Option String :=
  match ev with
  | .viewAction action => if ev.call.isNone ∧ action ≠ "exit" then some action else none
  | _ => none

/-- What the presenter sends when it has been told to. -/
def Presenter.reply (p : Presenter) (ev : Event) : Option Event :=
  match ev with
  | .browserInit => some (.browserUpdate "file" p.file)
  | .fileChange path => if path = p.file then some (.browserUpdate "file" p.file) else none
  | .viewAction action =>
    if action = "exit" then some .viewRenderAppExit
    else ev.chosen.map (.browserUpdate "file")
  | _ => none

/-- The presenter takes an event, with `left` more to take in this turn. -/
def Presenter.handle (p : Presenter) (left : Nat) (ev : Event) : Presenter where
  serviceState := p.serviceState
  file := ev.chosen.getD p.file
  pc :=
    match p.reply ev with
    | some reply => .sending reply left
    | none => .turn left

/-! ## The view -/

inductive ViewPc where
  | turn (left : Nat)
  | rest
  /-- `app.run_iteration()` -/
  | iteration
  | sending (ev : Event)
  /-- The loop is over: the last window is gone. -/
  | gone
  /-- `exit(0)` -/
  | exited
  deriving DecidableEq

/-- The window and the menus. -/
structure View where
  pc : ViewPc := .iteration
  title : Option DesktopServiceState := none
  start : Bool := true
  stop : Bool := true
  restart : Bool := true
  blink : Bool := false
  selected : Option String := none
  /-- `app.emit_all("__update__", ..)` -/
  emitted : List String := []
  deriving DecidableEq

def files : List String := ["hbbs.out", "hbbs.err", "hbbr.out", "hbbr.err", ".env"]

/-- `Event::ViewRenderServiceState` -/
def View.render (v : View) (state : DesktopServiceState) : View :=
  { v with
    title := some state
    start := state = .stopped
    stop := state = .started
    restart := state = .started
    blink := state ≠ .started }

/-- The view takes an event, with `left` more to take in this turn. -/
def View.handle (v : View) (left : Nat) (ev : Event) : View :=
  match ev with
  | .browserUpdate action data =>
    if action = "file" ∧ data ∈ files then
      { v with pc := .turn left, selected := some data, emitted := v.emitted ++ [data] }
    else { v with pc := .turn left }
  | .viewRenderAppExit => { v with pc := .exited }
  | .viewRenderServiceState state => { v.render state with pc := .turn left }
  | _ => { v with pc := .turn left }

/-- The items of the menu and of the tray. -/
def items : List String := ["restart", "start", "stop", "exit"] ++ files

/-- What `setup` sends, and a click in the menu or the tray. -/
def clicks : List Event := .viewInit :: items.map .viewAction

/-! ## The page -/

/-- What the page asks for in an `__action__`. -/
inductive PageCall where
  | init
  | restart
  deriving DecidableEq

def PageCall.event : PageCall → Event
  | .init => .browserInit
  | .restart => .browserAction "restart"

/-! ## The application -/

inductive Watcher where
  | watching
  | sending (path : String)
  deriving DecidableEq

structure App where
  presenter : Presenter := {}
  view : View := {}
  watcher : Watcher := .watching
  /-- The callbacks of the page that have not sent yet. -/
  page : List PageCall := []
  toView : List Event := []
  toPresenter : List Event := []
  deriving DecidableEq

inductive Step where
  /-- `service::create()` -/
  | create (found : Bool)
  /-- The presenter's `recv_timeout`. -/
  | take
  /-- The presenter has slept, and checks the service if a second is over. -/
  | check (elapsed : Bool) (state : DesktopServiceState)
  | presenterSend
  /-- The view's `recv_timeout`. -/
  | viewTake
  /-- Whether it is time for another iteration. -/
  | viewRest (due : Bool)
  | click (ev : Event)
  | iterated (windows : Nat)
  | viewSend
  | pageCalls (call : PageCall)
  /-- One of the callbacks that wait. -/
  | pageSend (call : PageCall)
  | fileChanged (path : String)
  | watcherSend
  deriving DecidableEq

/-- `send` to the presenter, which waits while the channel is full. Without a
receiver the event is dropped. -/
def App.tell (d : App) (ev : Event) : Option App :=
  if d.presenter.pc = .ended then some d
  else if d.toPresenter.length < buffer then some { d with toPresenter := d.toPresenter ++ [ev] }
  else none

/-- `send` to the view. -/
def App.show (d : App) (ev : Event) : Option App :=
  if d.view.pc = .gone then some d
  else if d.toView.length < buffer then some { d with toView := d.toView ++ [ev] }
  else none

/-- The presenter's part of a step. -/
def App.presenterStep (d : App) : Step → Option App
  | .create found =>
    match d.presenter.pc with
    | .create =>
      let pc := if found then .sending (.viewRenderServiceState .unknown) (buffer - 1) else .ended
      some { d with presenter := { d.presenter with pc } }
    | _ => none
  | .take =>
    match d.presenter.pc, d.toPresenter with
    | .turn (left + 1), ev :: rest =>
      some { d with presenter := d.presenter.handle left ev, toPresenter := rest }
    | .turn _, _ => some { d with presenter := { d.presenter with pc := .rest } }
    | _, _ => none
  | .check elapsed state =>
    match d.presenter.pc with
    | .rest =>
      if elapsed && state ≠ d.presenter.serviceState then
        some { d with presenter := { d.presenter with
          pc := .sending (.viewRenderServiceState state) (buffer - 1), serviceState := state } }
      else some { d with presenter := { d.presenter with pc := .turn (buffer - 1) } }
    | _ => none
  | .presenterSend =>
    match d.presenter.pc with
    | .sending ev left =>
      (d.show ev).map fun d => { d with presenter := { d.presenter with pc := .turn left } }
    | _ => none
  | _ => none

/-- The view's part of a step. -/
def App.viewStep (d : App) : Step → Option App
  | .viewTake =>
    match d.view.pc, d.toView with
    | .turn (left + 1), ev :: rest => some { d with view := d.view.handle left ev, toView := rest }
    | .turn _, _ => some { d with view := { d.view with pc := .rest } }
    | _, _ => none
  | .viewRest due =>
    match d.view.pc with
    | .rest =>
      some { d with view := { d.view with pc := if due then .iteration else .turn (buffer - 1) } }
    | _ => none
  | .click ev =>
    match d.view.pc with
    | .iteration =>
      if ev ∈ clicks then some { d with view := { d.view with pc := .sending ev } } else none
    | _ => none
  | .iterated windows =>
    match d.view.pc with
    | .iteration =>
      some { d with view :=
        { d.view with pc := if windows = 0 then .gone else .turn (buffer - 1) } }
    | _ => none
  | .viewSend =>
    match d.view.pc with
    | .sending ev => (d.tell ev).map fun d => { d with view := { d.view with pc := .iteration } }
    | _ => none
  | _ => none

/-- The page's part of a step. -/
def App.pageStep (d : App) : Step → Option App
  | .pageCalls call => some { d with page := d.page ++ [call] }
  | .pageSend call =>
    if call ∈ d.page then
      (d.tell call.event).map fun d => { d with page := d.page.erase call }
    else none
  | _ => none

/-- The watcher's part of a step. -/
def App.watcherStep (d : App) : Step → Option App
  | .fileChanged path =>
    match d.watcher with
    | .watching => if path ≠ "" then some { d with watcher := .sending path } else none
    | _ => none
  | .watcherSend =>
    match d.watcher with
    | .sending path => (d.tell (.fileChange path)).map fun d => { d with watcher := .watching }
    | _ => none
  | _ => none

/-- Who takes the step. -/
inductive Party where
  | presenter
  | view
  | page
  | watcher
  deriving DecidableEq

def Step.party : Step → Party
  | .create _ | .take | .check .. | .presenterSend => .presenter
  | .viewTake | .viewRest _ | .click _ | .iterated _ | .viewSend => .view
  | .pageCalls _ | .pageSend _ => .page
  | .fileChanged _ | .watcherSend => .watcher

/-- One step, `none` where it is not possible, as all of them once the view has
ended the process. -/
def App.step (d : App) (s : Step) : Option App :=
  if d.view.pc = .exited then none
  else
    match s.party with
    | .presenter => d.presenterStep s
    | .view => d.viewStep s
    | .page => d.pageStep s
    | .watcher => d.watcherStep s

/-- The runs of the application. -/
abbrev Runs : App → List (App × Step) → App → Prop := Logged fun d s d' => d.step s = some d'

/-- The steps, one after the other. -/
def App.play (d : App) (steps : List Step) : Option App := steps.foldlM App.step d

theorem App.play_runs {d₀ d d' : App} {log : List (App × Step)} {steps : List Step}
    (hrun : Runs d₀ log d) (h : d.play steps = some d') : ∃ log, Runs d₀ log d' := by
  induction steps generalizing d log with
  | nil =>
      cases h
      exact ⟨log, hrun⟩
  | cons s steps ih =>
      obtain ⟨d₁, hstep, hplay⟩ := Option.bind_eq_some_iff.mp h
      exact ih (hrun.step hstep) hplay

/-! ## What a step does -/

/-- The outcomes of a step, one for each branch of the code. -/
inductive App.Does (d : App) : Step → App → Prop
  | created (hpc : d.presenter.pc = .create) :
      d.Does (.create true) { d with presenter :=
        { d.presenter with pc := .sending (.viewRenderServiceState .unknown) (buffer - 1) } }
  | noService (hpc : d.presenter.pc = .create) :
      d.Does (.create false) { d with presenter := { d.presenter with pc := .ended } }
  | taken {left : Nat} {ev : Event} {rest : List Event} (hpc : d.presenter.pc = .turn (left + 1))
      (hqueue : d.toPresenter = ev :: rest) :
      d.Does .take { d with presenter := d.presenter.handle left ev, toPresenter := rest }
  | turnOver {left : Nat} (hpc : d.presenter.pc = .turn left) (h : left = 0 ∨ d.toPresenter = []) :
      d.Does .take { d with presenter := { d.presenter with pc := .rest } }
  | changed {state : DesktopServiceState} (hpc : d.presenter.pc = .rest)
      (hne : state ≠ d.presenter.serviceState) :
      d.Does (.check true state) { d with presenter := { d.presenter with
        pc := .sending (.viewRenderServiceState state) (buffer - 1), serviceState := state } }
  | unchanged {elapsed : Bool} {state : DesktopServiceState} (hpc : d.presenter.pc = .rest) :
      d.Does (.check elapsed state)
        { d with presenter := { d.presenter with pc := .turn (buffer - 1) } }
  | shown {ev : Event} {left : Nat} (hpc : d.presenter.pc = .sending ev left)
      (hroom : d.toView.length < buffer) :
      d.Does .presenterSend { d with
        toView := d.toView ++ [ev], presenter := { d.presenter with pc := .turn left } }
  | unseen {ev : Event} {left : Nat} (hpc : d.presenter.pc = .sending ev left)
      (hgone : d.view.pc = .gone) :
      d.Does .presenterSend { d with presenter := { d.presenter with pc := .turn left } }
  | viewTaken {left : Nat} {ev : Event} {rest : List Event} (hpc : d.view.pc = .turn (left + 1))
      (hqueue : d.toView = ev :: rest) :
      d.Does .viewTake { d with view := d.view.handle left ev, toView := rest }
  | viewTurnOver {left : Nat} (hpc : d.view.pc = .turn left) (h : left = 0 ∨ d.toView = []) :
      d.Does .viewTake { d with view := { d.view with pc := .rest } }
  | rested (due : Bool) (hpc : d.view.pc = .rest) :
      d.Does (.viewRest due)
        { d with view := { d.view with pc := if due then .iteration else .turn (buffer - 1) } }
  | clicked {ev : Event} (hpc : d.view.pc = .iteration) (hev : ev ∈ clicks) :
      d.Does (.click ev) { d with view := { d.view with pc := .sending ev } }
  | iterated (windows : Nat) (hpc : d.view.pc = .iteration) :
      d.Does (.iterated windows) { d with view :=
        { d.view with pc := if windows = 0 then .gone else .turn (buffer - 1) } }
  | told {ev : Event} (hpc : d.view.pc = .sending ev) (hroom : d.toPresenter.length < buffer) :
      d.Does .viewSend { d with
        toPresenter := d.toPresenter ++ [ev], view := { d.view with pc := .iteration } }
  | unheard {ev : Event} (hpc : d.view.pc = .sending ev) (hended : d.presenter.pc = .ended) :
      d.Does .viewSend { d with view := { d.view with pc := .iteration } }
  | called (call : PageCall) : d.Does (.pageCalls call) { d with page := d.page ++ [call] }
  | heard {call : PageCall} (hwaits : call ∈ d.page) (hroom : d.toPresenter.length < buffer) :
      d.Does (.pageSend call) { d with
        toPresenter := d.toPresenter ++ [call.event], page := d.page.erase call }
  | ignored {call : PageCall} (hended : d.presenter.pc = .ended) :
      d.Does (.pageSend call) { d with page := d.page.erase call }
  | fileChanged {path : String} (hpc : d.watcher = .watching) :
      d.Does (.fileChanged path) { d with watcher := .sending path }
  | watched {path : String} (hpc : d.watcher = .sending path)
      (hroom : d.toPresenter.length < buffer) :
      d.Does .watcherSend
        { d with toPresenter := d.toPresenter ++ [.fileChange path], watcher := .watching }
  | unwatched {path : String} (hpc : d.watcher = .sending path)
      (hended : d.presenter.pc = .ended) :
      d.Does .watcherSend { d with watcher := .watching }

section step
variable {d d' : App} {s : Step} {ev : Event}

theorem App.tell_eq_some (h : d.tell ev = some d') : (d.presenter.pc = .ended ∧ d' = d)
    ∨ (d.toPresenter.length < buffer ∧ d' = { d with toPresenter := d.toPresenter ++ [ev] }) := by
  unfold App.tell at h
  split at h
  · rename_i hended
    exact .inl ⟨hended, (Option.some.inj h).symm⟩
  · split at h
    · rename_i hroom
      exact .inr ⟨hroom, (Option.some.inj h).symm⟩
    · cases h

theorem App.show_eq_some (h : d.show ev = some d') : (d.view.pc = .gone ∧ d' = d)
    ∨ (d.toView.length < buffer ∧ d' = { d with toView := d.toView ++ [ev] }) := by
  unfold App.show at h
  split at h
  · rename_i hgone
    exact .inl ⟨hgone, (Option.some.inj h).symm⟩
  · split at h
    · rename_i hroom
      exact .inr ⟨hroom, (Option.some.inj h).symm⟩
    · cases h

theorem App.presenterStep_does (h : d.presenterStep s = some d') : d.Does s d' := by
  cases s with
  | create found =>
      unfold App.presenterStep at h
      dsimp only at h
      split at h
      · rename_i hpc
        cases h
        cases found with
        | true => exact .created hpc
        | false => exact .noService hpc
      · cases h
  | take =>
      unfold App.presenterStep at h
      dsimp only at h
      split at h
      · rename_i left ev rest hpc hqueue
        cases h
        exact .taken hpc hqueue
      · rename_i left hpc hno
        cases h
        refine .turnOver hpc ?_
        cases left with
        | zero => exact .inl rfl
        | succ left =>
            cases hqueue : d.toPresenter with
            | nil => exact .inr rfl
            | cons ev rest => exact (hno left ev rest hqueue rfl).elim
      · cases h
  | check elapsed state =>
      unfold App.presenterStep at h
      dsimp only at h
      split at h
      · rename_i hpc
        split at h
        · rename_i hchanged
          rw [Bool.and_eq_true, decide_eq_true_eq] at hchanged
          cases h
          rw [hchanged.1]
          exact .changed hpc hchanged.2
        · cases h
          exact .unchanged hpc
      · cases h
  | presenterSend =>
      unfold App.presenterStep at h
      dsimp only at h
      split at h
      · rename_i ev left hpc
        obtain ⟨d₁, hshow, rfl⟩ := Option.map_eq_some_iff.mp h
        rcases App.show_eq_some hshow with ⟨hgone, rfl⟩ | ⟨hroom, rfl⟩
        · exact .unseen hpc hgone
        · exact .shown hpc hroom
      · cases h
  | _ => cases h

theorem App.viewStep_does (h : d.viewStep s = some d') : d.Does s d' := by
  cases s with
  | viewTake =>
      unfold App.viewStep at h
      dsimp only at h
      split at h
      · rename_i left ev rest hpc hqueue
        cases h
        exact .viewTaken hpc hqueue
      · rename_i left hpc hno
        cases h
        refine .viewTurnOver hpc ?_
        cases left with
        | zero => exact .inl rfl
        | succ left =>
            cases hqueue : d.toView with
            | nil => exact .inr rfl
            | cons ev rest => exact (hno left ev rest hqueue rfl).elim
      · cases h
  | viewRest due =>
      unfold App.viewStep at h
      dsimp only at h
      split at h
      · rename_i hpc
        cases h
        exact .rested due hpc
      · cases h
  | click ev =>
      unfold App.viewStep at h
      dsimp only at h
      split at h
      · rename_i hpc
        split at h
        · rename_i hev
          cases h
          exact .clicked hpc hev
        · cases h
      · cases h
  | iterated windows =>
      unfold App.viewStep at h
      dsimp only at h
      split at h
      · rename_i hpc
        cases h
        exact .iterated windows hpc
      · cases h
  | viewSend =>
      unfold App.viewStep at h
      dsimp only at h
      split at h
      · rename_i ev hpc
        obtain ⟨d₁, htell, rfl⟩ := Option.map_eq_some_iff.mp h
        rcases App.tell_eq_some htell with ⟨hended, rfl⟩ | ⟨hroom, rfl⟩
        · exact .unheard hpc hended
        · exact .told hpc hroom
      · cases h
  | _ => cases h

theorem App.pageStep_does (h : d.pageStep s = some d') : d.Does s d' := by
  cases s with
  | pageCalls call =>
      cases h
      exact .called call
  | pageSend call =>
      unfold App.pageStep at h
      dsimp only at h
      split at h
      · rename_i hwaits
        obtain ⟨d₁, htell, rfl⟩ := Option.map_eq_some_iff.mp h
        rcases App.tell_eq_some htell with ⟨hended, rfl⟩ | ⟨hroom, rfl⟩
        · exact .ignored hended
        · exact .heard hwaits hroom
      · cases h
  | _ => cases h

theorem App.watcherStep_does (h : d.watcherStep s = some d') : d.Does s d' := by
  cases s with
  | fileChanged path =>
      unfold App.watcherStep at h
      dsimp only at h
      split at h
      · rename_i hpc
        split at h
        · cases h
          exact .fileChanged hpc
        · cases h
      · cases h
  | watcherSend =>
      unfold App.watcherStep at h
      dsimp only at h
      split at h
      · rename_i path hpc
        obtain ⟨d₁, htell, rfl⟩ := Option.map_eq_some_iff.mp h
        rcases App.tell_eq_some htell with ⟨hended, rfl⟩ | ⟨hroom, rfl⟩
        · exact .unwatched hpc hended
        · exact .watched hpc hroom
      · cases h
  | _ => cases h

theorem App.step_does (h : d.step s = some d') : d.view.pc ≠ .exited ∧ d.Does s d' := by
  unfold App.step at h
  split at h
  · cases h
  · rename_i hpc
    refine ⟨hpc, ?_⟩
    cases hparty : s.party with
    | presenter =>
        rw [hparty] at h
        exact App.presenterStep_does h
    | view =>
        rw [hparty] at h
        exact App.viewStep_does h
    | page =>
        rw [hparty] at h
        exact App.pageStep_does h
    | watcher =>
        rw [hparty] at h
        exact App.watcherStep_does h

end step

end KustDesk.Desktop
