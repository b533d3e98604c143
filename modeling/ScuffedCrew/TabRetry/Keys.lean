import Mathlib.Algebra.Order.Ring.Nat
import ScuffedCrew.TabRetry.Retries

/-!
# Tab presses between key events and capture reports

A press during a capture is queued behind it and cancels its retries.  The
running capture is named by the number of its task; the tasks hold the flights.
The loop starts the capture of a press before it takes its next press or
report, and reports every task once, or finds at a press that it is gone.
-/

namespace ScuffedCrew.TabRetry

open StateMachine

/-- `TAB_DEBOUNCE_AFTER_ACCEPT`, three seconds. -/
def tabDebounceAfterAccept : ℕ := 3 * 10 ^ 9

inductive TabPressAction
  | start
  | debounced
  | queue
  deriving DecidableEq

def tabPressAction (press : ℕ) (lastAccepted : Option ℕ) (inFlight : Option TabFlightPhase) :
    TabPressAction :=
  if lastAccepted.any fun accepted => decide (press - accepted < tabDebounceAfterAccept) then
    .debounced
  else
    match inFlight with
    | none => .start
    | some _ => .queue

/-- The last taken board's press, and the press to start. -/
def nextPressAfterReport (flight : TabFlight) (queued lastAccepted : Option ℕ)
    (boardTaken : Bool) : Option ℕ × Option ℕ :=
  if boardTaken then (some flight.press, none) else (lastAccepted, queued)

structure TabKeys where
  flight : Option ℕ
  queued : Option ℕ
  lastRelease : Option ℕ
  deriving DecidableEq

/-- How far a task has come: its report is handled, or it has ended without one. -/
inductive TaskStatus
  | running
  | reported
  | gone
  deriving DecidableEq

structure Task (T E : Type) where
  capture : Capture T E
  status : TaskStatus

variable {T E : Type}

namespace Task

def press (task : Task T E) : ℕ := task.capture.flight.press

def withFlight (change : TabFlight → TabFlight) (task : Task T E) : Task T E :=
  { task with capture.flight := change task.capture.flight }

def withStatus (status : TaskStatus) (task : Task T E) : Task T E := { task with status }

end Task

/-- The loop's Tab state, and the press whose capture it is starting. -/
structure Daemon (T E : Type) where
  tabs : TabKeys
  tasks : List (Task T E)
  lastAccepted : Option ℕ
  starting : Option ℕ
  clock : ℕ

namespace Daemon

variable (daemon : Daemon T E)

def initial : Daemon T E := ⟨⟨none, none, none⟩, [], none, none, 0⟩

def changeFlight (index : Option ℕ) (change : TabFlight → TabFlight) : List (Task T E) :=
  index.elim daemon.tasks fun index => daemon.tasks.modify index (Task.withFlight change)

def onRelease (time : ℕ) : Daemon T E :=
  { daemon with
    tabs := { daemon.tabs with lastRelease := some time }
    tasks := daemon.changeFlight daemon.tabs.flight (·.noteRelease time) }

/-- A running capture that is gone no longer holds presses. -/
def forgetGone (captureGone : Bool) : Daemon T E :=
  match daemon.tabs.flight with
  | some index =>
      if captureGone then
        { daemon with
          tabs := { daemon.tabs with flight := none, queued := none }
          tasks := daemon.tasks.modify index (Task.withStatus .gone) }
      else daemon
  | none => daemon

/-- The phase of the running capture. -/
def inFlight : Option TabFlightPhase :=
  daemon.tabs.flight.bind fun index => daemon.tasks[index]?.map (·.capture.flight.phase)

def takePress (press : ℕ) : Daemon T E :=
  match tabPressAction press daemon.lastAccepted daemon.inFlight with
  | .debounced => daemon
  | .queue =>
      { daemon with
        tabs := { daemon.tabs with queued := some press }
        tasks := daemon.changeFlight daemon.tabs.flight (·.cancelRetries) }
  | .start =>
      { daemon with tabs := { daemon.tabs with queued := none }, starting := some press }

def onPress (press : ℕ) (captureGone : Bool) : Daemon T E :=
  (daemon.forgetGone captureGone).takePress press

/-- A capture is started for the press. -/
def started (press : ℕ) (waits : List ℕ) : Daemon T E :=
  let flight := TabFlight.new press
  let flight := daemon.tabs.lastRelease.elim flight flight.noteRelease
  { daemon with
    tabs := { daemon.tabs with flight := some daemon.tasks.length }
    tasks := daemon.tasks ++ [⟨⟨flight, .unpolled waits⟩, .running⟩]
    starting := none }

def onReport (boardTaken : Bool) : Daemon T E :=
  match daemon.tabs.flight.bind fun index => daemon.tasks[index]? with
  | none => { daemon with tabs := { daemon.tabs with flight := none } }
  | some task =>
      let next := nextPressAfterReport task.capture.flight daemon.tabs.queued daemon.lastAccepted
        boardTaken
      { daemon with
        tabs := { daemon.tabs with flight := none, queued := none }
        lastAccepted := next.1
        starting := next.2 }

end Daemon

/-- What the loop takes, what a capture awaits, and a resume that forgets the last board. -/
inductive TabEvent (T E : Type)
  | press (time : ℕ) (captureGone : Bool)
  | release (time : ℕ)
  | started (waits : List ℕ)
  | report (task : ℕ) (boardTaken : Bool)
  | capture (task : ℕ) (event : LoopEvent T E)
  | forgotten

/-- Keys come in the order of their times. -/
def daemon (judge : Judge T) : Machine (Daemon T E) (TabEvent T E) where
  next daemon
    | .press time captureGone =>
        if daemon.clock ≤ time ∧ daemon.starting = none then
          some { daemon.onPress time captureGone with clock := time }
        else none
    | .release time =>
        if daemon.clock ≤ time then some { daemon.onRelease time with clock := time } else none
    | .started waits => daemon.starting.map fun press => daemon.started press waits
    | .report index boardTaken =>
        if daemon.starting = none ∧
            daemon.tasks[index]?.any (fun task => decide (task.status = .running)) then
          some { daemon.onReport boardTaken with
            tasks := daemon.tasks.modify index (Task.withStatus .reported) }
        else none
    | .capture index event =>
        daemon.tasks[index]?.bind fun task =>
          if task.status = .running then
            (Capture.resume judge task.capture.flight task.capture.loop event).map fun capture =>
              { daemon with tasks := daemon.tasks.set index { task with capture } }
          else none
    | .forgotten => some { daemon with lastAccepted := none }

end ScuffedCrew.TabRetry
