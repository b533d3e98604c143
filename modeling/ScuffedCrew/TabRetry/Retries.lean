import ScuffedCrew.StateMachine.Run

/-!
# Retries of a Tab capture

A capture whose frame shows no board tries again after each of a few waits.
Its flight is shared with the loop that reads the keys, which cancels the
retries at a newer press and notes when the key goes up; both may happen at
any await of the capture.  Instants and durations are nanoseconds.
-/

namespace ScuffedCrew.TabRetry

open StateMachine

/-- How one grab ended. -/
inductive TabResult
  | accepted
  | notAScoreboard
  | boardRefused
  | noFrameYet
  | final
  deriving DecidableEq

def TabResult.retries : TabResult → Bool
  | notAScoreboard | boardRefused | noFrameYet => true
  | accepted | final => false

inductive RetryStop
  | newPress
  | released
  deriving DecidableEq

inductive TabFlightPhase
  | grabbing
  | retrying
  | accepted
  | rejected
  deriving DecidableEq

/-- What the loop and a capture share. -/
structure TabFlight where
  press : ℕ
  phase : TabFlightPhase
  cancel : Bool
  releasedAt : Option ℕ
  deriving DecidableEq

namespace TabFlight

variable (flight : TabFlight)

def new (press : ℕ) : TabFlight := ⟨press, .grabbing, false, none⟩

def setPhase (phase : TabFlightPhase) : TabFlight := { flight with phase }

def finish (result : TabResult) : TabFlight :=
  flight.setPhase (if result = .accepted then .accepted else .rejected)

def cancelRetries : TabFlight := { flight with cancel := true }

/-- A release from before the press is ignored, and so is a second one. -/
def noteRelease (time : ℕ) : TabFlight :=
  if time < flight.press then flight
  else if flight.releasedAt.isNone then { flight with releasedAt := some time }
  else flight

def retryStop : Option RetryStop :=
  if flight.cancel then some .newPress
  else if flight.releasedAt.isSome then some .released
  else none

end TabFlight

/-- `with_retries`, by the await it is at. -/
inductive RetryLoop (T E : Type)
  | unpolled (waits : List ℕ)
  | firstAttempt (waits : List ℕ)
  | waiting (wait : ℕ) (best : T) (retries : ℕ) (waits : List ℕ)
  | retrying (best : T) (retries : ℕ) (waits : List ℕ)
  | returned (result : Except E (T × ℕ))

/-- What a capture awaits comes to its end. -/
inductive LoopEvent (T E : Type)
  | polled
  | attempted (outcome : Except E T)
  | slept
  | woken

inductive RetryEvent (T E : Type)
  | loop (event : LoopEvent T E)
  | cancelRetries
  | noteRelease (time : ℕ)

structure Capture (T E : Type) where
  flight : TabFlight
  loop : RetryLoop T E

variable {T E : Type}

/-- What a caller of `with_retries` knows of an attempt's result. -/
structure Judge (T : Type) where
  result : T → TabResult
  rank : T → ℕ

namespace Capture

variable (judge : Judge T) (flight : TabFlight) (best : T) (retries : ℕ)

def finish : Capture T E :=
  ⟨flight.finish (judge.result best), .returned (.ok (best, retries))⟩

/-- The head of the loop over the waits. -/
def nextWait : List ℕ → Capture T E
  | [] => finish judge flight best retries
  | wait :: waits =>
      if !(judge.result best).retries then finish judge flight best retries
      else if flight.retryStop.isSome then finish judge flight best retries
      else ⟨flight.setPhase .retrying, .waiting wait best (retries + 1) waits⟩

/-- After the wait, however it ended. -/
def afterWait (waits : List ℕ) : Capture T E :=
  if flight.retryStop.isSome then finish judge flight best retries
  else ⟨flight, .retrying best retries waits⟩

/-- A later result replaces the kept one only when it ranks higher. -/
def better (next : T) : T := if judge.rank best < judge.rank next then next else best

variable (loop : RetryLoop T E)

/-- The loop runs to its next await. -/
def resume : LoopEvent T E → Option (Capture T E)
  | .polled =>
      match loop with
      | .unpolled waits => some ⟨flight, .firstAttempt waits⟩
      | _ => none
  | .attempted outcome =>
      match loop, outcome with
      | .firstAttempt _, .error error => some ⟨flight, .returned (.error error)⟩
      | .firstAttempt waits, .ok best => some (nextWait judge flight best 0 waits)
      | .retrying best retries _, .error _ => some (finish judge flight best retries)
      | .retrying best retries waits, .ok next =>
          some (nextWait judge flight (better judge best next) retries waits)
      | _, _ => none
  | .slept =>
      match loop with
      | .waiting _ best retries waits => some (afterWait judge flight best retries waits)
      | _ => none
  | .woken =>
      match loop with
      | .waiting _ best retries waits =>
          if flight.retryStop.isSome then some (afterWait judge flight best retries waits) else none
      | _ => none

end Capture

/-- A capture and what the key loop does to its flight. -/
def retries (judge : Judge T) : Machine (Capture T E) (RetryEvent T E) where
  next capture
    | .loop event => Capture.resume judge capture.flight capture.loop event
    | .cancelRetries => some { capture with flight := capture.flight.cancelRetries }
    | .noteRelease time => some { capture with flight := capture.flight.noteRelease time }

end ScuffedCrew.TabRetry
