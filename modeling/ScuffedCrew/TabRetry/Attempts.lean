import Mathlib.Data.List.MinMax
import ScuffedCrew.TabRetry.Retries

/-!
# What the retries of a capture make

Each wait allows one more attempt.  A flight that is stopped stays stopped, and
no retry begins on it.  What is kept is the earliest of the best results.
-/

namespace ScuffedCrew.TabRetry

open StateMachine

variable {T E : Type} {judge : Judge T} {flight : TabFlight} {best : T} {count time : ℕ}
  {waits : List ℕ} {start capture later final : Capture T E} {event : RetryEvent T E}
  {steps : List (Step (Capture T E) (RetryEvent T E))}

namespace TabFlight

@[simp]
theorem retryStop_setPhase (phase : TabFlightPhase) :
    (flight.setPhase phase).retryStop = flight.retryStop := rfl

theorem retryStop_cancelRetries : flight.cancelRetries.retryStop.isSome := rfl

theorem retryStop_noteRelease (stopped : flight.retryStop.isSome) :
    (flight.noteRelease time).retryStop.isSome := by
  unfold noteRelease
  split
  · exact stopped
  · split
    · unfold retryStop
      split <;> rfl
    · exact stopped

theorem released_noteRelease (after : flight.press ≤ time) :
    (flight.noteRelease time).releasedAt.isSome := by
  rw [noteRelease, if_neg (Nat.not_lt.mpr after)]
  cases released : flight.releasedAt with
  | none => rfl
  | some heard => simp [released]

end TabFlight

/-! ## What an event does -/

namespace Capture

theorem nextWait_cases (judge : Judge T) (flight : TabFlight) (best : T) (count : ℕ)
    (waits : List ℕ) :
    (nextWait judge flight best count waits : Capture T E) = finish judge flight best count ∨
      ∃ wait rest, waits = wait :: rest ∧ (nextWait judge flight best count waits : Capture T E) =
        ⟨flight.setPhase .retrying, .waiting wait best (count + 1) rest⟩ := by
  cases waits with
  | nil => exact .inl rfl
  | cons wait rest =>
      by_cases again : (!(judge.result best).retries) = true
      · exact .inl (if_pos again)
      · by_cases stopped : flight.retryStop.isSome
        · exact .inl ((if_neg again).trans (if_pos stopped))
        · exact .inr ⟨wait, rest, rfl, (if_neg again).trans (if_neg stopped)⟩

end Capture

/-- What an event does to a capture. -/
inductive Moves (judge : Judge T) : Capture T E → RetryEvent T E → Capture T E → Prop
  | begins (flight : TabFlight) (waits : List ℕ) :
      Moves judge ⟨flight, .unpolled waits⟩ (.loop .polled) ⟨flight, .firstAttempt waits⟩
  | fails (flight : TabFlight) (waits : List ℕ) (error : E) :
      Moves judge ⟨flight, .firstAttempt waits⟩ (.loop (.attempted (.error error)))
        ⟨flight, .returned (.error error)⟩
  | takes (flight : TabFlight) (waits : List ℕ) (best : T) :
      Moves judge ⟨flight, .firstAttempt waits⟩ (.loop (.attempted (.ok best)))
        (.nextWait judge flight best 0 waits)
  | keeps (flight : TabFlight) (best : T) (count : ℕ) (waits : List ℕ) (error : E) :
      Moves judge ⟨flight, .retrying best count waits⟩ (.loop (.attempted (.error error)))
        (.finish judge flight best count)
  | compares (flight : TabFlight) (best next : T) (count : ℕ) (waits : List ℕ) :
      Moves judge ⟨flight, .retrying best count waits⟩ (.loop (.attempted (.ok next)))
        (.nextWait judge flight (Capture.better judge best next) count waits)
  | stops (flight : TabFlight) (wait : ℕ) (best : T) (count : ℕ) (waits : List ℕ)
      (event : LoopEvent T E) (ends : event = .slept ∨ event = .woken) :
      Moves judge ⟨flight, .waiting wait best count waits⟩ (.loop event)
        (.finish judge flight best count)
  | retries (flight : TabFlight) (wait : ℕ) (best : T) (count : ℕ) (waits : List ℕ)
      (event : LoopEvent T E) (ends : event = .slept ∨ event = .woken)
      (unstopped : flight.retryStop = none) :
      Moves judge ⟨flight, .waiting wait best count waits⟩ (.loop event)
        ⟨flight, .retrying best count waits⟩
  | cancelled (capture : Capture T E) :
      Moves judge capture .cancelRetries { capture with flight := capture.flight.cancelRetries }
  | noted (capture : Capture T E) (time : ℕ) :
      Moves judge capture (.noteRelease time)
        { capture with flight := capture.flight.noteRelease time }

theorem moves_after_wait (wait : ℕ) (event : LoopEvent T E)
    (ends : event = .slept ∨ event = .woken) :
    Moves judge ⟨flight, .waiting wait best count waits⟩ (.loop event)
      (.afterWait judge flight best count waits) := by
  unfold Capture.afterWait
  cases stop : flight.retryStop with
  | none => exact .retries flight wait best count waits event ends stop
  | some => exact .stops flight wait best count waits event ends

theorem moves_of_next (taken : (retries judge).next capture event = some later) :
    Moves judge capture event later := by
  rcases capture with ⟨flight, loop⟩
  cases event with
  | cancelRetries =>
      rcases Option.some.inj taken with rfl
      exact .cancelled _
  | noteRelease time =>
      rcases Option.some.inj taken with rfl
      exact .noted _ time
  | loop event =>
      simp only [retries] at taken
      cases event with
      | polled =>
          cases loop with
          | unpolled waits =>
              rcases Option.some.inj taken with rfl
              exact .begins flight waits
          | firstAttempt => cases taken
          | waiting => cases taken
          | retrying => cases taken
          | returned => cases taken
      | attempted outcome =>
          cases loop with
          | firstAttempt waits =>
              cases outcome with
              | error error =>
                  rcases Option.some.inj taken with rfl
                  exact .fails flight waits error
              | ok best =>
                  rcases Option.some.inj taken with rfl
                  exact .takes flight waits best
          | retrying best count waits =>
              cases outcome with
              | error error =>
                  rcases Option.some.inj taken with rfl
                  exact .keeps flight best count waits error
              | ok next =>
                  rcases Option.some.inj taken with rfl
                  exact .compares flight best next count waits
          | unpolled => cases outcome <;> cases taken
          | waiting => cases outcome <;> cases taken
          | returned => cases outcome <;> cases taken
      | slept =>
          cases loop with
          | waiting wait best count waits =>
              rcases Option.some.inj taken with rfl
              exact moves_after_wait wait .slept (.inl rfl)
          | unpolled => cases taken
          | firstAttempt => cases taken
          | retrying => cases taken
          | returned => cases taken
      | woken =>
          cases loop with
          | waiting wait best count waits =>
              rcases Option.ite_none_right_eq_some.mp taken with ⟨-, reached⟩
              rcases Option.some.inj reached with rfl
              exact moves_after_wait wait .woken (.inr rfl)
          | unpolled => cases taken
          | firstAttempt => cases taken
          | retrying => cases taken
          | returned => cases taken

/-! ## Counting attempts -/

namespace RetryLoop

def attempting : RetryLoop T E → Bool
  | .firstAttempt _ | .retrying _ _ _ => true
  | .unpolled _ | .waiting _ _ _ _ | .returned _ => false

def kept : RetryLoop T E → Option T
  | .unpolled _ | .firstAttempt _ | .returned (.error _) => none
  | .waiting _ best _ _ | .retrying best _ _ | .returned (.ok (best, _)) => some best

/-- The attempts it may still begin. -/
def allowance : RetryLoop T E → ℕ
  | .unpolled waits | .waiting _ _ _ waits => waits.length + 1
  | .firstAttempt waits | .retrying _ _ waits => waits.length
  | .returned _ => 0

/-- The awaits it may still come to the end of. -/
def awaits : RetryLoop T E → ℕ
  | .unpolled waits | .waiting _ _ _ waits => 2 * waits.length + 2
  | .firstAttempt waits | .retrying _ _ waits => 2 * waits.length + 1
  | .returned _ => 0

end RetryLoop

abbrev CaptureStep (T E : Type) := Step (Capture T E) (RetryEvent T E)

namespace CaptureStep

variable (step : CaptureStep T E)

def begins : Bool := !step.before.loop.attempting && step.after.loop.attempting

/-- An attempt begins that is not the first. -/
def Retries : Prop := begins step = true ∧ step.event ≠ .loop .polled

def resumes : Bool :=
  match step.event with
  | .loop _ => true
  | _ => false

def outcome : Option T :=
  match step.event with
  | .loop (.attempted (.ok taken)) => some taken
  | _ => none

end CaptureStep

namespace Capture

/-- The loop is between two attempts, or has returned what it kept. -/
structure Between (best : T) (waits : List ℕ) (loop : RetryLoop T E) : Prop where
  kept : loop.kept = some best
  idle : loop.attempting = false
  allowance : loop.allowance ≤ waits.length
  awaits : loop.awaits ≤ 2 * waits.length
  returned : ∀ error, loop ≠ .returned (.error error)

theorem between_finish :
    Between best waits (finish judge flight best count : Capture T E).loop where
  kept := rfl
  idle := rfl
  allowance := Nat.zero_le _
  awaits := Nat.zero_le _
  returned error same := by cases same

theorem between_nextWait :
    Between best waits (nextWait judge flight best count waits : Capture T E).loop := by
  rcases @nextWait_cases T E judge flight best count waits with
    finished | ⟨wait, rest, rfl, waits⟩
  · rw [finished]
    exact between_finish
  · rw [waits]
    refine ⟨rfl, rfl, le_rfl, le_rfl, ?_⟩
    intro error same
    cases same

end Capture

/-- What one step uses up and keeps. -/
structure Spends (judge : Judge T) (step : CaptureStep T E) : Prop where
  begins : (CaptureStep.begins step).toNat + step.after.loop.allowance ≤
    step.before.loop.allowance
  resumes : (CaptureStep.resumes step).toNat + step.after.loop.awaits ≤ step.before.loop.awaits
  kept : step.after.loop.kept = (CaptureStep.outcome step).elim step.before.loop.kept
    fun next => some (step.before.loop.kept.elim next (Capture.better judge · next))
  failed : ∀ error, step.after.loop = .returned (.error error) →
    step.before.loop = .returned (.error error) ∨
      step.event = .loop (.attempted (.error error))

theorem Capture.Between.spends (between : Capture.Between best waits later.loop) (event : LoopEvent T E)
    (allowance : waits.length ≤ capture.loop.allowance)
    (awaits : 2 * waits.length + 1 ≤ capture.loop.awaits)
    (kept : some best = (CaptureStep.outcome ⟨capture, .loop event, later⟩).elim capture.loop.kept
      fun next => some (capture.loop.kept.elim next (Capture.better judge · next))) :
    Spends judge ⟨capture, .loop event, later⟩ where
  begins := by
    have := between.allowance
    simp only [CaptureStep.begins, between.idle, Bool.and_false, Bool.toNat_false]
    omega
  resumes := by
    have := between.awaits
    simp only [CaptureStep.resumes, Bool.toNat_true]
    omega
  kept := between.kept.trans kept
  failed error same := absurd same (between.returned error)

theorem Moves.spends (moves : Moves judge capture event later) :
    Spends judge ⟨capture, event, later⟩ := by
  cases moves with
  | begins flight waits =>
      refine ⟨le_of_eq (Nat.add_comm _ _), ?_, rfl, ?_⟩
      · simp only [CaptureStep.resumes, RetryLoop.awaits, Bool.toNat_true]
        omega
      · intro error same
        cases same
  | fails flight waits error =>
      refine ⟨Nat.zero_le _, ?_, rfl, ?_⟩
      · simp only [CaptureStep.resumes, RetryLoop.awaits, Bool.toNat_true]
        omega
      · intro other same
        rcases Except.error.inj (RetryLoop.returned.inj same) with rfl
        exact .inr rfl
  | takes flight waits best =>
      exact Capture.between_nextWait.spends _ le_rfl le_rfl rfl
  | keeps flight best count waits error =>
      have between : Capture.Between best waits
        (Capture.finish judge flight best count : Capture T E).loop := Capture.between_finish
      exact between.spends _ le_rfl le_rfl rfl
  | compares flight best next count waits =>
      exact Capture.between_nextWait.spends _ le_rfl le_rfl rfl
  | stops flight wait best count waits event ends =>
      have between : Capture.Between best waits
        (Capture.finish judge flight best count : Capture T E).loop := Capture.between_finish
      rcases ends with rfl | rfl
      · exact between.spends _ (Nat.le_succ _) (Nat.le_succ _) rfl
      · exact between.spends _ (Nat.le_succ _) (Nat.le_succ _) rfl
  | retries flight wait best count waits event ends unstopped =>
      have resumes : 1 + (2 * waits.length + 1) ≤ 2 * waits.length + 2 := by omega
      rcases ends with rfl | rfl
      · refine ⟨le_of_eq (Nat.add_comm _ _), resumes, rfl, ?_⟩
        intro error same
        cases same
      · refine ⟨le_of_eq (Nat.add_comm _ _), resumes, rfl, ?_⟩
        intro error same
        cases same
  | cancelled capture =>
      refine ⟨?_, ?_, rfl, fun error same => .inl same⟩
      · simp [CaptureStep.begins]
      · simp [CaptureStep.resumes]
  | noted capture time =>
      refine ⟨?_, ?_, rfl, fun error same => .inl same⟩
      · simp [CaptureStep.begins]
      · simp [CaptureStep.resumes]

/-! ## A whole capture -/

/-- What the steps so far have used up and kept. -/
structure Tally (judge : Judge T) (total : ℕ) (steps : List (CaptureStep T E))
    (capture : Capture T E) : Prop where
  allowed : steps.countP CaptureStep.begins + capture.loop.allowance ≤ total + 1
  awaited : steps.countP CaptureStep.resumes + capture.loop.awaits ≤ 2 * total + 2
  kept : capture.loop.kept = (steps.filterMap CaptureStep.outcome).argmax judge.rank
  failed : ∀ error, capture.loop = .returned (.error error) →
    ∃ step ∈ steps, step.event = .loop (.attempted (.error error))

theorem countP_snoc {α : Type} (holds : α → Bool) (before : List α) (last : α) :
    (before ++ [last]).countP holds = before.countP holds + (holds last).toNat := by
  rw [List.countP_append, List.countP_singleton]
  cases holds last <;> rfl

/-- What is kept after one more outcome is still the earliest of the best. -/
theorem argmax_snoc (outcomes : List T) (next : T) :
    (outcomes ++ [next]).argmax judge.rank =
      some ((outcomes.argmax judge.rank).elim next (Capture.better judge · next)) := by
  rw [List.argmax_concat]
  cases outcomes.argmax judge.rank with
  | none => rfl
  | some best => exact (apply_ite some _ _ _).symm

theorem Tally.step {total : ℕ} (tally : Tally judge total steps capture)
    (moves : Moves judge capture event later) :
    Tally judge total (steps ++ [⟨capture, event, later⟩]) later := by
  have spends := moves.spends
  constructor
  · have before := tally.allowed
    have last := spends.begins
    rw [countP_snoc]
    simp only at last
    omega
  · have before := tally.awaited
    have last := spends.resumes
    rw [countP_snoc]
    simp only at last
    omega
  · have last := spends.kept
    rw [List.filterMap_append]
    cases outcome : CaptureStep.outcome ⟨capture, event, later⟩ with
    | none =>
        rw [outcome] at last
        simpa [outcome] using last.trans tally.kept
    | some next =>
        rw [outcome, tally.kept] at last
        simpa [outcome, argmax_snoc] using last
  · intro error same
    rcases spends.failed error same with before | last
    · rcases tally.failed error before with ⟨step, step_mem, failed⟩
      exact ⟨step, List.mem_append_left _ step_mem, failed⟩
    · exact ⟨_, List.mem_append_right _ (List.mem_singleton_self _), last⟩

theorem Moves.stopped (moves : Moves judge capture event later)
    (stopped : capture.flight.retryStop.isSome) : later.flight.retryStop.isSome := by
  cases moves with
  | begins | fails | retries => exact stopped
  | takes flight waits best =>
      rcases @Capture.nextWait_cases T E judge flight best 0 waits with same | ⟨_, _, -, same⟩
      · rw [same]
        exact stopped
      · rw [same]
        exact stopped
  | compares flight best next count waits =>
      rcases @Capture.nextWait_cases T E judge flight (Capture.better judge best next) count waits
        with same | ⟨_, _, -, same⟩
      · rw [same]
        exact stopped
      · rw [same]
        exact stopped
  | keeps | stops => exact stopped
  | cancelled => exact TabFlight.retryStop_cancelRetries
  | noted => exact TabFlight.retryStop_noteRelease stopped

theorem Moves.unstopped (moves : Moves judge capture event later)
    (retries : CaptureStep.Retries ⟨capture, event, later⟩) : capture.flight.retryStop = none := by
  rcases retries with ⟨begins, again⟩
  cases moves with
  | begins => exact absurd rfl again
  | retries flight wait best count waits event ends unstopped => exact unstopped
  | fails => cases begins
  | takes => simp [CaptureStep.begins, RetryLoop.attempting] at begins
  | keeps => cases begins
  | compares => simp [CaptureStep.begins, RetryLoop.attempting] at begins
  | stops => cases begins
  | cancelled => simp [CaptureStep.begins] at begins
  | noted => simp [CaptureStep.begins] at begins

/-- What a capture keeps to with its attempts. -/
structure RetriesKept (judge : Judge T) (waits : List ℕ) (steps : List (CaptureStep T E))
    (final : Capture T E) : Prop where
  attempts : steps.countP CaptureStep.begins ≤ waits.length + 1
  stopped : ∀ first step rest, steps = first ++ step :: rest →
    step.after.flight.retryStop.isSome → ∀ later ∈ rest, ¬CaptureStep.Retries later
  best : ∀ best count, final.loop = .returned (.ok (best, count)) →
    (steps.filterMap CaptureStep.outcome).argmax judge.rank = some best
  failed : ∀ error, final.loop = .returned (.error error) →
    steps.filterMap CaptureStep.outcome = [] ∧
      ∃ step ∈ steps, step.event = .loop (.attempted (.error error))
  resumed : steps.countP CaptureStep.resumes ≤ 2 * waits.length + 2

theorem retries_kept (run : (retries judge).Run ⟨flight, .unpolled waits⟩ steps final) :
    RetriesKept judge waits steps final := by
  have tally : Tally judge waits.length steps final := by
    apply run.history (Tally judge waits.length)
    · refine ⟨?_, ?_, rfl, ?_⟩
      · simp [RetryLoop.allowance]
      · simp [RetryLoop.awaits]
      · intro error same
        cases same
    · intro steps state event after taken tally
      exact tally.step (moves_of_next taken)
  constructor
  · have := tally.allowed
    omega
  · intro first step rest split stopped later later_mem retries
    rcases split with rfl
    rcases List.append_of_mem later_mem with ⟨between, others, rfl⟩
    rcases run.exists_middle with ⟨middle, -, right⟩
    rcases right.cons_inv with ⟨-, -, run⟩
    have reached := run.reaches_before
    have still : later.before.flight.retryStop.isSome := by
      apply reached.1.invariant (fun capture => capture.flight.retryStop.isSome) stopped
      intro state event after taken
      exact (moves_of_next taken).stopped
    rw [(moves_of_next reached.2).unstopped retries] at still
    cases still
  · intro best count returned
    rw [← tally.kept, returned]
    rfl
  · intro error returned
    refine ⟨?_, tally.failed error returned⟩
    have kept := tally.kept
    rw [returned] at kept
    exact List.argmax_eq_none.mp kept.symm
  · have := tally.awaited
    omega

/-- A capture that has not returned goes on when what it awaits comes to its end. -/
theorem returned_or_resumes (capture : Capture T E) (outcome : Except E T) :
    (∃ result, capture.loop = .returned result) ∨
      ∃ event later, (event = .polled ∨ event = .attempted outcome ∨ event = .slept) ∧
        (retries judge).next capture (.loop event) = some later := by
  rcases capture with ⟨flight, loop⟩
  cases loop with
  | unpolled waits => exact .inr ⟨.polled, _, .inl rfl, rfl⟩
  | firstAttempt waits =>
      refine .inr ⟨.attempted outcome, ?_⟩
      cases outcome with
      | error error => exact ⟨_, .inr (.inl rfl), rfl⟩
      | ok best => exact ⟨_, .inr (.inl rfl), rfl⟩
  | waiting wait best count waits => exact .inr ⟨.slept, _, .inr (.inr rfl), rfl⟩
  | retrying best count waits =>
      refine .inr ⟨.attempted outcome, ?_⟩
      cases outcome with
      | error error => exact ⟨_, .inr (.inl rfl), rfl⟩
      | ok next => exact ⟨_, .inr (.inl rfl), rfl⟩
  | returned result => exact .inl ⟨result, rfl⟩

end ScuffedCrew.TabRetry
