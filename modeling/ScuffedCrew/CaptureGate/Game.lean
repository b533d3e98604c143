import ScuffedCrew.CaptureGate.Columns
import ScuffedCrew.StateMachine.Run

/-!
# Runs of the capture gate

The machine of the gate: its state is what the caller carries from capture to
capture, and a capture that splits or restarts the game starts from the raw
read.  `WellFormed` collects what holds of every state a run reaches.
-/

namespace ScuffedCrew.CaptureGate

open Rust StateMachine

/-- One call of the gate, with the time since the previous one. -/
structure Capture where
  elapsed : Duration
  raw : Counters
  suspect : Cols Bool
  held : Cols Bool
  split : Bool
  trusted : Bool
  seed : Option (Counters × Duration)
  deriving DecidableEq

namespace Capture

def board (capture : Capture) : Board :=
  .ofCapture capture.raw capture.suspect capture.held capture.trusted

def gating (capture : Capture) (state : GateState) : Gating :=
  ⟨state, capture.elapsed, capture.board⟩

def outcome (capture : Capture) (prev : Option GateState) : GateOutcome :=
  applyGateSeeded (prev.map (·, capture.elapsed)) capture.raw capture.suspect capture.held
    capture.split capture.trusted capture.seed

end Capture

/-- The gate's run through the captures of a session. -/
def game : Machine (Option GateState) Capture where
  next prev capture := some (some (capture.outcome prev).state)

theorem game_next {prev after : Option GateState} {capture : Capture}
    (step : game.next prev capture = some after) :
    after = some (capture.outcome prev).state :=
  (Option.some.inj step).symm

namespace Capture

variable {capture : Capture} {state : GateState}

theorem outcome_cases (capture : Capture) (prev : Option GateState) :
    (∃ state, prev = some state ∧ capture.split = false ∧
        restarts state capture.trusted = false ∧
        capture.outcome prev = (capture.gating state).outcome
          (anchorOf capture.raw capture.suspect capture.held)) ∨
      capture.outcome prev = capture.board.firstOutcome capture.seed
        (anchorOf capture.raw capture.suspect capture.held) := by
  cases prev with
  | none => exact .inr rfl
  | some state =>
      simp only [outcome, Option.map_some, applyGateSeeded]
      by_cases starts : (capture.split || restarts state capture.trusted) = true
      · exact .inr (by simp [starts, board])
      · refine .inl ⟨state, rfl, ?_⟩
        simp only [Bool.or_eq_true, not_or, Bool.not_eq_true] at starts
        simp [starts.1, starts.2, gating, board]

theorem outcome_of_running (noSplit : capture.split = false)
    (noRestart : restarts state capture.trusted = false) :
    capture.outcome (some state) = (capture.gating state).outcome
      (anchorOf capture.raw capture.suspect capture.held) := by
  simp [outcome, applyGateSeeded, noSplit, noRestart, gating, board]

end Capture

/-! ## Well-formed states -/

namespace GateState

/-- What every reachable state satisfies, column by column. -/
structure WellFormed (state : GateState) : Prop where
  lowTrust : ∀ col, state.unconfirmed col = true → state.lowTrust = true
  floor_unconfirmed : ∀ col, state.hasConfirmedFloor col = true → state.unconfirmed col = true
  floor_read : ∀ col, state.hasConfirmedFloor col = true → state.unread col = false
  floor_le : ∀ col, state.hasConfirmedFloor col = true →
    state.confirmedFloor col ≤ state.accepted.toArray col
  refused_unread : ∀ col, state.refusedFirstRead col = true → state.unread col = true
  unread_accepted : ∀ col, state.unread col = true → state.accepted.toArray col = 0
  unread_heldSecs : ∀ col, state.unread col = true → state.heldSecs col = 0
  unread_rowShift : ∀ col, state.unread col = true → state.rowShift col = false

end GateState

namespace Board

theorem wellFormed_firstOutcome (board : Board) (seed : Option (Counters × Duration))
    (anchor : Option Counters) : (board.firstOutcome seed anchor).state.WellFormed where
  lowTrust col unconfirmed := by
    simp only [firstOutcome, freshState, Cols.get_ofFn] at unconfirmed ⊢
    exact anyCol_eq_true.mpr ⟨col, unconfirmed⟩
  floor_unconfirmed col floored := by
    simp [firstOutcome, freshState, GateState.default] at floored
  floor_read col floored := by simp [firstOutcome, freshState, GateState.default] at floored
  floor_le col floored := by simp [firstOutcome, freshState, GateState.default] at floored
  refused_unread col refused := by simp [firstOutcome, freshState, GateState.default] at refused
  unread_accepted col unread := by
    obtain ⟨held, noSeed⟩ : board.held col = true ∧ seed = none := by
      simpa [firstOutcome] using unread
    simp [firstOutcome, freshState, first, held, noSeed]
  unread_heldSecs col unread := by
    obtain ⟨-, noSeed⟩ : board.held col = true ∧ seed = none := by
      simpa [firstOutcome] using unread
    simp [firstOutcome, noSeed]
  unread_rowShift col unread := by simp [firstOutcome, freshState, GateState.default]

end Board

namespace Gating

variable {gating : Gating} {col : Col}

theorem noRead_of_unread (after : gating.unread col = true) : gating.noRead col = true := by
  simp only [unread, firstRead, Bool.and_eq_true, Bool.not_eq_true', Bool.and_eq_false_iff,
    Bool.not_eq_false'] at after
  rcases after with ⟨before, notStarts | decreased⟩
  · simp [noRead, startsColumn, before] at notStarts ⊢
    exact .inl notStarts
  · by_cases held : gating.board.held col = true
    · simp [noRead, held]
    · simp [noRead, refused, startsColumn, before, decreased, held]

theorem prevAcc_lt_out_of_adopts (adopts : gating.adopts col = true) :
    gating.state.unread col = false → gating.prevAcc col < gating.out col := by
  intro read
  simp only [Gating.adopts, Bool.and_eq_true, Bool.not_eq_true', decide_eq_true_eq] at adopts
  rcases adopts with ⟨⟨⟨untrusted, -⟩, -⟩, changed⟩
  have kept : gating.verdict col ≠ .unlatched := by
    intro unlatched
    have trusted := trusted_of_unlatches (unlatches_of_unlatched unlatched)
    simp [untrusted] at trusted
  exact lt_of_le_of_ne (prevAcc_le_out read kept) (Ne.symm changed)

theorem read_of_adopts (adopts : gating.adopts col = true) : gating.state.unread col = false := by
  simp only [Gating.adopts, Bool.and_eq_true, Bool.not_eq_true', decide_eq_true_eq] at adopts
  rcases adopts with ⟨⟨⟨-, notFirst⟩, -⟩, changed⟩
  by_contra before
  have after : gating.unread col = true := by simpa [unread, notFirst] using before
  exact changed (out_of_unread after)

theorem hasConfirmedFloor_cases (floored : gating.hasConfirmedFloor col = true) :
    gating.confirms col = false ∧
      ((gating.adopts col = true ∧ gating.confirmedFloor col = gating.prevAcc col) ∨
        (gating.state.hasConfirmedFloor col = true ∧
          gating.confirmedFloor col = gating.state.confirmedFloor col)) := by
  simp only [Gating.hasConfirmedFloor, Bool.and_eq_true, Bool.not_eq_true',
    Bool.or_eq_true] at floored
  rcases floored with ⟨notConfirms, floored⟩
  refine ⟨notConfirms, ?_⟩
  by_cases moved : (gating.adopts col && !gating.state.unconfirmed col) = true
  · refine .inl ⟨?_, by simp [confirmedFloor, notConfirms, moved]⟩
    simp only [Bool.and_eq_true] at moved
    exact moved.1
  · refine .inr ⟨floored.resolve_right ?_, by simp [confirmedFloor, notConfirms, moved]⟩
    simpa using moved

theorem unconfirmed_of_adopts (adopts : gating.adopts col = true)
    (notConfirms : gating.confirms col = false) : gating.unconfirmed col = true := by
  simp [unconfirmed, markImplausible, adopts, notConfirms]

theorem unconfirmed_of_before (before : gating.state.unconfirmed col = true)
    (notConfirms : gating.confirms col = false) : gating.unconfirmed col = true := by
  simp [unconfirmed, markImplausible, before, notConfirms]

theorem confirmedFloor_le_out (wf : gating.state.WellFormed)
    (floored : gating.hasConfirmedFloor col = true) :
    gating.confirmedFloor col ≤ gating.out col := by
  rcases hasConfirmedFloor_cases floored with ⟨-, ⟨adopts, floor⟩ | ⟨before, floor⟩⟩
  · rw [floor]
    exact (prevAcc_lt_out_of_adopts adopts (read_of_adopts adopts)).le
  · rw [floor]
    by_cases unlatched : gating.verdict col = .unlatched
    · rw [out_of_unlatched unlatched]
      exact confirmedFloor_le_cur (unlatches_of_unlatched unlatched) before
    · exact (wf.floor_le col before).trans
        (prevAcc_le_out (wf.floor_read col before) unlatched)

theorem unread_of_unread (after : gating.unread col = true) : gating.state.unread col = true := by
  simp only [Gating.unread, Bool.and_eq_true] at after
  exact after.1

theorem wellFormed_outcome (wf : gating.state.WellFormed) (anchor : Option Counters) :
    (gating.outcome anchor).state.WellFormed where
  lowTrust col unconfirmed := by
    rw [outcome_unconfirmed] at unconfirmed
    exact gating.outcome_lowTrust anchor col unconfirmed
  floor_unconfirmed col floored := by
    rw [outcome_hasConfirmedFloor] at floored
    rw [outcome_unconfirmed]
    rcases hasConfirmedFloor_cases floored with ⟨notConfirms, ⟨adopts, -⟩ | ⟨before, -⟩⟩
    · exact unconfirmed_of_adopts adopts notConfirms
    · exact unconfirmed_of_before (wf.floor_unconfirmed col before) notConfirms
  floor_read col floored := by
    rw [outcome_hasConfirmedFloor] at floored
    have read : gating.state.unread col = false := by
      rcases hasConfirmedFloor_cases floored with ⟨-, ⟨adopts, -⟩ | ⟨before, -⟩⟩
      · exact read_of_adopts adopts
      · exact wf.floor_read col before
    simp [unread, read]
  floor_le col floored := by
    rw [outcome_hasConfirmedFloor] at floored
    simpa using confirmedFloor_le_out wf floored
  refused_unread col refused := by
    simp only [outcome_refusedFirstRead, outcome_unread, refusedFirstRead] at refused ⊢
    split_ifs at refused with dropped starts
    · simp only [Gating.refused, startsColumn, Bool.and_eq_true] at dropped
      simp [unread, firstRead, dropped.1, dropped.2.2]
    · simp only [Bool.not_eq_true] at starts
      simp [unread, firstRead, starts, wf.refused_unread col refused]
  unread_accepted col after := by
    rw [outcome_unread] at after
    rw [outcome_accepted, out_of_unread after]
    exact wf.unread_accepted col (unread_of_unread after)
  unread_heldSecs col after := by
    rw [outcome_unread] at after
    simp [heldSecs, after]
  unread_rowShift col after := by
    rw [outcome_unread] at after
    simp [rowShift, noRead_of_unread after, wf.unread_rowShift col (unread_of_unread after)]

end Gating

theorem wellFormed_of_run {steps : List (Step (Option GateState) Capture)}
    {final : Option GateState} (run : game.Run none steps final) :
    ∀ state, final = some state → state.WellFormed := by
  refine run.invariant (fun prev => ∀ state, prev = some state → state.WellFormed) (by simp) ?_
  intro prev capture after step wf state reached
  rcases Option.some.inj (reached.symm.trans (game_next step)) with rfl
  rcases capture.outcome_cases prev with ⟨before, rfl, -, -, gated⟩ | opened
  · rw [gated]
    exact Gating.wellFormed_outcome (wf before rfl) _
  · rw [opened]
    exact capture.board.wellFormed_firstOutcome _ _

/-! ## Reads accepted on the last capture -/

/-- The column has a number on a row that is kept, and the number is stored. -/
structure ReadAccepted (step : Step (Option GateState) Capture) (col : Col) : Prop where
  notHeld : step.event.held col = false
  rowKept : ∃ cell, step.event.suspect cell = false ∧ step.event.held cell = false
  stored : (step.event.outcome step.before).accepted.toArray col = step.event.raw.toArray col

theorem Capture.notHeld_of_rowKept {capture : Capture} {col : Col}
    (notHeld : capture.held col = false)
    (rowKept : ∃ cell, capture.suspect cell = false ∧ capture.held cell = false) :
    capture.board.held col = false := by
  rcases rowKept with ⟨cell, clean, number⟩
  have kept : (allCols fun col => capture.suspect col || capture.held col) = false := by
    apply Bool.eq_false_iff.mpr
    intro discarded
    have marked := allCols_eq_true.mp discarded cell
    simp [clean, number] at marked
  simp [board, Board.ofCapture, notHeld, kept]

/-- A column that is read and stored is as old as the capture. -/
theorem ReadAccepted.heldSecs {step : Step (Option GateState) Capture} {col : Col}
    (accepted : ReadAccepted step col) :
    (step.event.outcome step.before).state.heldSecs col = 0 := by
  have notHeld := Capture.notHeld_of_rowKept accepted.notHeld accepted.rowKept
  have stored := accepted.stored
  rcases step.event.outcome_cases step.before with ⟨before, -, -, -, gated⟩ | opened
  · rw [gated] at stored ⊢
    have out : (step.event.gating before).out col = step.event.raw.toArray col := by
      simpa [Gating.outcome] using stored
    have cur : (step.event.gating before).cur col = step.event.raw.toArray col :=
      if_neg (by simp [Capture.gating, notHeld])
    have number : (step.event.gating before).board.held col = false := notHeld
    rw [Gating.outcome_heldSecs, Gating.heldSecs, out, cur, number]
    simp
  · rw [opened]
    simp [Board.firstOutcome, notHeld]

/-- The couplings between the columns' arrays hold of every state a run reaches, and a column whose
read the last capture accepted has been held for no time. -/
theorem state_wellFormed {steps : List (Step (Option GateState) Capture)}
    {final : Option GateState} (run : game.Run none steps final) :
    ∀ state, final = some state → state.WellFormed ∧
      ∀ first last, steps = first ++ [last] → ∀ col, ReadAccepted last col →
        state.heldSecs col = 0 := by
  intro state reached
  refine ⟨wellFormed_of_run run state reached, ?_⟩
  rintro first last rfl col accepted
  have taken := run.next_of_mem last (List.mem_append_right _ (List.mem_singleton_self _))
  have same : some state = some (last.event.outcome last.before).state :=
    reached.symm.trans (run.last_after.trans (game_next taken))
  rw [Option.some.inj same]
  exact accepted.heldSecs

/-- A board whose elims may be held. -/
def elimsCapture (held : Bool) : Capture where
  elapsed := Duration.fromSecs 60
  raw := ⟨7, 2, 1, 900, 0, 100⟩
  suspect := .splat false
  held := .ofFn fun col => held && decide (col = 0)
  split := false
  trusted := true
  seed := none

/-- The elims are held on two captures and read on the third. -/
theorem state_wellFormed_elims : ∃ state,
    game.exec none [elimsCapture true, elimsCapture true, elimsCapture false] = some (some state) ∧
      state.WellFormed ∧ state.heldSecs 0 = 0 := by
  have run : game.Run none (game.stepsOf none
    [elimsCapture true, elimsCapture true, elimsCapture false]) _ := .of_exec rfl
  have reached := state_wellFormed run _ rfl
  exact ⟨_, rfl, reached.1,
    reached.2 [_, _] _ rfl 0 ⟨by decide, ⟨0, by decide, by decide⟩, by decide⟩⟩

end ScuffedCrew.CaptureGate
