import ScuffedCrew.CaptureGate.Game

/-!
# A confirmed value inside one game

A value read on a clean, trusted board is to be a lower bound of what the
column stores for the rest of the game.  The gate keeps that bound as long as
it has a way to remember it: a value stored above it by a fallback records it
as the column's floor.  Two values stored above it record no floor.  One is a
trusted read past the parser's ceiling, which is marked unconfirmed; the other
is a row shift.  An un-latch of such a value goes as low as the read does.
-/

namespace ScuffedCrew.CaptureGate

open Rust StateMachine

/-- The capture goes on with the game before it: no split, and no restart. -/
def InGame (step : Step (Option GateState) Capture) : Prop :=
  step.event.split = false ∧ ∀ state ∈ step.before, restarts state step.event.trusted = false

instance (step : Step (Option GateState) Capture) : Decidable (InGame step) :=
  inferInstanceAs (Decidable (_ ∧ _))

/-- A clean trusted board's read is stored in the column, confirmed, and not as a row shift. -/
structure Accepts (step : Step (Option GateState) Capture) (col : Col) (value : ℕ) : Prop where
  clean : step.event.board.clean = true
  read : step.event.raw.toArray col = value
  stored : ∃ state ∈ step.after, state.accepted.toArray col = value ∧
    state.unconfirmed col = false ∧ state.rowShift col = false ∧ state.unread col = false

def AtLeast (col : Col) (value : ℕ) (prev : Option GateState) : Prop :=
  ∃ state ∈ prev, value ≤ state.accepted.toArray col

instance (col : Col) (value : ℕ) : DecidablePred (AtLeast col value) := fun prev =>
  inferInstanceAs (Decidable (∃ state ∈ prev, _))

/-- The capture un-latches a value past the ceiling, or a row shift, that has no
floor under it, and the read is below `value`. -/
def FloorlessUnlatch (col : Col) (value : ℕ) (step : Step (Option GateState) Capture) : Prop :=
  ∃ state ∈ step.before, (step.event.gating state).Reads col ∧
    (step.event.gating state).unlatches col = true ∧
    state.hasConfirmedFloor col = false ∧
    (killColOverCeiling col (state.accepted.toArray col) = true ∨ state.rowShift col = true) ∧
    step.event.raw.toArray col < value

instance (col : Col) (value : ℕ) : DecidablePred (FloorlessUnlatch col value) := fun step =>
  inferInstanceAs (Decidable (∃ state ∈ step.before, _))

/-- What the gate remembers of a value once confirmed. -/
structure GateState.Remembers (state : GateState) (col : Col) (value : ℕ) : Prop where
  wellFormed : state.WellFormed
  read : state.unread col = false
  atLeast : value ≤ state.accepted.toArray col
  floor : state.hasConfirmedFloor col = true → value ≤ state.confirmedFloor col
  floorless : state.unconfirmed col = true → state.hasConfirmedFloor col = false →
    killColOverCeiling col (state.accepted.toArray col) = true

theorem killColOverCeiling_mono {col : Col} {low high : ℕ} (le : low ≤ high)
    (above : killColOverCeiling col low = true) : killColOverCeiling col high = true := by
  unfold killColOverCeiling at above ⊢
  split <;> simp_all <;> omega

namespace Gating

variable {gating : Gating} {col : Col} {value : ℕ}

theorem le_out_of_remembers (remembers : gating.state.Remembers col value)
    (safe : gating.verdict col = .unlatched → gating.state.hasConfirmedFloor col = false →
      value ≤ gating.cur col) : value ≤ gating.out col := by
  by_cases unlatched : gating.verdict col = .unlatched
  · rw [out_of_unlatched unlatched]
    by_cases floored : gating.state.hasConfirmedFloor col = true
    · exact (remembers.floor floored).trans
        (confirmedFloor_le_cur (unlatches_of_unlatched unlatched) floored)
    · exact safe unlatched (by simpa using floored)
  · exact remembers.atLeast.trans (prevAcc_le_out remembers.read unlatched)

theorem floor_of_remembers (remembers : gating.state.Remembers col value)
    (floored : gating.hasConfirmedFloor col = true) : value ≤ gating.confirmedFloor col := by
  rcases hasConfirmedFloor_cases floored with ⟨-, ⟨-, floor⟩ | ⟨before, floor⟩⟩
  · rw [floor]
    exact remembers.atLeast
  · rw [floor]
    exact remembers.floor before

theorem over_of_floorless (remembers : gating.state.Remembers col value)
    (unconfirmed : gating.unconfirmed col = true)
    (floorless : gating.hasConfirmedFloor col = false) :
    killColOverCeiling col (gating.out col) = true := by
  simp only [Gating.unconfirmed, markImplausible, Counters.toArray_fromArray, Bool.or_eq_true,
    Bool.and_eq_true, Bool.not_eq_true', firstRead_eq_false remembers.read, Bool.and_false,
    Bool.false_eq_true, or_false] at unconfirmed
  rcases unconfirmed with ⟨notConfirms, before⟩ | above
  · simp only [Gating.hasConfirmedFloor, notConfirms, Bool.not_false, Bool.true_and,
      Bool.or_eq_false_iff, Bool.and_eq_false_iff, Bool.not_eq_false'] at floorless
    rcases floorless with ⟨noFloor, notAdopted⟩
    have wasUnconfirmed : gating.state.unconfirmed col = true := by
      rcases before with wasUnconfirmed | adopts
      · exact wasUnconfirmed
      · exact notAdopted.resolve_left (by simp [adopts])
    have kept : gating.verdict col ≠ .unlatched := by
      intro unlatched
      have confirms := confirms_of_unlatched unlatched
        (remembers.wellFormed.lowTrust col wasUnconfirmed)
      simp [notConfirms] at confirms
    exact killColOverCeiling_mono (prevAcc_le_out remembers.read kept)
      (remembers.floorless wasUnconfirmed noFloor)
  · exact above

theorem remembers_outcome (remembers : gating.state.Remembers col value)
    (safe : gating.verdict col = .unlatched → gating.state.hasConfirmedFloor col = false →
      value ≤ gating.cur col) (anchor : Option Counters) :
    (gating.outcome anchor).state.Remembers col value where
  wellFormed := wellFormed_outcome remembers.wellFormed anchor
  read := by simp [unread, remembers.read]
  atLeast := by simpa using le_out_of_remembers remembers safe
  floor floored := by
    rw [outcome_hasConfirmedFloor] at floored
    simpa using floor_of_remembers remembers floored
  floorless unconfirmed floorless := by
    rw [outcome_unconfirmed] at unconfirmed
    rw [outcome_hasConfirmedFloor] at floorless
    simpa using over_of_floorless remembers unconfirmed floorless

theorem unconfirmed_or_rowShift_of_unlatches (unlatches : gating.unlatches col = true) :
    gating.state.unconfirmed col = true ∨ gating.state.rowShift col = true := by
  simp only [Gating.unlatches, reviseDown, replaceLow, Bool.and_eq_true,
    Bool.or_eq_true] at unlatches
  rcases unlatches.1.1.2 with replaced | repeated
  · exact .inl replaced.1.2
  · exact .inr repeated.1

end Gating

theorem remembers_step {col : Col} {value : ℕ} {prev after : Option GateState} {capture : Capture}
    (step : game.next prev capture = some after) (inGame : InGame ⟨prev, capture, after⟩)
    (safe : ¬FloorlessUnlatch col value ⟨prev, capture, after⟩)
    (remembers : ∃ state, prev = some state ∧ state.Remembers col value) :
    ∃ state, after = some state ∧ state.Remembers col value := by
  rcases remembers with ⟨state, rfl, remembers⟩
  rw [game_next step, Capture.outcome_of_running inGame.1 (inGame.2 state rfl)]
  refine ⟨_, rfl, Gating.remembers_outcome remembers ?_ _⟩
  intro unlatched floorless
  by_contra below
  have reads := Gating.reads_of_unlatched unlatched
  have unlatches := Gating.unlatches_of_unlatched unlatched
  rw [Gating.cur_eq_read reads, not_le] at below
  refine safe ⟨state, rfl, reads, unlatches, floorless, ?_, below⟩
  rcases Gating.unconfirmed_or_rowShift_of_unlatches unlatches with unconfirmed | shifted
  · exact .inl (remembers.floorless unconfirmed floorless)
  · exact .inr shifted

theorem not_atLeast_of_floorlessUnlatch {col : Col} {value : ℕ} {prev after : Option GateState}
    {capture : Capture} (step : game.next prev capture = some after)
    (inGame : InGame ⟨prev, capture, after⟩)
    (unlatch : FloorlessUnlatch col value ⟨prev, capture, after⟩) :
    ¬AtLeast col value after := by
  rcases unlatch with ⟨state, rfl, reads, unlatches, -, -, below⟩
  rw [game_next step, Capture.outcome_of_running inGame.1 (inGame.2 state rfl)]
  rintro ⟨reached, same, le⟩
  rcases Option.some.inj same with rfl
  have unlatched := Gating.verdict_eq_unlatched_iff.mpr ⟨reads, unlatches⟩
  rw [Gating.outcome_accepted, Gating.out_of_unlatched unlatched, Gating.cur_eq_read reads] at le
  exact absurd le (not_le.mpr below)

theorem Accepts.remembers {step : Step (Option GateState) Capture} {col : Col} {value : ℕ}
    (accepts : Accepts step col value)
    (wellFormed : ∀ state, step.after = some state → state.WellFormed) :
    ∃ state, step.after = some state ∧ state.Remembers col value := by
  rcases accepts.stored with ⟨state, reached, stored, confirmed, -, read⟩
  have wf := wellFormed state reached
  refine ⟨state, reached, wf, read, stored.ge, ?_, by simp [confirmed]⟩
  intro floored
  simp [wf.floor_unconfirmed col floored] at confirmed

/-- Within a game a confirmed value stays a lower bound of what the column
stores exactly when no later capture un-latches, with a read below it, a value
that the gate put above it without a floor. -/
theorem confirmed_value_kept_iff {opening later : List (Step (Option GateState) Capture)}
    {accepting : Step (Option GateState) Capture} {final : Option GateState} {col : Col}
    {value : ℕ} (run : game.Run none (opening ++ accepting :: later) final)
    (accepts : Accepts accepting col value) (inGame : ∀ step ∈ later, InGame step) :
    (∀ step ∈ later, AtLeast col value step.after) ↔
      ∀ step ∈ later, ¬FloorlessUnlatch col value step := by
  rw [List.append_cons] at run
  rcases run.exists_middle with ⟨middle, start, rest⟩
  rcases start.last_after with rfl
  constructor
  · intro kept step step_mem unlatch
    exact not_atLeast_of_floorlessUnlatch (rest.next_of_mem step step_mem)
      (inGame step step_mem) unlatch (kept step step_mem)
  · intro safe step step_mem
    have remembers := accepts.remembers (wellFormed_of_run start)
    rcases rest.always_of_forall
      (fun prev => ∃ state, prev = some state ∧ state.Remembers col value) remembers
      (fun step step_mem => And.intro (inGame step step_mem) (safe step step_mem))
      (fun step meets remembers => remembers_step step meets.1 meets.2 remembers) step step_mem
      with ⟨state, reached, remembers⟩
    exact ⟨state, reached, remembers.atLeast⟩

/-- A capture of the whole row, with no suspect or held cell. -/
def wholeRow (elapsed : ℕ) (raw : Counters) (trusted : Bool) : Capture where
  elapsed := Duration.fromSecs elapsed
  raw := raw
  suspect := .splat false
  held := .splat false
  split := false
  trusted := trusted
  seed := none

/-- A fallback reads 16 over a confirmed 10, and a clean read of 12 replaces it. -/
def fallbackRun : List Capture :=
  [wholeRow 0 ⟨10, 10, 5, 1000, 500, 300⟩ true, wholeRow 60 ⟨16, 12, 5, 1000, 500, 300⟩ false,
    wholeRow 60 ⟨12, 12, 5, 1000, 500, 300⟩ true]

theorem confirmed_value_kept_fallback :
    ∃ final, game.exec none fallbackRun = some final ∧
      ∀ step ∈ (game.stepsOf none fallbackRun).tail, AtLeast 0 10 step.after := by
  have run : game.Run none ([] ++ game.stepsOf none fallbackRun) _ := .of_exec rfl
  refine ⟨_, rfl, ?_⟩
  exact (confirmed_value_kept_iff run ⟨by decide, rfl, _, rfl, by decide⟩ (by decide)).mpr
    (by decide)

/-- The promise of the gate for captures with every column read: within a game a
confirmed value stays a lower bound. -/
def ConfirmedValueKept : Prop :=
  ∀ (opening later : List (Step (Option GateState) Capture))
    (accepting : Step (Option GateState) Capture) (final : Option GateState) (col : Col)
    (value : ℕ), game.Run none (opening ++ accepting :: later) final →
      (∀ step ∈ opening ++ accepting :: later, InGame step) →
      (∀ step ∈ opening ++ accepting :: later, ∀ state ∈ step.after,
        ∀ col, step.event.held col = false ∧ state.unread col = false) →
      Accepts accepting col value → ∀ step ∈ later, AtLeast col value step.after

/-- Elims 10 are confirmed, 16 are stored as a row shift, and 4 read twice replace them. -/
def rowShiftRun : List Capture :=
  [wholeRow 0 ⟨10, 10, 5, 1000, 500, 300⟩ true, wholeRow 60 ⟨16, 3, 5, 1000, 500, 300⟩ true,
    wholeRow 60 ⟨4, 10, 5, 1000, 500, 300⟩ true, wholeRow 60 ⟨4, 10, 5, 1000, 500, 300⟩ true]

theorem not_confirmedValueKept : ¬ConfirmedValueKept := by
  intro kept
  have run : game.Run none ([] ++ game.stepsOf none rowShiftRun) _ := .of_exec rfl
  have below := kept [] _ _ _ 0 10 run (by decide) (by decide) ⟨by decide, rfl, _, rfl, by decide⟩
  exact absurd below (by decide)

end ScuffedCrew.CaptureGate
