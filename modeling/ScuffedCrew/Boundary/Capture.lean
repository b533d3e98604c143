import ScuffedCrew.Boundary.Transition
import ScuffedCrew.CaptureGate.Gate

/-!
# Scoreboard captures

`planCaptureHeld` says whether a scoreboard closes the session, is held off it
or is stored on it, and `noteAcceptedCapture` folds a capture that stayed on
the session into its state.  A column one of two boards has no number for is
left out of every comparison between them.
-/

namespace ScuffedCrew.Boundary

open Rust CaptureGate

/-- The first fresh-match board lands at least this long after the board it is compared with. -/
def resetMinAge : Duration := .fromSecs 45

/-- Inputs for one accepted scoreboard. -/
structure CapturePlanInput where
  prevGate : Option GateState
  /-- The counters the reset is measured from. -/
  baseline : Option GateState
  streak : ℕ
  cur : Counters
  suspect : Cols Bool
  createSession : Bool
  suppressSameUnfinished : Bool
  age : Option Duration
  minGap : Duration
  classicRegressed : Bool
  /-- The stats came from the identified player row. -/
  rowCounts : Bool
  rowId : Option ℕ
  baselineRow : Option ℕ
  confirmedEnd : Bool
  inheritedOutcome : MatchOutcome
  frameOutcome : MatchOutcome
  sessionHero : Option Text
  hint : Option MatchOutcome
  baselineAge : Option Duration
  progressedBoards : ℕ
  pendingBoundary : Bool
  awaitingFirstBoard : Bool
  sessionMap : Option Text
  sessionMapSource : Option MapSource
  incomingMap : Option Text
  deriving DecidableEq

/-- What the reader knows about a board beyond its counters. -/
structure BoardDoubt where
  held : Cols Bool
  suspectRow : Bool
  /-- A trusted fresh-match board is already held off this game. -/
  boardDeferred : Bool
  deriving DecidableEq

structure CapturePlan where
  split : Bool
  defer : Bool
  ignoreRow : Bool
  skipStore : Bool
  clearHint : Bool
  resetStreak : ℕ
  resetBaseline : Option GateState
  baselineRow : Option ℕ
  /-- The accepted gate of this capture becomes the baseline. -/
  refreshBaseline : Bool
  countProgress : Bool
  storedOutcome : MatchOutcome
  deferredCounters : Option Counters
  sealed : Option MatchOutcome
  closeReason : Option CloseReason
  deriving DecidableEq

/-! ## Comparing two boards -/

def knownCols (prev : GateState) (held : Cols Bool) : Col → Bool := fun col =>
  !held col && !prev.unread col

def uniformTwoToFourTimes (prev cur : Counters) (known : Col → Bool) : Bool :=
  let comparable := colOrder.filter fun col => !(decide (prev.toArray col < 4) || !known col)
  (comparable.all fun col =>
      let before := prev.toArray col
      let after := cur.toArray col
      !(decide (after < saturatingMul 32 before 2) ||
        decide (after > saturatingMul 32 before 4))) &&
    decide (comparable.length ≥ 3)

def shortAllIncrease : Duration := .fromSecs 60

/-- The largest rise of a column in `secs` seconds that may become the reset baseline. -/
def growthCeiling (col : Col) (secs : ℕ) : ℕ :=
  if col ≤ 2 then saturatingAdd 32 (castTo 32 (secs / killRateDivisorSecs)) killRateSlack
  else saturatingAdd 32 (saturatingMul 32 (castTo 32 secs) wideRatePerSec) wideRateSlack

def implausibleGrowth (prev : GateState) (cur : Counters) (held : Cols Bool) (elapsed : Duration) :
    Bool :=
  let known := knownCols prev held
  (decide (elapsed < shortAllIncrease) && uniformTwoToFourTimes prev.accepted cur known) ||
    anyCol fun col =>
      known col && decide (cur.toArray col > prev.accepted.toArray col) &&
        decide (cur.toArray col - prev.accepted.toArray col >
          growthCeiling col (saturatingAdd 64 elapsed.asSecs (prev.heldSecs col)))

/-- Elims, deaths and damage: the columns a reset is read from. -/
def eddCols : List Col := [0, 2, 3]

def countersProgressed (prev cur : Counters) (known : Col → Bool) : Bool :=
  (anyCol fun col => known col && decide (cur.toArray col > prev.toArray col)) &&
    !eddCols.any fun col => known col && decide (cur.toArray col < prev.toArray col)

def matureBoard (prev : Counters) (known : Col → Bool) : Bool :=
  (known 0 && decide (prev.elims ≥ 4)) || (known 3 && decide (prev.damage ≥ 400))

def underFreshMatch (prev cur : Counters) (known : Col → Bool) : Bool :=
  (!known 0 || decide (cur.elims ≤ max 2 (prev.elims / 4))) &&
    (!known 2 || decide (cur.deaths ≤ max 1 (prev.deaths / 4))) &&
    (!known 3 || decide (cur.damage ≤ prev.damage / 4))

/-- No suspect read in elims, deaths or damage.  A held cell is not such a read. -/
def eddClean (suspect held : Cols Bool) : Bool := eddCols.all fun col => !suspect col || held col

def sameBaselineRow (baselineRow rowId : Option ℕ) : Bool :=
  match baselineRow, rowId with
  | some baseline, some row => baseline == row
  | _, _ => false

namespace CapturePlanInput

/-- A hinted session whose board names a different map is the next game. -/
def hintedDifferentMap (input : CapturePlanInput) : Bool :=
  if input.confirmedEnd || (input.hint.filter MatchOutcome.isDecided).isNone then false
  else if mapRelation input.sessionMap input.incomingMap = .differs then
    input.prevGate.isNone ||
      ((input.sessionMapSource.any MapSource.trustedForBoardSplit) &&
        input.age.any fun age => decide (age ≥ input.minGap))
  else false

/-- The board a reset is measured from. -/
def compare (input : CapturePlanInput) : Option GateState := input.baseline.or input.prevGate

def compareAge (input : CapturePlanInput) : Option Duration :=
  if input.baseline.isSome then input.baselineAge.or input.age else input.age

def elapsed (input : CapturePlanInput) : Duration := (input.baselineAge.or input.age).getD 0

def implausibleJump (input : CapturePlanInput) (held : Cols Bool) : Bool :=
  input.compare.any fun gate => implausibleGrowth gate input.cur held input.elapsed

/-- `is_fresh_reset` against one board. -/
def freshResetFrom (input : CapturePlanInput) (held : Cols Bool) (prev : GateState) : Bool :=
  let known := knownCols prev held
  let enough := decide ((eddCols.filter known).length ≥ 2)
  sameBaselineRow input.baselineRow input.rowId && input.rowCounts &&
    eddClean input.suspect held && enough && !input.implausibleJump held &&
    matureBoard prev.accepted known &&
    (input.compareAge.any fun age => decide (age ≥ resetMinAge)) &&
    underFreshMatch prev.accepted input.cur known

def isFreshReset (input : CapturePlanInput) (held : Cols Bool) : Bool :=
  input.compare.any (input.freshResetFrom held)

def progressed (input : CapturePlanInput) (held : Cols Bool) : Bool :=
  !input.implausibleJump held && input.compare.any fun gate =>
    countersProgressed gate.accepted input.cur (knownCols gate held)

/-- The state `transition` reads on a capture. -/
def state (input : CapturePlanInput) (doubt : BoardDoubt) (now : Instant) : BoundaryState :=
  { BoundaryState.new none with
    deferred := if doubt.boardDeferred then some .zero else none
    outcome := input.inheritedOutcome
    resetStreak := input.streak
    resetBaseline := input.baseline
    baselineRow := input.baselineRow
    gate := input.prevGate
    hero := input.sessionHero
    pendingBoundary := input.pendingBoundary
    progressedBoards := input.progressedBoards
    awaitingFirstBoard := input.awaitingFirstBoard
    result :=
      if input.confirmedEnd then none
      else (input.hint.filter MatchOutcome.isDecided).map (⟨·, false, now⟩) }

/-- The caller measured a gap and a stat regression on a session that has a board of its own. -/
def gap (input : CapturePlanInput) : Bool :=
  !input.confirmedEnd && !input.suppressSameUnfinished &&
    (input.age.any fun age => decide (age ≥ input.minGap)) && input.classicRegressed &&
    !input.createSession && !input.awaitingFirstBoard

/-! ## The plan -/

def storedIfStay (input : CapturePlanInput) : MatchOutcome :=
  if input.inheritedOutcome.isDecided then input.inheritedOutcome else input.frameOutcome

/-- The row re-anchors the baseline.  The baseline's own row in the shape of a
new game does not, nor does a fresh-shaped or suspect row of another player. -/
def refreshes (input : CapturePlanInput) (doubt : BoardDoubt) (implausibleJump : Bool) : Bool :=
  let anchor := input.compare
  let freshShaped := anchor.any fun gate =>
    underFreshMatch gate.accepted input.cur (knownCols gate doubt.held)
  let sameOrUnset := input.baselineRow.isNone || sameBaselineRow input.baselineRow input.rowId
  let resetShaped :=
    sameBaselineRow input.baselineRow input.rowId && anchor.any fun gate =>
      matureBoard gate.accepted (knownCols gate doubt.held) &&
        underFreshMatch gate.accepted input.cur (knownCols gate doubt.held)
  input.rowId.isSome && input.rowCounts && !implausibleJump && !resetShaped &&
    (sameOrUnset || (!freshShaped && !doubt.suspectRow))

/-- A suspect row is not progress. -/
def counts (input : CapturePlanInput) (doubt : BoardDoubt) : Bool :=
  input.rowCounts && !doubt.suspectRow

/-- Only a refresh, or a counted progression, ends the streak. -/
def dropsStreak (input : CapturePlanInput) (doubt : BoardDoubt) (effect : Effect)
    (implausibleJump : Bool) : Bool :=
  input.refreshes doubt implausibleJump ||
    (input.counts doubt && (effect == .countProgress || effect == .clearHintAndAppend))

def stay (input : CapturePlanInput) (doubt : BoardDoubt) (effect : Effect)
    (implausibleJump : Bool) : CapturePlan where
  split := false
  defer := false
  ignoreRow := false
  skipStore := false
  clearHint := effect == .clearHintAndAppend && input.counts doubt
  resetStreak := if input.dropsStreak doubt effect implausibleJump then 0 else input.streak
  resetBaseline := if input.refreshes doubt implausibleJump then none else input.baseline
  baselineRow := if input.refreshes doubt implausibleJump then input.rowId else input.baselineRow
  refreshBaseline := input.refreshes doubt implausibleJump
  countProgress := effect == .countProgress && input.counts doubt
  storedOutcome := input.storedIfStay
  deferredCounters := none
  sealed := none
  closeReason := none

def hold (input : CapturePlanInput) (doubt : BoardDoubt) : CapturePlan where
  split := false
  defer := true
  ignoreRow := false
  skipStore := true
  clearHint := false
  resetStreak := saturatingAdd 32 input.streak 1
  resetBaseline := input.baseline.or input.prevGate
  baselineRow := input.baselineRow.or input.rowId
  refreshBaseline := false
  countProgress := false
  storedOutcome := input.storedIfStay
  -- A board with a held cell, and a suspect row, is no row of the next session.
  deferredCounters := if !anyCol doubt.held && !doubt.suspectRow then some input.cur else none
  sealed := none
  closeReason := none

def splitting (input : CapturePlanInput) (reason : CloseReason) (sealed : Option MatchOutcome)
    (newOutcome : MatchOutcome) : CapturePlan where
  split := true
  defer := false
  ignoreRow := false
  skipStore := false
  clearHint := false
  resetStreak := 0
  resetBaseline := none
  baselineRow := input.rowId
  refreshBaseline := false
  countProgress := false
  storedOutcome := newOutcome
  deferredCounters := none
  sealed := sealed
  closeReason := some reason

/-- `plan_from_effect`.  Poll effects are not capture plans, and a capture makes none. -/
def planFromEffect (input : CapturePlanInput) (doubt : BoardDoubt) (effect : Effect)
    (implausibleJump : Bool) : Option CapturePlan :=
  match effect with
  | .ignore | .seal _ | .rememberHint _ | .armPending | .primeReset => none
  | .append | .clearHintAndAppend | .countProgress => some (input.stay doubt effect implausibleJump)
  | .defer => some (input.hold doubt)
  | .split reason sealed newOutcome => some (input.splitting reason sealed newOutcome)

/-- The scoreboard as `transition` sees it. -/
def boardObs (input : CapturePlanInput) (doubt : BoardDoubt) : BoardObs where
  freshReset := input.isFreshReset doubt.held
  progressed := input.progressed doubt.held
  implausible := input.implausibleJump doubt.held
  frameOutcome := input.frameOutcome
  suspectRow := doubt.suspectRow

def earlySplit (input : CapturePlanInput) (doubt : BoardDoubt) (now : Instant) :
    Option (CloseReason × Option MatchOutcome × MatchOutcome) :=
  let state := input.state doubt now
  (if input.hintedDifferentMap then
    (transition state (.hintedDifferentMap input.frameOutcome)).asSplit else none).or
  (if input.gap then (transition state (.gap input.frameOutcome)).asSplit else none)

end CapturePlanInput

/-- Decide whether a capture closes the session; `now` only dates the hint the transition reads.
`none` is the `unreachable!` of `plan_from_effect`. -/
def planCaptureHeld (input : CapturePlanInput) (doubt : BoardDoubt) (now : Instant) :
    Option CapturePlan :=
  match input.earlySplit doubt now with
  | some (reason, sealed, newOutcome) => some (input.splitting reason sealed newOutcome)
  | none =>
      input.planFromEffect doubt
        (transition (input.state doubt now) (.board (input.boardObs doubt)))
        (input.implausibleJump doubt.held)

/-! ## Folding a capture that stayed -/

/-- The baseline a refresh takes: the anchor of a discarded board, or the accepted gate. -/
def refreshedBaseline (accepted : GateState) : GateState :=
  match accepted.boundaryAnchor with
  | some raw => { GateState.default with accepted := raw, lastRaw := raw }
  | none => { accepted with boundaryAnchor := none }

namespace BoundaryState

def holdBoard (state : BoundaryState) (plan : CapturePlan) : BoundaryState :=
  { state with
    baselineAt :=
      if state.resetBaseline.isNone && plan.resetBaseline.isSome then state.lastBoardAt
      else state.baselineAt
    resetStreak := plan.resetStreak
    resetBaseline := plan.resetBaseline
    baselineRow := plan.baselineRow
    deferred := plan.deferredCounters }

def storeBoard (state : BoundaryState) (plan : CapturePlan) (accepted : GateState) (now : Instant) :
    BoundaryState :=
  let ends := plan.refreshBaseline || plan.countProgress || plan.clearHint
  { state with
    deferred := if ends then none else state.deferred
    gate := some { accepted with boundaryAnchor := none }
    resetStreak := plan.resetStreak
    resetBaseline :=
      if plan.refreshBaseline then some (refreshedBaseline accepted) else plan.resetBaseline
    baselineRow := plan.baselineRow
    lastBoardAt := some now
    awaitingFirstBoard := false
    baselineAt := if plan.refreshBaseline then some now else state.baselineAt
    progressedBoards :=
      if plan.countProgress then saturatingAdd 8 state.progressedBoards 1
      else state.progressedBoards }

def dropHint (state : BoundaryState) (plan : CapturePlan) : BoundaryState :=
  let confirmedMark := state.outcome.isDecided || state.result.any ResultMark.confirmed
  if plan.clearHint && !confirmedMark then
    { state with
      result := none
      pendingBoundary := false
      progressedBoards := 0
      textFallbackLocked := false }
  else state

end BoundaryState

def noteAcceptedCapture (state : BoundaryState) (plan : CapturePlan) (accepted : GateState)
    (now : Instant) : BoundaryState :=
  if plan.ignoreRow then state
  else if plan.defer then state.holdBoard plan
  else (state.storeBoard plan accepted now).dropHint plan

namespace BoundaryState

variable (state : BoundaryState) (plan : CapturePlan)

@[simp]
theorem dropHint_resetStreak : (state.dropHint plan).resetStreak = state.resetStreak := by
  simp only [dropHint]
  split_ifs <;> rfl

@[simp]
theorem dropHint_resetBaseline : (state.dropHint plan).resetBaseline = state.resetBaseline := by
  simp only [dropHint]
  split_ifs <;> rfl

@[simp]
theorem dropHint_deferred : (state.dropHint plan).deferred = state.deferred := by
  simp only [dropHint]
  split_ifs <;> rfl

@[simp]
theorem dropHint_outcome : (state.dropHint plan).outcome = state.outcome := by
  simp only [dropHint]
  split_ifs <;> rfl

@[simp]
theorem dropHint_map : (state.dropHint plan).map = state.map := by
  simp only [dropHint]
  split_ifs <;> rfl

end BoundaryState

theorem noteAcceptedCapture_stored {state : BoundaryState} {plan : CapturePlan}
    (keeps : plan.ignoreRow = false) (stores : plan.defer = false) (accepted : GateState)
    (now : Instant) :
    noteAcceptedCapture state plan accepted now =
      (state.storeBoard plan accepted now).dropHint plan := by
  simp [noteAcceptedCapture, keeps, stores]

/-! ## What a plan can be -/

namespace CapturePlanInput

variable {input : CapturePlanInput} {doubt : BoardDoubt} {now : Instant}

theorem state_sealableHint (input : CapturePlanInput) (doubt : BoardDoubt) (now : Instant) :
    (input.state doubt now).sealableHint =
      if input.confirmedEnd then none else input.hint.filter MatchOutcome.isDecided := by
  unfold state BoundaryState.sealableHint
  cases input.confirmedEnd with
  | true => rfl
  | false =>
      cases hint : input.hint.filter MatchOutcome.isDecided with
      | none => rfl
      | some word =>
          have decided := (Option.filter_eq_some_iff.mp hint).2
          simp [ResultMark.hint, decided]

/-- The outcome of the session a gap opens. -/
def carriedOutcome (input : CapturePlanInput) : MatchOutcome :=
  if input.frameOutcome.isDecided then input.frameOutcome else .unknown

theorem asSplit_gapEffect (state : BoundaryState) (phase : Phase) (frameOutcome : MatchOutcome)
    {split : CloseReason × Option MatchOutcome × MatchOutcome}
    (splits : (gapEffect state phase frameOutcome).asSplit = some split) :
    split = (.statRegression, state.sealableHint,
      if frameOutcome.isDecided then frameOutcome else .unknown) := by
  rcases gapEffect_cases state phase frameOutcome with effect | effect <;>
    simp only [effect, Effect.asSplit] at splits
  · cases splits
  · exact (Option.some.inj splits).symm

/-- A split before the reset rule is a gap: it seals the hint and keeps the frame's outcome. -/
theorem earlySplit_eq_some {split : CloseReason × Option MatchOutcome × MatchOutcome}
    (splits : input.earlySplit doubt now = some split) :
    split = (.statRegression, (input.state doubt now).sealableHint, input.carriedOutcome) := by
  unfold earlySplit at splits
  rcases Option.or_eq_some_iff.mp splits with hinted | ⟨-, gapped⟩
  · split_ifs at hinted
    exact asSplit_gapEffect _ _ _ hinted
  · split_ifs at gapped
    exact asSplit_gapEffect _ _ _ gapped

theorem compare_isSome_of_fresh {held : Cols Bool} (fresh : input.isFreshReset held = true) :
    input.compare.isSome = true := by
  unfold isFreshReset at fresh
  cases compared : input.compare with
  | none => simp [compared] at fresh
  | some gate => rfl

/-- Whether the reset rule splits on a fresh board. -/
def commits (input : CapturePlanInput) (doubt : BoardDoubt) : Bool :=
  if doubt.suspectRow then decide (input.streak ≥ 2) || doubt.boardDeferred
  else decide (input.streak ≥ 1) || input.pendingBoundary

theorem commitsReset_state :
    commitsReset (input.state doubt now) doubt.suspectRow = input.commits doubt := by
  cases deferred : doubt.boardDeferred <;> simp [commitsReset, commits, state, deferred]

/-- A capture opens the next session after a gap, opens it for a stat reset, is held off the
session, or is stored on it. -/
theorem planCaptureHeld_cases (input : CapturePlanInput) (doubt : BoardDoubt) (now : Instant) :
    planCaptureHeld input doubt now = some (input.splitting .statRegression
        (input.state doubt now).sealableHint input.carriedOutcome) ∨
      (input.earlySplit doubt now = none ∧
        ((input.isFreshReset doubt.held = true ∧ input.commits doubt = true ∧
            planCaptureHeld input doubt now =
              some (input.splitting .statReset (input.state doubt now).sealableHint .unknown)) ∨
          (input.isFreshReset doubt.held = true ∧ input.commits doubt = false ∧
            planCaptureHeld input doubt now = some (input.hold doubt)) ∨
          ∃ effect, input.isFreshReset doubt.held = false ∧
            planCaptureHeld input doubt now =
              some (input.stay doubt effect (input.implausibleJump doubt.held)))) := by
  unfold planCaptureHeld
  cases early : input.earlySplit doubt now with
  | some split =>
      rcases earlySplit_eq_some early with rfl
      exact .inl rfl
  | none =>
      refine .inr ⟨rfl, ?_⟩
      simp only [transition]
      cases fresh : input.isFreshReset doubt.held with
      | true =>
          have board : (input.boardObs doubt).freshReset = true := fresh
          have commits :
              commitsReset (input.state doubt now) doubt.suspectRow = input.commits doubt :=
            commitsReset_state
          rw [boardEffect_of_fresh board]
          simp only [boardObs, commits]
          cases committed : input.commits doubt with
          | true => exact .inl ⟨trivial, rfl, rfl⟩
          | false => exact .inr (.inl ⟨trivial, rfl, rfl⟩)
      | false =>
          have board : (input.boardObs doubt).freshReset = false := fresh
          rcases boardEffect_of_not_fresh (input.state doubt now) board with
            effect | effect | effect <;> rw [effect] <;>
            exact .inr (.inr ⟨_, rfl, rfl⟩)

end CapturePlanInput

end ScuffedCrew.Boundary
