import ScuffedCrew.Boundary.Capture
import ScuffedCrew.Boundary.Poll
import ScuffedCrew.StateMachine.Run

/-!
# Runs of the session machine

A poll tick and a Tab each decide from the open session and are folded back
into it.  A decision that closes the session opens the next one in the same
step.  The reads of a tick and of a Tab are the event; what the decision takes
from the session is built here as the poller and the capture request build it.
-/

namespace ScuffedCrew.Boundary

open Rust CaptureGate StateMachine

/-- The open session, with the source of its map. -/
structure Session where
  state : BoundaryState
  mapSource : Option MapSource
  deriving DecidableEq

/-- What one poll tick reads off the screen. -/
structure Tick where
  signal : Option MatchOutcome
  signalConfirmed : Bool
  accoladeMap : Option Text
  startScreen : Option StartScreen
  blockMapVote : Bool
  now : Instant
  deriving DecidableEq

/-- What one Tab reads, and what its capture reports. -/
structure Tab where
  cur : Counters
  suspect : Cols Bool
  held : Cols Bool
  suspectRow : Bool
  rowCounts : Bool
  rowId : Option ℕ
  frameOutcome : MatchOutcome
  incomingMap : Option Text
  createSession : Bool
  suppressSameUnfinished : Bool
  minGap : Duration
  classicRegressed : Bool
  /-- The accepted gate of the capture. -/
  accepted : GateState
  hero : Option Text
  /-- The map the capture stores, and its source. -/
  mapRead : Option Text
  mapReadSource : Option MapSource
  /-- A sure banner read renames a text-fallback map. -/
  replacesTextFallback : Bool
  /-- The session takes over the outcome of the stored row. -/
  backFills : Bool
  now : Instant
  deriving DecidableEq

inductive Event
  | poll (tick : Tick)
  | tab (tab : Tab)
  deriving DecidableEq

namespace Session

def opened (map : Option Text) (mapSource : Option MapSource) : Session :=
  ⟨.new map, mapSource⟩

def mapIsTrusted (session : Session) : Bool :=
  session.mapSource.any MapSource.trustedForBoardSplit

/-! ## Polls -/

/-- `poll_input_from_game`. -/
def pollInput (session : Session) (tick : Tick) : PollInput where
  outcome := session.state.outcome
  result := session.state.result
  pendingBoundary := session.state.pendingBoundary
  awaitingFirstBoard := session.state.awaitingFirstBoard
  hasBoard := session.state.gate.isSome
  resetStreak := session.state.resetStreak
  map := session.state.map
  mapTrusted := session.mapIsTrusted
  hero := session.state.hero
  signal := tick.signal
  signalConfirmed := tick.signalConfirmed
  accoladeMap := tick.accoladeMap
  startScreen := tick.startScreen
  blockMapVote := tick.blockMapVote
  deferred := session.state.deferred.isSome
  textFallbackLocked := session.state.textFallbackLocked
  now := tick.now

def pollDecision (session : Session) (tick : Tick) : PollDecision :=
  decidePoll (session.pollInput tick)

def pollCommit (session : Session) (tick : Tick) : BoundaryState × PollCommit :=
  commitPoll session.state (session.pollDecision tick) tick.now

/-- `apply_poll_decision`: a map the poll names was read off the accolade. -/
def afterPoll (session : Session) (tick : Tick) : Session :=
  let (state, commit) := session.pollCommit tick
  { state := state
    mapSource :=
      if commit.closed.isSome then if state.map.isSome then some .accolade else none
      else if commit.adoptedMap.isSome then some .accolade
      else session.mapSource }

/-! ## Tabs -/

/-- `build_capture_request` and `plan_from_board`. -/
def planInput (session : Session) (tab : Tab) : CapturePlanInput where
  prevGate := if session.state.lastBoardAt.isSome then session.state.gate else none
  baseline := session.state.resetBaseline
  streak := session.state.resetStreak
  cur := tab.cur
  suspect := tab.suspect
  createSession := tab.createSession
  suppressSameUnfinished := tab.suppressSameUnfinished
  age := if session.state.gate.isSome then session.state.lastBoardAt.map (tab.now - ·) else none
  minGap := tab.minGap
  classicRegressed := tab.classicRegressed
  rowCounts := tab.rowCounts
  rowId := tab.rowId
  baselineRow := session.state.baselineRow
  confirmedEnd := session.state.outcome.isDecided
  inheritedOutcome := session.state.outcome
  frameOutcome := tab.frameOutcome
  sessionHero := session.state.hero
  hint := session.state.sealableHint
  baselineAge := session.state.baselineAt.map (tab.now - ·)
  progressedBoards := session.state.progressedBoards
  pendingBoundary := session.state.pendingBoundary
  awaitingFirstBoard := session.state.awaitingFirstBoard
  sessionMap := session.state.map
  sessionMapSource := session.mapSource
  incomingMap := tab.incomingMap

def doubt (session : Session) (tab : Tab) : BoardDoubt :=
  ⟨tab.held, tab.suspectRow, session.state.deferred.isSome⟩

def plan (session : Session) (tab : Tab) : Option CapturePlan :=
  planCaptureHeld (session.planInput tab) (session.doubt tab) tab.now

/-- `session_opened_by_split`. -/
def openedBySplit (plan : CapturePlan) (tab : Tab) : Session where
  state :=
    { BoundaryState.new tab.mapRead with
      outcome := plan.storedOutcome
      outcomeAt := if plan.storedOutcome.isDecided then some tab.now else none
      gate := some tab.accepted
      lastBoardAt := some tab.now
      baselineAt := some tab.now
      resetBaseline := some tab.accepted
      baselineRow := plan.baselineRow
      hero := tab.hero }
  mapSource := tab.mapReadSource

/-- A session with no map takes the map of the row, a trusted read of the same
name vouches for an untrusted one, and a sure banner read replaces it. -/
def adoptRead (session : Session) (tab : Tab) : Session :=
  match tab.mapRead with
  | none => session
  | some read =>
      let untrusted := !session.mapIsTrusted
      let incomingTrusted := tab.mapReadSource.any MapSource.trustedForBoardSplit
      match session.state.map with
      | none => ⟨{ session.state with map := some read }, tab.mapReadSource⟩
      | some map =>
          if map.eqIgnoreAsciiCase read && untrusted && incomingTrusted then
            { session with mapSource := tab.mapReadSource }
          else if tab.replacesTextFallback && untrusted && incomingTrusted then
            ⟨{ session.state with map := some read }, tab.mapReadSource⟩
          else session

/-- `note_result` of a confirmed outcome, with `record_outcome_at`. -/
def backFill (session : Session) (outcome : MatchOutcome) (now : Instant) : Session :=
  if !session.state.outcome.isDecided && outcome.isDecided then
    let seenAt :=
      ((session.state.result.filter fun mark => mark.outcome == outcome).map
        ResultMark.seenAt).getD now
    { session with
      state :=
        { session.state with
          outcome := outcome
          outcomeAt := some now
          result := some ⟨outcome, true, seenAt⟩
          pendingBoundary := false } }
  else session

def noted (session : Session) (plan : CapturePlan) (tab : Tab) : Session :=
  { session with
    state :=
      { noteAcceptedCapture session.state plan tab.accepted tab.now with hero := tab.hero } }

/-- `apply_capture_report` of a row stored on this session. -/
def stored (session : Session) (plan : CapturePlan) (tab : Tab) : Session :=
  let read := (session.noted plan tab).adoptRead tab
  if tab.backFills then read.backFill plan.storedOutcome tab.now else read

def afterTab (session : Session) (plan : CapturePlan) (tab : Tab) : Session :=
  if plan.split then openedBySplit plan tab
  else if plan.defer then
    { session with state := noteAcceptedCapture session.state plan tab.accepted tab.now }
  else session.stored plan tab

def closes (session : Session) : Event → Option CloseRecord
  | .poll tick => (session.pollCommit tick).2.closed
  | .tab tab =>
      (session.plan tab).bind fun plan =>
        if plan.split then
          some ⟨plan.closeReason.getD .statReset,
            outcomeSealedOnClose session.state.outcome plan.sealed⟩
        else none

end Session

/-- The session machine. -/
def night : Machine Session Event where
  next session
    | .poll tick => some (session.afterPoll tick)
    | .tab tab => (session.plan tab).map fun plan => session.afterTab plan tab

/-! ## What a poll does -/

namespace Session

variable {session : Session} {tick : Tick}

theorem closes_poll_eq_some {record : CloseRecord}
    (closes : session.closes (.poll tick) = some record) :
    ∃ new, session.pollDecision tick = .open new ∧
      record = ⟨new.reason, outcomeSealedOnClose session.state.outcome new.sealOutcome⟩ := by
  simp only [Session.closes, pollCommit] at closes
  cases decided : session.pollDecision tick with
  | «open» new =>
      rw [decided] at closes
      exact ⟨new, rfl, (Option.some.inj closes).symm⟩
  | keep | ignoreContradictory | update =>
      rw [decided] at closes
      cases closes

theorem afterPoll_open {new : OpenNew} (decided : session.pollDecision tick = .open new) :
    session.afterPoll tick =
      ⟨.opened new tick.now, if new.newMap.isSome then some .accolade else none⟩ := by
  simp only [afterPoll, pollCommit, decided]
  rfl

theorem afterPoll_update {update : UpdateCurrent}
    (decided : session.pollDecision tick = .update update) :
    session.afterPoll tick =
      ⟨session.state.update update tick.now,
        if update.adoptMap.isSome then some .accolade else session.mapSource⟩ := by
  simp only [afterPoll, pollCommit, decided]
  rfl

theorem afterPoll_cases (stays : session.closes (.poll tick) = none) :
    session.afterPoll tick = session ∨
      ∃ update, session.pollDecision tick = .update update := by
  cases decided : session.pollDecision tick with
  | «open» new =>
      simp only [Session.closes, pollCommit, decided] at stays
      cases stays
  | keep | ignoreContradictory =>
      left
      simp only [afterPoll, pollCommit, decided]
      rfl
  | update update => exact .inr ⟨update, rfl⟩

end Session

/-! ## What a stored row changes -/

namespace Session

theorem adoptRead_eq (session : Session) (tab : Tab) :
    ∃ map source, session.adoptRead tab = ⟨{ session.state with map := map }, source⟩ := by
  unfold adoptRead
  cases tab.mapRead with
  | none => exact ⟨session.state.map, session.mapSource, rfl⟩
  | some read =>
      cases stored : session.state.map with
      | none => exact ⟨some read, _, rfl⟩
      | some map =>
          simp only []
          split_ifs
          · exact ⟨some map, tab.mapReadSource, by rw [← stored]⟩
          · exact ⟨some read, _, rfl⟩
          · exact ⟨some map, session.mapSource, by rw [← stored]⟩

/-- The outcome of a row is taken over by a session that has none, as a confirmed result. -/
theorem backFill_eq (session : Session) (outcome : MatchOutcome) (now : Instant) :
    session.backFill outcome now = session ∨
      ∃ mark, mark.confirmed = true ∧ session.state.outcome.isDecided = false ∧
        session.backFill outcome now =
          { session with
            state :=
              { session.state with
                outcome := outcome
                outcomeAt := some now
                result := some mark
                pendingBoundary := false } } := by
  unfold backFill
  split_ifs with fills
  · right
    simp only [Bool.and_eq_true, Bool.not_eq_true'] at fills
    exact ⟨_, rfl, fills.1, rfl⟩
  · exact .inl rfl

end Session

/-! ## What a Tab plans -/

namespace Session

variable {session after : Session} {tab : Tab} {plan : CapturePlan}

def openHint (session : Session) : Option MatchOutcome :=
  if session.state.outcome.isDecided then none else session.state.sealableHint

theorem planInput_hint (session : Session) (tab : Tab) :
    ((session.planInput tab).state (session.doubt tab) tab.now).sealableHint =
      session.openHint := by
  rw [CapturePlanInput.state_sealableHint]
  cases hint : session.state.sealableHint with
  | none => simp [openHint, planInput, hint]
  | some word =>
      have decided := BoundaryState.sealableHint_isDecided hint
      simp [openHint, planInput, hint, Option.filter, decided]

/-- The plan of a Tab: a gap, a stat reset, a hold, or a row of this session. -/
theorem plan_cases (planned : session.plan tab = some plan) :
    plan = (session.planInput tab).splitting .statRegression session.openHint
        (session.planInput tab).carriedOutcome ∨
      ((session.planInput tab).earlySplit (session.doubt tab) tab.now = none ∧
        (((session.planInput tab).isFreshReset tab.held = true ∧
            (session.planInput tab).commits (session.doubt tab) = true ∧
            plan = (session.planInput tab).splitting .statReset session.openHint .unknown) ∨
          ((session.planInput tab).isFreshReset tab.held = true ∧
            (session.planInput tab).commits (session.doubt tab) = false ∧
            plan = (session.planInput tab).hold (session.doubt tab)) ∨
          ∃ effect implausibleJump, (session.planInput tab).isFreshReset tab.held = false ∧
            plan = (session.planInput tab).stay (session.doubt tab) effect implausibleJump)) := by
  have cases := (session.planInput tab).planCaptureHeld_cases (session.doubt tab) tab.now
  rw [planInput_hint, show planCaptureHeld _ _ _ = some plan from planned] at cases
  simp only [Option.some.injEq] at cases
  rcases cases with gap | ⟨early, reset | held | ⟨effect, stays⟩⟩
  · exact .inl gap
  · exact .inr ⟨early, .inl reset⟩
  · exact .inr ⟨early, .inr (.inl held)⟩
  · exact .inr ⟨early, .inr (.inr ⟨effect, _, stays⟩)⟩

theorem closes_tab (planned : session.plan tab = some plan) :
    (session.closes (.tab tab)).isSome = plan.split := by
  cases splits : plan.split <;> simp [closes, planned, splits]

theorem closes_tab_eq_none (planned : session.plan tab = some plan) (stays : plan.split = false) :
    session.closes (.tab tab) = none := by
  simp [closes, planned, stays]

theorem plan_isSome (session : Session) (tab : Tab) : (session.plan tab).isSome = true := by
  rcases (session.planInput tab).planCaptureHeld_cases (session.doubt tab) tab.now with
    planned | ⟨-, ⟨-, -, planned⟩ | ⟨-, -, planned⟩ | ⟨effect, -, planned⟩⟩ <;>
  simp [Session.plan, planned]

end Session

theorem next_tab {session after : Session} {tab : Tab}
    (step : night.next session (.tab tab) = some after) :
    ∃ plan, session.plan tab = some plan ∧ after = session.afterTab plan tab := by
  rcases Option.map_eq_some_iff.mp step with ⟨plan, planned, rfl⟩
  exact ⟨plan, planned, rfl⟩

theorem next_poll {session after : Session} {tick : Tick}
    (step : night.next session (.poll tick) = some after) : after = session.afterPoll tick :=
  (Option.some.inj step).symm

end ScuffedCrew.Boundary
