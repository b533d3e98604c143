import ScuffedCrew.Boundary.SealedOutcome

/-!
# Outcomes and maps

Which session a result word ends up on, when its end screen or its board names
another map than the session does.  A poll compares the two maps when it reads
the word; a capture files the word of a board with the row.
-/

namespace ScuffedCrew.Boundary

open Rust CaptureGate StateMachine

variable {session after : Session} {event : Event} {tick : Tick} {tab : Tab} {plan : CapturePlan}
  {word : MatchOutcome}

namespace Session

/-- How a map sits against the trusted map of the session. -/
def relation (session : Session) (map : Option Text) : MapRelation :=
  mapRelation (if session.mapIsTrusted then session.state.map else none) map

end Session

/-! ## Words on the poll path -/

def KeepsResult (step : Step Session Event) : Prop :=
  step.before.closes step.event = none ∧
    step.after.state.outcome = step.before.state.outcome ∧
    step.after.state.result = step.before.state.result

/-- The step opens a session, which takes the word and the map of the end screen or no result. -/
def CarriesWord (tick : Tick) (step : Step Session Event) : Prop :=
  (step.before.closes step.event).isSome = true ∧ step.after.state.result = none ∧
    (step.after.state.outcome = .unknown ∨
      tick.signal = some step.after.state.outcome ∧
        step.after.state.map = namedMap tick.accoladeMap ∧
        step.after.mapSource = some .accolade)

theorem keepsResult_of_quiet
    (quiet : (session.pollInput tick).Quiet (session.pollDecision tick)) :
    KeepsResult ⟨session, .poll tick, session.afterPoll tick⟩ := by
  have stays : session.closes (.poll tick) = none := by
    rw [Option.eq_none_iff_forall_ne_some]
    intro record closes
    rcases Session.closes_poll_eq_some closes with ⟨new, opens, -⟩
    rw [opens] at quiet
    exact quiet
  refine ⟨stays, ?_⟩
  rcases Session.afterPoll_cases stays with same | ⟨update, updates⟩
  · simp only [same, and_self]
  · rw [updates] at quiet
    have same : update.result = session.state.result := quiet.2
    simp [Session.afterPoll_update updates, BoundaryState.recorded, quiet.1, same]

theorem word_of_other_map (differs : session.relation tick.accoladeMap = .differs) :
    KeepsResult ⟨session, .poll tick, session.afterPoll tick⟩ ∨
      CarriesWord tick ⟨session, .poll tick, session.afterPoll tick⟩ := by
  rcases decidePoll_cases (session.pollInput tick) with quiet | ⟨_, -, agrees, -⟩ |
    ⟨sealed, outcome, map, -, opens, source⟩
  · exact .inl (keepsResult_of_quiet quiet)
  · exact absurd differs agrees
  · right
    cases decided : session.pollDecision tick with
    | «open» new =>
        rw [show decidePoll (session.pollInput tick) = .open new from decided] at opens
        rcases opens with ⟨-, rfl, rfl, noResult⟩
        refine ⟨by simp [Session.closes, Session.pollCommit, decided, commitPoll], ?_, ?_⟩
        · simp [Session.afterPoll_open decided, BoundaryState.opened, noResult]
        · simp only [Session.afterPoll_open decided, BoundaryState.opened]
          rcases source with ⟨unknown, -⟩ | ⟨read, -, named⟩
          · exact .inl unknown
          · rcases mapRelation_eq_differs.mp differs with ⟨-, name, -, accolade, -⟩
            refine .inr ⟨(Option.filter_eq_some_iff.mp read).1, named, ?_⟩
            rw [named, show (session.pollInput tick).accoladeMap = tick.accoladeMap from rfl,
              accolade]
            rfl
    | keep | ignoreContradictory | update =>
        rw [show decidePoll (session.pollInput tick) = _ from decided] at opens
        cases opens

/-! ## Boards -/

/-- The session holds a hint, and has no board of its own or none within the gap. -/
def HintedLate (session : Session) (tab : Tab) : Prop :=
  session.openHint.isSome = true ∧ session.state.awaitingFirstBoard = false ∧
    ((session.planInput tab).prevGate = none ∨
      ∃ age, (session.planInput tab).age = some age ∧ tab.minGap ≤ age)

/-- The step opens a session with the outcome of the frame. -/
def CarriesFrame (tab : Tab) (step : Step Session Event) : Prop :=
  (step.before.closes step.event).isSome = true ∧ step.after.state.result = none ∧
    step.after.state.outcome = if tab.frameOutcome.isDecided then tab.frameOutcome else .unknown

theorem undecided_of_openHint {hint : MatchOutcome} (holds : session.openHint = some hint) :
    session.state.outcome.isDecided = false ∧ session.state.sealableHint = some hint := by
  unfold Session.openHint at holds
  split_ifs at holds with decided
  exact ⟨by simpa using decided, holds⟩

theorem trusted_of_differs {map : Option Text} (differs : session.relation map = .differs) :
    session.mapIsTrusted = true ∧ mapRelation session.state.map map = .differs := by
  unfold Session.relation at differs
  split_ifs at differs with trusted
  · exact ⟨trusted, differs⟩
  · cases differs

theorem hintedDifferentMap_of_differs (differs : session.relation tab.incomingMap = .differs)
    (hinted : HintedLate session tab) :
    (session.planInput tab).hintedDifferentMap = true := by
  rcases hinted with ⟨hint, -, late⟩
  rcases Option.isSome_iff_exists.mp hint with ⟨word, hint⟩
  rcases undecided_of_openHint hint with ⟨undecided, held⟩
  rcases trusted_of_differs differs with ⟨trusted, differs⟩
  have word_decided := BoundaryState.sealableHint_isDecided held
  have names : mapRelation (session.planInput tab).sessionMap (session.planInput tab).incomingMap =
      .differs := differs
  have source :
      (session.planInput tab).sessionMapSource.any MapSource.trustedForBoardSplit = true :=
    trusted
  have open_hint : ((session.planInput tab).confirmedEnd ||
      ((session.planInput tab).hint.filter MatchOutcome.isDecided).isNone) = false := by
    simp [Session.planInput, undecided, held, Option.filter, word_decided]
  simp only [CapturePlanInput.hintedDifferentMap, open_hint, names, source]
  rcases late with none | ⟨age, some, old⟩
  · simp [none]
  · simp [some, show (session.planInput tab).minGap = tab.minGap from rfl, old]

theorem phaseOf_of_hinted (hinted : HintedLate session tab) :
    ((session.planInput tab).state (session.doubt tab) tab.now).phaseOf = .postResultStreak := by
  rcases hinted with ⟨hint, running, -⟩
  rcases Option.isSome_iff_exists.mp hint with ⟨word, hint⟩
  have undecided : ((session.planInput tab).state (session.doubt tab) tab.now).outcome.isDecided =
      false := (undecided_of_openHint hint).1
  have started : ((session.planInput tab).state (session.doubt tab)
      tab.now).awaitingFirstBoard = false := running
  simp only [BoundaryState.phaseOf, undecided, started, Session.planInput_hint, hint]
  rfl

theorem board_of_other_map (planned : session.plan tab = some plan)
    (differs : session.relation tab.incomingMap = .differs) (hinted : HintedLate session tab) :
    CarriesFrame tab ⟨session, .tab tab, session.afterTab plan tab⟩ := by
  have early : (session.planInput tab).earlySplit (session.doubt tab) tab.now =
      some (.statRegression, session.openHint, (session.planInput tab).carriedOutcome) := by
    simp only [CapturePlanInput.earlySplit, hintedDifferentMap_of_differs differs hinted, if_true,
      transition, phaseOf_of_hinted hinted, gapEffect, Effect.asSplit, Session.planInput_hint,
      Option.some_or]
    rfl
  rcases Session.plan_cases planned with rfl | ⟨stays, -⟩
  · exact ⟨by rw [Session.closes_tab planned]; rfl, rfl, rfl⟩
  · rw [early] at stays
    cases stays

/-! ## Where a hint was read -/

theorem result_adoptRead (session : Session) (tab : Tab) :
    (session.adoptRead tab).state.result = session.state.result := by
  rcases session.adoptRead_eq tab with ⟨map, source, read⟩
  rw [read]

theorem hint_backFill {outcome : MatchOutcome} {now : Instant}
    (hint : (session.backFill outcome now).state.sealableHint = some word) :
    session.state.sealableHint = some word := by
  rcases session.backFill_eq outcome now with same | ⟨mark, confirmed, -, filled⟩
  · rwa [same] at hint
  · rw [filled] at hint
    simp [BoundaryState.sealableHint, ResultMark.hint, confirmed] at hint

theorem hint_noted (keeps : plan.ignoreRow = false) (stores : plan.defer = false)
    (hint : (session.noted plan tab).state.sealableHint = some word) :
    session.state.sealableHint = some word := by
  simp only [Session.noted, noteAcceptedCapture_stored keeps stores, BoundaryState.sealableHint,
    BoundaryState.dropHint] at hint
  split_ifs at hint
  · cases hint
  · exact hint

theorem hint_stored (keeps : plan.ignoreRow = false) (stores : plan.defer = false)
    (hint : (session.stored plan tab).state.sealableHint = some word) :
    session.state.sealableHint = some word := by
  have read (hint : ((session.noted plan tab).adoptRead tab).state.sealableHint = some word) :
      session.state.sealableHint = some word := by
    rw [BoundaryState.sealableHint, result_adoptRead] at hint
    exact hint_noted keeps stores hint
  simp only [Session.stored] at hint
  split_ifs at hint
  · exact read (hint_backFill hint)
  · exact read hint

theorem hint_tab (planned : session.plan tab = some plan)
    (hint : (session.afterTab plan tab).state.sealableHint = some word) :
    session.state.sealableHint = some word ∧ session.closes (.tab tab) = none := by
  rcases Session.plan_cases planned with rfl | ⟨-, ⟨-, -, rfl⟩ | ⟨-, -, rfl⟩ |
    ⟨effect, implausibleJump, -, rfl⟩⟩
  · cases hint
  · cases hint
  · exact ⟨hint, Session.closes_tab_eq_none planned rfl⟩
  · exact ⟨hint_stored rfl rfl hint, Session.closes_tab_eq_none planned rfl⟩

/-- A poll reads the word, with a map that does not contradict the trusted one. -/
def ReadsOnItsMap (word : MatchOutcome) (step : Step Session Event) : Prop :=
  ∃ tick, step.event = .poll tick ∧ tick.signal = some word ∧
    step.before.relation tick.accoladeMap ≠ .differs

def KeepsHint (word : MatchOutcome) (step : Step Session Event) : Prop :=
  step.before.closes step.event = none ∧ step.before.state.sealableHint = some word

theorem hint_poll (hint : (session.afterPoll tick).state.sealableHint = some word) :
    ReadsOnItsMap word ⟨session, .poll tick, session.afterPoll tick⟩ ∨
      KeepsHint word ⟨session, .poll tick, session.afterPoll tick⟩ := by
  rcases decidePoll_cases (session.pollInput tick) with quiet | ⟨read, signal, agrees, stores⟩ |
    ⟨sealed, outcome, map, -, opens, -⟩
  · rcases keepsResult_of_quiet quiet with ⟨stays, -, result⟩
    refine .inr ⟨stays, ?_⟩
    rw [BoundaryState.sealableHint] at hint ⊢
    exact result ▸ hint
  · left
    cases decided : session.pollDecision tick with
    | update update =>
        rw [show decidePoll (session.pollInput tick) = _ from decided] at stores
        rcases stores with ⟨mark, marked, rfl, -⟩
        rw [BoundaryState.sealableHint, Session.afterPoll_update decided,
          BoundaryState.update_result, marked] at hint
        rcases ResultMark.hint_eq_some.mp hint with ⟨-, rfl, -⟩
        exact ⟨tick, rfl, (Option.filter_eq_some_iff.mp signal).1, agrees⟩
    | keep | ignoreContradictory | «open» =>
        rw [show decidePoll (session.pollInput tick) = _ from decided] at stores
        cases stores
  · exfalso
    cases decided : session.pollDecision tick with
    | «open» new =>
        rw [show decidePoll (session.pollInput tick) = _ from decided] at opens
        rcases opens with ⟨-, -, -, noResult⟩
        rw [Session.afterPoll_open decided] at hint
        simp [BoundaryState.sealableHint, BoundaryState.opened, noResult] at hint
    | keep | ignoreContradictory | update =>
        rw [show decidePoll (session.pollInput tick) = _ from decided] at opens
        cases opens

/-- The hint of a session was read by a poll of that session, on no other trusted map. -/
theorem hint_read_on_its_map {map : Option Text} {mapSource : Option MapSource}
    {steps : List (Step Session Event)} {final : Session}
    (run : night.Run (.opened map mapSource) steps final) :
    ∀ word, final.state.sealableHint = some word →
      Since (ReadsOnItsMap word) (KeepsHint word) steps := by
  refine run.history (fun steps session => ∀ word, session.state.sealableHint = some word →
    Since (ReadsOnItsMap word) (KeepsHint word) steps) ?_ ?_
  · intro word hint
    cases hint
  · intro steps session event after taken earlier word hint
    rw [Since.snoc_iff]
    cases event with
    | poll tick =>
        rcases next_poll taken with rfl
        rcases hint_poll hint with read | kept
        · exact .inl read
        · exact .inr ⟨kept, earlier word kept.2⟩
    | tab tab =>
        rcases next_tab taken with ⟨plan, planned, rfl⟩
        rcases hint_tab planned hint with ⟨held, stays⟩
        exact .inr ⟨⟨stays, held⟩, earlier word held⟩

/-! ## A whole run -/

def busan : Text := ['B', 'u', 's', 'a', 'n']

def oasis : Text := ['O', 'a', 's', 'i', 's']

def junkertown : Text := ['J', 'u', 'n', 'k', 'e', 'r', 't', 'o', 'w', 'n']

/-- A poll tick that reads no start screen. -/
def wordTick (signal : Option MatchOutcome) (signalConfirmed : Bool) (accoladeMap : Option Text) :
    Tick where
  signal := signal
  signalConfirmed := signalConfirmed
  accoladeMap := accoladeMap
  startScreen := none
  blockMapVote := false
  now := 0

def readMap : Event → Option Text
  | .poll tick => tick.accoladeMap
  | .tab tab => tab.incomingMap

def StoresWord (word : MatchOutcome) (step : Step Session Event) : Prop :=
  step.before.closes step.event = none ∧ word.isDecided = true ∧
    (step.after.state.outcome = word ∧ step.before.state.outcome ≠ word ∨
      step.after.state.result ≠ step.before.state.result ∧
        step.after.state.result.map ResultMark.outcome = some word)

/-- No word is stored on a session, nor sealed onto it, whose trusted map is not the one the word
was read on. -/
def OutcomeOnItsMap (steps : List (Step Session Event)) : Prop :=
  (∀ step ∈ steps, ∀ word, StoresWord word step →
      step.before.relation (readMap step.event) ≠ .differs) ∧
    ∀ earlier read between close later word record,
      steps = earlier ++ read :: (between ++ close :: later) → StoresWord word read →
      (∀ other ∈ between, other.before.closes other.event = none ∧
        other.after.state.result = other.before.state.result) →
      close.before.closes close.event = some record → record.sealed = some word →
      close.before.relation (readMap read.event) ≠ .differs

/-- A first board with a victory header, whose top bar names another map. -/
def headerOfOtherMap : Tab where
  cur := ⟨4, 2, 1, 900, 0, 0⟩
  suspect := .splat false
  held := .splat false
  suspectRow := false
  rowCounts := true
  rowId := some 0
  frameOutcome := .victory
  incomingMap := some junkertown
  createSession := true
  suppressSameUnfinished := false
  minGap := .fromSecs 120
  classicRegressed := false
  accepted :=
    { GateState.default with accepted := ⟨4, 2, 1, 900, 0, 0⟩, lastRaw := ⟨4, 2, 1, 900, 0, 0⟩ }
  hero := none
  mapRead := some busan
  mapReadSource := none
  replacesTextFallback := false
  backFills := true
  now := Duration.fromSecs 60

def heroSelect : Tick := { wordTick none false none with startScreen := some .heroSelect }

def nextVote : Tick := { wordTick none false none with startScreen := some (.mapVote []) }

/-- A primed session with a text-fallback map remembers a defeat read on Busan, a board clears the
streak, and the session takes the accolade of Junkertown before the next vote. -/
def lateAccolade : List Event :=
  [.poll heroSelect, .poll (wordTick (some .defeat) false (some busan)),
    .tab
      { headerOfOtherMap with
        frameOutcome := .unknown
        incomingMap := some oasis
        mapRead := none },
    .poll (wordTick none false (some junkertown)), .poll nextVote]

end ScuffedCrew.Boundary
