import ScuffedCrew.Boundary.Transition

/-!
# Poll ticks

`decidePoll` says what a poll tick does to the open session, and `commitPoll`
folds that decision into its state.
-/

namespace ScuffedCrew.Boundary

open Rust CaptureGate

/-- One poll tick, as the session machine sees it. -/
structure PollInput where
  outcome : MatchOutcome
  result : Option ResultMark
  pendingBoundary : Bool
  awaitingFirstBoard : Bool
  hasBoard : Bool
  resetStreak : ℕ
  map : Option Text
  /-- False when the map is a full-board text fallback. -/
  mapTrusted : Bool
  hero : Option Text
  signal : Option MatchOutcome
  /-- The second agreeing word inside the confirm window. -/
  signalConfirmed : Bool
  accoladeMap : Option Text
  startScreen : Option StartScreen
  blockMapVote : Bool
  deferred : Bool
  textFallbackLocked : Bool
  now : Instant
  deriving DecidableEq

structure OpenNew where
  reason : CloseReason
  sealOutcome : Option MatchOutcome
  newOutcome : MatchOutcome
  newMap : Option Text
  candidates : List Text
  newResult : Option ResultMark
  deriving DecidableEq

structure UpdateCurrent where
  recordOutcome : Option MatchOutcome
  adoptMap : Option Text
  result : Option ResultMark
  armPending : Bool
  armReset : Bool
  clearAwaiting : Bool
  deriving DecidableEq

inductive PollDecision
  | keep
  | ignoreContradictory (kept ignored : MatchOutcome)
  | update (update : UpdateCurrent)
  | «open» (new : OpenNew)
  deriving DecidableEq

namespace PollInput

/-- `trusted_session_map`: a text fallback is absent. -/
def trustedSessionMap (input : PollInput) : Option Text :=
  if input.mapTrusted then input.map else none

def word (input : PollInput) : Option MatchOutcome := input.signal.filter MatchOutcome.isDecided

/-- A text-fallback name is replaced only while no boundary signal has been seen. -/
def textFallbackOpenForAccolade (input : PollInput) : Bool :=
  if input.textFallbackLocked || input.pendingBoundary || input.startScreen.isSome ||
      input.deferred || decide (input.resetStreak > 0) || input.outcome.isDecided then false
  else match input.result.bind ResultMark.hint, input.word with
    | some hint, some signal => !(hint != signal)
    | _, _ => true

def adoptMap (input : PollInput) : Option Text :=
  match namedMap input.accoladeMap with
  | none => none
  | some accolade =>
      if (namedMap input.trustedSessionMap).isSome then none
      else if input.map.isSome && !input.textFallbackOpenForAccolade then none
      else some accolade

def seenAt (input : PollInput) (outcome : MatchOutcome) : Instant :=
  ((input.result.filter fun mark => mark.outcome == outcome).map ResultMark.seenAt).getD input.now

def confirmedMark (input : PollInput) (outcome : MatchOutcome) : ResultMark :=
  ⟨outcome, true, input.seenAt outcome⟩

/-- The state `transition` reads on a poll: only the presence of a gate and of a held board. -/
def state (input : PollInput) : BoundaryState :=
  { BoundaryState.new input.map with
    outcome := input.outcome
    result := input.result
    pendingBoundary := input.pendingBoundary
    awaitingFirstBoard := input.awaitingFirstBoard
    resetStreak := input.resetStreak
    hero := input.hero
    gate := if input.hasBoard then some .default else none
    deferred := if input.deferred then some .zero else none }

/-- How the accolade of the tick sits against the trusted session map. -/
def relation (input : PollInput) : MapRelation :=
  mapRelation input.trustedSessionMap input.accoladeMap

def wordObs (input : PollInput) (signal : MatchOutcome) : Obs :=
  if input.relation = .differs ∧ input.signalConfirmed = true then
    .endScreenDifferentMap signal ((namedMap input.accoladeMap).getD [])
  else if input.signalConfirmed then .confirmedWord signal
  else .unconfirmedWord signal input.relation

/-- A start screen goes before a word; a tick with neither makes no observation. -/
def obs (input : PollInput) : Option Obs :=
  match input.startScreen with
  | some screen => some (.startScreen screen input.blockMapVote)
  | none => input.word.map input.wordObs

/-- Adopt an accolade map and change nothing else, or keep the session. -/
def adoptOr (input : PollInput) (otherwise : PollDecision) : PollDecision :=
  match input.adoptMap with
  | some map =>
      .update
        { recordOutcome := none
          adoptMap := some map
          result := input.result
          armPending := false
          armReset := false
          clearAwaiting := false }
  | none => otherwise

def kept (input : PollInput) : Option MatchOutcome :=
  if input.outcome.isDecided then some input.outcome
  else (input.result.map ResultMark.outcome).filter MatchOutcome.isDecided

def ignored (input : PollInput) (obs : Obs) : PollDecision :=
  let contradictory :=
    match input.word, input.kept with
    | some signal, some kept =>
        if kept ≠ signal then .ignoreContradictory kept signal else .keep
    | _, _ => .keep
  match obs with
  | .unconfirmedWord _ relation =>
      if !unconfirmedReplaces input.pendingBoundary relation then .keep
      else input.adoptOr contradictory
  | _ => input.adoptOr contradictory

/-- The decision an effect stands for. -/
def decision (input : PollInput) (obs : Obs) : Effect → PollDecision
  | .ignore => input.ignored obs
  | .seal outcome =>
      .update
        { recordOutcome := some outcome
          adoptMap := input.adoptMap
          result := some (input.confirmedMark outcome)
          armPending := false
          armReset := false
          clearAwaiting := true }
  | .rememberHint outcome =>
      let result : ResultMark := ⟨outcome, false, input.seenAt outcome⟩
      if input.result = some result ∧ input.awaitingFirstBoard = false then .keep
      else
        .update
          { recordOutcome := none
            adoptMap := input.adoptMap
            result := some result
            armPending := false
            armReset := false
            clearAwaiting := true }
  | .armPending =>
      .update
        { recordOutcome := none
          adoptMap := none
          result := input.result
          armPending := true
          armReset := false
          clearAwaiting := false }
  | .primeReset =>
      .update
        { recordOutcome := none
          adoptMap := none
          result := input.result
          armPending := false
          armReset := true
          clearAwaiting := false }
  | .split reason sealed newOutcome =>
      let (reason, candidates) :=
        if reason = .statReset then (reason, [])
        else match input.startScreen with
          | some screen => screenReason screen
          | none => (reason, [])
      let newMap :=
        match obs with
        | .endScreenDifferentMap _ map => namedMap (some map)
        | _ => none
      .open
        { reason := reason
          sealOutcome := sealed
          newOutcome := newOutcome
          newMap := newMap
          candidates := candidates
          newResult := none }
  | .append | .clearHintAndAppend | .countProgress | .defer => .keep

end PollInput

/-- What a poll tick does to the open session. -/
def decidePoll (input : PollInput) : PollDecision :=
  match input.obs with
  | none => input.adoptOr .keep
  | some obs => input.decision obs (transition input.state obs)

/-! ## Commit -/

/-- A session `commitPoll` closed, with the outcome to store on it. -/
structure CloseRecord where
  reason : CloseReason
  sealed : Option MatchOutcome
  deriving DecidableEq

structure PollCommit where
  recordedOutcome : Option MatchOutcome
  adoptedMap : Option Text
  closed : Option CloseRecord
  deriving DecidableEq

namespace BoundaryState

/-- An arm and a prime count as the first reset signal, unless a board is held. -/
def arm (state : BoundaryState) (update : UpdateCurrent) : BoundaryState :=
  let primes := (update.armPending || update.armReset) && state.deferred.isNone
  { state with
    pendingBoundary := state.pendingBoundary || update.armPending
    resetStreak := if primes then max state.resetStreak 1 else state.resetStreak }

def mark (state : BoundaryState) (result : Option ResultMark) : BoundaryState :=
  match result with
  | none => state
  | some mark =>
      let contradicts :=
        state.result.any fun prev => prev.outcome.isDecided && prev.outcome != mark.outcome
      let replaced :=
        state.result.all fun prev =>
          prev.outcome != mark.outcome || prev.confirmed != mark.confirmed
      { state with
        textFallbackLocked := state.textFallbackLocked || contradicts
        progressedBoards := if replaced then 0 else state.progressedBoards
        result := some mark }

/-- The outcome an update records: a decided one, on a session that has none. -/
def recorded (state : BoundaryState) (recordOutcome : Option MatchOutcome) :
    Option MatchOutcome :=
  recordOutcome.filter fun outcome => outcome.isDecided && !state.outcome.isDecided

/-- Grace starts when the outcome is recorded, not when the word was first seen. -/
def record (state : BoundaryState) (recorded : Option MatchOutcome) (now : Instant) :
    BoundaryState :=
  match recorded with
  | none => state
  | some outcome =>
      { state with
        outcome := outcome
        outcomeAt := some now
        pendingBoundary := false
        awaitingFirstBoard := false }

/-- The update arm of `commit_poll`. -/
def update (state : BoundaryState) (update : UpdateCurrent) (now : Instant) : BoundaryState :=
  let armed := state.arm update
  let waiting :=
    { armed with awaitingFirstBoard := armed.awaitingFirstBoard && !update.clearAwaiting }
  let marked := waiting.mark update.result
  let stamped := marked.record (marked.recorded update.recordOutcome) now
  { stamped with map := update.adoptMap.or stamped.map }

/-- The session an `Open` decision opens. -/
def opened (new : OpenNew) (now : Instant) : BoundaryState :=
  { BoundaryState.new new.newMap with
    outcome := new.newOutcome
    outcomeAt := if new.newOutcome.isDecided then some now else none
    result := new.newResult
    awaitingFirstBoard :=
      !new.newOutcome.isDecided &&
        (new.reason == .mapVote || new.reason == .heroSelectOrBan) }

end BoundaryState

def commitPoll (state : BoundaryState) (decision : PollDecision) (now : Instant) :
    BoundaryState × PollCommit :=
  match decision with
  | .keep | .ignoreContradictory _ _ => (state, ⟨none, none, none⟩)
  | .update update =>
      (state.update update now, ⟨state.recorded update.recordOutcome, update.adoptMap, none⟩)
  | .open new =>
      (.opened new now,
        ⟨none, none, some ⟨new.reason, outcomeSealedOnClose state.outcome new.sealOutcome⟩⟩)

/-! ## What a decision can be -/

namespace PollInput

variable {input : PollInput} {obs : Obs}

def Quiet (input : PollInput) : PollDecision → Prop
  | .keep | .ignoreContradictory _ _ => True
  | .update update => update.recordOutcome = none ∧ update.result = input.result
  | .open _ => False

def Stores (word : MatchOutcome) : PollDecision → Prop
  | .update update => ∃ mark, update.result = some mark ∧ mark.outcome = word ∧
      update.recordOutcome = if mark.confirmed then some word else none
  | _ => False

def Opens («seal» : Option MatchOutcome) (outcome : MatchOutcome) (map : Option Text) :
    PollDecision → Prop
  | .open new => new.sealOutcome = «seal» ∧ new.newOutcome = outcome ∧ new.newMap = map ∧
      new.newResult = none
  | _ => False

theorem quiet_adoptOr {otherwise : PollDecision} (quiet : input.Quiet otherwise) :
    input.Quiet (input.adoptOr otherwise) := by
  unfold adoptOr
  split
  · exact ⟨rfl, rfl⟩
  · exact quiet

theorem quiet_ignored (input : PollInput) (obs : Obs) : input.Quiet (input.ignored obs) := by
  have contradictory :
      input.Quiet
        (match input.word, input.kept with
        | some signal, some kept =>
            if kept ≠ signal then .ignoreContradictory kept signal else .keep
        | _, _ => .keep) := by
    split
    · split_ifs <;> trivial
    · trivial
  cases obs with
  | unconfirmedWord word relation =>
      simp only [ignored]
      split_ifs
      · trivial
      · exact quiet_adoptOr contradictory
  | _ => exact quiet_adoptOr contradictory

theorem quiet_ignore (input : PollInput) (obs : Obs) :
    input.Quiet (input.decision obs .ignore) := quiet_ignored input obs

variable {word : MatchOutcome}

theorem relation_of_replaces {pendingBoundary : Bool} {relation : MapRelation}
    (replaces : unconfirmedReplaces pendingBoundary relation = true) : relation ≠ .differs := by
  rintro rfl
  cases replaces

/-- A word is stored on the session, ignored, or carried to the next session when its end screen
names a different map. -/
theorem decision_wordObs (input : PollInput) (word : MatchOutcome) :
    let decided := input.decision (input.wordObs word)
      (transition input.state (input.wordObs word))
    input.Quiet decided ∨
      (input.relation ≠ .differs ∧ Stores word decided) ∨
      (input.relation = .differs ∧
        Opens (input.result.bind ResultMark.hint) word (namedMap input.accoladeMap) decided) := by
  unfold wordObs
  split_ifs with different confirmed
  · simp only [transition]
    rcases endScreen_cases input.state input.state.phaseOf word with effect | effect <;>
      rw [effect]
    · exact .inl (quiet_ignore input _)
    · rcases mapRelation_eq_differs.mp different.1 with ⟨-, name, -, named, -⟩
      refine .inr (.inr ⟨different.1, rfl, rfl, ?_, rfl⟩)
      have trimmed : namedMap (some name) = some name := by
        rw [← named, namedMap_namedMap]
      simp only [named, Option.getD_some, trimmed]
  · simp only [transition]
    have agrees : input.relation ≠ .differs := fun differs => different ⟨differs, confirmed⟩
    rcases confirmedWord_cases input.state.phaseOf word with effect | effect <;> rw [effect]
    · exact .inl (quiet_ignore input _)
    · exact .inr (.inl ⟨agrees, _, rfl, rfl, rfl⟩)
  · simp only [transition]
    rcases unconfirmedWord_cases input.state input.state.phaseOf word input.relation with
      effect | ⟨effect, replaces⟩ <;> rw [effect]
    · exact .inl (quiet_ignore input _)
    · simp only [decision]
      split_ifs
      · exact .inl trivial
      · exact .inr (.inl ⟨relation_of_replaces replaces, _, rfl, rfl, rfl⟩)

end PollInput

open PollInput

theorem decidePoll_cases (input : PollInput) :
    input.Quiet (decidePoll input) ∨
      (∃ word, input.word = some word ∧ input.relation ≠ .differs ∧
        Stores word (decidePoll input)) ∨
      ∃ sealed outcome map, (sealed = none ∨ sealed = input.result.bind ResultMark.hint) ∧
        Opens sealed outcome map (decidePoll input) ∧
        (outcome = .unknown ∧ map = none ∨
          input.word = some outcome ∧ input.relation = .differs ∧
            map = namedMap input.accoladeMap) := by
  unfold decidePoll obs
  cases input.startScreen with
  | some screen =>
      simp only [transition]
      rcases startScreen_cases input.state input.state.phaseOf screen input.blockMapVote with
        effect | effect | effect | ⟨sealed, hint, effect⟩ <;> rw [effect]
      · exact .inl (quiet_ignore input _)
      · exact .inl ⟨rfl, rfl⟩
      · exact .inl ⟨rfl, rfl⟩
      · exact .inr (.inr ⟨sealed, _, _, hint, ⟨rfl, rfl, rfl, rfl⟩, .inl ⟨rfl, rfl⟩⟩)
  | none =>
      cases read : input.word with
      | none => exact .inl (quiet_adoptOr trivial)
      | some word =>
          rcases input.decision_wordObs word with quiet | ⟨agrees, stores⟩ | ⟨differs, opens⟩
          · exact .inl quiet
          · exact .inr (.inl ⟨word, rfl, agrees, stores⟩)
          · exact .inr (.inr ⟨_, _, _, .inr rfl, opens, .inr ⟨rfl, differs, rfl⟩⟩)

/-- A poll that opens a session seals the hint of the one it closes, or nothing. -/
theorem decidePoll_open {input : PollInput} {new : OpenNew}
    (decided : decidePoll input = .open new) :
    (new.sealOutcome = none ∨ new.sealOutcome = input.result.bind ResultMark.hint) ∧
      new.newResult = none ∧
      (new.newOutcome = .unknown ∧ new.newMap = none ∨
        input.word = some new.newOutcome ∧ input.relation = .differs ∧
          new.newMap = namedMap input.accoladeMap) := by
  rcases decidePoll_cases input with quiet | ⟨word, -, -, stores⟩ |
    ⟨sealed, outcome, map, hint, opens, source⟩
  · rw [decided] at quiet
    cases quiet
  · rw [decided] at stores
    cases stores
  · rw [decided] at opens
    rcases opens with ⟨rfl, rfl, rfl, noResult⟩
    exact ⟨hint, noResult, source⟩

/-! ## What an update changes -/

namespace BoundaryState

variable (state : BoundaryState) (new : UpdateCurrent) (now : Instant)

@[simp]
theorem update_deferred : (state.update new now).deferred = state.deferred := by
  unfold update record mark arm
  cases new.result <;> simp only [] <;> split <;> rfl

@[simp]
theorem update_resetBaseline : (state.update new now).resetBaseline = state.resetBaseline := by
  unfold update record mark arm
  cases new.result <;> simp only [] <;> split <;> rfl

@[simp]
theorem update_resetStreak :
    (state.update new now).resetStreak =
      if (new.armPending || new.armReset) && state.deferred.isNone then max state.resetStreak 1
      else state.resetStreak := by
  unfold update record mark arm
  cases new.result <;> simp only [] <;> split <;> rfl

@[simp]
theorem update_outcome :
    (state.update new now).outcome = (state.recorded new.recordOutcome).getD state.outcome := by
  unfold update record mark arm
  cases new.result <;> simp only [recorded] <;> split <;> simp only [*, Option.getD]

@[simp]
theorem update_result : (state.update new now).result = new.result.or state.result := by
  unfold update record mark arm
  cases new.result <;> simp only [] <;> split <;> rfl

end BoundaryState

end ScuffedCrew.Boundary
