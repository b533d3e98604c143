import ScuffedCrew.CaptureGate.State
import ScuffedCrew.Rust.Text

/-!
# State of the match boundary

The open session as the boundary functions see it, its phase, and how two map
reads compare.
-/

namespace ScuffedCrew.Boundary

open Rust CaptureGate

inductive MatchOutcome
  | victory
  | defeat
  | draw
  | unknown
  deriving DecidableEq, Repr

namespace MatchOutcome

def isDecided : MatchOutcome → Bool
  | .unknown => false
  | _ => true

end MatchOutcome

inductive CloseReason
  | mapVote
  | heroSelectOrBan
  | statReset
  | statRegression
  | endScreenMap
  deriving DecidableEq, Repr

/-- A result word that was read; unconfirmed, it is a hint. -/
structure ResultMark where
  outcome : MatchOutcome
  confirmed : Bool
  seenAt : Instant
  deriving DecidableEq, Repr

namespace ResultMark

/-- The word of an unconfirmed, decided mark. -/
def hint (mark : ResultMark) : Option MatchOutcome :=
  if !mark.confirmed && mark.outcome.isDecided then some mark.outcome else none

theorem hint_eq_some {mark : ResultMark} {word : MatchOutcome} :
    mark.hint = some word ↔
      mark.confirmed = false ∧ mark.outcome = word ∧ word.isDecided = true := by
  unfold hint
  split_ifs with unconfirmed
  · simp only [Bool.and_eq_true, Bool.not_eq_true'] at unconfirmed
    rw [Option.some.injEq]
    constructor
    · rintro rfl
      exact ⟨unconfirmed.1, rfl, unconfirmed.2⟩
    · rintro ⟨-, same, -⟩
      exact same
  · simp only [false_iff]
    rintro ⟨open', rfl, decided⟩
    simp [open', decided] at unconfirmed

end ResultMark

inductive StartScreen
  | mapVote (candidates : List Text)
  | heroSelect
  | heroBan
  deriving DecidableEq, Repr

/-- Where the open session sits. -/
inductive Phase
  | idle
  | liveMatch
  | postResultStreak
  | postMatch
  | newGameStarting
  deriving DecidableEq, Repr

/-- The fields the poller and the capture path share. -/
structure BoundaryState where
  map : Option Text
  outcome : MatchOutcome
  outcomeAt : Option Instant
  result : Option ResultMark
  resetStreak : ℕ
  resetBaseline : Option GateState
  /-- The player row that owns the baseline. -/
  baselineRow : Option ℕ
  lastBoardAt : Option Instant
  /-- A hero select came after a hint and a board. -/
  pendingBoundary : Bool
  /-- Progressed boards accepted since the current hint. -/
  progressedBoards : ℕ
  baselineAt : Option Instant
  awaitingFirstBoard : Bool
  hero : Option Text
  /-- The fresh-match board held off this session. -/
  deferred : Option Counters
  gate : Option GateState
  textFallbackLocked : Bool
  deriving DecidableEq

namespace BoundaryState

def new (map : Option Text) : BoundaryState where
  map := map
  outcome := .unknown
  outcomeAt := none
  result := none
  resetStreak := 0
  resetBaseline := none
  baselineRow := none
  lastBoardAt := none
  pendingBoundary := false
  progressedBoards := 0
  baselineAt := none
  awaitingFirstBoard := false
  hero := none
  deferred := none
  gate := none
  textFallbackLocked := false

/-- `sealable_hint`: the word a close may store on the session. -/
def sealableHint (state : BoundaryState) : Option MatchOutcome :=
  state.result.bind ResultMark.hint

theorem sealableHint_isDecided {state : BoundaryState} {word : MatchOutcome}
    (hint : state.sealableHint = some word) : word.isDecided = true := by
  rcases Option.bind_eq_some_iff.mp hint with ⟨mark, -, hint⟩
  exact (ResultMark.hint_eq_some.mp hint).2.2

def phaseOf (state : BoundaryState) : Phase :=
  if state.outcome.isDecided then .postMatch
  else if state.awaitingFirstBoard then .newGameStarting
  else if state.sealableHint.isSome then .postResultStreak
  else if state.gate.isSome || state.map.isSome || state.hero.isSome then .liveMatch
  else .idle

end BoundaryState

/-- `outcome_sealed_on_close`: what a closing session stores, if it stores no result yet. -/
def outcomeSealedOnClose (stored : MatchOutcome) (explicitSeal : Option MatchOutcome) :
    Option MatchOutcome :=
  if stored.isDecided then none else explicitSeal.filter MatchOutcome.isDecided

theorem outcomeSealedOnClose_eq_some {stored word : MatchOutcome}
    {explicitSeal : Option MatchOutcome} :
    outcomeSealedOnClose stored explicitSeal = some word ↔
      stored.isDecided = false ∧ explicitSeal = some word ∧ word.isDecided = true := by
  unfold outcomeSealedOnClose
  cases stored.isDecided <;> simp [Option.filter_eq_some_iff]

/-! ## Maps -/

inductive MapSource
  | topBar
  | accolade
  | textFallback
  deriving DecidableEq, Repr

namespace MapSource

def trustedForBoardSplit : MapSource → Bool
  | .topBar | .accolade => true
  | .textFallback => false

end MapSource

inductive MapRelation
  | «matches»
  | differs
  | absent
  deriving DecidableEq, Repr

def unknownName : Text := ['u', 'n', 'k', 'n', 'o', 'w', 'n']

/-- A confident map name.  Empty and `unknown` are not a map. -/
def namedMap (map : Option Text) : Option Text :=
  (map.map Text.trim).filter fun name => !name.isEmpty && !name.eqIgnoreAsciiCase unknownName

@[simp]
theorem namedMap_namedMap (map : Option Text) : namedMap (namedMap map) = namedMap map := by
  cases named : namedMap map with
  | none => rfl
  | some name =>
      rcases Option.filter_eq_some_iff.mp named with ⟨read, confident⟩
      rcases Option.map_eq_some_iff.mp read with ⟨raw, -, rfl⟩
      simpa [namedMap] using confident

def mapRelation (session accolade : Option Text) : MapRelation :=
  match namedMap session, namedMap accolade with
  | some session, some accolade =>
      if session.eqIgnoreAsciiCase accolade then .matches else .differs
  | _, _ => .absent

theorem mapRelation_eq_differs {session accolade : Option Text} :
    mapRelation session accolade = .differs ↔
      ∃ first second, namedMap session = some first ∧ namedMap accolade = some second ∧
        first.eqIgnoreAsciiCase second = false := by
  unfold mapRelation
  constructor
  · intro differs
    split at differs
    · rename_i first second named named'
      split at differs
      · cases differs
      · rename_i unequal
        exact ⟨first, second, named, named', by simpa using unequal⟩
    · cases differs
  · rintro ⟨first, second, named, named', unequal⟩
    simp [named, named', unequal]

end ScuffedCrew.Boundary
