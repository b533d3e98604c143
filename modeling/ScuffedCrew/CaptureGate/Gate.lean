import Mathlib.Data.Nat.Log
import ScuffedCrew.CaptureGate.State

/-!
# The capture gate

`applyGateSeeded` decides, cell by cell, whether a capture's read is stored or
the accepted value stays.  The column loop of the source is one `Verdict` for
each column: a column's verdict depends on the state before the capture and on
the capture alone, and the lists of holds and un-latches are read off the
verdicts in column order.
-/

namespace ScuffedCrew.CaptureGate

open Rust

/-! ## Limits -/

def killRateDivisorSecs : ℕ := 5
def killRateSlack : ℕ := 8
def wideRatePerSec : ℕ := 80
def wideRateSlack : ℕ := 2500
def corroborationAbs : ℕ := 2

/-- Largest one-capture rise stored immediately. -/
def jumpMax : Col → ℕ := ![4, 4, 2, 4000, 2500, 2500]

/-- Largest change in another column that still counts as a quiet board. -/
def quietRise : Col → ℕ := ![1, 1, 1, 200, 200, 200]

/-- `PLAUSIBLE_ELIMS_MAX`, `PLAUSIBLE_ASSISTS_MAX` and `PLAUSIBLE_DEATHS_MAX`. -/
def maxElims : ℕ := 99
def maxAssists : ℕ := 99
def maxDeaths : ℕ := 50

def isKillCol (col : Col) : Bool := [0, 1, 2].contains col

def digitLen (value : ℕ) : ℕ := if value = 0 then 1 else Nat.log 10 value + 1

def wideCeiling (elapsed : Duration) : ℕ :=
  saturatingAdd 32 (saturatingMul 32 (castTo 32 elapsed.asSecs) wideRatePerSec) wideRateSlack

/-- One more digit than the accepted value, and its leading digits do not fall below it. -/
def isTrailingDigitInject (prevAcc cur : ℕ) (elapsed : Duration) : Bool :=
  if cur ≤ prevAcc then false
  else if digitLen cur ≠ digitLen prevAcc + 1 then false
  else if cur / 10 < prevAcc then false
  else decide (cur - prevAcc > wideCeiling elapsed)

/-- Maximum plausible increase of a column. -/
def maxDelta (col : Col) (elapsed : Duration) (curSuspect : Bool) : ℕ :=
  if isKillCol col then
    saturatingAdd 32 (castTo 32 (elapsed.asSecs / killRateDivisorSecs)) killRateSlack
  else if curSuspect then wideCeiling elapsed
  else maxValue 32

/-- Two consecutive captures agree on the new level. -/
def corroborates (prevRaw cur : ℕ) : Bool :=
  decide (absDiff prevRaw cur ≤ max corroborationAbs (cur / 10))

/-- `col` is the only column past `jumpMax`, and the others are quiet. -/
def suddenSingleFieldJump (col : Col) (prev cur : Col → ℕ) : Bool :=
  if cur col - prev col ≤ jumpMax col then false
  else if (colOrder.filter fun other => decide (cur other - prev other > jumpMax other)).length ≠ 1
    then false
  else !anyCol fun other =>
    other != col && decide (absDiff (cur other) (prev other) > quietRise other)

def killColOverCeiling (col : Col) (value : ℕ) : Bool :=
  match col with
  | 0 => decide (value > maxElims)
  | 1 => decide (value > maxAssists)
  | 2 => decide (value > maxDeaths)
  | _ => false

def markImplausible (unconfirmed : Col → Bool) (counters : Counters) : Col → Bool := fun col =>
  unconfirmed col || killColOverCeiling col (counters.toArray col)

def rawSuspectMask (suspect : Col → Bool) (trusted : Bool) : Col → Bool :=
  if trusted then suspect else fun _ => true

def secsU32 (span : Duration) : ℕ := min span.asSecs (maxValue 32)

/-! ## One capture -/

/-- The arguments of a capture after `suspect |= held` and the discard of a
board whose every cell is suspect. -/
structure Board where
  read : Col → ℕ
  suspect : Col → Bool
  held : Col → Bool
  trusted : Bool

namespace Board

def ofCapture (raw : Counters) (suspect held : Cols Bool) (trusted : Bool) : Board :=
  let suspect : Col → Bool := fun col => suspect col || held col
  let discardRow := allCols suspect
  { read := raw.toArray
    suspect := suspect
    held := fun col => discardRow || held col
    trusted := trusted }

def clean (board : Board) : Bool := board.trusted && !anyCol board.suspect

end Board

/-- A discarded board that had a number keeps it for the reset baseline. -/
def anchorOf (raw : Counters) (suspect held : Cols Bool) : Option Counters :=
  if (allCols fun col => suspect col || held col) && !allCols held then some raw else none

/-- A board gated against the state of its game. -/
structure Gating where
  state : GateState
  elapsed : Duration
  board : Board

/-- What the column loop does with one column. -/
inductive Verdict
  /-- No number for the column on this capture. -/
  | held
  /-- Nothing was accepted for the column yet. -/
  | firstRead
  /-- A lower read replaces the accepted value. -/
  | unlatched
  | monotonic
  | digitInject
  | rateCap
  | jump
  /-- A plausible advance, or a corroborated jump. -/
  | passed
  deriving DecidableEq

namespace Gating

variable (gating : Gating)

def prevAcc : Col → ℕ := gating.state.accepted.toArray

def prevRaw : Col → ℕ := gating.state.lastRaw.toArray

/-- A held column reads as no change. -/
def cur : Col → ℕ := fun col =>
  if gating.board.held col then gating.prevAcc col else gating.board.read col

/-- The column has no earlier read in this game. -/
def startsColumn : Col → Bool := fun col => !gating.board.held col && gating.state.unread col

def jumpPrev : Col → ℕ := fun col =>
  if gating.startsColumn col then gating.cur col else gating.prevAcc col

/-- The accepted value is as old as the column's last accepted read. -/
def colElapsed (col : Col) : Duration :=
  gating.elapsed + Duration.fromSecs (gating.state.heldSecs col)

/-- The jump check, with every other column that is back from a held run left out. -/
def loneJump (col : Col) : Bool :=
  let before : Col → ℕ := fun other =>
    if other ≠ col ∧ gating.state.heldSecs other > 0 then gating.cur other
    else gating.jumpPrev other
  suddenSingleFieldJump col before gating.cur

def replacing : Bool := gating.state.lowTrust && gating.board.clean

def cleanMatch (col : Col) : Bool :=
  gating.board.clean && !gating.state.lastRawSuspect col &&
    decide (gating.prevRaw col = gating.cur col)

def replaceLow (col : Col) : Bool :=
  gating.board.clean && gating.state.unconfirmed col &&
    decide (gating.cur col < gating.prevAcc col)

def reviseDown (col : Col) : Bool :=
  gating.replaceLow col || (gating.state.rowShift col && gating.cleanMatch col)

def belowFloor (col : Col) : Bool :=
  gating.state.hasConfirmedFloor col && decide (gating.cur col < gating.state.confirmedFloor col)

/-- The latched number with its last digit cut off. -/
def wideClip (col : Col) : Bool :=
  !isKillCol col &&
    isTrailingDigitInject (gating.cur col) (gating.prevAcc col) (gating.colElapsed col)

def ceiling (col : Col) : ℕ :=
  saturatingAdd 32 (gating.prevAcc col)
    (maxDelta col (gating.colElapsed col) (gating.board.suspect col))

/-- A suspect prior read never corroborates the current jump. -/
def corroborated (col : Col) : Bool :=
  !gating.state.lastRawSuspect col && corroborates (gating.prevRaw col) (gating.cur col)

/-- The lower read is stored: an unconfirmed latch, or a row shift whose real row repeats. -/
def unlatches (col : Col) : Bool :=
  decide (gating.cur col < gating.prevAcc col) && gating.reviseDown col &&
    !gating.belowFloor col && !gating.wideClip col

def verdict (col : Col) : Verdict :=
  if gating.board.held col then .held
  else if gating.startsColumn col then .firstRead
  else if gating.unlatches col then .unlatched
  else if gating.cur col < gating.prevAcc col then .monotonic
  else if !isKillCol col && decide (gating.cur col > gating.prevAcc col) &&
      isTrailingDigitInject (gating.prevAcc col) (gating.cur col) (gating.colElapsed col) then
    .digitInject
  else if decide (gating.cur col > gating.ceiling col) && !gating.corroborated col then .rateCap
  else if !gating.corroborated col && gating.loneJump col then .jump
  else .passed

def decreased : Bool := anyCol fun col => gating.verdict col == .monotonic

/-- A first read is not taken on a capture where another column dropped. -/
def refused : Col → Bool := fun col => gating.decreased && gating.startsColumn col

def firstRead : Col → Bool := fun col => gating.startsColumn col && !gating.decreased

def noRead : Col → Bool := fun col => gating.board.held col || gating.refused col

def out : Col → ℕ := fun col =>
  match gating.verdict col with
  | .held | .unlatched | .passed => gating.cur col
  | .firstRead => if gating.decreased then gating.prevAcc col else gating.cur col
  | .monotonic | .digitInject | .rateCap | .jump => gating.prevAcc col

def hold (col : Col) : Option Hold :=
  let kept (kind : HoldKind) : Hold := ⟨col, kind, gating.cur col, gating.prevAcc col⟩
  match gating.verdict col with
  | .held => some ⟨col, .unread, gating.board.read col, gating.prevAcc col⟩
  | .monotonic => some (kept .monotonic)
  | .digitInject => some (kept .digitInject)
  | .rateCap => some (kept .rateCap)
  | .jump => some (kept .jump)
  | .firstRead | .unlatched | .passed => none

def refusedHold (col : Col) : Option Hold :=
  if gating.refused col then some ⟨col, .unread, gating.cur col, gating.prevAcc col⟩ else none

def holds : List Hold :=
  colOrder.filterMap gating.hold ++ colOrder.filterMap gating.refusedHold

def unlatch (col : Col) : Option Unlatch :=
  if gating.verdict col = .unlatched then
    some ⟨col, gating.cur col, gating.prevAcc col, true⟩
  else none

/-! ### Row shift -/

def dropped : Col → Bool := fun col => gating.verdict col == .monotonic

/-- A kill column that rose past its jump limit. -/
def rose : Col → Bool := fun col =>
  isKillCol col && !gating.firstRead col && decide (gating.out col > gating.prevAcc col) &&
    decide (gating.cur col - gating.prevAcc col > jumpMax col)

/-- One turn of the inner loop: a risen cell next to a dropped or a marked one is marked. -/
def markBeside (beside : Cols Bool) (col : Col) : Cols Bool :=
  if !beside col && gating.rose col &&
      anyCol fun other =>
        decide (absDiff other.val col.val = 1) && (gating.dropped other || beside other) then
    beside.set col true
  else beside

def sweepBeside (beside : Cols Bool) : Cols Bool := colOrder.foldl gating.markBeside beside

/-- `while grew`: a sweep that marks no further cell is the last one. -/
def growBeside : ℕ → Cols Bool → Cols Bool
  | 0, beside => beside
  | fuel + 1, beside =>
      let swept := gating.sweepBeside beside
      if anyCol fun col => swept col && !beside col then growBeside fuel swept else swept

/-- Each sweep but the last marks a cell, so the columns bound the sweeps. -/
def besideDrop : Col → Bool := (gating.growBeside (gateCols + 1) (.splat false)).get

def rowShift : Col → Bool := fun col =>
  if gating.noRead col then gating.state.rowShift col
  else if gating.besideDrop col then true
  else if gating.out col < gating.prevAcc col then false
  else if gating.decreased && gating.state.rowShift col &&
      decide (gating.out col = gating.prevAcc col) then true
  else if !gating.decreased then false
  else gating.state.rowShift col

/-! ### Trust -/

def adopts (col : Col) : Bool :=
  !gating.board.trusted && !gating.firstRead col &&
    decide (gating.out col = gating.cur col) && decide (gating.out col ≠ gating.prevAcc col)

def confirms (col : Col) : Bool :=
  gating.replacing && decide (gating.out col = gating.cur col) &&
    !(killColOverCeiling col (gating.prevAcc col) &&
      !(!gating.state.lastRawSuspect col && decide (gating.cur col = gating.prevRaw col)) &&
      !decide (gating.verdict col = .unlatched))

def unconfirmed : Col → Bool :=
  markImplausible
    (fun col =>
      !gating.confirms col &&
        (gating.state.unconfirmed col || gating.adopts col ||
          (!gating.board.trusted && gating.firstRead col)))
    (.fromArray gating.out)

def confirmedFloor : Col → ℕ := fun col =>
  if gating.confirms col then 0
  else if gating.adopts col && !gating.state.unconfirmed col then gating.prevAcc col
  else gating.state.confirmedFloor col

def hasConfirmedFloor : Col → Bool := fun col =>
  !gating.confirms col &&
    (gating.state.hasConfirmedFloor col ||
      (gating.adopts col && !gating.state.unconfirmed col))

/-! ### What the next capture is compared with -/

def unread : Col → Bool := fun col =>
  gating.state.unread col && !gating.firstRead col

def refusedFirstRead : Col → Bool := fun col =>
  if gating.refused col then true
  else if gating.startsColumn col then false
  else gating.state.refusedFirstRead col

def lastRaw : Col → ℕ := fun col =>
  if gating.noRead col then gating.prevRaw col else gating.board.read col

def lastRawSuspect : Col → Bool := fun col =>
  if gating.noRead col then gating.state.lastRawSuspect col
  else rawSuspectMask gating.board.suspect gating.board.trusted col

def heldSecs : Col → ℕ := fun col =>
  if !gating.unread col && (gating.board.held col ||
      (decide (gating.out col ≠ gating.cur col) && decide (gating.state.heldSecs col > 0))) then
    saturatingAdd 32 (gating.state.heldSecs col) (secsU32 gating.elapsed)
  else 0

def streak (before : Col → ℕ) : Col → ℕ := fun col =>
  if gating.board.held col then before col else 0

def outcome (boundaryAnchor : Option Counters) : GateOutcome where
  accepted := .fromArray gating.out
  state :=
    { accepted := .fromArray gating.out
      lastRaw := .fromArray gating.lastRaw
      downStreakLen := .ofFn (gating.streak gating.state.downStreakLen)
      downStreakLast := .ofFn (gating.streak gating.state.downStreakLast)
      lastRawSuspect := .ofFn gating.lastRawSuspect
      lowTrust := anyCol gating.unconfirmed || (gating.state.lowTrust && !gating.holds.isEmpty)
      unconfirmed := .ofFn gating.unconfirmed
      confirmedFloor := .ofFn gating.confirmedFloor
      hasConfirmedFloor := .ofFn gating.hasConfirmedFloor
      rowShift := .ofFn gating.rowShift
      unread := .ofFn gating.unread
      heldSecs := .ofFn gating.heldSecs
      refusedFirstRead := .ofFn gating.refusedFirstRead
      boundaryAnchor := boundaryAnchor }
  holds := gating.holds
  unlatches := colOrder.filterMap gating.unlatch

end Gating

/-- State after a first capture whose six values are `raw`. -/
def freshState (raw : Counters) (suspect : Col → Bool) (trusted : Bool) : GateState :=
  let unconfirmed := markImplausible (fun _ => !trusted) raw
  { GateState.default with
    accepted := raw
    lastRaw := raw
    lastRawSuspect := .ofFn (rawSuspectMask suspect trusted)
    lowTrust := anyCol unconfirmed
    unconfirmed := .ofFn unconfirmed }

namespace Board

variable (board : Board) (seed : Option (Counters × Duration))

/-- A first capture or a split: a held column takes the seed's value, or a placeholder 0. -/
def first : Col → ℕ := fun col =>
  if board.held col then (seed.map fun (earlier, _) => earlier.toArray col).getD 0
  else board.read col

def seedHold (col : Col) : Option Hold :=
  if board.held col && seed.isSome then
    some ⟨col, .unread, board.read col, board.first seed col⟩
  else none

def firstOutcome (boundaryAnchor : Option Counters) : GateOutcome :=
  let accepted : Counters := .fromArray (board.first seed)
  let state := freshState accepted board.suspect board.trusted
  { accepted := accepted
    state :=
      { state with
        unread := .ofFn fun col => board.held col && seed.isNone
        heldSecs := .ofFn fun col =>
          if board.held col then (seed.map fun (_, age) => secsU32 age).getD 0 else 0
        lastRawSuspect := .ofFn fun col =>
          if seed.isSome && board.held col then !board.trusted else state.lastRawSuspect col
        boundaryAnchor := boundaryAnchor }
    holds := colOrder.filterMap (board.seedHold seed)
    unlatches := [] }

end Board

/-- A trusted board starts a game over that has only low-trust reads and no row. -/
def restarts (state : GateState) (trusted : Bool) : Bool := trusted && state.onlyLowTrustReads

def applyGateSeeded (prev : Option (GateState × Duration)) (raw : Counters)
    (suspect held : Cols Bool) (split trusted : Bool) (seed : Option (Counters × Duration)) :
    GateOutcome :=
  let board := Board.ofCapture raw suspect held trusted
  let boundaryAnchor := anchorOf raw suspect held
  match prev with
  | none => board.firstOutcome seed boundaryAnchor
  | some (state, elapsed) =>
      if split || restarts state trusted then board.firstOutcome seed boundaryAnchor
      else Gating.outcome ⟨state, elapsed, board⟩ boundaryAnchor

def applyGateHeld (prev : Option (GateState × Duration)) (raw : Counters)
    (suspect held : Cols Bool) (split trusted : Bool) : GateOutcome :=
  applyGateSeeded prev raw suspect held split trusted none

def applyGateWithTrust (prev : Option (GateState × Duration)) (raw : Counters)
    (suspect : Cols Bool) (split trusted : Bool) : GateOutcome :=
  applyGateHeld prev raw suspect (.splat false) split trusted

def applyGate (prev : Option (GateState × Duration)) (raw : Counters) (suspect : Cols Bool)
    (split : Bool) : GateOutcome :=
  applyGateWithTrust prev raw suspect split true

end ScuffedCrew.CaptureGate
