import Mathlib.Data.Fin.VecNotation
import Mathlib.Data.Fintype.Pi
import Mathlib.Tactic.FinCases
import ScuffedCrew.Rust.Numeric

/-!
# State of the capture gate

The six cumulative counters of a scoreboard row, the state the gate carries
from one capture of a game to the next, and the records of what one capture
held back or revised.

`unsure_shown` and `has_unsure_shown` are not modelled: the gate never reads
them.
-/

namespace ScuffedCrew.CaptureGate

open Rust

/-- `GATE_COLS`: E, A, D, DMG, HLG, MIT. -/
abbrev gateCols : ℕ := 6

instance neZeroGateCols : NeZero gateCols := ⟨by decide⟩

abbrev Col := Fin gateCols

def colOrder : List Col := [0, 1, 2, 3, 4, 5]

@[simp]
theorem mem_colOrder (col : Col) : col ∈ colOrder := by
  revert col
  decide

def allCols (flags : Col → Bool) : Bool := colOrder.all flags

def anyCol (flags : Col → Bool) : Bool := colOrder.any flags

@[simp]
theorem allCols_eq_true {flags : Col → Bool} : allCols flags = true ↔ ∀ col, flags col = true := by
  simp [allCols]

@[simp]
theorem anyCol_eq_true {flags : Col → Bool} : anyCol flags = true ↔ ∃ col, flags col = true := by
  simp [anyCol]

@[simp]
theorem anyCol_eq_false {flags : Col → Bool} :
    anyCol flags = false ↔ ∀ col, flags col = false := by
  simp [anyCol]

/-- A `[T; GATE_COLS]`. -/
structure Cols (α : Type) where
  e : α
  a : α
  d : α
  dmg : α
  h : α
  mit : α
  deriving DecidableEq, Repr

namespace Cols

variable {α : Type}

def get (values : Cols α) : Col → α :=
  ![values.e, values.a, values.d, values.dmg, values.h, values.mit]

instance : CoeFun (Cols α) fun _ => Col → α := ⟨get⟩

def ofFn (values : Col → α) : Cols α :=
  ⟨values 0, values 1, values 2, values 3, values 4, values 5⟩

@[simp]
theorem get_ofFn (values : Col → α) (col : Col) : (ofFn values) col = values col := by
  fin_cases col <;> rfl

@[ext]
theorem ext_get {left right : Cols α} (same : ∀ col, left col = right col) : left = right := by
  have eta (values : Cols α) : values = ofFn values := rfl
  rw [eta left, eta right, funext same]

def splat (value : α) : Cols α := ofFn fun _ => value

@[simp]
theorem get_splat (value : α) (col : Col) : (splat value) col = value := by
  simp [splat]

def set (values : Cols α) (col : Col) (value : α) : Cols α :=
  ofFn fun other => if other = col then value else values other

@[simp]
theorem get_set (values : Cols α) (col other : Col) (value : α) :
    (values.set col value) other = if other = col then value else values other := by
  simp [set]

end Cols

/-- The six counters, in the order of the scoreboard columns. -/
structure Counters where
  elims : ℕ
  assists : ℕ
  deaths : ℕ
  damage : ℕ
  healing : ℕ
  mitigation : ℕ
  deriving DecidableEq, Repr

namespace Counters

def toArray (counters : Counters) : Col → ℕ :=
  ![counters.elims, counters.assists, counters.deaths, counters.damage, counters.healing,
    counters.mitigation]

def fromArray (values : Col → ℕ) : Counters where
  elims := values 0
  assists := values 1
  deaths := values 2
  damage := values 3
  healing := values 4
  mitigation := values 5

def zero : Counters := ⟨0, 0, 0, 0, 0, 0⟩

@[simp]
theorem toArray_fromArray (values : Col → ℕ) : (fromArray values).toArray = values := by
  funext col
  fin_cases col <;> rfl

end Counters

/-- What the gate carries from one capture of a game to the next. -/
structure GateState where
  /-- The values stored, after the holds. -/
  accepted : Counters
  /-- The last raw reads, also where they were held. -/
  lastRaw : Counters
  downStreakLen : Cols ℕ
  downStreakLast : Cols ℕ
  lastRawSuspect : Cols Bool
  lowTrust : Bool
  /-- Columns a fallback or an implausible latch filled. -/
  unconfirmed : Cols Bool
  /-- The confirmed value a fallback moved the column off. -/
  confirmedFloor : Cols ℕ
  hasConfirmedFloor : Cols Bool
  /-- Stored while an adjacent column was held down. -/
  rowShift : Cols Bool
  /-- No read of the column in this game yet. -/
  unread : Cols Bool
  heldSecs : Cols ℕ
  refusedFirstRead : Cols Bool
  /-- Raw counters of a board whose every cell was suspect. -/
  boundaryAnchor : Option Counters
  deriving DecidableEq

namespace GateState

def default : GateState where
  accepted := .zero
  lastRaw := .zero
  downStreakLen := .splat 0
  downStreakLast := .splat 0
  lastRawSuspect := .splat false
  lowTrust := false
  unconfirmed := .splat false
  confirmedFloor := .splat 0
  hasConfirmedFloor := .splat false
  rowShift := .splat false
  unread := .splat false
  heldSecs := .splat 0
  refusedFirstRead := .splat false
  boundaryAnchor := none

/-- No row of the game is stored yet, and no column read so far is confirmed. -/
def onlyLowTrustReads (state : GateState) : Bool :=
  anyCol state.unread && allCols fun col => state.unread col || state.unconfirmed col

end GateState

inductive HoldKind
  | monotonic
  | rateCap
  | jump
  | digitInject
  | unread
  deriving DecidableEq, Repr

structure Hold where
  col : Col
  kind : HoldKind
  raw : ℕ
  held : ℕ
  deriving DecidableEq, Repr

structure Unlatch where
  col : Col
  raw : ℕ
  revisedFrom : ℕ
  replacedUnconfirmed : Bool
  deriving DecidableEq, Repr

structure GateOutcome where
  accepted : Counters
  state : GateState
  holds : List Hold
  unlatches : List Unlatch
  deriving DecidableEq

end ScuffedCrew.CaptureGate
