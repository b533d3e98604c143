import Mathlib.Algebra.BigOperators.Group.List.Basic
import Mathlib.Algebra.Order.Ring.Nat
import Mathlib.Data.Nat.Notation
import Mathlib.Order.Basic
import ScuffedCrew.Rust.Text

/-!
# Rust numbers

Unsigned words are natural numbers.  The operations that depend on the width of
a word take it as an argument, and only those differ from the natural ones.  A
`Duration` and an `Instant` count nanoseconds.
-/

namespace Rust

def maxValue (bits : ℕ) : ℕ := 2 ^ bits - 1

def saturatingAdd (bits left right : ℕ) : ℕ := min (left + right) (maxValue bits)

def saturatingMul (bits left right : ℕ) : ℕ := min (left * right) (maxValue bits)

/-- `checked_add`. -/
def checkedAdd (bits left right : ℕ) : Option ℕ :=
  if left + right ≤ maxValue bits then some (left + right) else none

/-- `checked_mul`. -/
def checkedMul (bits left right : ℕ) : Option ℕ :=
  if left * right ≤ maxValue bits then some (left * right) else none

/-- An `as` cast to an unsigned word drops the high bits. -/
def castTo (bits value : ℕ) : ℕ := value % 2 ^ bits

def absDiff (left right : ℕ) : ℕ := (left - right) + (right - left)

/-- `parse` of an unsigned word: digits after at most one `+`. -/
def parseUnsigned (bits : ℕ) (text : Text) : Option ℕ :=
  let digits := (text.stripStart ['+']).getD text
  if digits.isEmpty || !digits.all Char.isDigit then none
  else
    let number := Nat.ofDigitChars 10 digits 0
    if number ≤ maxValue bits then some number else none

/-- What `Display` writes is read back. -/
theorem parseUnsigned_toDigits {bits number : ℕ} (fits : number ≤ maxValue bits) :
    parseUnsigned bits (Nat.toDigits 10 number) = some number := by
  have digits : ∀ letter ∈ Nat.toDigits 10 number, letter.isDigit = true :=
    fun letter letter_mem => Nat.isDigit_of_mem_toDigits (by decide) (by decide) letter_mem
  have unsigned : Text.stripStart (Nat.toDigits 10 number) ['+'] = none := by
    rw [Text.stripStart, if_neg]
    intro signed
    have first := digits '+' ((List.isPrefixOf_iff_prefix.mp signed).subset (by simp))
    exact absurd first (by decide)
  rw [parseUnsigned, unsigned, Option.getD_none, if_neg]
  · simp [fits]
  · simp only [Bool.or_eq_true, Bool.not_eq_true', List.isEmpty_iff, not_or, Bool.not_eq_false]
    exact ⟨Nat.toDigits_ne_nil, List.all_eq_true.mpr digits⟩

abbrev Duration := ℕ

abbrev Instant := ℕ

namespace Duration

def asSecs (span : Duration) : ℕ := span / 1000000000

def fromSecs (secs : ℕ) : Duration := secs * 1000000000

end Duration

end Rust

/-!
## Saturating counters

The 32-bit words with `saturating_add` are a commutative monoid, so a total does
not depend on the order or the grouping of what is added.
-/

namespace Rust

structure U32 where
  val : ℕ
  bounded : val ≤ maxValue 32
  deriving DecidableEq

namespace U32

@[ext]
theorem ext {left right : U32} (same : left.val = right.val) : left = right := by
  cases left
  cases right
  simpa using same

def ofNat (value : ℕ) : U32 := ⟨min value (maxValue 32), Nat.min_le_right _ _⟩

instance : Zero U32 := ⟨⟨0, Nat.zero_le _⟩⟩

/-- `saturating_add`. -/
instance : Add U32 :=
  ⟨fun left right => ⟨saturatingAdd 32 left.val right.val, Nat.min_le_right _ _⟩⟩

@[simp]
theorem val_zero : (0 : U32).val = 0 := rfl

@[simp]
theorem val_add (left right : U32) : (left + right).val = min (left.val + right.val) (maxValue 32) :=
  rfl

instance : AddCommMonoid U32 where
  add_assoc left middle right := by
    ext
    have bounds := left.bounded
    have bounds' := right.bounded
    simp only [val_add]
    omega
  zero_add word := by
    ext
    have bounds := word.bounded
    simp only [val_add, val_zero]
    omega
  add_zero word := by
    ext
    have bounds := word.bounded
    simp only [val_add, val_zero]
    omega
  add_comm left right := by
    ext
    simp only [val_add, Nat.add_comm]
  nsmul := nsmulRec

/-- A saturating total is the true total up to the largest word. -/
theorem val_sum (words : List U32) :
    words.sum.val = min ((words.map val).sum) (maxValue 32) := by
  induction words with
  | nil => simp
  | cons word words ih =>
      simp only [List.sum_cons, List.map_cons, val_add, ih]
      omega

end U32

end Rust
