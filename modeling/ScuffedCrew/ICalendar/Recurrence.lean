import Mathlib.Algebra.Order.Ring.Nat
import Mathlib.Data.Set.Basic
import ScuffedCrew.ICalendar.ContentLine

/-!
# What an event denotes

Dates count days from Monday, 1 January of year 1.  The start of an event is an
occurrence, and a weekly rule adds every later day of its week.
-/

namespace ICalendar

structure Stamp where
  year : ℕ
  month : ℕ
  day : ℕ
  hour : ℕ
  minute : ℕ
  second : ℕ
  deriving DecidableEq

def digit (letter : Char) : Option ℕ :=
  if letter.isDigit then some (letter.toNat - 48) else none

/-- Two decimal digits. -/
def pair (tens ones : Char) : Option ℕ :=
  (digit tens).bind fun tens => (digit ones).map fun ones => tens * 10 + ones

/-- A DATE-TIME value of local form. -/
def readStamp : Text → Option Stamp
  | [y₁, y₂, y₃, y₄, m₁, m₂, d₁, d₂, 'T', h₁, h₂, n₁, n₂, s₁, s₂] => do
      let century ← pair y₁ y₂
      let year ← pair y₃ y₄
      let month ← pair m₁ m₂
      let day ← pair d₁ d₂
      let hour ← pair h₁ h₂
      let minute ← pair n₁ n₂
      let second ← pair s₁ s₂
      return ⟨century * 100 + year, month, day, hour, minute, second⟩
  | _ => none

def isLeap (year : ℕ) : Bool :=
  decide (year % 4 = 0) && (decide (year % 100 ≠ 0) || decide (year % 400 = 0))

def monthLengths (year : ℕ) : List ℕ :=
  [31, if isLeap year then 29 else 28, 31, 30, 31, 30, 31, 31, 30, 31, 30, 31]

def daysBeforeYear (year : ℕ) : ℕ :=
  let past := year - 1
  365 * past + past / 4 - past / 100 + past / 400

namespace Stamp

def dayNumber (stamp : Stamp) : ℕ :=
  daysBeforeYear stamp.year + ((monthLengths stamp.year).take (stamp.month - 1)).sum +
    (stamp.day - 1)

def secondOfDay (stamp : Stamp) : ℕ := (stamp.hour * 60 + stamp.minute) * 60 + stamp.second

def seconds (stamp : Stamp) : ℕ := stamp.dayNumber * 86400 + stamp.secondOfDay

end Stamp

/-- Monday is 0. -/
def weekday (dayNumber : ℕ) : ℕ := dayNumber % 7

def weekdayCodes : List Text :=
  ["MO", "TU", "WE", "TH", "FR", "SA", "SU"].map String.toList

/-- The day of a weekly rule. -/
def weeklyDay (rule : Text) : Option ℕ :=
  weekdayCodes.findIdx? fun code => rule == "FREQ=WEEKLY;BYDAY=".toList ++ code

structure Occurrence where
  day : ℕ
  second : ℕ
  duration : ℕ

/-- The start, and with a weekly rule its day in every week from then on. -/
def occurrences (start stop : Stamp) (rule : Option ℕ) : Set Occurrence :=
  { occurrence | occurrence.second = start.secondOfDay ∧
    occurrence.duration = stop.seconds - start.seconds ∧
    (occurrence.day = start.dayNumber ∨ start.dayNumber ≤ occurrence.day ∧
      rule = some (weekday occurrence.day)) }

def property (block : List ContentLine) (name : Text) : Option ContentLine :=
  block.find? fun line => line.name == name

/-- The occurrences of an event, when its lines can be read. -/
def denoted (block : List ContentLine) : Option (Set Occurrence) := do
  let start ← (property block "DTSTART".toList).bind fun line => readStamp line.value
  let stop ← (property block "DTEND".toList).bind fun line => readStamp line.value
  match property block "RRULE".toList with
  | none => return occurrences start stop none
  | some line => (weeklyDay line.value).map fun day => occurrences start stop (some day)

end ICalendar
