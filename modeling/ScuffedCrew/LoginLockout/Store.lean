import Mathlib.Data.List.MinMax
import Mathlib.Data.Prod.Lex
import ScuffedCrew.Rust.HashMap
import ScuffedCrew.Rust.Numeric
import ScuffedCrew.Rust.Text
import ScuffedCrew.StateMachine.Run

/-!
# Login lockout

The failed password checks of each username, and the lock they lead to.  Times
and durations are in nanoseconds.  The map is iterated in an order of its own,
so a failure that needs room brings the entries in the order it meets them.
-/

namespace ScuffedCrew.LoginLockout

open Rust (Text HashMap Duration)

def failureWindow : ℕ := Duration.fromSecs (30 * 60)

def firstLockAfter : ℕ := 5

def firstLockSecs : ℕ := 30

def maxLock : ℕ := Duration.fromSecs (15 * 60)

def maxTrackedAccounts : ℕ := 8192

structure Tier where
  failures : ℕ
  lock : ℕ

def tiers : List Tier :=
  [⟨firstLockAfter, Duration.fromSecs firstLockSecs⟩, ⟨8, Duration.fromSecs (2 * 60)⟩, ⟨12, maxLock⟩]

structure Record where
  failures : List ℕ
  lockedUntil : Option ℕ
  deriving DecidableEq

abbrev Records : Type := HashMap Text Record

def retrySecs (duration : ℕ) : ℕ :=
  let secs := Duration.asSecs duration
  if 0 < duration % 1000000000 then max (secs + 1) 1 else max secs 1

def remaining (record : Record) (now : ℕ) : Option ℕ :=
  record.lockedUntil.bind fun lockedUntil =>
    if lockedUntil ≤ now then none else some (retrySecs (lockedUntil - now))

def isIdle (record : Record) (now : ℕ) : Bool :=
  (remaining record now).isNone &&
    record.failures.all fun failure => decide (failureWindow ≤ now - failure)

/-- The failures that still count at a time. -/
def live (now : ℕ) (failures : List ℕ) : List ℕ :=
  failures.filter fun failure => decide (now - failure < failureWindow)

/-- Smaller rank is evicted first. -/
def evictionRank (record : Record) (now : ℕ) : Bool ×ₗ (ℕ ×ₗ ℕ) :=
  let counted := live now record.failures
  toLex ((remaining record now).isSome, toLex (counted.length, counted.min?.getD now))

def evictLeastValuable (records : Records) (now : ℕ) (order : List (Σ _ : Text, Record)) :
    Records :=
  match order.argmin fun entry => evictionRank entry.2 now with
  | none => records
  | some victim => records.erase victim.1

/-- The records that are not dropped first, when a username needs room. -/
def retained (records : Records) (now : ℕ) : Records :=
  records.retain fun _ record => !isIdle record now

def makeRoom (records : Records) (username : Text) (now : ℕ)
    (order : List (Σ _ : Text, Record)) : Records :=
  if (records.lookup username).isNone ∧ maxTrackedAccounts ≤ records.len then
    if maxTrackedAccounts ≤ (retained records now).len then
      evictLeastValuable (retained records now) now order
    else retained records now
  else records

def lockFor (count : ℕ) : Option ℕ :=
  (tiers.reverse.find? fun tier => decide (tier.failures ≤ count)).map Tier.lock

def Record.fail (record : Record) (now : ℕ) : Record :=
  let failures := live now record.failures ++ [now]
  ⟨failures, (lockFor failures.length).map fun lock => now + lock⟩

def recordFailureAt (records : Records) (username : Text) (now : ℕ)
    (order : List (Σ _ : Text, Record)) : Records × Option ℕ :=
  match (records.lookup username).bind fun record => remaining record now with
  | some secs => (records, some secs)
  | none =>
      let records := makeRoom records username now order
      let record := ((records.lookup username).getD ⟨[], none⟩).fail now
      (records.insert username record, (lockFor record.failures.length).map retrySecs)

def recordSuccess (records : Records) (username : Text) : Records := records.erase username

def retryAfterAt (records : Records) (username : Text) (now : ℕ) : Option ℕ :=
  (records.lookup username).bind fun record => remaining record now

/-! ## Runs -/

inductive Call
  | recordFailure (username : Text) (now : ℕ) (order : List (Σ _ : Text, Record))
  | recordSuccess (username : Text)
  | retryAfter (username : Text) (now : ℕ)

/-- The records and the time of the last call that read the clock. -/
structure Lockout where
  records : Records
  clock : ℕ

/-- The calls take the lock one after another, at times that do not go back. -/
def machine : StateMachine.Machine Lockout Call where
  next state
    | .recordFailure username now order =>
        if state.clock ≤ now ∧ order.Perm (retained state.records now).entries then
          some ⟨(recordFailureAt state.records username now order).1, now⟩
        else none
    | .recordSuccess username => some { state with records := recordSuccess state.records username }
    | .retryAfter _ now => if state.clock ≤ now then some { state with clock := now } else none

end ScuffedCrew.LoginLockout
