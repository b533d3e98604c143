import ScuffedCrew.Rust.HashMap
import ScuffedCrew.Rust.IpAddr
import ScuffedCrew.Rust.Numeric
import ScuffedCrew.StateMachine.Meter

/-!
# The limit on link polls

One bucket of cells for each address.  A bucket fills by a cell a second and
keeps the time its count is from, so that it is refilled only when it is used.
Times are in nanoseconds and a refill counts milliseconds.  The map is iterated
in an order of its own, which a call that needs room brings with it.
-/

namespace ScuffedCrew.LinkPoll

open Rust StateMachine

def linkPollBurst : ℕ := 30

def linkPollRefillSecs : ℕ := 1

def maxIps : ℕ := 4096

def refillMs : ℕ := saturatingMul 64 linkPollRefillSecs 1000

structure Bucket where
  tokens : ℕ
  asOf : Instant
  deriving DecidableEq

abbrev Book : Type := HashMap IpAddr Bucket

namespace Bucket

variable (bucket : Bucket) (now : ℕ)

/-- `num_milliseconds` of the time since the count. -/
def elapsedMs : ℕ := (now - bucket.asOf) / 1000000

/-- The cells and the rest of a refill at a time. -/
def refilled : ℕ × ℕ :=
  let gained := castTo 32 (bucket.elapsedMs now / refillMs)
  let leftoverMs := bucket.elapsedMs now % refillMs
  let tokens := saturatingAdd 32 bucket.tokens gained
  if linkPollBurst ≤ tokens then (linkPollBurst, 0) else (tokens, leftoverMs)

/-- The bucket after a call, and the seconds to wait if the call is refused. -/
def take : Bucket × Option ℕ :=
  let (tokens, leftoverMs) := bucket.refilled now
  if tokens = 0 then
    let waitMs := refillMs - leftoverMs
    (bucket, some (max ((waitMs + 999) / 1000) 1))
  else (⟨tokens - 1, now - leftoverMs * 1000000⟩, none)

end Bucket

/-- The buckets that are kept when an address needs room. -/
def retained (book : Book) : Book :=
  book.retain fun _ bucket => decide (bucket.tokens < linkPollBurst)

def makeRoom (book : Book) (ip : IpAddr) (order : List (Σ _ : IpAddr, Bucket)) : Book :=
  if maxIps ≤ book.len ∧ (book.lookup ip).isNone then
    if maxIps ≤ (retained book).len then
      match order.head? with
      | none => retained book
      | some victim => (retained book).erase victim.1
    else retained book
  else book

def takeAt (book : Book) (ip : IpAddr) (now : ℕ) (order : List (Σ _ : IpAddr, Bucket)) :
    Book × Option ℕ :=
  let book := makeRoom book ip order
  let bucket := (book.lookup ip).getD ⟨linkPollBurst, now⟩
  (book.insert ip (bucket.take now).1, (bucket.take now).2)

/-! ## Runs -/

structure Poll where
  ip : IpAddr
  now : ℕ
  order : List (Σ _ : IpAddr, Bucket)

/-- The buckets, and the time of the last call. -/
structure LinkPollGate where
  book : Book
  clock : ℕ

/-- The calls take the lock one after another, at times that do not go back. -/
def machine : Machine LinkPollGate Poll where
  next gate poll :=
    if gate.clock ≤ poll.now ∧ poll.order.Perm (retained gate.book).entries then
      some ⟨(takeAt gate.book poll.ip poll.now poll.order).1, poll.now⟩
    else none

abbrev PollStep := Step LinkPollGate Poll

namespace PollStep

variable (step : PollStep) (ip : IpAddr)

/-- The seconds the call is told to wait, when it is refused. -/
def answer : Option ℕ :=
  (takeAt step.before.book step.event.ip step.event.now step.event.order).2

/-- The call is one of the address, and is accepted. -/
def accepts : Bool := step.event.ip == ip && (PollStep.answer step).isNone

def Evicts : Prop :=
  (step.before.book.lookup ip).isSome = true ∧ step.after.book.lookup ip = none

end PollStep

/-! ## The level of a bucket -/

/-- A cell is the time it takes to refill. -/
def cell : ℕ := Duration.fromSecs linkPollRefillSecs

def capacity : ℕ := linkPollBurst * cell

namespace Bucket

variable (bucket : Bucket) (now : ℕ)

def meter : Meter := ⟨bucket.tokens * cell, bucket.asOf⟩

def level : ℕ := bucket.meter.fill capacity now

def Full : Prop := bucket.level now = capacity

/-- The whole seconds since the count. -/
def seconds : ℕ := (now - bucket.asOf) / cell

/-- The cells a refill finds. -/
def found : ℕ := bucket.tokens + castTo 32 (bucket.seconds now)

/-- A refill that does not fill the bucket counts all its seconds, and one that is used drops no
part of a millisecond. -/
def RefillsInFull : Prop :=
  linkPollBurst ≤ bucket.found now ∨
    bucket.seconds now < 2 ^ 32 ∧ ((now - bucket.asOf) % 1000000 = 0 ∨ bucket.found now = 0)

instance decidableRefillsInFull : Decidable (bucket.RefillsInFull now) :=
  inferInstanceAs (Decidable (_ ∨ _ ∧ (_ ∨ _)))

end Bucket

section Take

variable {bucket : Bucket} {now : ℕ}

theorem level_eq : bucket.level now =
    min 30000000000 (bucket.tokens * 1000000000 + (now - bucket.asOf)) := rfl

theorem capacity_eq : capacity = linkPollBurst * cell := rfl

theorem cell_eq : cell = 1000000000 := rfl

theorem seconds_eq : bucket.seconds now = (now - bucket.asOf) / 1000000000 := rfl

theorem gained_le (seconds : ℕ) : castTo 32 seconds ≤ seconds := Nat.mod_le _ _

theorem gained_eq {seconds : ℕ} (counted : seconds < 2 ^ 32) : castTo 32 seconds = seconds :=
  Nat.mod_eq_of_lt counted

theorem level_of_full (full : 30 ≤ bucket.tokens + bucket.seconds now) :
    bucket.level now = 30000000000 := by
  rw [seconds_eq] at full
  rw [level_eq]
  omega

theorem level_of_few (few : bucket.tokens + bucket.seconds now < 30) :
    bucket.level now =
      (bucket.tokens + bucket.seconds now) * 1000000000 + (now - bucket.asOf) % 1000000000 := by
  rw [seconds_eq] at few ⊢
  rw [level_eq]
  omega

theorem level_filled : Bucket.level ⟨29, now⟩ now = 29000000000 := by
  rw [level_eq]
  dsimp only
  omega

/-- The level of a bucket whose cells were found and whose milliseconds were kept. -/
theorem level_used {tokens elapsed : ℕ} (few : tokens < 30) (past : elapsed ≤ now) :
    Bucket.level ⟨tokens - 1, now - elapsed / 1000000 % 1000 * 1000000⟩ now =
      (tokens - 1) * 1000000000 + elapsed / 1000000 % 1000 * 1000000 := by
  rw [level_eq]
  simp only
  omega

theorem refilled_eq : bucket.refilled now =
    if 30 ≤ bucket.found now then (30, 0)
    else (bucket.found now, (now - bucket.asOf) / 1000000 % 1000) := by
  have gained : bucket.elapsedMs now / refillMs = bucket.seconds now :=
    Nat.div_div_eq_div_mul (now - bucket.asOf) 1000000 1000
  have saturates : 30 ≤ saturatingAdd 32 bucket.tokens (castTo 32 (bucket.seconds now)) ↔
      30 ≤ bucket.found now := by
    unfold saturatingAdd maxValue Bucket.found
    omega
  unfold Bucket.refilled
  simp only [gained, linkPollBurst, saturates]
  split
  next => rfl
  next few =>
    have small : saturatingAdd 32 bucket.tokens (castTo 32 (bucket.seconds now)) =
        bucket.found now := by
      unfold saturatingAdd maxValue Bucket.found
      unfold Bucket.found at few
      omega
    rw [small]
    rfl

/-- What a call does to a bucket, and what it answers. -/
inductive Takes (bucket : Bucket) (now : ℕ) : Bucket → Option ℕ → Prop
  | refused (empty : bucket.found now = 0) : Takes bucket now bucket (some 1)
  | filled (full : 30 ≤ bucket.found now) : Takes bucket now ⟨29, now⟩ none
  | used (some_left : 0 < bucket.found now) (few : bucket.found now < 30) :
      Takes bucket now
        ⟨bucket.found now - 1, now - (now - bucket.asOf) / 1000000 % 1000 * 1000000⟩ none

theorem take_takes (bucket : Bucket) (now : ℕ) :
    Takes bucket now (bucket.take now).1 (bucket.take now).2 := by
  unfold Bucket.take
  rw [refilled_eq]
  by_cases full : 30 ≤ bucket.found now
  · rw [if_pos full]
    exact .filled full
  · rw [if_neg full]
    dsimp only
    split
    next empty =>
      have left : (now - bucket.asOf) / 1000000 % 1000 < 1000 := Nat.mod_lt _ (by decide)
      have waits : max ((refillMs - (now - bucket.asOf) / 1000000 % 1000 + 999) / 1000) 1 = 1 := by
        have refill : refillMs = 1000 := rfl
        omega
      rw [waits]
      exact .refused empty
    next some_left => exact .used (Nat.pos_of_ne_zero some_left) (Nat.lt_of_not_le full)

/-! The arithmetic of a spent cell: `kept` of the `rest` of a refill is kept, `lost` is not. -/

section Spent

variable {found cells kept rest lost : ℕ}

theorem kept_add_lost (elapsed : ℕ) :
    elapsed / 1000000 % 1000 * 1000000 + elapsed % 1000000 = elapsed % 1000000000 := by
  omega

theorem kept_lt (elapsed : ℕ) : elapsed / 1000000 % 1000 * 1000000 < 1000000000 := by
  omega

theorem spent_le (some_left : 0 < found) (counted : found ≤ cells) (keeps : kept ≤ rest) :
    (found - 1) * 1000000000 + kept + 1000000000 ≤ cells * 1000000000 + rest := by
  omega

theorem spent_lt (some_left : 0 < found) (few : found < 30) (part : kept < 1000000000) :
    (found - 1) * 1000000000 + kept + 1000000000 < 30000000000 := by
  omega

theorem spent_eq_iff (some_left : 0 < found) (split : kept + lost = rest) :
    (found - 1) * 1000000000 + kept + 1000000000 = found * 1000000000 + rest ↔ lost = 0 := by
  omega

end Spent

namespace Takes

variable {after : Bucket} {answer : Option ℕ} {later : ℕ}

/-- The bucket keeps less than a full count, from a time that is not ahead. -/
theorem tracked (takes : Takes bucket now after answer) (few : bucket.tokens < linkPollBurst)
    (past : bucket.asOf ≤ now) : after.tokens < linkPollBurst ∧ after.asOf ≤ now := by
  unfold linkPollBurst at *
  cases takes with
  | refused => exact ⟨few, past⟩
  | filled => exact ⟨Nat.lt_succ_self 29, le_rfl⟩
  | used some_left few => exact ⟨Nat.lt_of_le_of_lt (Nat.sub_le _ _) few, Nat.sub_le _ _⟩

/-- A call that is accepted takes a cell at least. -/
theorem level_le (takes : Takes bucket now after answer) :
    after.level now + (if answer.isNone then cell else 0) ≤ bucket.level now := by
  have gained := Nat.add_le_add_left (gained_le (bucket.seconds now)) bucket.tokens
  cases takes with
  | refused => simp
  | filled full =>
      rw [level_of_full (full.trans gained), level_filled, Option.isNone_none, if_pos rfl, cell_eq]
  | used some_left few =>
      rw [level_used few (Nat.sub_le _ _), Option.isNone_none, if_pos rfl, cell_eq]
      by_cases full : 30 ≤ bucket.tokens + bucket.seconds now
      · rw [level_of_full full]
        exact Nat.le_of_lt (spent_lt some_left few (kept_lt _))
      · rw [level_of_few (Nat.lt_of_not_le full)]
        exact spent_le some_left gained (Nat.le_of_add_right_le (Nat.le_of_eq (kept_add_lost _)))

/-- It takes a cell and no more, and is refused for want of one, just when the refill is in full. -/
theorem exact_iff (takes : Takes bucket now after answer) :
    (answer.isNone = true ↔ cell ≤ bucket.level now) ∧
        after.level now + (if answer.isNone then cell else 0) = bucket.level now ↔
      bucket.RefillsInFull now := by
  have gained := Nat.add_le_add_left (gained_le (bucket.seconds now)) bucket.tokens
  unfold Bucket.RefillsInFull
  cases takes with
  | refused empty =>
      by_cases counted : bucket.seconds now < 2 ^ 32
      · have found : bucket.tokens + bucket.seconds now = 0 := by
          rwa [Bucket.found, gained_eq counted] at empty
        have below : bucket.level now < cell := by
          rw [level_of_few (found ▸ Nat.succ_pos 29), found, Nat.zero_mul, Nat.zero_add, cell_eq]
          exact Nat.mod_lt _ (by decide)
        simpa [empty, below] using Or.inr counted
      · have full : 30 ≤ bucket.tokens + bucket.seconds now := by omega
        have above : cell ≤ bucket.level now := by
          rw [level_of_full full, cell_eq]
          decide
        simpa [empty, above, linkPollBurst] using Nat.le_of_not_lt counted
  | filled full =>
      have above : cell ≤ 30000000000 := cell_eq ▸ (by decide)
      rw [level_of_full (full.trans gained), level_filled, Option.isNone_none, if_pos rfl]
      refine ⟨fun _ => .inl full, fun _ => ⟨⟨fun _ => above, fun _ => rfl⟩, ?_⟩⟩
      rw [cell_eq]
  | used some_left few =>
      rw [level_used few (Nat.sub_le _ _), Option.isNone_none, if_pos rfl, cell_eq]
      have unfilled : ¬linkPollBurst ≤ bucket.found now := Nat.not_le_of_lt few
      have used : ¬bucket.found now = 0 := Nat.ne_of_gt some_left
      by_cases counted : bucket.seconds now < 2 ^ 32
      · have found : bucket.found now = bucket.tokens + bucket.seconds now := by
          rw [Bucket.found, gained_eq counted]
        rw [level_of_few (found ▸ few), ← found]
        simp only [counted, unfilled, used, true_iff, true_and, false_or, or_false]
        constructor
        · rintro ⟨-, same⟩
          exact (spent_eq_iff some_left (kept_add_lost _)).mp same
        · intro whole
          have same := (spent_eq_iff some_left (kept_add_lost (now - bucket.asOf))).mpr whole
          refine ⟨?_, same⟩
          rw [← same]
          exact Nat.le_add_left _ _
      · have full : 30 ≤ bucket.tokens + bucket.seconds now := by omega
        rw [level_of_full full]
        have less := spent_lt some_left few (kept_lt (now - bucket.asOf))
        simp only [counted, unfilled, false_and, or_false, iff_false, not_and]
        intro _ same
        exact Nat.ne_of_lt less same

end Takes

end Take

-- The numbers are large, and nothing is gained from computing with them further on.
attribute [irreducible] capacity

end ScuffedCrew.LinkPoll
