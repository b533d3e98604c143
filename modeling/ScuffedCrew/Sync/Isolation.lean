import Mathlib.Data.List.Range
import ScuffedCrew.Rust.Numeric
import ScuffedCrew.Rust.Text
import ScuffedCrew.StateMachine.Loop

/-!
# Isolating refused rows

`isolateRejected` uploads a chunk of rows under a request budget.  A refused
batch that names a row is split in half; a refused batch that names none loses
its first row to a single-row probe and the rest is retried.  The server is an
oracle that sees the number of the request and the rows sent.
-/

namespace ScuffedCrew.Sync

open Rust StateMachine

structure StatsUploadResponse where
  inserted : ℕ
  skipped : ℕ
  deleted : ℕ
  deriving DecidableEq, Repr

/-- An upload, or the transport under it, failed. -/
structure SyncUploadError where
  message : Text
  status : Option ℕ
  retryAfter : Option Duration
  code : Option Text
  maxMatches : Option ℕ
  maxDeletedSessions : Option ℕ
  deriving DecidableEq, Repr

namespace SyncUploadError

def plain (message : Text) : SyncUploadError := ⟨message, none, none, none, none, none⟩

def isPayloadReject (err : SyncUploadError) : Bool :=
  err.status == some 400 || err.status == some 422

end SyncUploadError

/-- `"Server is refusing uploads"`. -/
def serverRefusingUploads : Text := "Server is refusing uploads".toList

def serverWideRefusal (detail : Text) (retryAfter : Option Duration) : SyncUploadError :=
  { SyncUploadError.plain [] with
    message := serverRefusingUploads ++ [':', ' '] ++ detail
    retryAfter := retryAfter }

/-- How many requests one pass may spend: past one row, the bit length of `n - 1` twice, and `n`. -/
def isolationRequestBudget (n : ℕ) : ℕ := if n ≤ 1 then n else 2 * ((n - 1).log2 + 1) + n

def isAsciiDigit (letter : Char) : Bool := decide ('0' ≤ letter) && decide (letter ≤ '9')

/-- The message starts with `matches[<digits>]:`. -/
def payloadNamesARow (message : Text) : Bool :=
  match message.trim.stripStart ['m', 'a', 't', 'c', 'h', 'e', 's', '['] with
  | none => false
  | some rest =>
      match rest.before [']', ':'] with
      | none => false
      | some index => !index.isEmpty && index.all isAsciiDigit

structure RejectedUpload where
  index : ℕ
  message : Text
  code : Option Text
  deriving DecidableEq, Repr

def rejectedUpload (index : ℕ) (err : SyncUploadError) : RejectedUpload :=
  ⟨index, err.message, err.code⟩

structure UploadIsolation where
  accepted : List ℕ
  rejected : List RejectedUpload
  deferred : List ℕ
  stopped : Option SyncUploadError
  requests : ℕ
  deriving DecidableEq

/-- A nonempty half-open range of row indices. -/
structure Range where
  start : ℕ
  stop : ℕ
  nonempty : start < stop
  deriving DecidableEq

namespace Range

def len (range : Range) : ℕ := range.stop - range.start

def indices (range : Range) : List ℕ := List.range' range.start range.len

def slice {Row : Type} (range : Range) (rows : List Row) : List Row :=
  (rows.drop range.start).take range.len

def mid (range : Range) : ℕ := range.start + range.len / 2

variable (range : Range) (several : 1 < range.len)

def front : Range := ⟨range.start, range.mid, by unfold mid; omega⟩

def back : Range := ⟨range.mid, range.stop, by unfold mid len at *; omega⟩

def probe : Range := ⟨range.start, range.start + 1, by omega⟩

def rest : Range := ⟨range.start + 1, range.stop, by unfold len at several; omega⟩

end Range

structure Sent where
  number : ℕ
  range : Range
  deriving DecidableEq

/-- The local variables of the loop, with the requests sent so far. -/
structure Walk where
  stack : List Range
  accepted : List ℕ
  rejected : List RejectedUpload
  deferred : List ℕ
  stopped : Option SyncUploadError
  requests : ℕ
  halt : Bool
  sent : List Sent
  deriving DecidableEq

/-- What the server answers to the rows of a request. -/
abbrev Upload (Row : Type) := ℕ → List Row → Except SyncUploadError StatsUploadResponse

namespace Walk

def push (walk : Walk) (ranges : List Range) : Walk := { walk with stack := ranges ++ walk.stack }

def accept (walk : Walk) (indices : List ℕ) : Walk :=
  { walk with accepted := walk.accepted ++ indices }

def reject (walk : Walk) (index : ℕ) (err : SyncUploadError) : Walk :=
  { walk with rejected := walk.rejected ++ [rejectedUpload index err] }

def defer (walk : Walk) (range : Range) : Walk :=
  { walk with deferred := walk.deferred ++ range.indices }

def stop (walk : Walk) (range : Range) (err : SyncUploadError) : Walk :=
  { walk.defer range with stopped := some err, halt := true }

def send (walk : Walk) (range : Range) : Walk :=
  { walk with requests := walk.requests + 1, sent := ⟨walk.requests, range⟩ :: walk.sent }

end Walk

section

variable {Row : Type} (upload : Upload Row) (rows : List Row) (budget : ℕ)

/-- A batch was refused and no row named: probe its first row, and retry the rest. -/
def probeFirst (walk : Walk) (range : Range) (several : 1 < range.len) : Walk :=
  if walk.requests ≥ budget then walk.defer range
  else
    let sent := walk.send range.probe
    match upload walk.requests (range.probe.slice rows) with
    | .ok _ => (sent.accept [range.start]).push [range.rest several]
    | .error one =>
        if one.isPayloadReject then (sent.reject range.start one).push [range.rest several]
        else sent.stop range one

def refused (walk : Walk) (range : Range) (err : SyncUploadError) : Walk :=
  if err.isPayloadReject then
    if several : 1 < range.len then
      if payloadNamesARow err.message then
        walk.push [range.front several, range.back several]
      else probeFirst upload rows budget walk range several
    else walk.reject range.start err
  else walk.stop range err

/-- The body of the loop over the stack of ranges. -/
def isolationStep (walk : Walk) : Option Walk :=
  match walk.stack with
  | [] => none
  | range :: stack =>
      let popped := { walk with stack := stack }
      if popped.halt || decide (popped.requests ≥ budget) then some (popped.defer range)
      else
        match upload popped.requests (range.slice rows) with
        | .ok _ => some ((popped.send range).accept range.indices)
        | .error err => some (refused upload rows budget (popped.send range) range err)

def initialWalk : Walk where
  stack := if nonempty : 0 < rows.length then [⟨0, rows.length, nonempty⟩] else []
  accepted := []
  rejected := []
  deferred := []
  stopped := none
  requests := 0
  halt := false
  sent := []

/-- The walk over the whole chunk.  Every range is cut less than twice its length. -/
def isolationWalk : Walk :=
  loop (isolationStep upload rows (isolationRequestBudget rows.length)) (2 * rows.length)
    (initialWalk rows)

/-- A pass that accepts no row refuses none: the batch stays queued. -/
def finishIsolation (walk : Walk) : UploadIsolation :=
  match walk.accepted, walk.rejected with
  | [], first :: others =>
      let rateLimited := walk.stopped.any fun err => err.status == some 429
      { accepted := []
        rejected := []
        deferred :=
          ((first :: others).map RejectedUpload.index ++ walk.deferred).mergeSort
        stopped :=
          if walk.stopped.isNone || rateLimited then
            some (serverWideRefusal first.message (walk.stopped.bind SyncUploadError.retryAfter))
          else walk.stopped
        requests := walk.requests }
  | accepted, rejected =>
      { accepted := accepted
        rejected := rejected
        deferred := walk.deferred
        stopped := walk.stopped
        requests := walk.requests }

def isolateRejected : UploadIsolation := finishIsolation (isolationWalk upload rows)

end

/-! ## What a step can do -/

section

variable {Row : Type} (upload : Upload Row) (rows : List Row) (budget : ℕ)

/-- What a step makes of the range it took off the stack. -/
inductive Move (walk : Walk) (range : Range) : Walk → Prop
  | leave (spent : walk.halt = true ∨ budget ≤ walk.requests) : Move walk range (walk.defer range)
  | accept {response : StatsUploadResponse} (room : walk.requests < budget)
      (answer : upload walk.requests (range.slice rows) = .ok response) :
      Move walk range ((walk.send range).accept range.indices)
  | bisect {err : SyncUploadError} (room : walk.requests < budget)
      (answer : upload walk.requests (range.slice rows) = .error err)
      (payload : err.isPayloadReject = true) (several : 1 < range.len)
      (named : payloadNamesARow err.message = true) :
      Move walk range ((walk.send range).push [range.front several, range.back several])
  | spent {err : SyncUploadError} (room : walk.requests < budget)
      (answer : upload walk.requests (range.slice rows) = .error err)
      (payload : err.isPayloadReject = true) (several : 1 < range.len)
      (unnamed : payloadNamesARow err.message = false) (last : budget ≤ walk.requests + 1) :
      Move walk range ((walk.send range).defer range)
  | probeAccept {err : SyncUploadError} {response : StatsUploadResponse}
      (room : walk.requests + 1 < budget)
      (answer : upload walk.requests (range.slice rows) = .error err)
      (payload : err.isPayloadReject = true) (several : 1 < range.len)
      (unnamed : payloadNamesARow err.message = false)
      (probed : upload (walk.requests + 1) (range.probe.slice rows) = .ok response) :
      Move walk range
        ((((walk.send range).send range.probe).accept [range.start]).push [range.rest several])
  | probeReject {err one : SyncUploadError} (room : walk.requests + 1 < budget)
      (answer : upload walk.requests (range.slice rows) = .error err)
      (payload : err.isPayloadReject = true) (several : 1 < range.len)
      (unnamed : payloadNamesARow err.message = false)
      (probed : upload (walk.requests + 1) (range.probe.slice rows) = .error one)
      (blamed : one.isPayloadReject = true) :
      Move walk range
        ((((walk.send range).send range.probe).reject range.start one).push [range.rest several])
  | probeStop {err one : SyncUploadError} (room : walk.requests + 1 < budget)
      (answer : upload walk.requests (range.slice rows) = .error err)
      (probed : upload (walk.requests + 1) (range.probe.slice rows) = .error one)
      (other : one.isPayloadReject = false) :
      Move walk range (((walk.send range).send range.probe).stop range one)
  | reject {err : SyncUploadError} (room : walk.requests < budget)
      (answer : upload walk.requests (range.slice rows) = .error err)
      (payload : err.isPayloadReject = true) (single : ¬1 < range.len) :
      Move walk range ((walk.send range).reject range.start err)
  | stop {err : SyncUploadError} (room : walk.requests < budget)
      (answer : upload walk.requests (range.slice rows) = .error err)
      (other : err.isPayloadReject = false) :
      Move walk range ((walk.send range).stop range err)

variable {upload rows budget}

theorem move_refused (walk : Walk) {range : Range} {err : SyncUploadError}
    (room : walk.requests < budget)
    (answer : upload walk.requests (range.slice rows) = .error err) :
    Move upload rows budget walk range
      (refused upload rows budget (walk.send range) range err) := by
  unfold refused
  split_ifs with payload several named
  · exact .bisect room answer payload several named
  · have unnamed : payloadNamesARow err.message = false := by simpa using named
    unfold probeFirst
    split_ifs with last
    · exact .spent room answer payload several unnamed last
    · have room : walk.requests + 1 < budget := not_le.mp last
      cases probed : upload (walk.send range).requests (range.probe.slice rows) with
      | ok response => exact .probeAccept room answer payload several unnamed probed
      | error one =>
          simp only []
          split_ifs with blamed
          · exact .probeReject room answer payload several unnamed probed blamed
          · exact .probeStop room answer probed (by simpa using blamed)
  · exact .reject room answer payload several
  · exact .stop room answer (by simpa using payload)

/-- A step takes a range off the stack and makes one move with it. -/
theorem isolationStep_move {walk next : Walk}
    (step : isolationStep upload rows budget walk = some next) :
    ∃ range stack, walk.stack = range :: stack ∧
      Move upload rows budget { walk with stack := stack } range next := by
  unfold isolationStep at step
  cases pending : walk.stack with
  | nil =>
      rw [pending] at step
      cases step
  | cons range stack =>
      refine ⟨range, stack, rfl, ?_⟩
      simp only [pending] at step
      split_ifs at step with spent
      · rcases Option.some.inj step with rfl
        exact .leave (by simpa using spent)
      · simp only [Bool.or_eq_true, decide_eq_true_eq, not_or, not_le] at spent
        cases answer : upload walk.requests (range.slice rows) with
        | ok response =>
            rw [answer] at step
            rcases Option.some.inj step with rfl
            exact .accept spent.2 answer
        | error err =>
            rw [answer] at step
            rcases Option.some.inj step with rfl
            exact move_refused { walk with stack := stack } spent.2 answer

theorem isolationStep_eq_none {walk : Walk} :
    isolationStep upload rows budget walk = none ↔ walk.stack = [] := by
  unfold isolationStep
  cases walk.stack with
  | nil => simp
  | cons range stack =>
      simp only [reduceCtorEq, iff_false]
      split_ifs
      · simp
      · cases upload walk.requests (range.slice rows) <;> simp

end

end ScuffedCrew.Sync
