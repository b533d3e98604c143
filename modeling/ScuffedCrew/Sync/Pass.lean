import ScuffedCrew.Storage.Match
import ScuffedCrew.Storage.Records

/-!
# The upload request

The body an upload posts.  A row held for review, or with a blank map, mode or
hero, has no entry in it.
-/

namespace ScuffedCrew.Sync

open Rust Parse Storage

structure StatsUploadEntry where
  sessionId : Text
  hero : Text
  mapName : Text
  gameMode : Text
  role : Text
  outcome : Text
  elims : ℕ
  deaths : ℕ
  assists : ℕ
  damage : ℕ
  healing : ℕ
  mitigation : ℕ
  playedAt : Datetime
  edited : Bool
  recognizer : Option Text
  suspectFields : List Text
  nameRecognizer : Option Text
  deriving DecidableEq

structure StatsUploadRequest where
  entries : List StatsUploadEntry
  deletedSessions : List Text
  deriving DecidableEq

def rowNeedsReview (row : PersonalMatch) : Bool :=
  !(reviewSuspectFields row.displayMapName row.gameMode row.displayHero).isEmpty

/-- The entry of a row that needs no review: the effective values, unless they identify no game. -/
def uploadEntry (row : PersonalMatch) : Option StatsUploadEntry :=
  let gameMode := uploadedGameMode row.displayMapName row.gameMode
  if uploadIdentityBlank row.displayMapName gameMode row.displayHero then none
  else
    some
      { sessionId := row.sessionId
        hero := row.displayHero
        mapName := row.displayMapName
        gameMode := gameMode
        role := row.displayRole
        outcome := row.displayOutcome
        elims := row.displayElims
        deaths := row.displayDeaths
        assists := row.displayAssists
        damage := row.displayDamage
        healing := row.displayHealing
        mitigation := row.displayMitigation
        playedAt := row.playedAt
        edited := row.isEdited
        recognizer := some row.storedRecognizer
        suspectFields := uploadSuspectFields row.suspectFields
        nameRecognizer := row.nameRecognizer.filter fun id => !id.isEmpty }

def uploadRequest (rows : List PersonalMatch) (deletedSessions : List Text) :
    StatsUploadRequest where
  entries := (rows.filter fun row => !rowNeedsReview row).filterMap uploadEntry
  deletedSessions := deletedSessions

/-- The entry the contents of one row produce, if they produce one. -/
def entryOf (row : PersonalMatch) : Option StatsUploadEntry :=
  if rowNeedsReview row then none else uploadEntry row

/-- A request is the entries of its rows, in their order. -/
theorem entries_uploadRequest (rows : List PersonalMatch) (deletedSessions : List Text) :
    (uploadRequest rows deletedSessions).entries = rows.filterMap entryOf := by
  simp only [uploadRequest, List.filterMap_filter]
  apply List.filterMap_congr
  intro row _
  unfold entryOf
  cases rowNeedsReview row <;> rfl

section Columns

variable (row : PersonalMatch)

/-! The columns of the queue and the members' decisions are in no entry. -/

@[simp]
theorem entryOf_synced (synced : Bool) : entryOf { row with synced } = entryOf row := rfl

/-- Suspect fields are sent by their flat names, and decide nothing else about the entry. -/
theorem entryOf_suspectFields (suspectFields : List Text) :
    entryOf { row with suspectFields } =
      (entryOf row).map fun entry =>
        { entry with suspectFields := uploadSuspectFields suspectFields } := by
  unfold entryOf
  have same_review : rowNeedsReview { row with suspectFields } = rowNeedsReview row := rfl
  rw [same_review]
  split
  · rfl
  · simp only [uploadEntry, apply_ite (Option.map _)]
    rfl

theorem entry_suspectFields {row : PersonalMatch} {entry : StatsUploadEntry}
    (produces : entryOf row = some entry) :
    entry.suspectFields = uploadSuspectFields row.suspectFields := by
  have same := entryOf_suspectFields row row.suspectFields
  rw [produces] at same
  exact congrArg StatsUploadEntry.suspectFields (Option.some.inj same)

/-- A timeline is sent by the effective hero and role it gives the row. -/
theorem entryOf_heroesPlayed {row : PersonalMatch} {heroesPlayed : List HeroSegment}
    (same_hero : { row with heroesPlayed }.displayHero = row.displayHero)
    (same_role : { row with heroesPlayed }.displayRole = row.displayRole) :
    entryOf { row with heroesPlayed } = entryOf row := by
  unfold entryOf
  have same_review : rowNeedsReview { row with heroesPlayed } = rowNeedsReview row := by
    simp only [rowNeedsReview, same_hero]
    rfl
  rw [same_review]
  split
  · rfl
  · simp only [uploadEntry, same_hero, same_role]
    rfl

end Columns

end ScuffedCrew.Sync

/-!
## The upload pass beside the writers

A pass reads the unsynced rows with a claim on each, uploads their request, and
marks the claims one compare-and-swap at a time.  The calls of the store take
their steps in between.  `uploaded` remembers, beside the program, the entry
last uploaded for each row.
-/

namespace ScuffedCrew.Sync

open Rust Database StateMachine Storage

structure SyncClaim where
  id : RecordId
  syncRev : ℕ
  sessionId : Text
  deriving DecidableEq

namespace SyncClaim

def capture (rows : List (Record PersonalMatch)) : List SyncClaim :=
  rows.map fun row => ⟨row.id, row.value.syncRev, row.value.sessionId⟩

/-- A row without a session is a group of its own. -/
def groupKey (claim : SyncClaim) : RecordId ⊕ Text :=
  if claim.sessionId.isEmpty then .inl claim.id else .inr claim.sessionId

/-- The claims of each session; the map of the groups has no order. -/
def groups (claims : List SyncClaim) : List (List SyncClaim) :=
  (claims.map groupKey).dedup.map fun key => claims.filter fun claim => claim.groupKey = key

end SyncClaim

/-- `get_unsynced`. -/
def getUnsynced (store : Store) : List (Record PersonalMatch) :=
  (store.personalMatch.rows.filter fun row =>
    !row.value.synced && row.value.outcome != "unknown".toList &&
      row.value.uploadRejection.isNone).insertionSort
    fun first second => first.value.playedAt ≤ second.value.playedAt

/-! ## Positions of a pass -/

inductive SyncPass
  | idle
  /-- The rows are read, and not uploaded yet. -/
  | reading (rows : List (Record PersonalMatch))
  /-- The next claim of a group to mark, and what the group has marked. -/
  | mark (claim : SyncClaim) (todo marked : List SyncClaim) (allOk : Bool)
      (rest : List (List SyncClaim))
  /-- The next claim of a group to take back. -/
  | unmark (claim : SyncClaim) (todo : List SyncClaim) (rest : List (List SyncClaim))

namespace SyncPass

def nextGroup : List (List SyncClaim) → SyncPass
  | [] => .idle
  | [] :: rest => nextGroup rest
  | (claim :: todo) :: rest => .mark claim todo [] true rest

def nextUnmark (rest : List (List SyncClaim)) : List SyncClaim → SyncPass
  | [] => nextGroup rest
  | claim :: todo => .unmark claim todo rest

def nextMark (marked : List SyncClaim) (allOk : Bool) (rest : List (List SyncClaim)) :
    List SyncClaim → SyncPass
  | claim :: todo => .mark claim todo marked allOk rest
  | [] => if allOk then nextGroup rest else nextUnmark rest marked

/-- The claims a pass may still mark. -/
def claims : SyncPass → List SyncClaim
  | .idle => []
  | .reading rows => SyncClaim.capture rows
  | .mark claim todo _ _ rest => claim :: (todo ++ rest.flatten)
  | .unmark _ _ rest => rest.flatten

end SyncPass

/-! ## The machine -/

structure Syncing where
  pool : Calls
  pass : SyncPass
  /-- The entry last uploaded for each row. -/
  uploaded : RecordId → Option StatsUploadEntry

/-- How the request ends; `lost`, the server stores it and the answer does not arrive.  After an
answer, `mark_synced` goes through its groups in some order. -/
inductive UploadResult
  | accepted (order : List (List SyncClaim))
  | lost
  | failed
  deriving DecidableEq

inductive Event
  /-- A call takes its next step. -/
  | call (turn : Turn Answer)
  | read (answer : Answer)
  | upload (result : UploadResult)
  /-- The compare-and-swap of the next claim. -/
  | swap (answer : Answer)

/-- The entries of the rows, over those uploaded before. -/
def recordUpload (rows : List (Record PersonalMatch))
    (uploaded : RecordId → Option StatsUploadEntry) : RecordId → Option StatsUploadEntry :=
  fun id =>
    ((rows.find? fun row => row.id == id).bind fun row => entryOf row.value).or (uploaded id)

/-- `cas_set_synced` found the row at this revision. -/
def swapApplies (store : Store) (claim : SyncClaim) : Bool :=
  (store.personalMatch.get? claim.id).any fun row => row.syncRev == claim.syncRev

namespace Syncing

def store (state : Syncing) : Store := state.pool.shared.store

/-- The state with `synced` set on the claimed row, if it is still at its revision. -/
def setSynced (state : Syncing) (claim : SyncClaim) (synced : Bool) : Calls :=
  { state.pool with
    shared :=
      { state.pool.shared with
        store := (Statement.setSynced claim.id claim.syncRev synced).run state.store } }

def read (state : Syncing) : Answer → Option Syncing
  | .applied =>
      match state.pass with
      | .idle => some { state with pass := .reading (getUnsynced state.store) }
      | _ => none
  | _ =>
      match state.pass with
      | .idle => some state
      | _ => none

def upload (state : Syncing) (result : UploadResult) : Option Syncing :=
  match state.pass with
  | .reading rows =>
      match result with
      | .failed => some { state with pass := .idle }
      | .lost => some { state with pass := .idle, uploaded := recordUpload rows state.uploaded }
      | .accepted order =>
          if order.Perm (SyncClaim.groups (SyncClaim.capture rows)) then
            some
              { state with
                pass := .nextGroup order
                uploaded := recordUpload rows state.uploaded }
          else none
  | _ => none

def swap (state : Syncing) (answer : Answer) : Option Syncing :=
  match state.pass, answer with
  | .mark claim todo marked allOk rest, .applied =>
      some
        { state with
          pool := state.setSynced claim true
          pass :=
            if swapApplies state.store claim then
              .nextMark (marked ++ [claim]) allOk rest todo
            else .nextMark marked false rest todo }
  | .unmark claim todo rest, .applied =>
      some
        { state with
          pool := state.setSynced claim false
          pass := .nextUnmark rest todo }
  | .mark _ _ _ _ _, _ | .unmark _ _ _, _ => some { state with pass := .idle }
  | _, _ => none

end Syncing

abbrev SyncStep := Step Syncing Event

/-- The calls of the pool, beside one upload pass after another. -/
def syncing : Machine Syncing Event where
  next state
    | .call turn => (calls.next state.pool turn).map fun pool => { state with pool }
    | .read answer => state.read answer
    | .upload result => state.upload result
    | .swap answer => state.swap answer

end ScuffedCrew.Sync
