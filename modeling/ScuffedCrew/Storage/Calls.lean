import Mathlib.Data.Finset.Basic
import ScuffedCrew.StateMachine.Pool
import ScuffedCrew.Storage.Store

/-!
# Calls in flight

Every call of the store as the position it has reached, and the step it takes
from there.  Between two steps of a call any other call may move.  A step reads
the store, runs one statement, or looks at the sessions deleted in this
process.
-/

namespace ScuffedCrew.Storage

open Rust Parse Database StateMachine

/-- How a query ends: an error inside the response is raised only where the call checks it. -/
inductive Answer
  | applied
  | refused
  | failed
  deriving DecidableEq, Repr

structure Shared where
  store : Store
  /-- `deleted_here` -/
  deletedHere : Finset Text

/-! ## `insert_match` -/

inductive InsertResult
  | stored (id : RecordId)
  | dropped
  | failed
  deriving DecidableEq, Repr

inductive InsertMatch
  | check (row : PersonalMatch)
  | decideOutcome (row : PersonalMatch)
  | keepRecognizer (row : PersonalMatch)
  | create (row : PersonalMatch)
  | recheck (id : RecordId) (sessionId : Text)
  | remove (id : RecordId) (sessionId : Text)
  | returned (result : InsertResult)
  deriving DecidableEq

namespace InsertMatch

def start (row : PersonalMatch) : InsertMatch :=
  if row.sessionId.isEmpty then .create row else .check row

def afterOutcome (row : PersonalMatch) : InsertMatch :=
  if nameRecognizerAbsent row.nameRecognizer then .keepRecognizer row else .create row

def afterCheck (row : PersonalMatch) : InsertMatch :=
  if outcomeIsDecided row.outcome then afterOutcome row else .decideOutcome row

def statement : InsertMatch → Option Statement
  | .create row => some (.createMatch row)
  | .remove id _ => some (.deleteMatch id)
  | _ => none

def resume (shared : Shared) : InsertMatch → Answer → Option InsertMatch
  | .check row, _ =>
      some (if row.sessionId ∈ shared.deletedHere then .returned .dropped else afterCheck row)
  | .decideOutcome row, .applied =>
      some (afterOutcome
        { row with
          outcome := (shared.store.sessionDecidedOutcome row.sessionId).getD row.outcome })
  | .keepRecognizer row, .applied =>
      some (.create
        { row with
          nameRecognizer :=
            (shared.store.sessionNameRecognizer row.sessionId).or row.nameRecognizer })
  | .create row, .applied =>
      let id := shared.store.personalMatch.nextId
      some (if row.sessionId.isEmpty then .returned (.stored id) else .recheck id row.sessionId)
  | .recheck id sessionId, _ =>
      some (if sessionId ∈ shared.deletedHere then .remove id sessionId else .returned (.stored id))
  | .remove _ _, .applied => some (.returned .dropped)
  | .returned _, _ => none
  | _, _ => some (.returned .failed)

end InsertMatch

/-! ## `create_session` -/

inductive CreateSession
  | check (session : MatchSession)
  | upsert (session : MatchSession)
  | returned (ok : Bool)
  deriving DecidableEq

namespace CreateSession

def statement : CreateSession → Option Statement
  | .upsert session => some (.upsertSession session)
  | _ => none

def resume (shared : Shared) : CreateSession → Answer → Option CreateSession
  | .check session, _ =>
      some (if session.sessionId ∈ shared.deletedHere then .returned true else .upsert session)
  | .upsert _, answer => some (.returned (answer != .failed))
  | .returned _, _ => none

end CreateSession

/-! ## `delete_session` -/

/-- The statements of the transaction after `BEGIN`. -/
inductive TransactionStep
  | deleteSessions
  | deleteMatches
  | createTombstone
  | commit
  deriving DecidableEq, Repr

/-- A transaction works on the records its `BEGIN` saw; nothing of it shows before `COMMIT`. -/
inductive DeleteSession
  | mark (sessionId : Text)
  | begin (sessionId : Text) (newlyMarked : Bool)
  | transaction (sessionId : Text) (newlyMarked : Bool) (sessions rows : List RecordId)
      (pending : TransactionStep)
  | unmark (sessionId : Text)
  | returned (ok : Bool)
  deriving DecidableEq

namespace DeleteSession

/-- A failed delete takes back the mark it set itself. -/
def fail (sessionId : Text) (newlyMarked : Bool) : DeleteSession :=
  if newlyMarked then .unmark sessionId else .returned false

def statement : DeleteSession → Option Statement
  | .transaction sessionId _ sessions rows .commit => some (.commitDelete sessionId sessions rows)
  | _ => none

def recordIds {α : Type} (records : List (Record α)) (selected : α → Bool) : List RecordId :=
  (records.filter fun record => selected record.value).map Record.id

def resume (shared : Shared) : DeleteSession → Answer → Option DeleteSession
  | .mark sessionId, _ => some (.begin sessionId (decide (sessionId ∉ shared.deletedHere)))
  | .begin sessionId newlyMarked, .applied =>
      some (.transaction sessionId newlyMarked
        (recordIds shared.store.matchSession.rows fun session => session.sessionId == sessionId)
        (recordIds shared.store.personalMatch.rows fun row => row.sessionId == sessionId)
        .deleteSessions)
  | .transaction sessionId newlyMarked sessions rows .deleteSessions, .applied =>
      some (.transaction sessionId newlyMarked sessions rows .deleteMatches)
  | .transaction sessionId newlyMarked sessions rows .deleteMatches, .applied =>
      some (.transaction sessionId newlyMarked sessions rows .createTombstone)
  | .transaction sessionId newlyMarked sessions rows .createTombstone, .applied =>
      some (.transaction sessionId newlyMarked sessions rows .commit)
  | .transaction _ _ _ _ .commit, .applied => some (.returned true)
  | .begin sessionId newlyMarked, _ => some (fail sessionId newlyMarked)
  | .transaction sessionId newlyMarked _ _ _, _ => some (fail sessionId newlyMarked)
  | .unmark _, _ => some (.returned false)
  | .returned _, _ => none

def marks : DeleteSession → Finset Text → Finset Text
  | .mark sessionId, deletedHere => insert sessionId deletedHere
  | .unmark sessionId, deletedHere => deletedHere.erase sessionId
  | _, deletedHere => deletedHere

end DeleteSession

/-! ## The other writers

The rest of the writers read rows and then write values computed from them. -/

/-- What is left of such a call. -/
inductive Script
  | done (ok : Bool)
  | write (update : Update) (rest : Script)
  | read (rest : Store → Script)

namespace Script

def statement : Script → Option Statement
  | .write update _ => some (.rewrite update)
  | _ => none

/-- A refused write is not noticed; a read that fails in either way is. -/
def resume (shared : Shared) : Script → Answer → Option Script
  | .done _, _ => none
  | .write _ _, .failed => some (.done false)
  | .write _ rest, _ => some rest
  | .read rest, .applied => some (rest shared.store)
  | .read _, _ => some (.done false)

def writes (updates : List Update) (rest : Script) : Script :=
  updates.foldr .write rest

def clearSessionSuspects (sessionId : Text) (storageField : String) : Script :=
  .read fun store =>
    writes
      ((store.sessionSnapshots sessionId).filterMap fun row =>
        let fields := clearEditedSuspects row.value.suspectFields storageField
        if fields = row.value.suspectFields then none else some (.stampSuspects row.id fields))
      (.done true)

def setSessionMap (sessionId mapName : Text) : Script :=
  .write (.setSessionMapName sessionId mapName) <|
    .write (.setMapName sessionId mapName (storedGameMode mapName)) <|
      clearSessionSuspects sessionId "map_name"

/-- The two writes of `set_session_map`, for one row. -/
def stampMap (mapName : Text) (row : Record PersonalMatch) : List Update :=
  let gameMode := storedGameMode mapName
  let suspects := clearEditedSuspects row.value.suspectFields "map_name"
  if row.value.hasMemberMapEdit then []
  else
    (if row.value.mapName ≠ mapName ∨ row.value.gameMode ≠ gameMode then
      [.stampMapName row.id mapName gameMode] else []) ++
    (if suspects ≠ row.value.suspectFields then [.stampSuspects row.id suspects] else [])

def setSessionMapKeepingMemberChoices (sessionId mapName : Text) : Script :=
  .read fun store =>
    let snapshots := store.sessionSnapshots sessionId
    if snapshots.any fun row => row.value.hasMemberMapEdit then
      .write (.setSessionMapName sessionId mapName) <|
        writes (snapshots.flatMap (stampMap mapName)) (.done true)
    else setSessionMap sessionId mapName

def setSessionOutcome (sessionId outcome : Text) : Script :=
  .write (.setFinalOutcome sessionId outcome) <|
    .write (.setOutcome sessionId outcome) <| clearSessionSuspects sessionId "outcome"

def editMatch (sessionId : Text) (edit : MatchEdit) (now : Datetime) : Script :=
  .read fun store =>
    writes
      ((store.sessionSnapshots sessionId).filterMap fun row =>
        (applyMatchEdit row.value edit now).map (.stampEdit row.id))
      (.done true)

/-- A row is queued again when its effective hero or role changes. -/
def stampTimeline (segments : List HeroSegment) (row : Record PersonalMatch) : Option Update :=
  let probe := { row.value with heroesPlayed := segments }
  if row.value.heroesPlayed = segments then none
  else
    some (.stampTimeline row.id segments
      (row.value.displayHero != probe.displayHero || row.value.displayRole != probe.displayRole))

def refreshSessionHeroTimeline (sessionId : Text) : Script :=
  .read fun store =>
    let snapshots := store.sessionSnapshots sessionId
    let rows := snapshots.map Record.value
    let segments := deriveHeroSegments rows (collectSegmentResolutions rows)
    writes (snapshots.filterMap (stampTimeline segments)) (.done true)

def resolveHeroSegment (sessionId : Text) (segment : ℕ) (action : Text) : Script :=
  .read fun store =>
    let snapshots := store.sessionSnapshots sessionId
    let resolutions :=
      withResolution (collectSegmentResolutions (snapshots.map Record.value)) segment action
    if snapshots.isEmpty then .done true
    else
      writes
        (snapshots.filterMap fun row =>
          if row.value.segmentResolutions = resolutions then none
          else some (.stampResolutions row.id resolutions))
        (refreshSessionHeroTimeline sessionId)

end Script

/-! ## The pool of calls -/

inductive Call
  | insertMatch (position : InsertMatch)
  | createSession (position : CreateSession)
  | deleteSession (position : DeleteSession)
  | script (position : Script)

namespace Call

/-- The statement of the call's next step, when that step writes. -/
def statement : Call → Option Statement
  | .insertMatch position => position.statement
  | .createSession position => position.statement
  | .deleteSession position => position.statement
  | .script position => position.statement

def resume (shared : Shared) (answer : Answer) : Call → Option Call
  | .insertMatch position => (position.resume shared answer).map .insertMatch
  | .createSession position => (position.resume shared answer).map .createSession
  | .deleteSession position => (position.resume shared answer).map .deleteSession
  | .script position => (position.resume shared answer).map .script

def write (call : Call) (answer : Answer) (store : Store) : Store :=
  match call.statement, answer with
  | some statement, .applied => statement.run store
  | _, _ => store

def marks : Call → Finset Text → Finset Text
  | .deleteSession position, deletedHere => position.marks deletedHere
  | _, deletedHere => deletedHere

def returned : Call → Bool
  | .insertMatch (.returned _) | .createSession (.returned _) | .deleteSession (.returned _)
  | .script (.done _) => true
  | _ => false

def next (shared : Shared) (call : Call) (answer : Answer) : Option (Shared × Call) :=
  (call.resume shared answer).map fun moved =>
    (⟨call.write answer shared.store, call.marks shared.deletedHere⟩, moved)

end Call

abbrev Calls := Pool Shared Call

abbrev CallStep := Step Calls (Turn Answer)

/-- Every interleaving of the calls in the pool. -/
def calls : Machine Calls (Turn Answer) := interleaving Call.next

/-- An empty store, and these calls before their first step. -/
def Calls.fresh (processes : List Call) : Calls :=
  ⟨⟨⟨.empty, .empty, .empty⟩, ∅⟩, processes⟩

/-- The next steps of one call, every query of which works. -/
def turns (process count : ℕ) : List (Turn Answer) := List.replicate count ⟨process, .applied⟩

def game : Text := "game".toList

def busanBoard : PersonalMatch :=
  { newMatch ⟨10, 5, 12, 4000, 9000, 0⟩ "Ana".toList "Busan".toList "victory".toList 0 with
    sessionId := game
    nameRecognizer := some "names-v1".toList }

end ScuffedCrew.Storage
