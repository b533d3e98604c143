import ScuffedCrew.Database.Table
import ScuffedCrew.Storage.Edit
import ScuffedCrew.Storage.Timeline

/-!
# The local store and its statements

The tables of the store, and every statement that writes to them.  One
statement is one atomic step.  A statement that changes what an upload sends is
meant to take the row off the synced state and give it a new revision in the
same write (`requeue`).
-/

namespace ScuffedCrew.Storage

open Rust Parse Database

abbrev RecordId := ℕ

structure MatchSession where
  sessionId : Text
  hero : Text
  mapName : Text
  role : Text
  startedAt : Datetime
  lastCaptureAt : Datetime
  captureCount : ℕ
  finalOutcome : Text
  deriving DecidableEq

/-- A tombstone: a game the next sync deletes on the server too. -/
structure DeletedSession where
  sessionId : Text
  deriving DecidableEq

structure Store where
  personalMatch : Table PersonalMatch
  matchSession : Table MatchSession
  deletedSession : Table DeletedSession

namespace PersonalMatch

/-- `synced = false, upload_reject = '', sync_rev = (sync_rev ?? 0) + 1`. -/
def requeue (row : PersonalMatch) : PersonalMatch :=
  { row with synced := false, uploadReject := some [], syncRev := row.syncRev + 1 }

/-- The columns an edit statement sets. -/
def setOverlay (row edited : PersonalMatch) : PersonalMatch :=
  { row with
    correctedHero := edited.correctedHero
    correctedRole := edited.correctedRole
    correctedMapName := edited.correctedMapName
    correctedOutcome := edited.correctedOutcome
    correctedElims := edited.correctedElims
    correctedDeaths := edited.correctedDeaths
    correctedAssists := edited.correctedAssists
    correctedDamage := edited.correctedDamage
    correctedHealing := edited.correctedHealing
    correctedMitigation := edited.correctedMitigation
    gameMode := edited.gameMode
    editedFields := edited.editedFields
    editedAt := edited.editedAt
    suspectFields := edited.suspectFields }

end PersonalMatch

/-- The updates of the writers that change rows already stored. -/
inductive Update
  /-- `UPDATE match_session SET map_name = $map` -/
  | setSessionMapName (sessionId mapName : Text)
  /-- `UPDATE match_session SET final_outcome = $outcome` -/
  | setFinalOutcome (sessionId outcome : Text)
  /-- `UPDATE personal_match SET map_name = $map, game_mode = $mode, …` where either differs -/
  | setMapName (sessionId mapName gameMode : Text)
  /-- `UPDATE personal_match SET outcome = $outcome, …` -/
  | setOutcome (sessionId outcome : Text)
  /-- `UPDATE $id SET map_name = $map, game_mode = $mode, …` -/
  | stampMapName (id : RecordId) (mapName gameMode : Text)
  /-- `UPDATE $id SET corrected_hero = $ch, …` -/
  | stampEdit (id : RecordId) (edited : PersonalMatch)
  /-- `UPDATE $id SET suspect_fields = $sf` -/
  | stampSuspects (id : RecordId) (suspectFields : List Text)
  /-- `UPDATE $id SET heroes_played = $hp`, re-queued or not -/
  | stampTimeline (id : RecordId) (heroesPlayed : List HeroSegment) (requeue : Bool)
  /-- `UPDATE $id SET segment_resolutions = $sr` -/
  | stampResolutions (id : RecordId) (resolutions : List SegmentResolution)

namespace Update

def runMatches (rows : Table PersonalMatch) : Update → Table PersonalMatch
  | .setSessionMapName _ _ | .setFinalOutcome _ _ => rows
  | .setMapName sessionId mapName gameMode =>
      rows.updateWhere
        (fun row => row.value.sessionId == sessionId &&
          (row.value.mapName != mapName || row.value.gameMode != gameMode))
        fun row => { row with mapName, gameMode }.requeue
  | .setOutcome sessionId outcome =>
      rows.updateWhere (fun row => row.value.sessionId == sessionId)
        fun row => { row with outcome }.requeue
  | .stampMapName id mapName gameMode =>
      rows.update id fun row => { row with mapName, gameMode }.requeue
  | .stampEdit id edited => rows.update id fun row => (row.setOverlay edited).requeue
  | .stampSuspects id suspectFields => rows.update id fun row => { row with suspectFields }
  | .stampTimeline id heroesPlayed true =>
      rows.update id fun row => { row with heroesPlayed }.requeue
  | .stampTimeline id heroesPlayed false => rows.update id fun row => { row with heroesPlayed }
  | .stampResolutions id segmentResolutions =>
      rows.update id fun row => { row with segmentResolutions }

def runSessions (sessions : Table MatchSession) : Update → Table MatchSession
  | .setSessionMapName sessionId mapName =>
      sessions.updateWhere (fun record => record.value.sessionId == sessionId)
        fun session => { session with mapName }
  | .setFinalOutcome sessionId finalOutcome =>
      sessions.updateWhere (fun record => record.value.sessionId == sessionId)
        fun session => { session with finalOutcome }
  | _ => sessions

end Update

/-- The statements that write. -/
inductive Statement
  /-- `CREATE personal_match` -/
  | createMatch (row : PersonalMatch)
  /-- `DELETE $rid` -/
  | deleteMatch (id : RecordId)
  /-- `UPSERT match_session … WHERE session_id = $sid` -/
  | upsertSession (session : MatchSession)
  /-- `COMMIT` of a delete that saw these records -/
  | commitDelete (sessionId : Text) (sessions rows : List RecordId)
  | rewrite (update : Update)
  /-- `UPDATE $id SET synced = $synced WHERE (sync_rev ?? 0) = $rev` -/
  | setSynced (id : RecordId) (rev : ℕ) (synced : Bool)

namespace Statement

def runMatches (rows : Table PersonalMatch) : Statement → Table PersonalMatch
  | .createMatch row => rows.create row
  | .deleteMatch id => rows.deleteWhere fun row => row.id == id
  | .upsertSession _ => rows
  | .commitDelete _ _ seen => rows.deleteWhere fun row => seen.contains row.id
  | .rewrite update => update.runMatches rows
  | .setSynced id rev synced =>
      rows.updateWhere (fun row => row.id == id && row.value.syncRev == rev)
        fun row => { row with synced }

def runSessions (sessions : Table MatchSession) : Statement → Table MatchSession
  | .upsertSession session =>
      sessions.upsertWhere (fun record => record.value.sessionId == session.sessionId) session
  | .commitDelete _ seen _ => sessions.deleteWhere fun record => seen.contains record.id
  | .rewrite update => update.runSessions sessions
  | .createMatch _ | .deleteMatch _ | .setSynced _ _ _ => sessions

def runTombstones (tombstones : Table DeletedSession) : Statement → Table DeletedSession
  | .commitDelete sessionId _ _ => tombstones.create ⟨sessionId⟩
  | _ => tombstones

def run (statement : Statement) (store : Store) : Store where
  personalMatch := statement.runMatches store.personalMatch
  matchSession := statement.runSessions store.matchSession
  deletedSession := statement.runTombstones store.deletedSession

end Statement

/-! ## What a statement does to one row -/

/-- The rewriting of a row by an update: it stays, it is re-queued with a change, or one of
the columns that carry no revision is written. -/
inductive Rewrite : Update → RecordId → PersonalMatch → PersonalMatch → Prop
  | kept {update : Update} {id : RecordId} {row : PersonalMatch} : Rewrite update id row row
  | requeued {update : Update} {id : RecordId} {row changed : PersonalMatch}
      (same_session : changed.sessionId = row.sessionId)
      (same_rev : changed.syncRev = row.syncRev) :
      Rewrite update id row changed.requeue
  | suspects {id : RecordId} {row : PersonalMatch} {suspectFields : List Text} :
      Rewrite (.stampSuspects id suspectFields) id row { row with suspectFields }
  | timeline {id : RecordId} {row : PersonalMatch} {heroesPlayed : List HeroSegment} :
      Rewrite (.stampTimeline id heroesPlayed false) id row { row with heroesPlayed }
  | resolutions {id : RecordId} {row : PersonalMatch}
      {segmentResolutions : List SegmentResolution} :
      Rewrite (.stampResolutions id segmentResolutions) id row { row with segmentResolutions }

theorem Rewrite.sessionId_eq {update : Update} {id : RecordId} {old new : PersonalMatch}
    (rewritten : Rewrite update id old new) : new.sessionId = old.sessionId := by
  cases rewritten with
  | requeued same_session => exact same_session
  | _ => rfl

section Rows

variable {rows : Table PersonalMatch} {id : RecordId} {new : PersonalMatch}

theorem Update.runMatches_get? {update : Update}
    (found : (update.runMatches rows).get? id = some new) :
    ∃ old, rows.get? id = some old ∧ Rewrite update id old new := by
  cases update with
  | setSessionMapName sessionId mapName => exact ⟨new, found, .kept⟩
  | setFinalOutcome sessionId outcome => exact ⟨new, found, .kept⟩
  | setMapName sessionId mapName gameMode =>
      rw [runMatches, Table.get?_updateWhere] at found
      rcases Option.map_eq_some_iff.mp found with ⟨old, old_found, rfl⟩
      refine ⟨old, old_found, ?_⟩
      split
      · exact .requeued rfl rfl
      · exact .kept
  | setOutcome sessionId outcome =>
      rw [runMatches, Table.get?_updateWhere] at found
      rcases Option.map_eq_some_iff.mp found with ⟨old, old_found, rfl⟩
      refine ⟨old, old_found, ?_⟩
      split
      · exact .requeued rfl rfl
      · exact .kept
  | stampMapName other mapName gameMode =>
      rcases Table.get?_of_update found with ⟨old, old_found, ⟨-, rfl⟩ | rfl⟩
      · exact ⟨old, old_found, .requeued rfl rfl⟩
      · exact ⟨new, old_found, .kept⟩
  | stampEdit other edited =>
      rcases Table.get?_of_update found with ⟨old, old_found, ⟨-, rfl⟩ | rfl⟩
      · exact ⟨old, old_found, .requeued rfl rfl⟩
      · exact ⟨new, old_found, .kept⟩
  | stampSuspects other suspectFields =>
      rcases Table.get?_of_update found with ⟨old, old_found, ⟨rfl, rfl⟩ | rfl⟩
      · exact ⟨old, old_found, .suspects⟩
      · exact ⟨new, old_found, .kept⟩
  | stampTimeline other heroesPlayed requeue =>
      cases requeue with
      | true =>
          rcases Table.get?_of_update found with ⟨old, old_found, ⟨-, rfl⟩ | rfl⟩
          · exact ⟨old, old_found, .requeued rfl rfl⟩
          · exact ⟨new, old_found, .kept⟩
      | false =>
          rcases Table.get?_of_update found with ⟨old, old_found, ⟨rfl, rfl⟩ | rfl⟩
          · exact ⟨old, old_found, .timeline⟩
          · exact ⟨new, old_found, .kept⟩
  | stampResolutions other resolutions =>
      rcases Table.get?_of_update found with ⟨old, old_found, ⟨rfl, rfl⟩ | rfl⟩
      · exact ⟨old, old_found, .resolutions⟩
      · exact ⟨new, old_found, .kept⟩

/-- A row after a compare-and-swap was there before, and only its `synced` may be new. -/
theorem Statement.runMatches_setSynced {rev : ℕ} {synced : Bool} {other : RecordId}
    (found : ((setSynced other rev synced).runMatches rows).get? id = some new) :
    ∃ old, rows.get? id = some old ∧
      (id = other ∧ old.syncRev = rev ∧ new = { old with synced } ∨ new = old) := by
  rw [runMatches, Table.get?_updateWhere] at found
  rcases Option.map_eq_some_iff.mp found with ⟨old, old_found, rfl⟩
  refine ⟨old, old_found, ?_⟩
  split
  next matched =>
    simp only [Bool.and_eq_true, beq_iff_eq] at matched
    exact .inl ⟨matched.1, matched.2, rfl⟩
  next => exact .inr rfl

/-- A row that a statement leaves was created by it, was there before, or is the rewriting of one
that was. -/
theorem Statement.runMatches_cases {statement : Statement}
    (found : (statement.runMatches rows).get? id = some new) :
    (statement = .createMatch new ∧ id = rows.nextId) ∨
      ∃ old, rows.get? id = some old ∧
        (new = old ∨ (∃ update, statement = .rewrite update ∧ Rewrite update id old new) ∨
          ∃ rev synced, statement = .setSynced id rev synced ∧ new = { old with synced }) := by
  cases statement with
  | createMatch row =>
      rw [runMatches, Table.get?_create] at found
      split at found
      next same => exact .inl ⟨by rw [Option.some.inj found], same⟩
      next => exact .inr ⟨new, found, .inl rfl⟩
  | deleteMatch other => exact .inr ⟨new, Table.get?_of_deleteWhere found, .inl rfl⟩
  | commitDelete sessionId sessions seen =>
      exact .inr ⟨new, Table.get?_of_deleteWhere found, .inl rfl⟩
  | upsertSession session => exact .inr ⟨new, found, .inl rfl⟩
  | rewrite update =>
      rcases Update.runMatches_get? found with ⟨old, old_found, rewritten⟩
      exact .inr ⟨old, old_found, .inr (.inl ⟨update, rfl, rewritten⟩)⟩
  | setSynced other rev synced =>
      rcases Statement.runMatches_setSynced found with ⟨old, old_found, ⟨rfl, -, rfl⟩ | rfl⟩
      · exact .inr ⟨old, old_found, .inr (.inr ⟨rev, synced, rfl, rfl⟩)⟩
      · exact .inr ⟨new, old_found, .inl rfl⟩

theorem Statement.nextId_le_runMatches (statement : Statement) (rows : Table PersonalMatch) :
    rows.nextId ≤ (statement.runMatches rows).nextId := by
  cases statement with
  | createMatch row => exact Nat.le_succ _
  | rewrite update =>
      cases update with
      | stampTimeline id heroesPlayed requeue => cases requeue <;> exact le_rfl
      | _ => exact le_rfl
  | _ => exact le_rfl

theorem Statement.runMatches_get? {statement : Statement}
    (found : (statement.runMatches rows).get? id = some new) :
    (statement = .createMatch new ∧ id = rows.nextId) ∨
      ∃ old, rows.get? id = some old ∧ new.sessionId = old.sessionId := by
  rcases Statement.runMatches_cases found with created | ⟨old, old_found, rfl | rewritten | swapped⟩
  · exact .inl created
  · exact .inr ⟨new, old_found, rfl⟩
  · rcases rewritten with ⟨update, -, rewritten⟩
    exact .inr ⟨old, old_found, rewritten.sessionId_eq⟩
  · rcases swapped with ⟨rev, synced, -, rfl⟩
    exact .inr ⟨old, old_found, rfl⟩

end Rows

section Sessions

variable {sessions : Table MatchSession} {id : RecordId} {new : MatchSession}

theorem Update.runSessions_get? {update : Update}
    (found : (update.runSessions sessions).get? id = some new) :
    ∃ old, sessions.get? id = some old ∧ new.sessionId = old.sessionId := by
  cases update with
  | setSessionMapName sessionId mapName =>
      rw [runSessions, Table.get?_updateWhere] at found
      rcases Option.map_eq_some_iff.mp found with ⟨old, old_found, rfl⟩
      refine ⟨old, old_found, ?_⟩
      split <;> rfl
  | setFinalOutcome sessionId outcome =>
      rw [runSessions, Table.get?_updateWhere] at found
      rcases Option.map_eq_some_iff.mp found with ⟨old, old_found, rfl⟩
      refine ⟨old, old_found, ?_⟩
      split <;> rfl
  | _ => exact ⟨new, found, rfl⟩

/-- A session record that a statement leaves was created by it, when there was none, or was
there under the same session id. -/
theorem Statement.runSessions_get? {statement : Statement}
    (found : (statement.runSessions sessions).get? id = some new) :
    (statement = .upsertSession new ∧
        sessions.rows.any (fun record => record.value.sessionId == new.sessionId) = false) ∨
      ∃ old, sessions.get? id = some old ∧ new.sessionId = old.sessionId := by
  cases statement with
  | upsertSession session =>
      rcases Table.get?_of_upsertWhere found with
        ⟨old, old_found, ⟨chosen, rfl⟩ | rfl⟩ | ⟨unselected, rfl⟩
      · exact .inr ⟨old, old_found, (beq_iff_eq.mp chosen).symm⟩
      · exact .inr ⟨new, old_found, rfl⟩
      · exact .inl ⟨rfl, unselected⟩
  | commitDelete sessionId seen rows => exact .inr ⟨new, Table.get?_of_deleteWhere found, rfl⟩
  | rewrite update => exact .inr (Update.runSessions_get? found)
  | _ => exact .inr ⟨new, found, rfl⟩

end Sessions

namespace Store

/-- `SELECT * FROM personal_match WHERE session_id = $sid ORDER BY played_at ASC`. -/
def sessionSnapshots (store : Store) (sessionId : Text) : List (Record PersonalMatch) :=
  (store.personalMatch.rows.filter fun row => row.value.sessionId == sessionId).insertionSort
    fun first second => first.value.playedAt ≤ second.value.playedAt

/-- `session_decided_outcome`: the session row's outcome, when it is a decided one. -/
def sessionDecidedOutcome (store : Store) (sessionId : Text) : Option Text :=
  ((store.matchSession.rows.filter fun record => record.value.sessionId == sessionId).map
    fun record => record.value.finalOutcome).find? outcomeIsDecided

/-- `session_name_recognizer`: the recognizer stored for a match, newest snapshot first. -/
def sessionNameRecognizer (store : Store) (sessionId : Text) : Option Text :=
  (store.sessionSnapshots sessionId).reverse.findSome? fun row =>
    row.value.nameRecognizer.filter fun id => !id.isEmpty

end Store

end ScuffedCrew.Storage
