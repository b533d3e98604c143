import ScuffedCrew.Storage.Calls

/-!
# Records of a session

Which rows and session records a statement can add to the store or take from
it, which call runs a statement that adds one, and the steps of a delete.
-/

namespace ScuffedCrew.Storage

open Rust Database

namespace Store

def HasMatch (store : Store) (sessionId : Text) (id : RecordId) : Prop :=
  ∃ row, store.personalMatch.get? id = some row ∧ row.sessionId = sessionId

def HasSession (store : Store) (sessionId : Text) (id : RecordId) : Prop :=
  ∃ session, store.matchSession.get? id = some session ∧ session.sessionId = sessionId

instance (store : Store) (sessionId : Text) (id : RecordId) :
    Decidable (store.HasMatch sessionId id) :=
  decidable_of_iff ((store.personalMatch.get? id).any fun row => row.sessionId == sessionId) (by
    simp [HasMatch, Option.any_eq_true])

variable {store : Store} {statement : Statement} {sessionId : Text} {id : RecordId}

theorem hasMatch_run (stored : (statement.run store).HasMatch sessionId id) :
    store.HasMatch sessionId id ∨
      ∃ row, statement = .createMatch row ∧ row.sessionId = sessionId ∧
        id = store.personalMatch.nextId := by
  rcases stored with ⟨row, found, same_session⟩
  rcases Statement.runMatches_get? found with ⟨created, new_id⟩ | ⟨old, old_found, kept⟩
  · exact .inr ⟨row, created, same_session, new_id⟩
  · exact .inl ⟨old, old_found, kept ▸ same_session⟩

theorem hasSession_run (stored : (statement.run store).HasSession sessionId id) :
    store.HasSession sessionId id ∨
      ∃ session, statement = .upsertSession session ∧ session.sessionId = sessionId ∧
        ∀ record ∈ store.matchSession.rows, record.value.sessionId ≠ sessionId := by
  rcases stored with ⟨session, found, same_session⟩
  rcases Statement.runSessions_get? found with ⟨upserted, unselected⟩ | ⟨old, old_found, kept⟩
  · refine .inr ⟨session, upserted, same_session, ?_⟩
    intro record record_mem
    have selected := List.any_eq_false.mp unselected record record_mem
    rw [same_session] at selected
    simpa using selected
  · exact .inl ⟨old, old_found, kept ▸ same_session⟩

theorem not_hasMatch_deleteMatch :
    ¬((Statement.deleteMatch id).run store).HasMatch sessionId id := by
  rintro ⟨row, found, -⟩
  simp only [Statement.run, Statement.runMatches, Table.get?_deleteWhere] at found
  simp at found

theorem not_hasMatch_commitDelete {target : Text} {sessions rows : List RecordId}
    (seen : id ∈ rows) :
    ¬((Statement.commitDelete target sessions rows).run store).HasMatch sessionId id := by
  rintro ⟨row, found, -⟩
  simp only [Statement.run, Statement.runMatches, Table.get?_deleteWhere] at found
  simp [seen] at found

theorem not_hasSession_commitDelete {target : Text} {sessions rows : List RecordId}
    (seen : id ∈ sessions) :
    ¬((Statement.commitDelete target sessions rows).run store).HasSession sessionId id := by
  rintro ⟨session, found, -⟩
  simp only [Statement.run, Statement.runSessions, Table.get?_deleteWhere] at found
  simp [seen] at found

end Store

/-! ## The steps of a delete -/

namespace DeleteSession

def target : DeleteSession → Option Text
  | .mark sessionId | .begin sessionId _ | .transaction sessionId _ _ _ _ | .unmark sessionId =>
      some sessionId
  | .returned _ => none

/-- The steps of a delete. -/
inductive Goes (shared : Shared) : DeleteSession → Answer → DeleteSession → Prop
  | marks {sessionId : Text} {answer : Answer} :
      Goes shared (.mark sessionId) answer
        (.begin sessionId (decide (sessionId ∉ shared.deletedHere)))
  | begins {sessionId : Text} {newlyMarked : Bool} :
      Goes shared (.begin sessionId newlyMarked) .applied
        (.transaction sessionId newlyMarked
          (recordIds shared.store.matchSession.rows fun session => session.sessionId == sessionId)
          (recordIds shared.store.personalMatch.rows fun row => row.sessionId == sessionId)
          .deleteSessions)
  | advances {sessionId : Text} {newlyMarked : Bool} {sessions rows : List RecordId}
      {pending later : TransactionStep} (open' : pending ≠ .commit) :
      Goes shared (.transaction sessionId newlyMarked sessions rows pending) .applied
        (.transaction sessionId newlyMarked sessions rows later)
  | commits {sessionId : Text} {newlyMarked : Bool} {sessions rows : List RecordId} :
      Goes shared (.transaction sessionId newlyMarked sessions rows .commit) .applied
        (.returned true)
  | failsToBegin {sessionId : Text} {newlyMarked : Bool} {answer : Answer}
      (refused : answer ≠ .applied) :
      Goes shared (.begin sessionId newlyMarked) answer (fail sessionId newlyMarked)
  | aborts {sessionId : Text} {newlyMarked : Bool} {sessions rows : List RecordId}
      {pending : TransactionStep} {answer : Answer} (refused : answer ≠ .applied) :
      Goes shared (.transaction sessionId newlyMarked sessions rows pending) answer
        (fail sessionId newlyMarked)
  | unmarks {sessionId : Text} {answer : Answer} :
      Goes shared (.unmark sessionId) answer (.returned false)

theorem goes_of_resume {shared : Shared} {answer : Answer} {position after : DeleteSession}
    (taken : position.resume shared answer = some after) : Goes shared position answer after := by
  cases position with
  | mark sessionId =>
      rcases Option.some.inj taken with rfl
      exact .marks
  | begin sessionId newlyMarked =>
      cases answer <;> rcases Option.some.inj taken with rfl
      · exact .begins
      · exact .failsToBegin (by simp)
      · exact .failsToBegin (by simp)
  | transaction sessionId newlyMarked sessions rows pending =>
      cases answer with
      | applied =>
          cases pending <;> rcases Option.some.inj taken with rfl
          · exact .advances (by simp)
          · exact .advances (by simp)
          · exact .advances (by simp)
          · exact .commits
      | refused =>
          cases pending <;> rcases Option.some.inj taken with rfl <;> exact .aborts (by simp)
      | failed =>
          cases pending <;> rcases Option.some.inj taken with rfl <;> exact .aborts (by simp)
  | unmark sessionId =>
      rcases Option.some.inj taken with rfl
      exact .unmarks
  | returned ok => cases taken

theorem target_fail {sessionId other : Text} {newlyMarked : Bool}
    (targets : (fail sessionId newlyMarked).target = some other) : sessionId = other := by
  cases newlyMarked with
  | true => exact Option.some.inj targets
  | false => cases targets

theorem Goes.target {shared : Shared} {answer : Answer} {position after : DeleteSession}
    {sessionId : Text} (goes : Goes shared position answer after)
    (targets : after.target = some sessionId) : position.target = some sessionId := by
  cases goes with
  | failsToBegin | aborts => exact congrArg some (target_fail targets)
  | commits | unmarks => cases targets
  | marks | begins | advances => exact targets

end DeleteSession

/-! ## Which call runs which statement -/

namespace Call

variable {call moved : Call} {answer : Answer} {shared : Shared} {store : Store}

/-- A step leaves the store alone, or runs the statement of the call. -/
theorem write_cases (call : Call) (answer : Answer) (store : Store) :
    call.write answer store = store ∧ (answer = .applied → call.statement = none) ∨
      ∃ statement, call.statement = some statement ∧ answer = .applied ∧
        call.write answer store = statement.run store := by
  unfold write
  cases issued : call.statement with
  | none => exact .inl ⟨rfl, fun _ => rfl⟩
  | some statement =>
      cases answer with
      | applied => exact .inr ⟨statement, rfl, rfl, rfl⟩
      | refused => exact .inl ⟨rfl, by simp⟩
      | failed => exact .inl ⟨rfl, by simp⟩

theorem statement_eq_createMatch {row : PersonalMatch}
    (issued : call.statement = some (.createMatch row)) : call = .insertMatch (.create row) := by
  cases call with
  | insertMatch position => cases position <;> simp_all [statement, InsertMatch.statement]
  | createSession position => cases position <;> simp_all [statement, CreateSession.statement]
  | deleteSession position =>
      simp only [statement] at issued
      unfold DeleteSession.statement at issued
      split at issued <;> cases issued
  | script position => cases position <;> simp_all [statement, Script.statement]

theorem statement_eq_upsertSession {session : MatchSession}
    (issued : call.statement = some (.upsertSession session)) :
    call = .createSession (.upsert session) := by
  cases call with
  | insertMatch position => cases position <;> simp_all [statement, InsertMatch.statement]
  | createSession position => cases position <;> simp_all [statement, CreateSession.statement]
  | deleteSession position =>
      simp only [statement] at issued
      unfold DeleteSession.statement at issued
      split at issued <;> cases issued
  | script position => cases position <;> simp_all [statement, Script.statement]

/-- Only an upload pass sets `synced`. -/
theorem statement_ne_setSynced {id : RecordId} {rev : ℕ} {synced : Bool} :
    call.statement ≠ some (.setSynced id rev synced) := by
  intro issued
  cases call with
  | insertMatch position => cases position <;> simp_all [statement, InsertMatch.statement]
  | createSession position => cases position <;> simp_all [statement, CreateSession.statement]
  | deleteSession position =>
      simp only [statement] at issued
      unfold DeleteSession.statement at issued
      split at issued <;> cases issued
  | script position => cases position <;> simp_all [statement, Script.statement]

end Call

end ScuffedCrew.Storage
