import ScuffedCrew.Storage.Records

/-!
# A deleted session stays deleted

`delete_session` marks the session before its transaction, and `insert_match`
looks at the mark before and after it creates its row.  From `BEGIN` on, every
row of the session is either among those the transaction removes, or still in
the hands of a call that will look at the mark and take the row back.

`create_session` looks at the mark only before its upsert, a row without a
session id is not looked up at all, and a row is taken back only when its
`DELETE` works.  Where none of this lets a record through, the invariant holds
of every interleaving.
-/

namespace ScuffedCrew.Storage

open Rust Database StateMachine

/-- No row and no session record of the session is stored. -/
def Store.Erased (store : Store) (sessionId : Text) : Prop :=
  (∀ id, ¬store.HasMatch sessionId id) ∧ ∀ id, ¬store.HasSession sessionId id

/-! ## The other calls -/

namespace Call

variable {call moved : Call} {answer : Answer} {shared : Shared}

def Deletes (sessionId : Text) : Call → Prop
  | .deleteSession position => position.target = some sessionId
  | _ => False

/-- An insert that has created its row and will look at the mark, or has seen it. -/
def Rechecks (sessionId : Text) (id : RecordId) : Call → Prop
  | .insertMatch (.recheck created target) => created = id ∧ target = sessionId
  | .insertMatch (.remove created target) => created = id ∧ target = sessionId
  | _ => False

/-- The steps that let a record of the session through, past a transaction that removes
these rows. -/
def escapes (sessionId : Text) (rows : List RecordId) (store : Store) : Call → Answer → Bool
  | .createSession (.upsert session), .applied =>
      decide (session.sessionId = sessionId ∧
        ∀ record ∈ store.matchSession.rows, record.value.sessionId ≠ sessionId)
  | .insertMatch (.create row), .applied => decide (row.sessionId = sessionId ∧ sessionId = [])
  | .insertMatch (.remove id target), answer =>
      decide (answer ≠ .applied ∧ target = sessionId ∧ id ∉ rows ∧ store.HasMatch sessionId id)
  | _, _ => false

theorem not_deletes_resume {sessionId : Text} (resumed : call.resume shared answer = some moved)
    (other : ¬call.Deletes sessionId) : ¬moved.Deletes sessionId := by
  cases call with
  | insertMatch position =>
      rcases Option.map_eq_some_iff.mp resumed with ⟨_, -, rfl⟩
      exact id
  | createSession position =>
      rcases Option.map_eq_some_iff.mp resumed with ⟨_, -, rfl⟩
      exact id
  | deleteSession position =>
      rcases Option.map_eq_some_iff.mp resumed with ⟨after, taken, rfl⟩
      exact fun deletes => other ((DeleteSession.goes_of_resume taken).target deletes)
  | script position =>
      rcases Option.map_eq_some_iff.mp resumed with ⟨_, -, rfl⟩
      exact id

theorem mem_marks {sessionId : Text} {deletedHere : Finset Text} (other : ¬call.Deletes sessionId)
    (marked : sessionId ∈ deletedHere) : sessionId ∈ call.marks deletedHere := by
  unfold marks
  split
  next position =>
    unfold DeleteSession.marks
    split
    next => exact Finset.mem_insert_of_mem marked
    next target =>
      have differs : sessionId ≠ target := by
        rintro rfl
        exact other rfl
      exact Finset.mem_erase.mpr ⟨differs, marked⟩
    next => exact marked
  next => exact marked

end Call

def Rechecking (processes : List Call) (sessionId : Text) (id : RecordId) : Prop :=
  ∃ (index : ℕ) (call : Call), processes[index]? = some call ∧ call.Rechecks sessionId id

theorem Rechecking.set {processes : List Call} {index : ℕ} {call moved : Call} {sessionId : Text}
    {id : RecordId} (held : Rechecking processes sessionId id)
    (found : processes[index]? = some call)
    (kept : call.Rechecks sessionId id → moved.Rechecks sessionId id) :
    Rechecking (processes.set index moved) sessionId id := by
  rcases held with ⟨owner, holder, owner_found, holds⟩
  by_cases same : owner = index
  · rcases same with rfl
    rw [found] at owner_found
    rcases Option.some.inj owner_found with rfl
    have inside := (List.getElem?_eq_some_iff.mp found).1
    exact ⟨owner, moved, by simp [inside], kept holds⟩
  · exact ⟨owner, holder, by rwa [List.getElem?_set_ne (Ne.symm same)], holds⟩

/-- From `BEGIN` on: the session is marked, and what it has in the store is left to the
transaction or to a call that holds it. -/
structure Erases (sessionId : Text) (pool : Calls) (sessions rows : List RecordId) : Prop where
  marked : sessionId ∈ pool.shared.deletedHere
  rows : ∀ id, pool.shared.store.HasMatch sessionId id →
    id ∈ rows ∨ Rechecking pool.processes sessionId id
  sessions : ∀ id, pool.shared.store.HasSession sessionId id → id ∈ sessions

section Others

variable {sessionId : Text} {pool : Calls} {sessions rows : List RecordId} {index : ℕ}
  {call moved : Call} {answer : Answer}

theorem Erases.holds (erases : Erases sessionId pool sessions rows) {id : RecordId}
    (resumed : call.resume pool.shared answer = some moved)
    (inside : call.escapes sessionId rows pool.shared.store answer = false)
    (stored : (call.write answer pool.shared.store).HasMatch sessionId id)
    (holds : call.Rechecks sessionId id) : id ∈ rows ∨ moved.Rechecks sessionId id := by
  cases call with
  | insertMatch position =>
      rcases Option.map_eq_some_iff.mp resumed with ⟨after, taken, rfl⟩
      cases position with
      | recheck created target =>
          rcases holds with ⟨rfl, rfl⟩
          simp only [InsertMatch.resume, erases.marked, if_true, Option.some.injEq] at taken
          rcases taken with rfl
          exact .inr ⟨rfl, rfl⟩
      | remove created target =>
          rcases holds with ⟨rfl, rfl⟩
          by_cases removed : answer = .applied
          · rcases removed with rfl
            exact absurd stored Store.not_hasMatch_deleteMatch
          · have untouched :
                (Call.insertMatch (.remove created target)).write answer pool.shared.store =
                  pool.shared.store := by
              cases answer with
              | applied => exact absurd rfl removed
              | refused | failed => rfl
            rw [untouched] at stored
            by_cases left : created ∈ rows
            · exact .inl left
            · exact absurd ⟨removed, rfl, left, stored⟩ (of_decide_eq_false inside)
      | _ => exact holds.elim
  | _ => exact holds.elim

theorem Erases.other_step (erases : Erases sessionId pool sessions rows)
    (found : pool.processes[index]? = some call)
    (resumed : call.resume pool.shared answer = some moved) (other : ¬call.Deletes sessionId)
    (inside : call.escapes sessionId rows pool.shared.store answer = false) :
    Erases sessionId
      ⟨⟨call.write answer pool.shared.store, call.marks pool.shared.deletedHere⟩,
        pool.processes.set index moved⟩ sessions rows where
  marked := Call.mem_marks other erases.marked
  rows := by
    intro id stored
    have known : pool.shared.store.HasMatch sessionId id →
        id ∈ rows ∨ Rechecking (pool.processes.set index moved) sessionId id := by
      intro before
      rcases erases.rows id before with left | held
      · exact .inl left
      · by_cases holds : call.Rechecks sessionId id
        · rcases erases.holds resumed inside stored holds with left | kept
          · exact .inl left
          · exact .inr (held.set found fun _ => kept)
        · exact .inr (held.set found fun holder => absurd holder holds)
    rcases call.write_cases answer pool.shared.store with
      ⟨untouched, -⟩ | ⟨statement, issued, rfl, ran⟩
    · rw [untouched] at stored
      exact known stored
    · rw [ran] at stored
      rcases Store.hasMatch_run stored with before | ⟨row, created, same_session, new_id⟩
      · exact known before
      · rcases created with rfl
        rcases Call.statement_eq_createMatch issued with rfl
        have named : row.sessionId ≠ [] := fun empty =>
          of_decide_eq_false inside ⟨same_session, same_session ▸ empty⟩
        have moved_eq : moved = .insertMatch (.recheck id sessionId) := by
          simp only [Call.resume, InsertMatch.resume, List.isEmpty_iff, named, if_false,
            Option.map_some, Option.some.injEq] at resumed
          rw [← resumed, same_session, new_id]
        have inRange := (List.getElem?_eq_some_iff.mp found).1
        exact .inr ⟨index, moved, by simp [inRange], moved_eq ▸ ⟨rfl, rfl⟩⟩
  sessions := by
    intro id stored
    rcases call.write_cases answer pool.shared.store with
      ⟨untouched, -⟩ | ⟨statement, issued, rfl, ran⟩
    · rw [untouched] at stored
      exact erases.sessions id stored
    · rw [ran] at stored
      rcases Store.hasSession_run stored with
        before | ⟨session, upserted, same_session, none_before⟩
      · exact erases.sessions id before
      · rcases upserted with rfl
        rcases Call.statement_eq_upsertSession issued with rfl
        exact absurd ⟨same_session, none_before⟩ (of_decide_eq_false inside)

end Others

/-! ## The delete -/

/-- What holds while the delete is at a position. -/
def DeleteSession.Progress (sessionId : Text) (pool : Calls) : DeleteSession → Prop
  | .mark target | .unmark target => target = sessionId
  | .begin target _ => target = sessionId ∧ sessionId ∈ pool.shared.deletedHere
  | .transaction target _ sessions rows _ =>
      target = sessionId ∧ Erases sessionId pool sessions rows
  | .returned ok => ok = true → Erases sessionId pool [] []

section Delete

variable {sessionId : Text} {pool : Calls} {index : ℕ} {position after : DeleteSession}
  {answer : Answer}

theorem Erases.delete_advances {sessions rows : List RecordId}
    (erases : Erases sessionId pool sessions rows)
    (found : pool.processes[index]? = some (.deleteSession position)) :
    Erases sessionId ⟨pool.shared, pool.processes.set index (.deleteSession after)⟩ sessions
      rows where
  marked := erases.marked
  rows := by
    intro id stored
    rcases erases.rows id stored with left | held
    · exact .inl left
    · exact .inr (held.set found fun holds => holds.elim)
  sessions := erases.sessions

theorem erases_of_begin (marked : sessionId ∈ pool.shared.deletedHere) :
    Erases sessionId pool
      (DeleteSession.recordIds pool.shared.store.matchSession.rows
        fun session => session.sessionId == sessionId)
      (DeleteSession.recordIds pool.shared.store.personalMatch.rows
        fun row => row.sessionId == sessionId) where
  marked := marked
  rows := by
    rintro id ⟨row, found, same_session⟩
    refine .inl (List.mem_map.mpr ⟨⟨id, row⟩, ?_, rfl⟩)
    exact List.mem_filter.mpr ⟨Table.get?_eq_some_iff.mp found, beq_iff_eq.mpr same_session⟩
  sessions := by
    rintro id ⟨session, found, same_session⟩
    refine List.mem_map.mpr ⟨⟨id, session⟩, ?_, rfl⟩
    exact List.mem_filter.mpr ⟨Table.get?_eq_some_iff.mp found, beq_iff_eq.mpr same_session⟩

theorem Erases.commits {sessions rows : List RecordId}
    (erases : Erases sessionId pool sessions rows)
    (found : pool.processes[index]? = some (.deleteSession position)) :
    Erases sessionId
      ⟨⟨(Statement.commitDelete sessionId sessions rows).run pool.shared.store,
          pool.shared.deletedHere⟩,
        pool.processes.set index (.deleteSession after)⟩ [] [] where
  marked := erases.marked
  rows := by
    intro id stored
    rcases Store.hasMatch_run stored with before | ⟨row, created, -⟩
    · rcases erases.rows id before with left | held
      · exact absurd stored (Store.not_hasMatch_commitDelete left)
      · exact .inr (held.set found fun holds => holds.elim)
    · cases created
  sessions := by
    intro id stored
    rcases Store.hasSession_run stored with before | ⟨session, upserted, -⟩
    · exact absurd stored (Store.not_hasSession_commitDelete (erases.sessions id before))
    · cases upserted

theorem progress_fail {newlyMarked : Bool} :
    (DeleteSession.fail sessionId newlyMarked).Progress sessionId pool := by
  cases newlyMarked with
  | true => exact rfl
  | false => exact fun ok => absurd ok (by simp)

theorem DeleteSession.Progress.step (progress : position.Progress sessionId pool)
    (found : pool.processes[index]? = some (.deleteSession position))
    (goes : DeleteSession.Goes pool.shared position answer after) :
    after.Progress sessionId
      ⟨⟨(Call.deleteSession position).write answer pool.shared.store,
          position.marks pool.shared.deletedHere⟩,
        pool.processes.set index (.deleteSession after)⟩ := by
  cases goes with
  | marks =>
      rcases progress with rfl
      exact ⟨rfl, Finset.mem_insert_self _ _⟩
  | begins =>
      rcases progress with ⟨rfl, marked⟩
      exact ⟨rfl, (erases_of_begin marked).delete_advances found⟩
  | @advances _ _ _ _ pending later open' =>
      rcases progress with ⟨rfl, erases⟩
      cases pending with
      | commit => exact absurd rfl open'
      | deleteSessions | deleteMatches | createTombstone =>
          exact ⟨rfl, erases.delete_advances found⟩
  | commits =>
      rcases progress with ⟨rfl, erases⟩
      exact fun _ => erases.commits found
  | failsToBegin =>
      rcases progress with ⟨rfl, -⟩
      exact progress_fail
  | aborts =>
      rcases progress with ⟨rfl, -⟩
      exact progress_fail
  | unmarks => exact fun ok => absurd ok (by simp)

end Delete

/-! ## Every interleaving -/

/-- From `BEGIN` on, the session records and rows the transaction still has to remove. -/
def DeleteSession.begun : DeleteSession → Option (List RecordId × List RecordId)
  | .transaction _ _ sessions rows _ => some (sessions, rows)
  | .returned true => some ([], [])
  | _ => none

/-- A step of another call lets a record of the session through, once the delete has begun. -/
def escapes (sessionId : Text) (deleter : ℕ) (step : CallStep) : Bool :=
  match step.before.processes[deleter]?, step.before.processes[step.event.process]? with
  | some (.deleteSession position), some call =>
      step.event.process != deleter &&
        position.begun.any fun left =>
          call.escapes sessionId left.2 step.before.shared.store step.event.choice
  | _, _ => false

theorem escapes_of_call {sessionId : Text} {deleter : ℕ} {step : CallStep}
    {position : DeleteSession} {call : Call} {sessions rows : List RecordId}
    (at_position : step.before.processes[deleter]? = some (.deleteSession position))
    (begun : position.begun = some (sessions, rows))
    (found : step.before.processes[step.event.process]? = some call)
    (other : step.event.process ≠ deleter) (kept : escapes sessionId deleter step = false) :
    call.escapes sessionId rows step.before.shared.store step.event.choice = false := by
  unfold escapes at kept
  rw [at_position, found] at kept
  simpa [begun, other] using kept

def Deleting (sessionId : Text) (deleter : ℕ) (pool : Calls) : Prop :=
  (∃ position, pool.processes[deleter]? = some (.deleteSession position) ∧
      position.Progress sessionId pool) ∧
    ∀ index call, pool.processes[index]? = some call → call.Deletes sessionId → index = deleter

section Runs

variable {sessionId : Text} {deleter : ℕ} {pool after start final : Calls} {turn : Turn Answer}
  {steps : List CallStep}

theorem Deleting.step (deleting : Deleting sessionId deleter pool)
    (taken : calls.next pool turn = some after)
    (kept : escapes sessionId deleter ⟨pool, turn, after⟩ = false) :
    Deleting sessionId deleter after := by
  rcases interleaving_next_eq_some.mp taken with ⟨call, shared, moved, found, stepped, rfl⟩
  rcases Option.map_eq_some_iff.mp stepped with ⟨_, resumed, same⟩
  rcases Prod.mk.inj same with ⟨rfl, rfl⟩
  rcases deleting with ⟨⟨position, at_position, progress⟩, others⟩
  by_cases own : turn.process = deleter
  · rcases own with rfl
    rcases Option.some.inj (found.symm.trans at_position) with rfl
    rcases Option.map_eq_some_iff.mp resumed with ⟨later, went, rfl⟩
    refine ⟨⟨later, Pool.moved_at found, ?_⟩, ?_⟩
    · exact progress.step found (DeleteSession.goes_of_resume went)
    · intro index call call_found deletes
      by_contra differs
      rw [Pool.others_stay differs] at call_found
      exact differs (others index call call_found deletes)
  · refine ⟨⟨position, (Pool.others_stay (Ne.symm own)).trans at_position, ?_⟩, ?_⟩
    · have other : ¬call.Deletes sessionId := fun deletes => own (others _ _ found deletes)
      cases position with
      | mark target => exact progress
      | unmark target => exact progress
      | begin target newlyMarked => exact ⟨progress.1, Call.mem_marks other progress.2⟩
      | transaction target newlyMarked sessions rows pending =>
          refine ⟨progress.1, progress.2.other_step found resumed other ?_⟩
          exact escapes_of_call at_position rfl found own kept
      | returned ok =>
          intro succeeded
          rcases succeeded with rfl
          refine (progress rfl).other_step found resumed other ?_
          exact escapes_of_call at_position rfl found own kept
    · intro index other call_found deletes
      by_cases mover : index = turn.process
      · rcases mover with rfl
        rw [Pool.moved_at found] at call_found
        rcases Option.some.inj call_found with rfl
        by_contra differs
        have before : ¬call.Deletes sessionId := fun deletes => differs (others _ _ found deletes)
        exact Call.not_deletes_resume resumed before deletes
      · rw [Pool.others_stay mover] at call_found
        exact others index other call_found deletes

/-- Once the delete has returned success and the other calls have returned, nothing of the session
is stored, unless some step let a record through. -/
theorem deleted_session_stays_deleted (deleter : ℕ) (run : calls.Run start steps final)
    (deletes : start.processes[deleter]? = some (.deleteSession (.mark sessionId)))
    (only : ∀ index call, start.processes[index]? = some call → call.Deletes sessionId →
      index = deleter)
    (kept : ∀ step ∈ steps, escapes sessionId deleter step = false)
    (deleted : final.processes[deleter]? = some (.deleteSession (.returned true)))
    (returned : ∀ call ∈ final.processes, call.returned = true) :
    final.shared.store.Erased sessionId := by
  have deleting := run.invariant_of_forall (Deleting sessionId deleter)
    ⟨⟨_, deletes, rfl⟩, only⟩ kept fun taken kept deleting => deleting.step taken kept
  rcases deleting with ⟨⟨position, at_position, progress⟩, -⟩
  rcases Call.deleteSession.inj (Option.some.inj (at_position.symm.trans deleted)) with rfl
  have erases := progress rfl
  constructor
  · intro id stored
    rcases erases.rows id stored with left | ⟨index, call, found, holds⟩
    · simp at left
    · have done := returned call (List.mem_of_getElem? found)
      unfold Call.Rechecks at holds
      split at holds
      · simp [Call.returned] at done
      · simp [Call.returned] at done
      · exact holds
  · intro id stored
    simpa using erases.sessions id stored

end Runs

def lateInsert : Calls :=
  .fresh [.deleteSession (.mark game), .insertMatch (.start busanBoard)]

/-- A capture looks at the mark, the game is deleted, and the capture creates its row. -/
theorem deleted_session_stays_deleted_lateInsert :
    ∃ final, calls.exec lateInsert (turns 1 1 ++ turns 0 6 ++ turns 1 3) = some final ∧
      final.shared.store.Erased game := by
  have run : calls.Run lateInsert
      (calls.stepsOf lateInsert (turns 1 1 ++ turns 0 6 ++ turns 1 3)) _ := .of_exec rfl
  refine ⟨_, rfl, deleted_session_stays_deleted 0 run rfl ?_ ?_ rfl ?_⟩
  · intro index call found deletes
    rcases index with _ | _ | index
    · rfl
    · rcases Option.some.inj found with rfl
      exact deletes.elim
    · cases found
  · decide
  · decide

/-! ## A session row that comes back -/

def Call.Captures (sessionId : Text) : Call → Prop
  | .insertMatch position => ∃ row, row.sessionId = sessionId ∧ position = .start row
  | .createSession position => ∃ session, session.sessionId = sessionId ∧ position = .check session
  | _ => False

/-- The promise of the delete: whatever captures are in flight, and with every query working. -/
def DeletedStaysDeleted : Prop :=
  ∀ (sessionId : Text) (shared : Shared) (captures : List Call) (steps : List CallStep)
    (final : Calls), (∀ call ∈ captures, call.Captures sessionId) →
      calls.Run ⟨shared, .deleteSession (.mark sessionId) :: captures⟩ steps final →
      (∀ step ∈ steps, step.event.choice = .applied) →
      final.processes[0]? = some (.deleteSession (.returned true)) →
      (∀ call ∈ final.processes, call.returned = true) → final.shared.store.Erased sessionId

def busanSession : MatchSession where
  sessionId := game
  hero := "Ana".toList
  mapName := "Busan".toList
  role := "Support".toList
  startedAt := 0
  lastCaptureAt := 0
  captureCount := 1
  finalOutcome := "victory".toList

/-- `create_session` looks at the mark, the game is deleted, and the upsert creates the session
row again. -/
theorem not_deletedStaysDeleted : ¬DeletedStaysDeleted := by
  intro stays
  have run : calls.Run (.fresh [.deleteSession (.mark game), .createSession (.check busanSession)])
      (calls.stepsOf _ (turns 1 1 ++ turns 0 6 ++ turns 1 1)) _ := .of_exec rfl
  have erased := stays game _ [.createSession (.check busanSession)] _ _ (by
    intro call call_mem
    rcases List.mem_singleton.mp call_mem with rfl
    exact ⟨busanSession, rfl, rfl⟩) run (by decide) rfl (by decide)
  exact erased.2 0 ⟨busanSession, rfl, rfl⟩

end ScuffedCrew.Storage
