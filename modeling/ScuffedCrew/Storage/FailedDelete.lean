import ScuffedCrew.Storage.Records

/-!
# A failed delete

`delete_session` marks its session before the transaction and takes the mark
back when the transaction fails.  In between, an `insert_match` that looks at
the mark drops its row, and taking the mark back does not bring the row back.

A failed delete therefore loses nothing exactly when no insert looks at the
mark while it is set.
-/

namespace ScuffedCrew.Storage

open Rust Database StateMachine

/-- The row as handed over, with an undecided outcome or an absent recognizer filled in. -/
def StoredAs (row stored : PersonalMatch) : Prop :=
  ∃ outcome nameRecognizer, stored = { row with outcome, nameRecognizer } ∧
    (outcomeIsDecided row.outcome = true → outcome = row.outcome) ∧
    (nameRecognizerAbsent row.nameRecognizer = false → nameRecognizer = row.nameRecognizer)

namespace StoredAs

variable {row stored stored' : PersonalMatch}

theorem refl (row : PersonalMatch) : StoredAs row row :=
  ⟨row.outcome, row.nameRecognizer, rfl, fun _ => rfl, fun _ => rfl⟩

theorem trans (first : StoredAs row stored) (second : StoredAs stored stored') :
    StoredAs row stored' := by
  rcases first with ⟨outcome, nameRecognizer, rfl, kept, named⟩
  rcases second with ⟨outcome', nameRecognizer', rfl, kept', named'⟩
  refine ⟨outcome', nameRecognizer', rfl, ?_, ?_⟩
  · intro decided
    have same := kept decided
    rw [← same] at decided ⊢
    exact kept' decided
  · intro present
    have same := named present
    rw [← same] at present ⊢
    exact named' present

theorem sessionId_eq (stored_as : StoredAs row stored) : stored.sessionId = row.sessionId := by
  rcases stored_as with ⟨outcome, nameRecognizer, rfl, -⟩
  rfl

end StoredAs

/-- The row is in the table, under an id the old table did not have. -/
def Kept (row : PersonalMatch) (old rows : Table PersonalMatch) (id : RecordId) : Prop :=
  old.get? id = none ∧ ∃ stored, rows.get? id = some stored ∧ StoredAs row stored

namespace InsertMatch

def looks : InsertMatch → Option Text
  | .check row => some row.sessionId
  | .recheck _ sessionId => some sessionId
  | _ => none

def created : InsertMatch → Option RecordId
  | .recheck id _ | .returned (.stored id) => some id
  | _ => none

/-- The call carries its row, or has it in the table. -/
def Carries (row : PersonalMatch) (old rows : Table PersonalMatch) : InsertMatch → Prop
  | .check carried => carried = row
  | .decideOutcome carried => carried = row ∧ outcomeIsDecided row.outcome = false
  | .keepRecognizer carried =>
      StoredAs row carried ∧ nameRecognizerAbsent carried.nameRecognizer = true
  | .create carried => StoredAs row carried
  | .recheck id sessionId => sessionId = row.sessionId ∧ Kept row old rows id
  | .returned (.stored id) => Kept row old rows id
  | _ => False

variable {row : PersonalMatch} {old rows rows' : Table PersonalMatch} {position after : InsertMatch}
  {shared : Shared} {id : RecordId}

theorem Carries.mono (carries : position.Carries row old rows)
    (kept : ∀ id stored, rows.get? id = some stored → rows'.get? id = some stored) :
    position.Carries row old rows' := by
  cases position with
  | recheck id sessionId =>
      rcases carries with ⟨same_session, new, stored, found, stored_as⟩
      exact ⟨same_session, new, stored, kept _ _ found, stored_as⟩
  | returned result =>
      cases result with
      | stored id =>
          rcases carries with ⟨new, stored, found, stored_as⟩
          exact ⟨new, stored, kept _ _ found, stored_as⟩
      | dropped | failed => exact carries.elim
  | _ => exact carries

theorem Carries.get?_created (carries : position.Carries row old rows)
    (made : position.created = some id) : ∃ stored, rows.get? id = some stored := by
  cases position with
  | recheck other sessionId =>
      rcases Option.some.inj made with rfl
      rcases carries with ⟨-, -, stored, found, -⟩
      exact ⟨stored, found⟩
  | returned result =>
      cases result with
      | stored other =>
          rcases Option.some.inj made with rfl
          rcases carries with ⟨-, stored, found, -⟩
          exact ⟨stored, found⟩
      | dropped | failed => cases made
  | _ => cases made

theorem carries_start (row : PersonalMatch) : (start row).Carries row old rows := by
  unfold start
  split
  · exact .refl row
  · exact rfl

theorem carries_afterOutcome {carried : PersonalMatch} (stored_as : StoredAs row carried) :
    (afterOutcome carried).Carries row old rows := by
  unfold afterOutcome
  split
  next absent => exact ⟨stored_as, absent⟩
  next => exact stored_as

theorem carries_afterCheck (row : PersonalMatch) : (afterCheck row).Carries row old rows := by
  unfold afterCheck
  split
  next => exact carries_afterOutcome (.refl row)
  next undecided => exact ⟨rfl, Bool.eq_false_iff.mpr undecided⟩

theorem Carries.write_cases (carries : position.Carries row old rows) (answer : Answer)
    (store : Store) :
    (Call.insertMatch position).write answer store = store ∨
      ∃ carried, position = .create carried ∧
        (Call.insertMatch position).write answer store =
          { store with personalMatch := store.personalMatch.create carried } := by
  cases position with
  | create carried =>
      cases answer with
      | applied => exact .inr ⟨carried, rfl, rfl⟩
      | refused | failed => exact .inl rfl
  | remove id sessionId => exact carries.elim
  | _ => exact .inl rfl

theorem Carries.step (carries : position.Carries row old shared.store.personalMatch)
    (taken : position.resume shared .applied = some after)
    (unseen : ∀ sessionId, position.looks = some sessionId → sessionId ∉ shared.deletedHere)
    (new : old.get? shared.store.personalMatch.nextId = none) :
    after.Carries row old
      ((Call.insertMatch position).write .applied shared.store).personalMatch := by
  cases position with
  | check carried =>
      rcases carries with rfl
      have unmarked := unseen _ rfl
      simp only [resume, unmarked, if_false, Option.some.injEq] at taken
      rcases taken with rfl
      exact carries_afterCheck carried
  | decideOutcome carried =>
      rcases carries with ⟨rfl, undecided⟩
      rcases Option.some.inj taken with rfl
      refine carries_afterOutcome ⟨_, _, rfl, ?_, fun _ => rfl⟩
      exact fun decided => absurd decided (by simp [undecided])
  | keepRecognizer carried =>
      rcases carries with ⟨stored_as, absent⟩
      rcases Option.some.inj taken with rfl
      refine stored_as.trans ⟨_, _, rfl, fun _ => rfl, ?_⟩
      exact fun present => absurd present (by simp [absent])
  | create carried =>
      have kept : Kept row old (shared.store.personalMatch.create carried)
          shared.store.personalMatch.nextId :=
        ⟨new, carried, by simp [Table.get?_create], carries⟩
      simp only [resume, Option.some.injEq] at taken
      split at taken <;> rcases taken with rfl
      · exact kept
      · exact ⟨carries.sessionId_eq, kept⟩
  | recheck other sessionId =>
      rcases carries with ⟨-, kept⟩
      have unmarked := unseen _ rfl
      simp only [resume, unmarked, if_false, Option.some.injEq] at taken
      rcases taken with rfl
      exact kept
  | remove other sessionId => exact carries.elim
  | returned result => cases taken

theorem created_of_resume {answer : Answer} (taken : position.resume shared answer = some after)
    (made : after.created = some id) :
    position.created = some id ∨ id = shared.store.personalMatch.nextId := by
  unfold resume at taken
  split at taken <;> simp only [Option.some.injEq, reduceCtorEq] at taken
  all_goals rcases taken with rfl
  · split at made
    · cases made
    · unfold afterCheck afterOutcome at made
      split_ifs at made <;> cases made
  · unfold afterOutcome at made
    split_ifs at made <;> cases made
  · cases made
  · split at made <;> exact .inr (Option.some.inj made).symm
  · split at made
    · cases made
    · exact .inl made
  · cases made
  · cases made

end InsertMatch

/-! ## A dropped row -/

def InsertMatch.Lost : InsertMatch → Prop
  | .remove _ _ | .returned .dropped | .returned .failed => True
  | _ => False

theorem InsertMatch.Lost.resume {position after : InsertMatch} {shared : Shared} {answer : Answer}
    (lost : position.Lost) (taken : position.resume shared answer = some after) : after.Lost := by
  cases position with
  | remove id sessionId => cases answer <;> rcases Option.some.inj taken with rfl <;> exact trivial
  | returned result => cases taken
  | _ => exact lost.elim

theorem InsertMatch.lost_of_looks {position after : InsertMatch} {shared : Shared} {answer : Answer}
    {sessionId : Text} (looks : position.looks = some sessionId)
    (marked : sessionId ∈ shared.deletedHere)
    (taken : position.resume shared answer = some after) : after.Lost := by
  cases position with
  | check row =>
      rcases Option.some.inj looks with rfl
      simp only [InsertMatch.resume, marked, if_true, Option.some.injEq] at taken
      rcases taken with rfl
      exact trivial
  | recheck id target =>
      rcases Option.some.inj looks with rfl
      simp only [InsertMatch.resume, marked, if_true, Option.some.injEq] at taken
      rcases taken with rfl
      exact trivial
  | _ => cases looks

/-! ## The delete -/

/-- What a delete that has not committed does with the mark it has set itself. -/
def DeleteSession.Uncommitted (sessionId : Text) (deletedHere : Finset Text) :
    DeleteSession → Prop
  | .mark target => target = sessionId ∧ sessionId ∉ deletedHere
  | .begin target newlyMarked => target = sessionId ∧ newlyMarked = true
  | .transaction target newlyMarked _ _ _ => target = sessionId ∧ newlyMarked = true
  | .unmark target => target = sessionId
  | .returned _ => sessionId ∉ deletedHere

theorem DeleteSession.Uncommitted.step {sessionId : Text} {shared : Shared}
    {position after : DeleteSession} {answer : Answer}
    (uncommitted : position.Uncommitted sessionId shared.deletedHere)
    (goes : DeleteSession.Goes shared position answer after) (fails : after ≠ .returned true) :
    after.Uncommitted sessionId (position.marks shared.deletedHere) ∧
      (Call.deleteSession position).write answer shared.store = shared.store := by
  cases goes with
  | marks =>
      rcases uncommitted with ⟨rfl, unmarked⟩
      exact ⟨⟨rfl, decide_eq_true unmarked⟩, by cases answer <;> rfl⟩
  | begins =>
      rcases uncommitted with ⟨rfl, rfl⟩
      exact ⟨⟨rfl, rfl⟩, rfl⟩
  | @advances _ _ _ _ pending _ open' =>
      rcases uncommitted with ⟨rfl, rfl⟩
      refine ⟨⟨rfl, rfl⟩, ?_⟩
      cases pending with
      | commit => exact absurd rfl open'
      | deleteSessions | deleteMatches | createTombstone => rfl
  | commits => exact absurd rfl fails
  | failsToBegin refused =>
      rcases uncommitted with ⟨rfl, rfl⟩
      exact ⟨rfl, by cases answer <;> rfl⟩
  | aborts refused =>
      rcases uncommitted with ⟨rfl, rfl⟩
      refine ⟨rfl, ?_⟩
      cases answer with
      | applied => exact absurd rfl refused
      | refused | failed =>
          unfold Call.write
          split
          next _ impossible => cases impossible
          next => rfl
  | unmarks =>
      rcases uncommitted with rfl
      exact ⟨Finset.notMem_erase _ _, by cases answer <;> rfl⟩

/-- A delete of a session that was marked before does not take that mark back. -/
def DeleteSession.KeepsMark : DeleteSession → Prop
  | .mark _ => True
  | .begin _ newlyMarked | .transaction _ newlyMarked _ _ _ => newlyMarked = false
  | .unmark _ => False
  | .returned _ => True

theorem DeleteSession.KeepsMark.step {sessionId : Text} {shared : Shared}
    {position after : DeleteSession} {answer : Answer} (keeps : position.KeepsMark)
    (targets : ∀ target, position.target = some target → target = sessionId)
    (marked : sessionId ∈ shared.deletedHere)
    (goes : DeleteSession.Goes shared position answer after) :
    after.KeepsMark ∧ sessionId ∈ position.marks shared.deletedHere := by
  cases goes with
  | marks =>
      rcases targets _ rfl with rfl
      exact ⟨decide_eq_false (not_not_intro marked), Finset.mem_insert_self _ _⟩
  | begins | advances => exact ⟨keeps, marked⟩
  | commits => exact ⟨trivial, marked⟩
  | failsToBegin | aborts =>
      rcases keeps with rfl
      exact ⟨trivial, marked⟩
  | unmarks => exact keeps.elim

/-! ## The pool -/

def Call.looks : Call → Option Text
  | .insertMatch position => position.looks
  | .createSession (.check session) => some session.sessionId
  | _ => none

/-- The step of a call that finds its session marked. -/
def looksAtMark (step : CallStep) : Bool :=
  match step.before.processes[step.event.process]? with
  | some call => call.looks.any fun sessionId => decide (sessionId ∈ step.before.shared.deletedHere)
  | none => false

abbrev Calls.InsertAt (pool : Calls) (index : ℕ) (position : InsertMatch) : Prop :=
  pool.processes[index]? = some (.insertMatch position)

abbrev Calls.DeleteAt (pool : Calls) (index : ℕ) (position : DeleteSession) : Prop :=
  pool.processes[index]? = some (.deleteSession position)

/-- One delete of the session, before its first step, among inserts of rows of the session, before
theirs. -/
structure DeleteAmongInserts (sessionId : Text) (deleter : ℕ) (pool : Calls) : Prop where
  delete : pool.DeleteAt deleter (.mark sessionId)
  inserts : ∀ (index : ℕ) (call : Call), pool.processes[index]? = some call → index ≠ deleter →
    ∃ row, row.sessionId = sessionId ∧ call = .insertMatch (.start row)

/-- Every row and every session record is there as before, every inserted row is there under an id
of its own, and the session is not marked. -/
structure LosesNothing (sessionId : Text) (start final : Calls) : Prop where
  rows : ∀ id row, start.shared.store.personalMatch.get? id = some row →
    final.shared.store.personalMatch.get? id = some row
  sessions : ∀ id session, start.shared.store.matchSession.get? id = some session →
    final.shared.store.matchSession.get? id = some session
  inserted : ∀ index row, start.InsertAt index (.start row) →
    ∃ id, final.InsertAt index (.returned (.stored id)) ∧
      Kept row start.shared.store.personalMatch final.shared.store.personalMatch id
  distinct : ∀ index other id, final.InsertAt index (.returned (.stored id)) →
    final.InsertAt other (.returned (.stored id)) → index = other
  unmarked : sessionId ∉ final.shared.deletedHere

/-- Every call is still the one it was at the start. -/
structure Kinds (deleter : ℕ) (start pool : Calls) : Prop where
  delete : ∃ position, pool.DeleteAt deleter position
  others : ∀ (index : ℕ) (call : Call), pool.processes[index]? = some call → index ≠ deleter →
    ∃ row position, start.InsertAt index (.start row) ∧ call = .insertMatch position

/-- The pool while the delete has not committed and no insert has seen the mark. -/
structure Intact (sessionId : Text) (deleter : ℕ) (start pool : Calls) : Prop where
  rows : ∀ id row, start.shared.store.personalMatch.get? id = some row →
    pool.shared.store.personalMatch.get? id = some row
  sessions : pool.shared.store.matchSession = start.shared.store.matchSession
  nextId : start.shared.store.personalMatch.nextId ≤ pool.shared.store.personalMatch.nextId
  delete : ∃ position, pool.DeleteAt deleter position ∧
    position.Uncommitted sessionId pool.shared.deletedHere
  inserts : ∀ index row, start.InsertAt index (.start row) →
    ∃ position, pool.InsertAt index position ∧
      position.Carries row start.shared.store.personalMatch pool.shared.store.personalMatch
  distinct : ∀ index other position position' id, pool.InsertAt index position →
    pool.InsertAt other position' → position.created = some id → position'.created = some id →
    index = other

section Runs

variable {sessionId : Text} {deleter : ℕ} {start pool after final : Calls} {turn : Turn Answer}
  {steps : List CallStep}

theorem DeleteAmongInserts.kinds (among : DeleteAmongInserts sessionId deleter start) :
    Kinds deleter start start where
  delete := ⟨_, among.delete⟩
  others := by
    intro index call found differs
    rcases among.inserts index call found differs with ⟨row, -, rfl⟩
    exact ⟨row, _, found, rfl⟩

theorem Kinds.apart {index : ℕ} {position : InsertMatch} (kinds : Kinds deleter start pool)
    (found : pool.InsertAt index position) : index ≠ deleter := by
  rintro rfl
  rcases kinds.delete with ⟨delete, at_delete⟩
  have same := found.symm.trans at_delete
  simp at same

theorem Kinds.next_cases (kinds : Kinds deleter start pool)
    (taken : calls.next pool turn = some after) :
    (∃ position moved, turn.process = deleter ∧ pool.DeleteAt deleter position ∧
        DeleteSession.Goes pool.shared position turn.choice moved ∧
        after = ⟨⟨(Call.deleteSession position).write turn.choice pool.shared.store,
            position.marks pool.shared.deletedHere⟩,
          pool.processes.set deleter (.deleteSession moved)⟩) ∨
      ∃ row position moved, turn.process ≠ deleter ∧ start.InsertAt turn.process (.start row) ∧
        pool.InsertAt turn.process position ∧
        position.resume pool.shared turn.choice = some moved ∧
        after = ⟨⟨(Call.insertMatch position).write turn.choice pool.shared.store,
            pool.shared.deletedHere⟩,
          pool.processes.set turn.process (.insertMatch moved)⟩ := by
  rcases interleaving_next_eq_some.mp taken with ⟨call, shared, moved, found, stepped, rfl⟩
  rcases Option.map_eq_some_iff.mp stepped with ⟨_, resumed, same⟩
  rcases Prod.mk.inj same with ⟨rfl, rfl⟩
  by_cases own : turn.process = deleter
  · rcases kinds.delete with ⟨position, at_position⟩
    rw [own] at found ⊢
    rcases Option.some.inj (found.symm.trans at_position) with rfl
    rcases Option.map_eq_some_iff.mp resumed with ⟨later, went, rfl⟩
    exact .inl ⟨position, later, rfl, found, DeleteSession.goes_of_resume went, rfl⟩
  · rcases kinds.others _ _ found own with ⟨row, position, at_start, rfl⟩
    rcases Option.map_eq_some_iff.mp resumed with ⟨later, went, rfl⟩
    exact .inr ⟨row, position, later, own, at_start, found, went, rfl⟩

theorem Kinds.step (kinds : Kinds deleter start pool) (taken : calls.next pool turn = some after) :
    Kinds deleter start after := by
  rcases kinds.next_cases taken with
    ⟨position, moved, -, found, -, rfl⟩ | ⟨row, position, moved, own, at_start, found, -, rfl⟩
  · refine ⟨⟨moved, Pool.moved_at found⟩, ?_⟩
    intro index call call_found differs
    rw [Pool.others_stay differs] at call_found
    exact kinds.others index call call_found differs
  · refine ⟨?_, ?_⟩
    · rcases kinds.delete with ⟨delete, at_delete⟩
      exact ⟨delete, (Pool.others_stay (Ne.symm own)).trans at_delete⟩
    · intro index call call_found differs
      rcases Pool.of_set call_found with ⟨rfl, rfl⟩ | ⟨-, before⟩
      · exact ⟨row, moved, at_start, rfl⟩
      · exact kinds.others index call before differs

theorem DeleteAmongInserts.intact (among : DeleteAmongInserts sessionId deleter start)
    (unmarked : sessionId ∉ start.shared.deletedHere) : Intact sessionId deleter start start where
  rows := fun _ _ found => found
  sessions := rfl
  nextId := le_rfl
  delete := ⟨_, among.delete, rfl, unmarked⟩
  inserts := fun _ row at_start => ⟨_, at_start, InsertMatch.carries_start row⟩
  distinct := by
    intro index other position position' id at_position _ made
    rcases among.inserts _ _ at_position (among.kinds.apart at_position) with ⟨row, -, same⟩
    rcases Call.insertMatch.inj same with rfl
    unfold InsertMatch.start at made
    split at made <;> cases made

theorem Intact.delete_step {position moved : DeleteSession} {answer : Answer}
    (intact : Intact sessionId deleter start pool) (kinds : Kinds deleter start pool)
    (found : pool.DeleteAt deleter position)
    (goes : DeleteSession.Goes pool.shared position answer moved) (fails : moved ≠ .returned true) :
    Intact sessionId deleter start
      ⟨⟨(Call.deleteSession position).write answer pool.shared.store,
          position.marks pool.shared.deletedHere⟩,
        pool.processes.set deleter (.deleteSession moved)⟩ := by
  rcases intact.delete with ⟨_, at_position, uncommitted⟩
  rcases Call.deleteSession.inj (Option.some.inj (found.symm.trans at_position)) with rfl
  rcases uncommitted.step goes fails with ⟨later, untouched⟩
  rw [untouched]
  exact
    { rows := intact.rows
      sessions := intact.sessions
      nextId := intact.nextId
      delete := ⟨moved, Pool.moved_at found, later⟩
      inserts := by
        intro index row at_start
        rcases intact.inserts index row at_start with ⟨held, at_index, carries⟩
        refine ⟨held, ?_, carries⟩
        exact (Pool.others_stay (kinds.apart at_index)).trans at_index
      distinct := by
        intro index other first second id at_first at_second
        rcases Pool.of_set at_first with ⟨-, impossible⟩ | ⟨-, before⟩
        · cases impossible
        · rcases Pool.of_set at_second with ⟨-, impossible⟩ | ⟨-, before'⟩
          · cases impossible
          · exact intact.distinct _ _ _ _ _ before before' }

theorem Intact.created_lt {index : ℕ} {position : InsertMatch} {id : RecordId}
    (intact : Intact sessionId deleter start pool) (kinds : Kinds deleter start pool)
    (found : pool.InsertAt index position) (made : position.created = some id) :
    id < pool.shared.store.personalMatch.nextId := by
  rcases kinds.others index _ found (kinds.apart found) with ⟨row, -, at_start, -⟩
  rcases intact.inserts index row at_start with ⟨_, at_position, carries⟩
  rcases Call.insertMatch.inj (Option.some.inj (found.symm.trans at_position)) with rfl
  rcases carries.get?_created made with ⟨stored, stored_found⟩
  exact Table.lt_nextId_of_get? stored_found

theorem Intact.insert_step {row : PersonalMatch} {index : ℕ} {position moved : InsertMatch}
    (intact : Intact sessionId deleter start pool) (kinds : Kinds deleter start pool)
    (at_start : start.InsertAt index (.start row)) (found : pool.InsertAt index position)
    (taken : position.resume pool.shared .applied = some moved)
    (unseen : ∀ target, position.looks = some target → target ∉ pool.shared.deletedHere) :
    Intact sessionId deleter start
      ⟨⟨(Call.insertMatch position).write .applied pool.shared.store, pool.shared.deletedHere⟩,
        pool.processes.set index (.insertMatch moved)⟩ := by
  rcases intact.inserts index row at_start with ⟨_, at_position, carries⟩
  rcases Call.insertMatch.inj (Option.some.inj (found.symm.trans at_position)) with rfl
  rcases intact.delete with ⟨delete, at_delete, uncommitted⟩
  have apart := kinds.apart found
  have new :
      start.shared.store.personalMatch.get? pool.shared.store.personalMatch.nextId = none := by
    cases old : start.shared.store.personalMatch.get? pool.shared.store.personalMatch.nextId with
    | none => rfl
    | some row =>
        have below := Table.lt_nextId_of_get? old
        exact absurd (Nat.lt_of_lt_of_le below intact.nextId) (Nat.lt_irrefl _)
  have written := carries.write_cases .applied pool.shared.store
  have grows : ∀ id stored, pool.shared.store.personalMatch.get? id = some stored →
      ((Call.insertMatch position).write .applied pool.shared.store).personalMatch.get? id =
        some stored := by
    intro id stored stored_before
    rcases written with same | ⟨carried, -, added⟩
    · rw [same]
      exact stored_before
    · have differs := Nat.ne_of_lt (Table.lt_nextId_of_get? stored_before)
      rw [added, Table.get?_create, if_neg differs]
      exact stored_before
  exact
    { rows := fun id row old => grows id row (intact.rows id row old)
      sessions := by
        rcases written with same | ⟨carried, -, added⟩
        · exact (congrArg Store.matchSession same).trans intact.sessions
        · exact (congrArg Store.matchSession added).trans intact.sessions
      nextId := by
        rcases written with same | ⟨carried, -, added⟩
        · rw [same]
          exact intact.nextId
        · rw [added]
          exact Nat.le_succ_of_le intact.nextId
      delete := ⟨delete, (Pool.others_stay (Ne.symm apart)).trans at_delete, uncommitted⟩
      inserts := by
        intro other row' at_start'
        by_cases same : other = index
        · rcases same with rfl
          rcases intact.inserts other row' at_start' with ⟨_, at_position, carries'⟩
          rcases Call.insertMatch.inj (Option.some.inj (found.symm.trans at_position)) with rfl
          exact ⟨moved, Pool.moved_at found, carries'.step taken unseen new⟩
        · rcases intact.inserts other row' at_start' with ⟨held, at_other, carries'⟩
          exact ⟨held, (Pool.others_stay same).trans at_other, carries'.mono grows⟩
      distinct := by
        intro first second held held' id at_first at_second made made'
        -- an id the step gives is above every id another insert holds
        have moved_apart : ∀ {other : ℕ} {held : InsertMatch}, pool.InsertAt other held →
            held.created = some id → moved.created = some id → other = index := by
          intro other held at_other made_other made_moved
          rcases InsertMatch.created_of_resume taken made_moved with before | fresh
          · exact intact.distinct _ _ _ _ _ at_other found made_other before
          · have below := intact.created_lt kinds at_other made_other
            exact absurd (fresh ▸ below) (Nat.lt_irrefl _)
        rcases Pool.of_set at_first with ⟨rfl, same⟩ | ⟨-, before⟩
        · rcases Call.insertMatch.inj same with rfl
          rcases Pool.of_set at_second with ⟨rfl, -⟩ | ⟨-, before'⟩
          · rfl
          · exact (moved_apart before' made' made).symm
        · rcases Pool.of_set at_second with ⟨rfl, same⟩ | ⟨-, before'⟩
          · rcases Call.insertMatch.inj same with rfl
            exact moved_apart before made made'
          · exact intact.distinct _ _ _ _ _ before before' made made' }

/-- The pool stays intact for as long as the delete has not committed. -/
theorem intact_of_run (run : calls.Run start steps final)
    (among : DeleteAmongInserts sessionId deleter start)
    (unmarked : sessionId ∉ start.shared.deletedHere)
    (works : ∀ step ∈ steps, step.event.process ≠ deleter → step.event.choice = .applied)
    (unseen : ∀ step ∈ steps, looksAtMark step = false) :
    Kinds deleter start final ∧
      (¬final.DeleteAt deleter (.returned true) → Intact sessionId deleter start final) := by
  refine run.invariant_of_forall
    (fun pool => Kinds deleter start pool ∧
      (¬pool.DeleteAt deleter (.returned true) → Intact sessionId deleter start pool))
    ⟨among.kinds, fun _ => among.intact unmarked⟩
    (fun step step_mem => And.intro (works step step_mem) (unseen step step_mem)) ?_
  rintro pool turn after taken ⟨works, unseen⟩ ⟨kinds, intact⟩
  refine ⟨kinds.step taken, fun open' => ?_⟩
  rcases kinds.next_cases taken with
    ⟨position, moved, own, found, goes, rfl⟩ |
      ⟨row, position, moved, own, at_start, found, went, rfl⟩
  · have before : ¬pool.DeleteAt deleter (.returned true) := by
      intro committed
      rcases Call.deleteSession.inj (Option.some.inj (found.symm.trans committed)) with rfl
      cases goes
    refine (intact before).delete_step kinds found goes ?_
    rintro rfl
    exact open' (Pool.moved_at found)
  · have before : ¬pool.DeleteAt deleter (.returned true) := fun committed =>
      open' ((Pool.others_stay (Ne.symm own)).trans committed)
    rw [works own] at went ⊢
    refine (intact before).insert_step kinds at_start found went ?_
    intro target looks
    unfold looksAtMark at unseen
    rw [found] at unseen
    simpa [Call.looks, looks] using unseen

theorem lost_of_run {index : ℕ} {position : InsertMatch} (run : calls.Run pool steps final)
    (found : pool.InsertAt index position) (lost : position.Lost) :
    ∃ later, final.InsertAt index later ∧ later.Lost := by
  refine run.invariant (fun pool => ∃ later, pool.InsertAt index later ∧ later.Lost)
    ⟨position, found, lost⟩ ?_
  rintro pool turn after taken ⟨position, found, lost⟩
  rcases interleaving_next_eq_some.mp taken with ⟨call, shared, moved, moving, stepped, rfl⟩
  rcases Option.map_eq_some_iff.mp stepped with ⟨_, resumed, same⟩
  rcases Prod.mk.inj same with ⟨rfl, rfl⟩
  by_cases own : turn.process = index
  · rcases own with rfl
    rcases Option.some.inj (found.symm.trans moving) with rfl
    rcases Option.map_eq_some_iff.mp resumed with ⟨later, went, rfl⟩
    exact ⟨later, Pool.moved_at moving, lost.resume went⟩
  · exact ⟨position, (Pool.others_stay (Ne.symm own)).trans found, lost⟩

/-- An insert that looked at the mark while it was set does not return its row stored. -/
theorem lost_of_looksAtMark {step : CallStep} (run : calls.Run start steps final)
    (among : DeleteAmongInserts sessionId deleter start) (step_mem : step ∈ steps)
    (seen : looksAtMark step = true) :
    ∃ row later, start.InsertAt step.event.process (.start row) ∧
      final.InsertAt step.event.process later ∧ later.Lost := by
  rcases List.append_of_mem step_mem with ⟨earlier, rest, rfl⟩
  rcases run.exists_middle with ⟨_, upto, since⟩
  rcases since.cons_inv with ⟨rfl, taken, after⟩
  have kinds := upto.invariant (Kinds deleter start) among.kinds fun taken kinds => kinds.step taken
  rcases kinds.next_cases taken with
    ⟨position, moved, own, found, -, -⟩ | ⟨row, position, moved, own, at_start, found, went, left⟩
  · unfold looksAtMark at seen
    rw [own, found] at seen
    cases seen
  · unfold looksAtMark at seen
    rw [found] at seen
    rcases (Option.any_eq_true _ _).mp seen with ⟨target, looks, marked⟩
    have at_after : step.after.InsertAt step.event.process moved := by
      rw [left]
      exact Pool.moved_at found
    rcases lost_of_run after at_after
      (InsertMatch.lost_of_looks looks (of_decide_eq_true marked) went) with ⟨later, at_final, lost⟩
    exact ⟨row, later, at_start, at_final, lost⟩

theorem marked_of_run (run : calls.Run start steps final)
    (among : DeleteAmongInserts sessionId deleter start)
    (marked : sessionId ∈ start.shared.deletedHere) : sessionId ∈ final.shared.deletedHere := by
  refine (run.invariant
    (fun pool => Kinds deleter start pool ∧ sessionId ∈ pool.shared.deletedHere ∧
      ∃ position, pool.DeleteAt deleter position ∧ position.KeepsMark ∧
        ∀ target, position.target = some target → target = sessionId)
    ⟨among.kinds, marked, _, among.delete, trivial, fun _ same => (Option.some.inj same).symm⟩
    ?_).2.1
  rintro pool turn after taken ⟨kinds, marked, delete, at_delete, keeps, targets⟩
  refine ⟨kinds.step taken, ?_⟩
  rcases kinds.next_cases taken with
    ⟨position, moved, own, found, goes, rfl⟩ | ⟨row, position, moved, own, -, found, -, rfl⟩
  · rcases Call.deleteSession.inj (Option.some.inj (found.symm.trans at_delete)) with rfl
    rcases keeps.step targets marked goes with ⟨keeps, marked⟩
    refine ⟨marked, moved, Pool.moved_at found, keeps, ?_⟩
    exact fun target same => targets target (goes.target same)
  · exact ⟨marked, delete, (Pool.others_stay (Ne.symm own)).trans at_delete, keeps, targets⟩

/-- A delete that fails loses nothing if and only if its session was not marked before and no
insert looks at the mark while it is set. -/
theorem failed_delete_loses_nothing_iff (deleter : ℕ) (run : calls.Run start steps final)
    (among : DeleteAmongInserts sessionId deleter start)
    (works : ∀ step ∈ steps, step.event.process ≠ deleter → step.event.choice = .applied)
    (failed : final.DeleteAt deleter (.returned false))
    (returned : ∀ call ∈ final.processes, call.returned = true) :
    LosesNothing sessionId start final ↔
      sessionId ∉ start.shared.deletedHere ∧ ∀ step ∈ steps, looksAtMark step = false := by
  constructor
  · intro kept
    refine ⟨fun marked => kept.unmarked (marked_of_run run among marked), ?_⟩
    intro step step_mem
    cases seen : looksAtMark step with
    | false => rfl
    | true =>
        rcases lost_of_looksAtMark run among step_mem seen with
          ⟨row, later, at_start, at_final, lost⟩
        rcases kept.inserted _ row at_start with ⟨id, stored, -⟩
        rcases Call.insertMatch.inj (Option.some.inj (at_final.symm.trans stored)) with rfl
        exact lost.elim
  · rintro ⟨unmarked, unseen⟩
    rcases intact_of_run run among unmarked works unseen with ⟨kinds, intact⟩
    have intact := intact fun committed => by
      have same := failed.symm.trans committed
      simp at same
    have stored_of : ∀ {index : ℕ} {position : InsertMatch} {row : PersonalMatch}
        {old rows : Table PersonalMatch}, final.InsertAt index position →
        position.Carries row old rows →
        ∃ id, position = .returned (.stored id) ∧ Kept row old rows id := by
      intro index position row old rows at_final carries
      have done := returned _ (List.mem_of_getElem? at_final)
      cases position with
      | returned result =>
          cases result with
          | stored id => exact ⟨id, rfl, carries⟩
          | dropped | failed => exact carries.elim
      | _ => cases done
    exact
      { rows := intact.rows
        sessions := by
          intro id session found
          rw [intact.sessions]
          exact found
        inserted := by
          intro index row at_start
          rcases intact.inserts index row at_start with ⟨position, at_final, carries⟩
          rcases stored_of at_final carries with ⟨id, rfl, kept⟩
          exact ⟨id, at_final, kept⟩
        distinct := fun _ _ id first second => intact.distinct _ _ _ _ id first second rfl rfl
        unmarked := by
          rcases intact.delete with ⟨position, at_position, uncommitted⟩
          rcases Call.deleteSession.inj (Option.some.inj (at_position.symm.trans failed)) with rfl
          exact uncommitted }

end Runs

/-- A delete of a game, and two captures of it before their first step. -/
def twoCaptures : Calls :=
  .fresh [.deleteSession (.mark game), .insertMatch (.start busanBoard),
    .insertMatch (.start { busanBoard with elims := 11 })]

/-- A statement of the delete is refused, and the delete takes its mark back. -/
def refusal : List (Turn Answer) := [⟨0, .refused⟩, ⟨0, .applied⟩]

theorem deleteAmongInserts_twoCaptures : DeleteAmongInserts game 0 twoCaptures where
  delete := rfl
  inserts := by
    intro index call found differs
    rcases index with _ | _ | _ | index
    · exact absurd rfl differs
    · rcases Option.some.inj found with rfl
      exact ⟨busanBoard, rfl, rfl⟩
    · rcases Option.some.inj found with rfl
      exact ⟨{ busanBoard with elims := 11 }, rfl, rfl⟩
    · cases found

/-- One capture creates its row while the transaction runs, the other comes after the mark. -/
def captureTurns : List (Turn Answer) :=
  turns 1 1 ++ turns 0 3 ++ turns 1 1 ++ refusal ++ turns 1 1 ++ turns 2 3

theorem failed_delete_loses_nothing_twoCaptures :
    ∃ final, calls.exec twoCaptures captureTurns = some final ∧
      LosesNothing game twoCaptures final := by
  have run : calls.Run twoCaptures (calls.stepsOf twoCaptures captureTurns) _ := .of_exec rfl
  refine ⟨_, rfl, (failed_delete_loses_nothing_iff 0 run deleteAmongInserts_twoCaptures ?_ rfl
    ?_).mpr ⟨?_, ?_⟩⟩
  · decide
  · decide
  · decide
  · decide

/-- The promise of a failed delete: wherever it stops, and wherever the inserts stand. -/
def FailedDeleteLosesNothing : Prop :=
  ∀ (sessionId : Text) (deleter : ℕ) (start final : Calls) (steps : List CallStep),
    sessionId ∉ start.shared.deletedHere → DeleteAmongInserts sessionId deleter start →
      calls.Run start steps final →
      (∀ step ∈ steps, step.event.process ≠ deleter → step.event.choice = .applied) →
      final.DeleteAt deleter (.returned false) →
      (∀ call ∈ final.processes, call.returned = true) → LosesNothing sessionId start final

/-- A capture looks at the mark between the mark and the failing `DELETE personal_match`. -/
theorem not_failedDeleteLosesNothing : ¬FailedDeleteLosesNothing := by
  intro promise
  have run : calls.Run twoCaptures
      (calls.stepsOf twoCaptures (turns 0 3 ++ turns 1 1 ++ refusal ++ turns 2 3)) _ :=
    .of_exec rfl
  have kept := promise game 0 twoCaptures _ _ (by decide) deleteAmongInserts_twoCaptures run
    (by decide) rfl (by decide)
  rcases kept.inserted 1 busanBoard rfl with ⟨id, stored, -⟩
  cases stored

end ScuffedCrew.Storage
