import ScuffedCrew.PersonalMatches.Row
import ScuffedCrew.StateMachine.Run

/-!
# The session-index migration

`migrate_personal_match_session_index`, by the statement it makes next.  It gives
the blank rows a session, collapses the groups of rows with the same member and
session, and moves every row to the key of its member and session.
-/

namespace ScuffedCrew.PersonalMatches

open Rust Database StateMachine

abbrev MatchTable := Ordered Text DbPersonalMatch

/-- A row with its record key. -/
abbrev MatchRow := Text × DbPersonalMatch

/-- The table, and whether `pm_session_idx` is unique on the member and the session. -/
structure MatchStore where
  table : MatchTable
  indexUnique : Bool

def personalMatchMigrationBatch : ℕ := 2000

structure BlankSessionRow where
  key : Text
  memberId : Text
  hero : Text
  mapName : Text
  playedAt : Instant

/-- A group that is being collapsed, the ones after it on its page, and the first of the page. -/
structure Collapse where
  group : Text × Text
  rest : List (Text × Text)
  previousFirst : Option (Text × Text)

/-- A page of `rekey_personal_matches`: its rows that are left, its last key, and whether it is a
full one. -/
structure RekeyPage where
  rest : List MatchRow
  last : Text
  full : Bool

inductive MigrationError
  | conflict (message : Text)
  | surreal

inductive MigrationPoint
  | readIndex
  | selectBlank (previousFirst : Option Text)
  | writeBlank (previousFirst : Option Text) (row : BlankSessionRow) (rest : List BlankSessionRow)
  | selectGroups (previousFirst : Option (Text × Text))
  | selectPage (collapse : Collapse) (start : ℕ) (best : Option MatchRow)
  | countGroup (collapse : Collapse) (winner : MatchRow)
  | deleteLosers (collapse : Collapse) (winner : MatchRow)
  | copyWinner (collapse : Collapse) (winner : MatchRow)
  | deleteWinner (collapse : Collapse) (winner : MatchRow)
  | updateWinner (collapse : Collapse) (winner : MatchRow)
  | selectRows (cursor : Option Text)
  | updateRow (row : MatchRow) (page : RekeyPage)
  | copyRow (row : MatchRow) (page : RekeyPage)
  | deleteRow (row : MatchRow) (page : RekeyPage)
  | removeIndex
  | defineIndex
  | completed
  | failed (error : MigrationError)

namespace MatchTable

variable (table : MatchTable)

/-- `session_id = '' OR session_id IS NONE ORDER BY id LIMIT $lim`. -/
def blankRows : List BlankSessionRow :=
  ((table.rows.filter fun row => decide row.2.Blank).take personalMatchMigrationBatch).map
    fun row => ⟨row.1, row.2.memberId, row.2.hero, row.2.mapName, row.2.playedAt⟩

/-- `member_id = $mid AND session_id = $sid ORDER BY id`. -/
def groupRows (group : Text × Text) : List MatchRow :=
  table.rows.filter fun row => row.2.memberId = group.1 ∧ row.2.sessionId = group.2

/-- A group with a session and more than one row. -/
def Duplicated (group : Text × Text) : Prop := group.2 ≠ [] ∧ 1 < (table.groupRows group).length

/-- A page of duplicated groups, in whatever order the database groups them. -/
structure IsGroupPage (groups : List (Text × Text)) : Prop where
  distinct : groups.Nodup
  limit : groups.length ≤ personalMatchMigrationBatch
  duplicated : ∀ group ∈ groups, table.Duplicated group
  all : groups.length < personalMatchMigrationBatch → ∀ row ∈ table.rows,
    table.Duplicated (row.2.memberId, row.2.sessionId) → (row.2.memberId, row.2.sessionId) ∈ groups

instance (group : Text × Text) : Decidable (table.Duplicated group) :=
  inferInstanceAs (Decidable (_ ∧ _))

instance (groups : List (Text × Text)) : Decidable (table.IsGroupPage groups) :=
  decidable_of_iff (groups.Nodup ∧ groups.length ≤ personalMatchMigrationBatch ∧
      (∀ group ∈ groups, table.Duplicated group) ∧
        (groups.length < personalMatchMigrationBatch → ∀ row ∈ table.rows,
          table.Duplicated (row.2.memberId, row.2.sessionId) →
            (row.2.memberId, row.2.sessionId) ∈ groups))
    ⟨fun ⟨distinct, limit, duplicated, all⟩ => ⟨distinct, limit, duplicated, all⟩,
      fun ⟨distinct, limit, duplicated, all⟩ => ⟨distinct, limit, duplicated, all⟩⟩

/-- `id > $cursor ORDER BY id LIMIT $lim`. -/
def rowsAfter (cursor : Option Text) : List MatchRow :=
  (table.rows.filter fun row => cursor.all fun key => decide (key < row.1)).take
    personalMatchMigrationBatch

end MatchTable

namespace MigrationPoint

def nextBlank (previousFirst : Option Text) : List BlankSessionRow → MigrationPoint
  | [] => selectBlank previousFirst
  | row :: rest => writeBlank previousFirst row rest

def afterSelectBlank (previousFirst : Option Text) : List BlankSessionRow → MigrationPoint
  | [] => selectGroups none
  | first :: rest =>
      if previousFirst = some first.key then
        failed (.conflict "blank personal_match session_id rewrite made no progress".toList)
      else nextBlank (some first.key) (first :: rest)

def nextGroup (previousFirst : Option (Text × Text)) : List (Text × Text) → MigrationPoint
  | [] => selectGroups previousFirst
  | group :: rest => selectPage ⟨group, rest, previousFirst⟩ 0 none

def afterSelectGroups (previousFirst : Option (Text × Text)) : List (Text × Text) → MigrationPoint
  | [] => selectRows none
  | first :: rest =>
      if previousFirst = some first then
        failed (.conflict "personal_match duplicate collapse made no progress".toList)
      else nextGroup (some first) (first :: rest)

/-- The better of the best row so far and the next one. -/
def better (best : Option MatchRow) (row : MatchRow) : Option MatchRow :=
  match best with
  | none => some row
  | some current =>
      if preferPersonalMatchKeeper row.2.uploadedAt row.1 current.2.uploadedAt current.1 then
        some row
      else some current

def afterScan (collapse : Collapse) : Option MatchRow → MigrationPoint
  | none => failed (.conflict ("duplicate personal_match group (".toList ++ collapse.group.1 ++
      ", ".toList ++ collapse.group.2 ++ ") disappeared".toList))
  | some winner => countGroup collapse winner

def afterPage (collapse : Collapse) (start : ℕ) (best : Option MatchRow) (rows : List MatchRow) :
    MigrationPoint :=
  if rows.isEmpty then afterScan collapse best
  else if rows.length < personalMatchMigrationBatch then
    afterScan collapse (rows.foldl better best)
  else
    selectPage collapse (saturateU32 (start + personalMatchMigrationBatch)) (rows.foldl better best)

def afterDeleteLosers (collapse : Collapse) (winner : MatchRow) : MigrationPoint :=
  if winner.1 ≠ personalMatchRecordKey collapse.group.1 collapse.group.2 then
    copyWinner collapse winner
  else if winner.2.sessionId ≠ collapse.group.2 then updateWinner collapse winner
  else nextGroup collapse.previousFirst collapse.rest

variable (hash : Text → Text → Text → Instant → Text)

/-- The key a row is moved to. -/
def desiredKey (row : DbPersonalMatch) : Text :=
  personalMatchRecordKey row.memberId (row.effectiveSession hash)

/-- The rows of the page that are on their key already need no statement. -/
def nextRow (last : Text) (full : Bool) : List MatchRow → MigrationPoint
  | [] => if full then selectRows (some last) else removeIndex
  | row :: rest =>
      if row.1 = desiredKey hash row.2 then
        if row.2.sessionId ≠ row.2.effectiveSession hash then updateRow row ⟨rest, last, full⟩
        else nextRow last full rest
      else copyRow row ⟨rest, last, full⟩

def afterSelectRows (cursor : Option Text) (rows : List MatchRow) : MigrationPoint :=
  match rows.getLast? with
  | none => removeIndex
  | some last =>
      if cursor = some last.1 then
        failed (.conflict "personal_match rekey scan made no progress".toList)
      else nextRow hash last.1 (personalMatchMigrationBatch ≤ rows.length) rows

/-- One statement; `groups` is the page of groups it is answered, where it asks for one. -/
def step (store : MatchStore) (groups : List (Text × Text)) :
    MigrationPoint → Option (MatchStore × MigrationPoint)
  | readIndex => some (store, if store.indexUnique then completed else selectBlank none)
  | selectBlank previousFirst =>
      some (store, afterSelectBlank previousFirst store.table.blankRows)
  | writeBlank previousFirst row rest =>
      let session := legacySessionId hash row.memberId row.hero row.mapName row.playedAt
      some ({ store with table := store.table.update row.key (.setSession · session) },
        nextBlank previousFirst rest)
  | selectGroups previousFirst =>
      if store.table.IsGroupPage groups then some (store, afterSelectGroups previousFirst groups)
      else none
  | selectPage collapse start best =>
      some (store, afterPage collapse start best
        (((store.table.groupRows collapse.group).drop start).take personalMatchMigrationBatch))
  | countGroup collapse winner => some (store, deleteLosers collapse winner)
  | deleteLosers collapse winner =>
      some ({ store with
          table := store.table.deleteWhere fun key row => decide (row.memberId = collapse.group.1 ∧
            row.sessionId = collapse.group.2 ∧ key ≠ winner.1) },
        afterDeleteLosers collapse winner)
  | copyWinner collapse winner =>
      some ({ store with
          table := store.table.upsert
            (personalMatchRecordKey collapse.group.1 collapse.group.2)
            (winner.2.relocated collapse.group.2) },
        deleteWinner collapse winner)
  | deleteWinner collapse winner =>
      some ({ store with table := store.table.erase winner.1 },
        nextGroup collapse.previousFirst collapse.rest)
  | updateWinner collapse _ =>
      some ({ store with
          table := store.table.update (personalMatchRecordKey collapse.group.1 collapse.group.2)
            (.setSession · collapse.group.2) },
        nextGroup collapse.previousFirst collapse.rest)
  | selectRows cursor => some (store, afterSelectRows hash cursor (store.table.rowsAfter cursor))
  | updateRow row page =>
      some ({ store with
          table := store.table.update (desiredKey hash row.2)
            (.setSession · (row.2.effectiveSession hash)) },
        nextRow hash page.last page.full page.rest)
  | copyRow row page =>
      some ({ store with
          table := store.table.upsert (desiredKey hash row.2)
            (row.2.relocated (row.2.effectiveSession hash)) },
        deleteRow row page)
  | deleteRow row page =>
      some ({ store with table := store.table.erase row.1 },
        nextRow hash page.last page.full page.rest)
  | removeIndex => some ({ store with indexUnique := false }, defineIndex)
  | defineIndex =>
      -- A unique index is refused while two rows have the same member and session.
      if (store.table.rows.map fun row => (row.2.memberId, row.2.sessionId)).Nodup then
        some ({ store with indexUnique := true }, completed)
      else some (store, failed .surreal)
  | completed | failed _ => none

end MigrationPoint

/-- A run makes a statement, or it is killed, or has ended, and another run is started. -/
inductive MigrationEvent
  | statement (groups : List (Text × Text))
  | restart

structure MigrationState where
  store : MatchStore
  point : MigrationPoint

def migrations (hash : Text → Text → Text → Instant → Text) :
    Machine MigrationState MigrationEvent where
  next state event :=
    match event with
    | .statement groups => (state.point.step hash state.store groups).map fun result =>
        ⟨result.1, result.2⟩
    | .restart => some ⟨state.store, .readIndex⟩

end ScuffedCrew.PersonalMatches
