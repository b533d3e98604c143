import ScuffedCrew.PersonalMatches.Tracking

/-!
# The migrated table

What holds of the table at each point of a run.  A run that is killed at any of
them leaves a table that tracks the original one, and one that completes leaves
every row on its key.
-/

namespace ScuffedCrew.PersonalMatches

open Rust Database StateMachine

variable {hash : Text → Text → Text → Instant → Text} {original table : MatchTable}
  {key : Text} {row : DbPersonalMatch}

/-! ## What the points rely on -/

/-- The rows of a page are still in the table. -/
structure InPage (table : MatchTable) (rows : List MatchRow) : Prop where
  distinct : (rows.map Prod.fst).Nodup
  stored : ∀ row ∈ rows, table.get? row.1 = some row.2

structure StillBlank (hash : Text → Text → Text → Instant → Text) (table : MatchTable)
    (rows : List BlankSessionRow) : Prop where
  distinct : (rows.map BlankSessionRow.key).Nodup
  stored : ∀ blank ∈ rows, ∃ row, table.get? blank.key = some row ∧ row.Blank ∧
    legacySessionId hash blank.memberId blank.hero blank.mapName blank.playedAt =
      row.effectiveSession hash

/-- The row is ranked first among those that were seen. -/
def RankedFirst (seen : List MatchRow) (winner : MatchRow) : Prop :=
  winner ∈ seen ∧ ∀ other ∈ seen, other.1 ≠ winner.1 →
    preferPersonalMatchKeeper winner.2.uploadedAt winner.1 other.2.uploadedAt other.1 = true

/-- What a scan has kept of the rows it has seen. -/
def BestOf (seen : List MatchRow) : Option MatchRow → Prop
  | none => seen = []
  | some winner => RankedFirst seen winner

/-- The scan of a group has seen the rows before `start`, and has kept the best of those it saw. -/
def Scanned (table : MatchTable) (group : Text × Text) (start : ℕ) (best : Option MatchRow) :
    Prop :=
  ∃ seen : List MatchRow, (∀ row ∈ seen, row ∈ table.groupRows group) ∧
    (∀ row ∈ (table.groupRows group).take start, row ∈ seen) ∧ BestOf seen best

/-- No two rows stand for the same pair. -/
def Single (hash : Text → Text → Text → Instant → Text) (table : MatchTable) : Prop :=
  ∀ key row, table.get? key = some row → Within hash table (row.content hash).pair [key]

/-- The row is on the key of its member and session. -/
abbrev Placed (key : Text) (row : DbPersonalMatch) : Prop :=
  key = personalMatchRecordKey row.memberId row.sessionId

/-- The rows that are not on their keys are left on the page or come after it. -/
def LeftOver (table : MatchTable) (rows : List MatchRow) (last : Text) (full : Bool) : Prop :=
  ∀ key row, table.get? key = some row →
    Placed key row ∨ key ∈ rows.map Prod.fst ∨ full = true ∧ last < key

structure AllPlaced (table : MatchTable) : Prop where
  filled : Filled table
  placed : ∀ key row, table.get? key = some row → Placed key row

/-- The keeper is the only row of its group. -/
structure Winner (hash : Text → Text → Text → Instant → Text) (table : MatchTable)
    (group : Text × Text) (winner : MatchRow) : Prop where
  filled : Filled table
  stored : table.get? winner.1 = some winner.2
  stands : (winner.2.content hash).pair = group
  alone : Within hash table group [winner.1]

/-- A row has been copied to the key of its pair. -/
structure Copied (hash : Text → Text → Text → Instant → Text) (table : MatchTable)
    (row : MatchRow) : Prop where
  filled : Filled table
  stored : table.get? row.1 = some row.2
  twin : ∃ twin, table.get? (personalMatchRecordKey row.2.memberId row.2.sessionId) = some twin ∧
    twin.content hash = row.2.content hash
  both : Within hash table (row.2.content hash).pair
    [row.1, personalMatchRecordKey row.2.memberId row.2.sessionId]
  misplaced : ¬Placed row.1 row.2

/-- What a point relies on. -/
def At (hash : Text → Text → Text → Instant → Text) (table : MatchTable) : MigrationPoint → Prop
  | .writeBlank _ blank rest => StillBlank hash table (blank :: rest)
  | .selectGroups _ => Filled table
  | .selectPage collapse start best => Filled table ∧ Scanned table collapse.group start best
  | .countGroup collapse winner | .deleteLosers collapse winner =>
      Filled table ∧ Keeper hash table collapse.group winner.1 winner.2
  | .copyWinner collapse winner =>
      Winner hash table collapse.group winner ∧ ¬Placed winner.1 winner.2
  | .deleteWinner collapse winner =>
      Copied hash table winner ∧ (winner.2.content hash).pair = collapse.group
  | .selectRows cursor => Filled table ∧ Single hash table ∧
      ∀ key row, table.get? key = some row → Placed key row ∨ ∀ last ∈ cursor, last < key
  | .copyRow row page => Filled table ∧ Single hash table ∧ InPage table (row :: page.rest) ∧
      LeftOver table (row :: page.rest) page.last page.full ∧ ¬Placed row.1 row.2
  | .deleteRow row page => Copied hash table row ∧ InPage table (row :: page.rest) ∧
      LeftOver table (row :: page.rest) page.last page.full ∧
        ∀ key other, table.get? key = some other →
          (other.content hash).pair ≠ (row.2.content hash).pair →
            Within hash table (other.content hash).pair [key]
  | .removeIndex | .defineIndex | .completed => AllPlaced table
  | .updateWinner .. | .updateRow .. => False
  | .readIndex | .selectBlank _ | .failed _ => True

/-! ## The blank rows -/

theorem stillBlank_blankRows : StillBlank hash table table.blankRows := by
  have part : List.Sublist ((table.rows.filter fun row => decide row.2.Blank).take
      personalMatchMigrationBatch) table.rows := (List.take_sublist _ _).trans List.filter_sublist
  refine ⟨?_, ?_⟩
  · have keys : table.blankRows.map BlankSessionRow.key =
        ((table.rows.filter fun row => decide row.2.Blank).take personalMatchMigrationBatch).map
          Prod.fst := by
      rw [MatchTable.blankRows, List.map_map]
      rfl
    rw [keys]
    exact Ordered.nodup_keys.sublist (part.map _)
  · intro blank blank_mem
    rcases List.mem_map.mp blank_mem with ⟨row, row_mem, rfl⟩
    have is_blank : row.2.Blank := by
      simpa using (List.mem_filter.mp (List.mem_of_mem_take row_mem)).2
    refine ⟨row.2, Ordered.mem_rows_iff.mp (part.subset row_mem), is_blank, ?_⟩
    rw [DbPersonalMatch.effectiveSession, if_pos is_blank]

theorem filled_of_blankRows (none : table.blankRows = []) : Filled table := by
  intro key row found blank
  have empty := List.take_eq_nil_iff.mp (List.map_eq_nil_iff.mp none)
  rcases empty with absurd_batch | empty
  · cases absurd_batch
  · have unmatched := List.filter_eq_nil_iff.mp empty (key, row) (Ordered.mem_rows_iff.mpr found)
    exact unmatched (by simpa using blank)

theorem StillBlank.tail {blank : BlankSessionRow} {rest : List BlankSessionRow}
    (still : StillBlank hash table (blank :: rest)) (change : DbPersonalMatch → DbPersonalMatch) :
    StillBlank hash (table.update blank.key change) rest := by
  have distinct := List.nodup_cons.mp still.distinct
  refine ⟨distinct.2, ?_⟩
  intro other other_mem
  rcases still.stored other (List.mem_cons_of_mem _ other_mem) with ⟨row, found, reads⟩
  refine ⟨row, ?_, reads⟩
  rw [Ordered.get?_update, if_neg, found]
  intro same
  exact distinct.1 (same ▸ List.mem_map_of_mem other_mem)

theorem at_nextBlank {previousFirst : Option Text} {rows : List BlankSessionRow}
    (still : StillBlank hash table rows) :
    At hash table (MigrationPoint.nextBlank previousFirst rows) := by
  cases rows with
  | nil => trivial
  | cons blank rest => exact still

theorem at_afterSelectBlank {previousFirst : Option Text} :
    At hash table (MigrationPoint.afterSelectBlank previousFirst table.blankRows) := by
  cases selected : table.blankRows with
  | nil => exact filled_of_blankRows selected
  | cons blank rest =>
      simp only [MigrationPoint.afterSelectBlank]
      split
      · trivial
      · rw [← selected]
        exact at_nextBlank stillBlank_blankRows

/-! ## The scan of a group -/

variable {group : Text × Text}

theorem mem_groupRows {candidate : MatchRow} : candidate ∈ table.groupRows group ↔
    table.get? candidate.1 = some candidate.2 ∧
      (candidate.2.memberId, candidate.2.sessionId) = group := by
  rw [MatchTable.groupRows, List.mem_filter, Ordered.mem_rows_iff, Prod.ext_iff]
  simp

/-- The rows of a group are those that stand for its pair. -/
theorem mem_groupRows_of_filled (filled : Filled table) {candidate : MatchRow} :
    candidate ∈ table.groupRows group ↔ table.get? candidate.1 = some candidate.2 ∧
      (candidate.2.content hash).pair = group := by
  rw [mem_groupRows]
  apply and_congr_right
  intro found
  rw [pair_of_filled (filled _ _ found)]

theorem scanned_zero : Scanned table group 0 none := by
  refine ⟨[], by simp, ?_, rfl⟩
  simp

/-- One more row is seen. -/
theorem bestOf_better {seen : List MatchRow} {best : Option MatchRow} {candidate : MatchRow}
    (stored : ∀ row ∈ seen, table.get? row.1 = some row.2) (first : BestOf seen best) :
    BestOf (seen ++ [candidate]) (MigrationPoint.better best candidate) := by
  cases best with
  | none =>
      obtain rfl : seen = [] := first
      refine ⟨by simp, ?_⟩
      intro other other_mem differs
      rw [List.mem_singleton.mp other_mem] at differs
      exact absurd rfl differs
  | some winner =>
      rcases first with ⟨winner_mem, first⟩
      simp only [MigrationPoint.better]
      split
      next ranked =>
        refine ⟨by simp, ?_⟩
        intro other other_mem differs
        rcases List.mem_append.mp other_mem with old | new
        · by_cases same : other.1 = winner.1
          · have reads := stored other old
            rw [same, stored winner winner_mem] at reads
            rw [same, ← Option.some.inj reads]
            exact ranked
          · exact prefer_trans ranked (first other old same)
        · rw [List.mem_singleton.mp new] at differs
          exact absurd rfl differs
      next unranked =>
        refine ⟨List.mem_append_left _ winner_mem, ?_⟩
        intro other other_mem differs
        rcases List.mem_append.mp other_mem with old | new
        · exact first other old differs
        · rw [List.mem_singleton.mp new] at differs ⊢
          exact (prefer_total (Ne.symm differs)).resolve_right unranked

theorem bestOf_foldl {seen rows : List MatchRow} {best : Option MatchRow}
    (stored : ∀ row ∈ seen ++ rows, table.get? row.1 = some row.2) (first : BestOf seen best) :
    BestOf (seen ++ rows) (rows.foldl MigrationPoint.better best) := by
  induction rows generalizing seen best with
  | nil => simpa using first
  | cons candidate rows ih =>
      have split : seen ++ candidate :: rows = seen ++ [candidate] ++ rows := by simp
      rw [split] at stored ⊢
      have seen_stored : ∀ row ∈ seen, table.get? row.1 = some row.2 :=
        fun row row_mem => stored row (by simp [row_mem])
      exact ih stored (bestOf_better seen_stored first)

theorem at_afterScan {collapse : Collapse} {seen : List MatchRow} {best : Option MatchRow}
    (filled : Filled table) (all : ∀ row, row ∈ seen ↔ row ∈ table.groupRows collapse.group)
    (first : BestOf seen best) : At hash table (MigrationPoint.afterScan collapse best) := by
  cases best with
  | none => trivial
  | some winner =>
      rcases first with ⟨winner_mem, first⟩
      rcases (@mem_groupRows_of_filled hash _ _ filled _).mp ((all winner).mp winner_mem) with
        ⟨found, stands⟩
      refine ⟨filled, found, stands, ?_⟩
      intro other row found' stands' differs
      have other_mem :=
        (all (other, row)).mpr ((mem_groupRows_of_filled filled).mpr ⟨found', stands'⟩)
      exact first (other, row) other_mem differs

theorem at_afterPage {collapse : Collapse} {start : ℕ} {best : Option MatchRow}
    (filled : Filled table) (scanned : Scanned table collapse.group start best) :
    At hash table (MigrationPoint.afterPage collapse start best
      (((table.groupRows collapse.group).drop start).take personalMatchMigrationBatch)) := by
  rcases scanned with ⟨seen, inside, before, first⟩
  obtain ⟨rows, rows_eq⟩ : ∃ rows, rows =
    ((table.groupRows collapse.group).drop start).take personalMatchMigrationBatch := ⟨_, rfl⟩
  have page : ∀ row ∈ rows, row ∈ table.groupRows collapse.group := by
    intro row row_mem
    rw [rows_eq] at row_mem
    exact List.mem_of_mem_drop (List.mem_of_mem_take row_mem)
  have both : ∀ row ∈ seen ++ rows, row ∈ table.groupRows collapse.group := by
    intro row row_mem
    rcases List.mem_append.mp row_mem with old | new
    · exact inside row old
    · exact page row new
  have longer : BestOf (seen ++ rows) (rows.foldl MigrationPoint.better best) :=
    bestOf_foldl (fun row row_mem => (mem_groupRows.mp (both row row_mem)).1) first
  rw [← rows_eq]
  unfold MigrationPoint.afterPage
  split
  next empty =>
    apply at_afterScan filled ?_ first
    intro row
    refine ⟨inside row, fun row_mem => before row ?_⟩
    have none := Eq.trans (Eq.symm rows_eq) (List.isEmpty_iff.mp empty)
    rcases List.take_eq_nil_iff.mp none with absurd_batch | none
    · cases absurd_batch
    · rwa [List.take_of_length_le (List.drop_eq_nil_iff.mp none)]
  next =>
    split
    next short =>
      apply at_afterScan filled ?_ longer
      intro row
      refine ⟨both row, fun row_mem => ?_⟩
      have whole : rows = (table.groupRows collapse.group).drop start := by
        rw [rows_eq, List.length_take] at short
        rw [rows_eq]
        exact List.take_of_length_le (by omega)
      rw [← List.take_append_drop start (table.groupRows collapse.group), ← whole] at row_mem
      rcases List.mem_append.mp row_mem with old | new
      · exact List.mem_append_left _ (before row old)
      · exact List.mem_append_right _ new
    next =>
      refine ⟨filled, seen ++ rows, both, ?_, longer⟩
      intro row row_mem
      have bounded : saturateU32 (start + personalMatchMigrationBatch) ≤
          start + personalMatchMigrationBatch := Nat.min_le_left _ _
      have row_mem := (List.take_subset_take_left _ bounded) row_mem
      rw [List.take_add, ← rows_eq] at row_mem
      rcases List.mem_append.mp row_mem with old | new
      · exact List.mem_append_left _ (before row old)
      · exact List.mem_append_right _ new

/-! ## The groups -/

theorem at_nextGroup {previousFirst : Option (Text × Text)} {groups : List (Text × Text)}
    (filled : Filled table) : At hash table (MigrationPoint.nextGroup previousFirst groups) := by
  cases groups with
  | nil => exact filled
  | cons group rest => exact ⟨filled, scanned_zero⟩

/-- When no group is duplicated, no two rows stand for the same pair. -/
theorem single_of_isGroupPage (filled : Filled table) (page : table.IsGroupPage []) :
    Single hash table := by
  intro key row found other row' found' same
  rw [List.mem_singleton]
  by_contra differs
  have session := filled key row found
  have pair : (row.content hash).pair = _ := pair_of_filled session
  have first : (key, row) ∈ table.groupRows (row.memberId, row.sessionId) :=
    mem_groupRows.mpr ⟨found, rfl⟩
  have second : (other, row') ∈ table.groupRows (row.memberId, row.sessionId) :=
    (mem_groupRows_of_filled filled).mpr ⟨found', by rw [same, pair]⟩
  have duplicated : table.Duplicated (row.memberId, row.sessionId) := by
    refine ⟨session, ?_⟩
    rcases List.getElem_of_mem first with ⟨i, inside, at_i⟩
    rcases List.getElem_of_mem second with ⟨j, inside', at_j⟩
    by_contra few
    obtain rfl : i = j := by omega
    rw [at_i] at at_j
    exact differs (Eq.symm (congrArg Prod.fst at_j))
  have listed := page.all (by decide) (key, row) (Ordered.mem_rows_iff.mpr found) duplicated
  cases listed

theorem at_afterSelectGroups {previousFirst : Option (Text × Text)} {groups : List (Text × Text)}
    (filled : Filled table) (page : table.IsGroupPage groups) :
    At hash table (MigrationPoint.afterSelectGroups previousFirst groups) := by
  cases groups with
  | nil =>
      refine ⟨filled, single_of_isGroupPage filled page, ?_⟩
      intro key row _
      right
      intro last at_none
      cases at_none
  | cons first rest =>
      simp only [MigrationPoint.afterSelectGroups]
      split
      · trivial
      · exact at_nextGroup filled

/-! ## Collapsing a group -/

theorem winner_deleteLosers {winner : MatchRow} (filled : Filled table)
    (kept : Keeper hash table group winner.1 winner.2) :
    Winner hash (table.deleteWhere fun key row => decide (row.memberId = group.1 ∧
      row.sessionId = group.2 ∧ key ≠ winner.1)) group winner := by
  refine ⟨?_, (get?_deleteLosers hash filled).mpr ⟨kept.found, fun _ => rfl⟩, kept.stands, ?_⟩
  · intro key row found
    exact filled key row ((get?_deleteLosers hash filled).mp found).1
  · intro key row found stands
    exact List.mem_singleton.mpr (((get?_deleteLosers hash filled).mp found).2 stands)

namespace Winner

variable {winner : MatchRow}

theorem group_eq (sole : Winner hash table group winner) :
    group = (winner.2.memberId, winner.2.sessionId) := by
  rw [← sole.stands, pair_of_filled (sole.filled _ _ sole.stored)]

theorem at_afterDeleteLosers {collapse : Collapse}
    (sole : Winner hash table collapse.group winner) :
    At hash table (MigrationPoint.afterDeleteLosers collapse winner) := by
  have group_eq := sole.group_eq
  unfold MigrationPoint.afterDeleteLosers
  split
  next misplaced =>
    refine ⟨sole, ?_⟩
    rw [group_eq] at misplaced
    exact misplaced
  next =>
    rw [if_neg]
    · exact at_nextGroup sole.filled
    · rw [group_eq]
      simp

/-- The winner has been copied to its key. -/
theorem copied (sole : Winner hash table group winner)
    (misplaced : ¬Placed winner.1 winner.2) :
    Copied hash (table.upsert (personalMatchRecordKey winner.2.memberId winner.2.sessionId)
      (winner.2.relocated winner.2.sessionId)) winner := by
  have session := sole.filled _ _ sole.stored
  have twin_filled : ¬(winner.2.relocated winner.2.sessionId).Blank := session
  refine ⟨?_, ?_, ⟨_, ?_, DbPersonalMatch.content_relocated session⟩, ?_, misplaced⟩
  · intro key row found
    rw [Ordered.get?_upsert] at found
    split at found
    · rcases Option.some.inj found with rfl
      exact twin_filled
    · exact sole.filled key row found
  · rw [Ordered.get?_upsert, if_neg misplaced, sole.stored]
  · rw [Ordered.get?_upsert, if_pos rfl]
  · intro key row found stands
    rw [Ordered.get?_upsert] at found
    split at found
    next desired => simp [desired]
    next =>
      have at_key := sole.alone key row found (by rw [stands, sole.stands])
      simp [List.mem_singleton.mp at_key]

end Winner

/-- Once the old row is deleted the group has its one row on its key. -/
theorem Copied.filled_erase {row : MatchRow} (copied : Copied hash table row) :
    Filled (table.erase row.1) := by
  intro key other found
  rw [Ordered.get?_erase] at found
  split at found
  · cases found
  · exact copied.filled key other found

/-! ## Moving the rows to their keys -/

theorem desiredKey_of_filled (filled : ¬row.Blank) :
    MigrationPoint.desiredKey hash row = personalMatchRecordKey row.memberId row.sessionId := by
  rw [MigrationPoint.desiredKey, DbPersonalMatch.effectiveSession_of_filled filled]

theorem at_nextRow {last : Text} {full : Bool} {rows : List MatchRow} (filled : Filled table)
    (single : Single hash table) (page : InPage table rows) (left : LeftOver table rows last full) :
    At hash table (MigrationPoint.nextRow hash last full rows) := by
  induction rows with
  | nil =>
      simp only [MigrationPoint.nextRow]
      split
      next =>
        refine ⟨filled, single, ?_⟩
        intro key row found
        rcases left key row found with placed | none | ⟨-, after⟩
        · exact .inl placed
        · cases none
        · right
          intro cursor at_cursor
          rcases Option.some.inj at_cursor with rfl
          exact after
      next unfull =>
        refine ⟨filled, ?_⟩
        intro key row found
        rcases left key row found with placed | none | ⟨is_full, -⟩
        · exact placed
        · cases none
        · exact absurd is_full unfull
  | cons first rest ih =>
      have stored := page.stored first (List.mem_cons_self ..)
      have session := filled first.1 first.2 stored
      have distinct := List.nodup_cons.mp page.distinct
      simp only [MigrationPoint.nextRow]
      rw [desiredKey_of_filled session, DbPersonalMatch.effectiveSession_of_filled session]
      split
      next placed =>
        rw [if_neg (by simp)]
        apply ih ⟨distinct.2, fun row row_mem => page.stored row (List.mem_cons_of_mem _ row_mem)⟩
        intro key row found
        rcases left key row found with placed' | on_page | after
        · exact .inl placed'
        · rcases List.mem_cons.mp on_page with rfl | on_page
          · rw [stored] at found
            rcases Option.some.inj found with rfl
            exact .inl placed
          · exact .inr (.inl on_page)
        · exact .inr (.inr after)
      next misplaced => exact ⟨filled, single, page, left, misplaced⟩

theorem at_afterSelectRows {cursor : Option Text} (filled : Filled table)
    (single : Single hash table)
    (placed : ∀ key row, table.get? key = some row → Placed key row ∨ ∀ last ∈ cursor, last < key) :
    At hash table (MigrationPoint.afterSelectRows hash cursor (table.rowsAfter cursor)) := by
  obtain ⟨later, later_eq⟩ : ∃ later, later =
    table.rows.filter fun row => cursor.all fun key => decide (key < row.1) := ⟨_, rfl⟩
  have part : later.Sublist table.rows := by
    rw [later_eq]
    exact List.filter_sublist
  have rows_eq : table.rowsAfter cursor = later.take personalMatchMigrationBatch := by
    rw [later_eq, MatchTable.rowsAfter]
  have among : ∀ key row, table.get? key = some row → ¬Placed key row → (key, row) ∈ later := by
    intro key row found misplaced
    rw [later_eq]
    refine List.mem_filter.mpr ⟨Ordered.mem_rows_iff.mpr found, ?_⟩
    have after := (placed key row found).resolve_left misplaced
    cases cursor with
    | none => rfl
    | some cursor => simpa using after cursor rfl
  rw [rows_eq]
  unfold MigrationPoint.afterSelectRows
  cases at_end : (later.take personalMatchMigrationBatch).getLast? with
  | none =>
      refine ⟨filled, ?_⟩
      intro key row found
      by_contra misplaced
      have row_mem := among key row found misplaced
      rcases List.take_eq_nil_iff.mp (List.getLast?_eq_none_iff.mp at_end) with absurd_batch | empty
      · cases absurd_batch
      · rw [empty] at row_mem
        cases row_mem
  | some last =>
      simp only
      split
      · trivial
      · have sub : (later.take personalMatchMigrationBatch).Sublist table.rows :=
          (List.take_sublist _ _).trans part
        apply at_nextRow filled single
        · refine ⟨Ordered.nodup_keys.sublist (sub.map _), ?_⟩
          intro row row_mem
          exact Ordered.mem_rows_iff.mp (sub.subset row_mem)
        · intro key row found
          by_cases is_placed : Placed key row
          · exact .inl is_placed
          · right
            have row_mem := among key row found is_placed
            rw [← List.take_append_drop personalMatchMigrationBatch later] at row_mem
            rcases List.mem_append.mp row_mem with on_page | beyond
            · exact .inl (List.mem_map_of_mem on_page)
            · right
              have long : personalMatchMigrationBatch < later.length := by
                by_contra short
                rw [List.drop_eq_nil_of_le (Nat.not_lt.mp short)] at beyond
                cases beyond
              refine ⟨by simp [List.length_take, Nat.le_of_lt long], ?_⟩
              have sorted := table.sorted.sublist part
              rw [← List.take_append_drop personalMatchMigrationBatch later] at sorted
              have last_mem := List.mem_of_getLast? at_end
              exact (List.pairwise_append.mp sorted).2.2 last last_mem (key, row) beyond

/-- A row that is not on its key is copied. -/
theorem Winner.of_single {row : MatchRow} (filled : Filled table) (single : Single hash table)
    (stored : table.get? row.1 = some row.2) :
    Winner hash table (row.2.content hash).pair row :=
  ⟨filled, stored, rfl, single row.1 row.2 stored⟩

theorem at_deleteRow {first : MatchRow} {page : RekeyPage} (keyed : Keyed table)
    (filled : Filled table) (single : Single hash table) (rows : InPage table (first :: page.rest))
    (left : LeftOver table (first :: page.rest) page.last page.full)
    (misplaced : ¬Placed first.1 first.2) :
    At hash (table.upsert (personalMatchRecordKey first.2.memberId first.2.sessionId)
      (first.2.relocated first.2.sessionId)) (.deleteRow first page) := by
  have stored := rows.stored first (List.mem_cons_self ..)
  have sole := Winner.of_single filled single stored
  have free := get?_desired_eq_none keyed filled stored sole.alone misplaced
  refine ⟨sole.copied misplaced, ⟨rows.distinct, ?_⟩, ?_, ?_⟩
  · intro row row_mem
    rw [Ordered.get?_upsert, if_neg, rows.stored row row_mem]
    intro desired
    have found := rows.stored row row_mem
    rw [desired, free] at found
    cases found
  · intro key row found
    rw [Ordered.get?_upsert] at found
    split at found
    next desired =>
      rcases Option.some.inj found with rfl
      exact .inl desired
    next => exact left key row found
  · intro key other found differs third row' found' same
    rw [Ordered.get?_upsert] at found found'
    have session := filled _ _ stored
    have copied : (first.2.relocated first.2.sessionId).content hash = first.2.content hash :=
      DbPersonalMatch.content_relocated session
    split at found
    next =>
      rcases Option.some.inj found with rfl
      rw [copied] at differs
      exact absurd rfl differs
    next =>
      split at found'
      next =>
        rcases Option.some.inj found' with rfl
        rw [copied] at same
        exact absurd (Eq.symm same) differs
      next => exact single key other found third row' found' same

theorem at_afterDeleteRow {first : MatchRow} {page : RekeyPage}
    (before : At hash table (.deleteRow first page)) :
    At hash (table.erase first.1) (MigrationPoint.nextRow hash page.last page.full page.rest) := by
  rcases before with ⟨copied, rows, left, others⟩
  have distinct := List.nodup_cons.mp rows.distinct
  apply at_nextRow copied.filled_erase
  · intro key row found other row' found' same
    rw [Ordered.get?_erase] at found found'
    split at found
    · cases found
    next unlike =>
      split at found'
      · cases found'
      next unlike' =>
        by_cases mine : (row.content hash).pair = (first.2.content hash).pair
        · have at_key := copied.both key row found mine
          have at_other := copied.both other row' found' (by rw [same, mine])
          simp only [List.mem_cons, unlike, unlike', List.not_mem_nil, or_false, false_or]
            at at_key at_other
          rw [at_key, at_other]
          exact List.mem_singleton.mpr rfl
        · exact others key row found mine other row' found' same
  · refine ⟨distinct.2, ?_⟩
    intro row row_mem
    rw [Ordered.get?_erase, if_neg, rows.stored row (List.mem_cons_of_mem _ row_mem)]
    intro same
    exact distinct.1 (same ▸ List.mem_map_of_mem row_mem)
  · intro key row found
    rw [Ordered.get?_erase] at found
    split at found
    · cases found
    next unlike =>
      rcases left key row found with placed | on_page | after
      · exact .inl placed
      · rcases List.mem_cons.mp on_page with same | on_page
        · exact absurd same unlike
        · exact .inr (.inl on_page)
      · exact .inr (.inr after)

end ScuffedCrew.PersonalMatches
