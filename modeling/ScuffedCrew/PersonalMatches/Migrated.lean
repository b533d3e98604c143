import ScuffedCrew.PersonalMatches.Exact

/-!
# Runs that are killed and started again

Runs of the migration may be killed after any statement.  The run that completes
leaves one row for each pair of the original table, on the key of the pair and
with the content of its keeper.
-/

namespace ScuffedCrew.PersonalMatches

open Rust Database StateMachine

abbrev MigrationStep := Step MigrationState MigrationEvent

variable {hash : Text → Text → Text → Instant → Text} {original : MatchTable}
  {state after : MigrationState} {steps : List MigrationStep}

/-- What holds between any two statements of any run. -/
structure Sound (hash : Text → Text → Text → Instant → Text) (original : MatchTable)
    (state : MigrationState) : Prop where
  tracks : Tracks hash original state.store.table
  indexed : state.store.indexUnique = true → AllPlaced state.store.table
  idle : state.store.indexUnique = false ∨ state.point = .readIndex ∨ state.point = .completed
  point : At hash state.store.table state.point

theorem Sound.unique_eq_false (sound : Sound hash original state)
    (unread : state.point ≠ .readIndex) (incomplete : state.point ≠ .completed) :
    state.store.indexUnique = false :=
  sound.idle.resolve_right fun either => either.elim unread incomplete

/-- A statement of a run in which the index is not unique. -/
theorem Sound.of_open {store : MatchStore} {point : MigrationPoint}
    (tracks : Tracks hash original store.table) (unindexed : store.indexUnique = false)
    (point_at : At hash store.table point) : Sound hash original ⟨store, point⟩ := by
  refine ⟨tracks, ?_, .inl unindexed, point_at⟩
  intro indexed
  rw [unindexed] at indexed
  cases indexed

theorem Sound.statement {groups : List (Text × Text)} {store : MatchStore} {point : MigrationPoint}
    (sound : Sound hash original state)
    (taken : state.point.step hash state.store groups = some (store, point)) :
    Sound hash original ⟨store, point⟩ := by
  rcases state with ⟨⟨table, indexUnique⟩, current⟩
  have tracks := sound.tracks
  have point_at := sound.point
  cases current with
  | readIndex =>
      rcases Prod.mk.inj (Option.some.inj taken) with ⟨rfl, rfl⟩
      split
      next indexed =>
        exact ⟨tracks, sound.indexed, .inr (.inr rfl), sound.indexed indexed⟩
      next unindexed => exact .of_open tracks (Bool.eq_false_iff.mpr unindexed) trivial
  | selectBlank previousFirst =>
      rcases Prod.mk.inj (Option.some.inj taken) with ⟨rfl, rfl⟩
      exact .of_open tracks (sound.unique_eq_false nofun nofun) at_afterSelectBlank
  | writeBlank previousFirst blank rest =>
      rcases Prod.mk.inj (Option.some.inj taken) with ⟨rfl, rfl⟩
      rcases point_at.stored blank (List.mem_cons_self ..) with ⟨row, found, is_blank, reads⟩
      exact .of_open (tracks.setSession found is_blank reads) (sound.unique_eq_false nofun nofun)
        (at_nextBlank (point_at.tail (DbPersonalMatch.setSession · (legacySessionId hash
          blank.memberId blank.hero blank.mapName blank.playedAt))))
  | selectGroups previousFirst =>
      simp only [MigrationPoint.step] at taken
      split at taken
      next page =>
        rcases Prod.mk.inj (Option.some.inj taken) with ⟨rfl, rfl⟩
        exact .of_open tracks (sound.unique_eq_false nofun nofun)
          (at_afterSelectGroups point_at page)
      next => cases taken
  | selectPage collapse start best =>
      rcases Prod.mk.inj (Option.some.inj taken) with ⟨rfl, rfl⟩
      exact .of_open tracks (sound.unique_eq_false nofun nofun) (at_afterPage point_at.1 point_at.2)
  | countGroup collapse winner =>
      rcases Prod.mk.inj (Option.some.inj taken) with ⟨rfl, rfl⟩
      exact .of_open tracks (sound.unique_eq_false nofun nofun) point_at
  | deleteLosers collapse winner =>
      rcases Prod.mk.inj (Option.some.inj taken) with ⟨rfl, rfl⟩
      exact .of_open (tracks.deleteLosers point_at.1 point_at.2) (sound.unique_eq_false nofun nofun)
        (winner_deleteLosers point_at.1 point_at.2).at_afterDeleteLosers
  | copyWinner collapse winner =>
      rcases Prod.mk.inj (Option.some.inj taken) with ⟨rfl, rfl⟩
      rcases point_at with ⟨sole, misplaced⟩
      have alone : Within hash table (winner.2.content hash).pair [winner.1] := by
        rw [sole.stands]
        exact sole.alone
      simp only [sole.group_eq]
      exact .of_open (tracks.copy sole.filled sole.stored alone misplaced)
        (sound.unique_eq_false nofun nofun) ⟨sole.copied misplaced, sole.stands⟩
  | deleteWinner collapse winner =>
      rcases Prod.mk.inj (Option.some.inj taken) with ⟨rfl, rfl⟩
      rcases point_at with ⟨copied, -⟩
      rcases copied.twin with ⟨twin, found, like⟩
      exact .of_open (tracks.erase copied.stored found like copied.both copied.misplaced)
        (sound.unique_eq_false nofun nofun) (at_nextGroup copied.filled_erase)
  | updateWinner collapse winner => exact absurd point_at id
  | selectRows cursor =>
      rcases Prod.mk.inj (Option.some.inj taken) with ⟨rfl, rfl⟩
      exact .of_open tracks (sound.unique_eq_false nofun nofun)
        (at_afterSelectRows point_at.1 point_at.2.1 point_at.2.2)
  | updateRow row page => exact absurd point_at id
  | copyRow row page =>
      rcases Prod.mk.inj (Option.some.inj taken) with ⟨rfl, rfl⟩
      rcases point_at with ⟨filled, single, rows, left, misplaced⟩
      have stored := rows.stored row (List.mem_cons_self ..)
      have session := filled _ _ stored
      simp only [desiredKey_of_filled session, DbPersonalMatch.effectiveSession_of_filled session]
      exact .of_open (tracks.copy filled stored (single _ _ stored) misplaced)
        (sound.unique_eq_false nofun nofun)
        (at_deleteRow tracks.keyed filled single rows left misplaced)
  | deleteRow row page =>
      rcases Prod.mk.inj (Option.some.inj taken) with ⟨rfl, rfl⟩
      have copied := point_at.1
      rcases copied.twin with ⟨twin, found, like⟩
      exact .of_open (tracks.erase copied.stored found like copied.both copied.misplaced)
        (sound.unique_eq_false nofun nofun) (at_afterDeleteRow point_at)
  | removeIndex =>
      rcases Prod.mk.inj (Option.some.inj taken) with ⟨rfl, rfl⟩
      exact .of_open tracks rfl point_at
  | defineIndex =>
      simp only [MigrationPoint.step] at taken
      split at taken <;> rcases Prod.mk.inj (Option.some.inj taken) with ⟨rfl, rfl⟩
      · exact ⟨tracks, fun _ => point_at, .inr (.inr rfl), point_at⟩
      · exact .of_open tracks (sound.unique_eq_false nofun nofun) trivial
  | completed => cases taken
  | failed error => cases taken

theorem Sound.step {event : MigrationEvent} (sound : Sound hash original state)
    (taken : (migrations hash).next state event = some after) : Sound hash original after := by
  cases event with
  | statement groups =>
      rcases Option.map_eq_some_iff.mp taken with ⟨⟨store, point⟩, made, rfl⟩
      exact sound.statement made
  | restart =>
      rcases Option.some.inj taken with rfl
      exact ⟨sound.tracks, sound.indexed, .inr (.inl rfl), trivial⟩

/-! ## The migrated table -/

/-- There is one row for each pair of the original table, on the key of the pair, and it reads like
the keeper of the pair. -/
structure IsMigrated (hash : Text → Text → Text → Instant → Text) (original final : MatchTable) :
    Prop where
  placed : ∀ key row, final.get? key = some row → row.sessionId ≠ [] ∧
    key = personalMatchRecordKey row.memberId row.sessionId ∧
      Holds hash original (row.memberId, row.sessionId)
  kept : ∀ pair, Holds hash original pair → ∃ id keeper row, Keeper hash original pair id keeper ∧
    final.get? (personalMatchRecordKey pair.1 pair.2) = some row ∧
      row.toPersonalMatch = keeper.content hash

theorem Sound.isMigrated (sound : Sound hash original state)
    (completed : state.point = .completed) : IsMigrated hash original state.store.table := by
  have all : AllPlaced state.store.table := by
    have point := sound.point
    rw [completed] at point
    exact point
  constructor
  · intro key row found
    have session := all.filled key row found
    refine ⟨session, all.placed key row found, ?_⟩
    exact (sound.tracks.pairs _).mpr ⟨key, row, found, pair_of_filled session⟩
  · intro pair holds
    rcases (sound.tracks.pairs pair).mp holds with ⟨key, row, found, rfl⟩
    have session := all.filled key row found
    have kept : Keeper hash state.store.table (row.content hash).pair key row := by
      refine ⟨found, rfl, ?_⟩
      intro other row' found' stands differs
      have session' := all.filled other row' found'
      rw [pair_of_filled session', pair_of_filled session] at stands
      rcases Prod.mk.inj stands with ⟨member_eq, session_eq⟩
      exact absurd (by rw [all.placed other row' found', member_eq, session_eq,
        ← all.placed key row found]) differs
    rcases sound.tracks.keeper _ key row kept with ⟨id, keeper, kept, reads⟩
    refine ⟨id, keeper, row, kept, ?_, ?_⟩
    · rw [pair_of_filled session, ← all.placed key row found, found]
    · rw [← DbPersonalMatch.content_of_filled session, reads]

/-- After any runs that were killed after any of their statements, a run that completes leaves the
table migrated. -/
theorem migration_exact {store : MatchStore} (keyed : ∀ key row, original.get? key = some row →
      ∀ member session, key = personalMatchRecordKey member session →
        row.memberId = member ∧ row.sessionId = session)
    (run : (migrations hash).Run ⟨⟨original, false⟩, .readIndex⟩ steps ⟨store, .completed⟩) :
    IsMigrated hash original store.table := by
  have start : Sound hash original ⟨⟨original, false⟩, .readIndex⟩ := by
    refine ⟨.refl ?_, nofun, .inl rfl, trivial⟩
    intro key row found member session _ _ at_key
    exact keyed key row found member session at_key
  have sound : Sound hash original ⟨store, .completed⟩ :=
    run.invariant (Sound hash original) start fun taken sound => sound.step taken
  exact sound.isMigrated rfl

/-! ## One game uploaded twice -/

def game (uploadedAt : Instant) : DbPersonalMatch where
  memberId := "kiri".toList
  fits := by decide
  sessionId := "night-1".toList
  hero := "Ana".toList
  mapName := "Rialto".toList
  gameMode := "Escort".toList
  role := "support".toList
  outcome := "victory".toList
  elims := 14
  deaths := 3
  assists := 20
  damage := 4100
  healing := 9800
  mitigation := 0
  playedAt := 0
  uploadedAt
  edited := false
  recognizer := none
  nameRecognizer := none
  suspectFields := none

def uploadedTwice : MatchTable where
  rows := [("a".toList, game 1), ("b".toList, game 2)]
  sorted := by decide

/-- The statements of a run, and what the database answers the first question for groups. -/
def statements (count : ℕ) : List MigrationEvent :=
  [.statement [], .statement [], .statement [("kiri".toList, "night-1".toList)]] ++
    List.replicate count (.statement [])

/-- The first run is killed when the keeper has been copied to its key, and before the old row is
deleted. -/
theorem killed_between_copy_and_delete : ∃ final,
    (migrations fun _ _ _ _ => []).exec ⟨⟨uploadedTwice, false⟩, .readIndex⟩
        (statements 4 ++ [.restart] ++ statements 7) = some final ∧
      final.point = .completed ∧
        IsMigrated (fun _ _ _ _ => []) uploadedTwice final.store.table := by
  have run : (migrations fun _ _ _ _ => []).Run _ ((migrations fun _ _ _ _ => []).stepsOf
      ⟨⟨uploadedTwice, false⟩, .readIndex⟩ (statements 4 ++ [.restart] ++ statements 7)) _ :=
    .of_exec rfl
  refine ⟨_, rfl, rfl, migration_exact ?_ run⟩
  intro key row found member session at_key
  exfalso
  have row_mem := Ordered.mem_rows_iff.mpr found
  rcases List.mem_pair.mp row_mem with same | same
  · rw [(Prod.mk.inj same).1] at at_key
    cases congrArg List.head? at_key
  · rw [(Prod.mk.inj same).1] at at_key
    cases congrArg List.head? at_key

end ScuffedCrew.PersonalMatches
