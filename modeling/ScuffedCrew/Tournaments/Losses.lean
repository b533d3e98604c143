import ScuffedCrew.Tournaments.SingleElim

/-!
# Who has lost

A participant loses a match when it is reported with them in it and someone
else as its winner.  A single elimination tournament in which every report
named a match with both its participants ends with one participant who has not
lost and is the winner of the final, and everyone else has lost once.  A report
of a match that is still waiting for its other participant breaks this: whoever
comes later enters a decided match.
-/

namespace ScuffedCrew.Tournaments

open Rust Database StateMachine

def TournamentMatch.Has (row : TournamentMatch) (participantId : Text) : Prop :=
  row.participantAId = some participantId ∨ row.participantBId = some participantId

instance (row : TournamentMatch) (participantId : Text) : Decidable (row.Has participantId) :=
  inferInstanceAs (Decidable (_ ∨ _))

namespace ReportStep

/-- The match as it stood when it was reported. -/
def row (step : ReportStep) : TournamentMatch := step.before.bracket.row step.event.matchId

/-- Both participants were in the match. -/
def Full (step : ReportStep) : Prop :=
  step.row.participantAId ≠ none ∧ step.row.participantBId ≠ none

instance (step : ReportStep) : Decidable step.Full := inferInstanceAs (Decidable (_ ∧ _))

def Loses (step : ReportStep) (participantId : Text) : Prop :=
  step.row.Has participantId ∧ step.event.winner ≠ participantId

instance (step : ReportStep) (participantId : Text) : Decidable (step.Loses participantId) :=
  inferInstanceAs (Decidable (_ ∧ _))

end ReportStep

def lostMatches (steps : List ReportStep) (participantId : Text) : List MatchId :=
  (steps.filter fun step => ReportStep.Loses step participantId).map fun step => step.event.matchId

/-- The final of a single elimination tournament of so many participants. -/
def finalId (count : ℕ) : MatchId := mainId (Nat.log2 (nextPowerOfTwo count) - 1) 0

/-- What a single elimination tournament decides. -/
structure SoundResult (ids : List Text) (steps : List ReportStep) (bracket : Matches) : Prop where
  champion : ∃ champion ∈ ids, (bracket.row (finalId ids.length)).winnerId = some champion ∧
    lostMatches steps champion = [] ∧
    ∀ participantId ∈ ids, participantId ≠ champion → (lostMatches steps participantId).length = 1
  once : ∀ key ∈ bracket.keys, ∀ key' ∈ bracket.keys, key.round = key'.round →
    ∀ slot slot' participantId, (bracket.row key).participant slot = some participantId →
      (bracket.row key').participant slot' = some participantId → key = key' ∧ slot = slot'

theorem has_iff {row : TournamentMatch} {participantId : Text} :
    row.Has participantId ↔ ∃ slot, row.participant slot = some participantId := by
  constructor
  · rintro (first | second)
    · exact ⟨.a, first⟩
    · exact ⟨.b, second⟩
  · rintro ⟨slot, present⟩
    cases slot with
    | a => exact .inl present
    | b => exact .inr present

theorem full_iff {step : ReportStep} :
    step.Full ↔ ∀ slot, (step.row.participant slot).isSome = true := by
  simp only [ReportStep.Full, ← Option.isSome_iff_ne_none]
  constructor
  · intro full slot
    cases slot with
    | a => exact full.1
    | b => exact full.2
  · intro full
    exact ⟨full .a, full .b⟩

theorem mem_lostMatches {steps : List ReportStep} {participantId : Text} {key : MatchId} :
    key ∈ lostMatches steps participantId ↔
      ∃ step ∈ steps, ReportStep.Loses step participantId ∧ step.event.matchId = key := by
  simp [lostMatches, and_assoc]

/-! ## What the reports of a run leave in the bracket -/

/-- A reported match keeps its participants and its winner, and is not reported again. -/
structure Recorded (steps : List ReportStep) (bracket : Matches) : Prop where
  stored : ∀ step ∈ steps, step.event.matchId ∈ bracket.keys
  decided : ∀ step ∈ steps, (bracket.row step.event.matchId).status = .completed ∧
    (bracket.row step.event.matchId).winnerId = some step.event.winner
  kept : ∀ step ∈ steps, ∀ slot participantId,
    (ReportStep.row step).participant slot = some participantId →
      (bracket.row step.event.matchId).participant slot = some participantId
  distinct : (steps.map fun step => step.event.matchId).Nodup
  reported : ∀ key ∈ bracket.keys, (bracket.row key).status = .completed →
    ∃ step ∈ steps, step.event.matchId = key

theorem Recorded.snoc {steps : List ReportStep} {tournament after : Tournament}
    {report : MatchReport} (recorded : Recorded steps tournament.bracket)
    (reported : Reported tournament.bracket after.bracket report.matchId report.winner)
    (stays : ∀ key slot participantId,
      (tournament.bracket.row key).participant slot = some participantId →
        (after.bracket.row key).participant slot = some participantId) :
    Recorded (steps ++ [⟨tournament, report, after⟩]) after.bracket where
  stored := by
    intro step step_mem
    rw [reported.keys]
    rcases List.mem_append.mp step_mem with earlier | last
    · exact recorded.stored step earlier
    · rcases List.mem_singleton.mp last with rfl
      exact reported.mem
  decided := by
    intro step step_mem
    rcases List.mem_append.mp step_mem with earlier | last
    · rcases recorded.decided step earlier with ⟨completed, won⟩
      have differs : step.event.matchId ≠ report.matchId := by
        intro same
        rw [same, reported.pending] at completed
        cases completed
      rw [(reported.row_of_ne differs).1, (reported.row_of_ne differs).2]
      exact ⟨completed, won⟩
    · rcases List.mem_singleton.mp last with rfl
      exact ⟨reported.completed, reported.winnerId_self⟩
  kept := by
    intro step step_mem slot participantId present
    rcases List.mem_append.mp step_mem with earlier | last
    · exact stays _ _ _ (recorded.kept step earlier slot participantId present)
    · rcases List.mem_singleton.mp last with rfl
      exact stays _ _ _ present
  distinct := by
    rw [List.map_append, List.nodup_append]
    refine ⟨recorded.distinct, by simp, ?_⟩
    intro key key_mem key' key'_mem same
    rcases List.mem_map.mp key_mem with ⟨step, step_mem, rfl⟩
    obtain rfl : key' = report.matchId := by simpa using key'_mem
    have completed := (recorded.decided step step_mem).1
    rw [same, reported.pending] at completed
    cases completed
  reported := by
    intro key key_mem completed
    by_cases same : key = report.matchId
    · exact ⟨⟨tournament, report, after⟩, by simp, same.symm⟩
    · rw [reported.keys] at key_mem
      rw [(reported.row_of_ne same).1] at completed
      rcases recorded.reported key key_mem completed with ⟨step, step_mem, at_key⟩
      exact ⟨step, List.mem_append_left _ step_mem, at_key⟩

namespace SingleElim

variable {half : ℕ} {tournamentId : Text} {ids : List Text} {bracket : Matches}
  {participantId : Text} {slot slot' : Slot} {round position round' position' : ℕ}

theorem place_eq (single : SingleElim half tournamentId ids bracket)
    (fits : ids.length ≤ 2 ^ (half + 1)) (distinct : ids.Nodup)
    (mem : mainId round position ∈ bracket.keys) (mem' : mainId round position' ∈ bracket.keys)
    (present : (bracket.row (mainId round position)).participant slot = some participantId)
    (present' : (bracket.row (mainId round position')).participant slot' = some participantId) :
    position = position' ∧ slot = slot' := by
  rcases single.placed round position mem slot participantId present with
    ⟨entry, inside, at_entry, over_entry⟩
  rcases single.placed round position' mem' slot' participantId present' with
    ⟨entry', inside', at_entry', over_entry'⟩
  obtain rfl := positioned_inj fits distinct inside inside' at_entry at_entry'
  have side := slot.index_lt
  have side' := slot'.index_lt
  refine ⟨by omega, ?_⟩
  have same : slot.index = slot'.index := by omega
  cases slot <;> cases slot' <;> first | rfl | cases same

theorem came_from (single : SingleElim half tournamentId ids bracket)
    (mem : mainId (round + 1) position ∈ bracket.keys)
    (present : (bracket.row (mainId (round + 1) position)).participant slot = some participantId) :
    mainId round (2 * position + slot.index) ∈ bracket.keys ∧
      (bracket.row (mainId round (2 * position + slot.index))).advances = some participantId ∧
      (bracket.row (mainId round (2 * position + slot.index))).Has participantId := by
  rcases single.feeder mem slot with ⟨feeder_mem, leads⟩
  have advances : (bracket.row (mainId round (2 * position + slot.index))).advances =
      some participantId := (single.fed _ feeder_mem _ _ leads).symm.trans present
  refine ⟨feeder_mem, advances, has_iff.mpr ?_⟩
  rcases TournamentMatch.of_advances advances with ⟨completed, won⟩ | ⟨-, entered⟩
  · rcases single.winner _ feeder_mem completed with ⟨source, winner, won', entered⟩
    obtain rfl := Option.some.inj (won'.symm.trans won)
    exact ⟨source, entered⟩
  · exact entered

theorem advances_of_later (single : SingleElim half tournamentId ids bracket)
    (fits : ids.length ≤ 2 ^ (half + 1)) (distinct : ids.Nodup) (earlier : round' < round)
    (mem : mainId round position ∈ bracket.keys) (mem' : mainId round' position' ∈ bracket.keys)
    (present : (bracket.row (mainId round position)).Has participantId)
    (present' : (bracket.row (mainId round' position')).Has participantId) :
    (bracket.row (mainId round' position')).advances = some participantId := by
  induction round generalizing position with
  | zero => omega
  | succ round ih =>
      rcases has_iff.mp present with ⟨slot, at_slot⟩
      rcases single.came_from mem at_slot with ⟨feeder_mem, advances, below⟩
      rcases Nat.lt_succ_iff_lt_or_eq.mp earlier with further | rfl
      · exact ih further feeder_mem below
      · rcases has_iff.mp below with ⟨source, at_source⟩
        rcases has_iff.mp present' with ⟨source', at_source'⟩
        rcases single.place_eq fits distinct feeder_mem mem' at_source at_source' with ⟨rfl, -⟩
        exact advances

theorem first_entered (single : SingleElim half tournamentId ids bracket)
    (fits : ids.length ≤ 2 ^ (half + 1)) (more : 2 ^ half < ids.length)
    (below : position < 2 ^ half) :
    ∃ participantId, (bracket.row (mainId 0 position)).Has participantId := by
  rcases exists_entered fits more below with ⟨index, side, filled⟩
  rcases Slot.exists_index side with ⟨slot, rfl⟩
  rcases Option.isSome_iff_exists.mp filled with ⟨participantId, at_slot⟩
  exact ⟨participantId, has_iff.mpr ⟨slot, (single.entered position below slot).trans at_slot⟩⟩

theorem first_full_of_two (single : SingleElim 0 tournamentId ids bracket) (two : ids.length = 2) :
    (bracket.row (mainId 0 0)).status ≠ .bye := by
  intro bye
  rcases single.halfEmpty 0 (by omega) bye with ⟨slot, empty⟩
  have side := slot.index_lt
  rcases @exists_seed 1 slot.index side with ⟨seed, seed_lt, at_slot⟩
  have filled := @positioned_seedPosition ids 1 seed (by omega) seed_lt
  rw [single.entered 0 (by omega), show 2 * 0 + slot.index = seedPosition 1 seed by omega, filled,
    List.getElem?_eq_none_iff] at empty
  omega

end SingleElim

/-! ## The end of a tournament -/

section Finished

variable {half : ℕ} {tournamentId : Text} {ids : List Text} {steps : List ReportStep}
  {bracket : Matches} {participantId : Text} {key key' : MatchId} {round position : ℕ}

theorem of_mem_lostMatches (single : SingleElim half tournamentId ids bracket)
    (recorded : Recorded steps bracket) (lost : key ∈ lostMatches steps participantId) :
    ∃ round position, key = mainId round position ∧ key ∈ bracket.keys ∧
      (bracket.row key).Has participantId ∧ (bracket.row key).advances ≠ some participantId := by
  rcases mem_lostMatches.mp lost with ⟨step, step_mem, ⟨has, other⟩, rfl⟩
  rcases (single.keys _).mp (recorded.stored step step_mem) with ⟨round, position, at_key, -⟩
  rcases has_iff.mp has with ⟨slot, present⟩
  refine ⟨round, position, at_key, recorded.stored step step_mem,
    has_iff.mpr ⟨slot, recorded.kept step step_mem slot _ present⟩, ?_⟩
  rcases recorded.decided step step_mem with ⟨completed, won⟩
  simpa only [TournamentMatch.advances, completed, won, ne_eq, Option.some.injEq] using other

theorem eq_of_mem_lostMatches (single : SingleElim half tournamentId ids bracket)
    (recorded : Recorded steps bracket) (fits : ids.length ≤ 2 ^ (half + 1)) (distinct : ids.Nodup)
    (lost : key ∈ lostMatches steps participantId) (lost' : key' ∈ lostMatches steps participantId) :
    key = key' := by
  rcases of_mem_lostMatches single recorded lost with ⟨round, position, rfl, mem, has, stays⟩
  rcases of_mem_lostMatches single recorded lost' with ⟨round', position', rfl, mem', has', stays'⟩
  rcases Nat.lt_trichotomy round round' with earlier | rfl | later
  · exact absurd (single.advances_of_later fits distinct earlier mem' mem has' has) stays
  · rcases has_iff.mp has with ⟨slot, present⟩
    rcases has_iff.mp has' with ⟨slot', present'⟩
    rw [(single.place_eq fits distinct mem mem' present present').1]
  · exact absurd (single.advances_of_later fits distinct later mem mem' has has') stays'

theorem lostMatches_le_one (single : SingleElim half tournamentId ids bracket)
    (recorded : Recorded steps bracket) (fits : ids.length ≤ 2 ^ (half + 1)) (distinct : ids.Nodup) :
    (lostMatches steps participantId).length ≤ 1 := by
  have nodup : (lostMatches steps participantId).Nodup :=
    recorded.distinct.sublist (List.filter_sublist.map _)
  match lost : lostMatches steps participantId with
  | [] => exact Nat.zero_le _
  | [key] => exact le_rfl
  | key :: key' :: rest =>
      rw [lost] at nodup
      have same : key = key' := eq_of_mem_lostMatches single recorded fits distinct
        (show key ∈ lostMatches steps participantId by simp [lost])
        (show key' ∈ lostMatches steps participantId by simp [lost])
      simp [same] at nodup

/-- When every reported match was full, whoever is in a decided match lost it or won it. -/
theorem mem_lostMatches_of_full (recorded : Recorded steps bracket)
    (full : ∀ step ∈ steps, ReportStep.Full step) (mem : key ∈ bracket.keys)
    (completed : (bracket.row key).status = .completed) (has : (bracket.row key).Has participantId)
    (other : (bracket.row key).winnerId ≠ some participantId) :
    key ∈ lostMatches steps participantId := by
  rcases recorded.reported key mem completed with ⟨step, step_mem, rfl⟩
  rcases has_iff.mp has with ⟨slot, present⟩
  refine mem_lostMatches.mpr ⟨step, step_mem, ⟨has_iff.mpr ⟨slot, ?_⟩, ?_⟩, rfl⟩
  · rcases Option.isSome_iff_exists.mp (full_iff.mp (full step step_mem) slot) with ⟨before, was⟩
    have kept := recorded.kept step step_mem slot before was
    rw [was, ← kept, present]
  · intro same
    rw [(recorded.decided step step_mem).2, same] at other
    exact other rfl

/-- A participant who has not lost reaches every round. -/
theorem reaches_of_full (single : SingleElim half tournamentId ids bracket)
    (recorded : Recorded steps bracket) (fits : ids.length ≤ 2 ^ (half + 1))
    (done : ∀ key ∈ bracket.keys, (bracket.row key).isDone = true)
    (full : ∀ step ∈ steps, ReportStep.Full step) (entered : participantId ∈ ids)
    (unbeaten : lostMatches steps participantId = []) :
    ∀ round ≤ half, ∃ position, mainId round position ∈ bracket.keys ∧
      (bracket.row (mainId round position)).Has participantId := by
  intro round
  induction round with
  | zero =>
      intro _
      rcases exists_position fits entered with ⟨entry, inside, at_entry⟩
      have double := Nat.pow_succ (n := 2) (m := half)
      have below : entry / 2 < 2 ^ half := by omega
      refine ⟨entry / 2, single.mem_keys.mpr ⟨Nat.zero_le _, below⟩,
        has_iff.mpr ⟨pairSlot entry, ?_⟩⟩
      rw [single.entered _ below, index_pairSlot, Nat.div_add_mod, at_entry]
  | succ round ih =>
      intro later
      rcases ih (by omega) with ⟨position, mem, has⟩
      rcases single.mem_keys.mp mem with ⟨-, below⟩
      have advances : (bracket.row (mainId round position)).advances = some participantId := by
        rcases Bool.or_eq_true_iff.mp (done _ mem) with completed | bye
        · have completed := eq_of_beq completed
          by_contra stays
          have lost : mainId round position ∈ lostMatches steps participantId := by
            refine mem_lostMatches_of_full recorded full mem completed has ?_
            simpa only [TournamentMatch.advances, completed] using stays
          simp [unbeaten] at lost
        · have bye := eq_of_beq bye
          obtain rfl := single.bye _ _ bye
          rcases single.halfEmpty position below bye with ⟨slot, empty⟩
          simp only [TournamentMatch.advances, bye]
          cases slot with
          | a =>
              have empty_a : (bracket.row (mainId 0 position)).participantAId = none := empty
              rcases has with first | second
              · rw [empty_a] at first
                cases first
              · rw [empty_a, Option.none_or, second]
          | b =>
              have empty_b : (bracket.row (mainId 0 position)).participantBId = none := empty
              rcases has with first | second
              · rw [first, Option.some_or]
              · rw [empty_b] at second
                cases second
      have leads := (single.next_eq_some mem).mpr ⟨by omega, rfl, (index_pairSlot position).symm⟩
      refine ⟨position / 2, (single.wired.next_mem _ mem _ _ leads).1,
        has_iff.mpr ⟨pairSlot position, ?_⟩⟩
      rw [single.fed _ mem _ _ leads, advances]

theorem final_decided (single : SingleElim half tournamentId ids bracket)
    (fits : ids.length ≤ 2 ^ (half + 1)) (more : 2 ^ half < ids.length)
    (done : ∀ key ∈ bracket.keys, (bracket.row key).isDone = true) :
    mainId half 0 ∈ bracket.keys ∧ (bracket.row (mainId half 0)).status = .completed ∧
      ∃ champion, (bracket.row (mainId half 0)).winnerId = some champion ∧
        (bracket.row (mainId half 0)).Has champion := by
  have mem : mainId half 0 ∈ bracket.keys :=
    single.mem_keys.mpr ⟨le_rfl, Nat.two_pow_pos _⟩
  have completed : (bracket.row (mainId half 0)).status = .completed := by
    rcases Bool.or_eq_true_iff.mp (done _ mem) with completed | bye
    · exact eq_of_beq completed
    · obtain rfl := single.bye _ _ (eq_of_beq bye)
      exact absurd (eq_of_beq bye) (single.first_full_of_two (by omega))
  rcases single.winner _ mem completed with ⟨slot, champion, won, present⟩
  exact ⟨mem, completed, champion, won, has_iff.mpr ⟨slot, present⟩⟩

theorem soundResult_of_full (single : SingleElim half tournamentId ids bracket)
    (recorded : Recorded steps bracket) (distinct : ids.Nodup)
    (size_eq : nextPowerOfTwo ids.length = 2 ^ (half + 1)) (fits : ids.length ≤ 2 ^ (half + 1))
    (more : 2 ^ half < ids.length)
    (done : ∀ key ∈ bracket.keys, (bracket.row key).isDone = true)
    (full : ∀ step ∈ steps, ReportStep.Full step) : SoundResult ids steps bracket where
  champion := by
    have final_eq : finalId ids.length = mainId half 0 := by
      rw [finalId, size_eq, log2_two_pow, Nat.add_sub_cancel]
    rcases final_decided single fits more done with ⟨mem, completed, champion, won, has⟩
    have advances : (bracket.row (mainId half 0)).advances = some champion := by
      simp only [TournamentMatch.advances, completed, won]
    rcases has_iff.mp has with ⟨slot, present⟩
    rcases single.placed half 0 mem slot champion present with ⟨entry, inside, at_entry, -⟩
    rcases exists_seed_of_positioned fits inside at_entry with ⟨seed, -, -, at_seed⟩
    refine ⟨champion, List.mem_of_getElem? at_seed, by rw [final_eq, won], ?_, ?_⟩
    · rw [List.eq_nil_iff_forall_not_mem]
      intro key lost
      rcases of_mem_lostMatches single recorded lost with ⟨round, position, rfl, mem', has', stays⟩
      rcases Nat.lt_or_eq_of_le (single.mem_keys.mp mem').1 with earlier | rfl
      · exact stays (single.advances_of_later fits distinct earlier mem mem' has has')
      · rcases has_iff.mp has' with ⟨slot', present'⟩
        rcases single.place_eq fits distinct mem mem' present present' with ⟨rfl, -⟩
        exact stays advances
    · intro participantId entered other
      have some_lost : lostMatches steps participantId ≠ [] := by
        intro unbeaten
        rcases reaches_of_full single recorded fits done full entered unbeaten half le_rfl with
          ⟨position, mem', has'⟩
        obtain rfl : position = 0 := by
          have below := (single.mem_keys.mp mem').2
          rw [Nat.sub_self] at below
          omega
        have lost : mainId half 0 ∈ lostMatches steps participantId := by
          refine mem_lostMatches_of_full recorded full mem completed has' ?_
          rw [won]
          exact fun same => other (Option.some.inj same).symm
        simp [unbeaten] at lost
      have most := @lostMatches_le_one half tournamentId ids steps bracket participantId single
        recorded fits distinct
      have least := List.length_pos_iff.mpr some_lost
      omega
  once := by
    intro key key_mem key' key'_mem same_round slot slot' participantId present present'
    rcases (single.keys key).mp key_mem with ⟨round, position, rfl, -⟩
    rcases (single.keys key').mp key'_mem with ⟨round', position', rfl, -⟩
    obtain rfl : round = round' := by simpa [mainId] using same_round
    rcases single.place_eq fits distinct key_mem key'_mem present present' with ⟨rfl, rfl⟩
    exact ⟨rfl, rfl⟩

theorem bye_iff_missing (single : SingleElim half tournamentId ids bracket)
    (below : position < 2 ^ half) :
    (bracket.row (mainId 0 position)).status = .bye ↔
      ∃ slot : Slot, positioned ids (half + 1) (2 * position + slot.index) = none := by
  constructor
  · intro bye
    rcases single.halfEmpty position below bye with ⟨slot, empty⟩
    exact ⟨slot, (single.entered position below slot).symm.trans empty⟩
  · rintro ⟨slot, missing⟩
    refine (single.opened position below).resolve_right ?_
    intro full
    have filled := full slot
    rw [single.entered position below, missing] at filled
    cases filled

theorem bye_advances (single : SingleElim half tournamentId ids bracket)
    (fits : ids.length ≤ 2 ^ (half + 1)) (more : 2 ^ half < ids.length) (below : position < 2 ^ half)
    (bye : (bracket.row (mainId 0 position)).status = .bye) :
    (bracket.row (mainId 0 position)).advances ≠ none := by
  rcases single.first_entered fits more below with ⟨participantId, first | second⟩
  · simp [TournamentMatch.advances, bye, first]
  · simp [TournamentMatch.advances, bye, second]

/-- A match reported before its other participant has come is not lost by whoever comes. -/
theorem exists_late (single : SingleElim half tournamentId ids bracket)
    (recorded : Recorded steps bracket) (fits : ids.length ≤ 2 ^ (half + 1))
    (more : 2 ^ half < ids.length)
    (done : ∀ key ∈ bracket.keys, (bracket.row key).isDone = true) {step : ReportStep}
    (step_mem : step ∈ steps) (before : SingleElim half tournamentId ids step.before.bracket)
    (pending : step.row.status = .pending) {slot : Slot}
    (empty : step.row.participant slot = none) :
    ∃ late, (bracket.row step.event.matchId).participant slot = some late := by
  have mem := recorded.stored step step_mem
  rcases (single.keys _).mp mem with ⟨round, position, at_key, bounds⟩
  have mem_before : mainId round position ∈ step.before.bracket.keys := before.mem_keys.mpr bounds
  rw [ReportStep.row, at_key] at pending empty
  rw [at_key] at mem ⊢
  cases round with
  | zero =>
      rcases before.opened position bounds.2 with bye | full
      · rw [pending] at bye
        cases bye
      · have filled := full slot
        rw [empty] at filled
        cases filled
  | succ round =>
      rcases single.feeder mem slot with ⟨feeder_mem, leads⟩
      rcases before.feeder mem_before slot with ⟨feeder_mem_before, leads_before⟩
      rw [single.fed _ feeder_mem _ _ leads]
      rcases Bool.or_eq_true_iff.mp (done _ feeder_mem) with completed | bye
      · rcases single.winner _ feeder_mem (eq_of_beq completed) with ⟨-, winner, won, -⟩
        exact ⟨winner, by simp only [TournamentMatch.advances, eq_of_beq completed, won]⟩
      · have bye := eq_of_beq bye
        obtain rfl := single.bye _ _ bye
        have below := (single.mem_keys.mp feeder_mem).2
        have bye_before := (bye_iff_missing before below).mpr ((bye_iff_missing single below).mp bye)
        have sent := before.fed _ feeder_mem_before _ _ leads_before
        rw [empty] at sent
        exact absurd sent.symm (bye_advances before fits more below bye_before)

/-- A tournament with a sound result has no report of a match that was not full: whoever came too
late for it has lost nothing. -/
theorem full_of_soundResult (single : SingleElim half tournamentId ids bracket)
    (recorded : Recorded steps bracket) (distinct : ids.Nodup)
    (size_eq : nextPowerOfTwo ids.length = 2 ^ (half + 1)) (fits : ids.length ≤ 2 ^ (half + 1))
    (more : 2 ^ half < ids.length)
    (done : ∀ key ∈ bracket.keys, (bracket.row key).isDone = true)
    (sound : SoundResult ids steps bracket) {step : ReportStep} (step_mem : step ∈ steps)
    (before : SingleElim half tournamentId ids step.before.bracket)
    (reported : Reported step.before.bracket step.after.bracket step.event.matchId
      step.event.winner) : step.Full := by
  rw [full_iff]
  intro slot
  by_contra missing
  have empty : step.row.participant slot = none := by simpa using missing
  rcases exists_late single recorded fits more done step_mem before reported.pending empty with
    ⟨late, came⟩
  have mem := recorded.stored step step_mem
  rcases (single.keys _).mp mem with ⟨round, position, at_key, bounds⟩
  rw [at_key] at came mem
  have absent : ¬step.row.Has late := by
    intro has
    rcases has_iff.mp has with ⟨slot', present⟩
    have kept := recorded.kept step step_mem slot' late present
    rw [at_key] at kept
    rw [(single.place_eq fits distinct mem mem kept came).2, empty] at present
    cases present
  have stays : (bracket.row (mainId round position)).advances ≠ some late := by
    rcases recorded.decided step step_mem with ⟨completed, won⟩
    rw [at_key] at completed won
    simp only [TournamentMatch.advances, completed, won, ne_eq, Option.some.injEq]
    rintro rfl
    exact absent (has_iff.mpr reported.present)
  have has : (bracket.row (mainId round position)).Has late := has_iff.mpr ⟨slot, came⟩
  have unbeaten : lostMatches steps late = [] := by
    rw [List.eq_nil_iff_forall_not_mem]
    intro key lost
    rcases of_mem_lostMatches single recorded lost with ⟨round', position', rfl, mem', has', stays'⟩
    rcases Nat.lt_trichotomy round' round with earlier | rfl | later
    · exact stays' (single.advances_of_later fits distinct earlier mem mem' has has')
    · rcases has_iff.mp has' with ⟨slot', present'⟩
      rcases single.place_eq fits distinct mem mem' came present' with ⟨rfl, -⟩
      rcases mem_lostMatches.mp lost with ⟨other, other_mem, ⟨present, -⟩, same⟩
      obtain rfl := List.inj_on_of_nodup_map recorded.distinct other_mem step_mem
        (same.trans at_key.symm)
      exact absent present
    · exact stays (single.advances_of_later fits distinct later mem' mem has' has)
  rcases sound.champion with ⟨champion, -, won, -, others⟩
  rw [finalId, size_eq, log2_two_pow, Nat.add_sub_cancel] at won
  rcases final_decided single fits more done with ⟨final_mem, completed, champion', won', in_final⟩
  obtain rfl := Option.some.inj (won.symm.trans won')
  have entered : late ∈ ids := by
    rcases single.placed round position mem slot late came with ⟨entry, inside, at_entry, -⟩
    rcases exists_seed_of_positioned fits inside at_entry with ⟨seed, -, -, at_seed⟩
    exact List.mem_of_getElem? at_seed
  obtain rfl : late = champion := by
    by_contra other
    have one := others late entered other
    rw [unbeaten] at one
    cases one
  rcases Nat.lt_or_eq_of_le bounds.1 with earlier | rfl
  · exact stays (single.advances_of_later fits distinct earlier final_mem mem in_final has)
  · obtain rfl : position = 0 := by
      have below := bounds.2
      rw [Nat.sub_self] at below
      omega
    exact stays (by simp only [TournamentMatch.advances, completed, won])

end Finished

/-! ## Runs -/

section Runs

variable {half : ℕ} {start final : Tournament} {ids : List Text} {steps : List ReportStep}

theorem singleElim_run (single : SingleElim half start.id ids start.bracket)
    (fresh : ∀ key ∈ start.bracket.keys, (start.bracket.row key).status ≠ .completed)
    (run : reporting.Run start steps final) :
    final.id = start.id ∧ SingleElim half start.id ids final.bracket ∧
      Recorded steps final.bracket := by
  refine run.history (fun steps state => state.id = start.id ∧
    SingleElim half start.id ids state.bracket ∧ Recorded steps state.bracket) ?_ ?_
  · exact ⟨rfl, single, by simp, by simp, by simp, by simp, fun key key_mem completed =>
      absurd completed (fresh key key_mem)⟩
  · rintro steps state report after accepted ⟨same_id, single, recorded⟩
    rcases reporting_next_eq_some accepted with ⟨reported, kept_id, -⟩
    exact ⟨kept_id.trans same_id, single.reported reported,
      recorded.snoc reported fun key slot participantId => single.participant_kept reported⟩

/-- A finished single elimination tournament has a sound result exactly when every report named
a match with both its participants in it. -/
theorem soundResult_iff_full (entrants : Entrants)
    (generated : start.bracket = generateSingleElimBracket start.id entrants.ids)
    (run : reporting.Run start steps final) (complete : final.allComplete = true) :
    SoundResult entrants.ids steps final.bracket ↔ ∀ step ∈ steps, ReportStep.Full step := by
  rcases nextPowerOfTwo_eq entrants.two with ⟨half, size_eq, more, fits⟩
  have generate := @singleElim_generate start.id _ _ size_eq
  rw [← generated] at generate
  have fresh : ∀ key ∈ start.bracket.keys, (start.bracket.row key).status ≠ .completed := by
    intro key _
    rw [generated, ((byesFed_singleElim size_eq).same key).status]
    exact (fixed_wiredSingleElim key).2.2
  rcases singleElim_run generate fresh run with ⟨same_id, single, recorded⟩
  have own : ∀ key, (final.bracket.row key).tournamentId = final.id :=
    fun key => (single.tournament key).trans same_id.symm
  have done := (allComplete_iff own).mp complete
  constructor
  · intro sound step step_mem
    rcases List.append_of_mem step_mem with ⟨earlier, later, rfl⟩
    rcases run.reaches_before with ⟨run_before, taken⟩
    exact full_of_soundResult single recorded entrants.distinct size_eq fits more done sound
      step_mem (singleElim_run generate fresh run_before).2.1 (reporting_next_eq_some taken).1
  · exact soundResult_of_full single recorded entrants.distinct size_eq fits more done

end Runs

/-- A tournament of four, with its bracket generated. -/
def fourEntrants : Entrants where
  ids := ["north".toList, "east".toList, "south".toList, "west".toList]
  distinct := by decide
  named := by decide
  two := by decide

def fourTournament : Tournament where
  id := "spring".toList
  format := .singleElim
  status := .inProgress
  participants := ⟨fourEntrants.ids, fun _ => .active⟩
  rounds := ⟨[⟨.main, 1⟩, ⟨.main, 2⟩], fun _ => .pending⟩
  bracket := generateSingleElimBracket "spring".toList fourEntrants.ids

def springReport (id : MatchId) (scoreA scoreB : ℕ) (winnerId : Text) : MatchReport :=
  { tournamentId := "spring".toList, matchId := id, scoreA, scoreB, winnerId, notes := none,
    replayCodes := none }

/-- The final is reported between the two matches before it. -/
def earlyFinal : List MatchReport :=
  [springReport (mainId 0 0) 3 1 "north".toList, springReport (mainId 1 0) 3 0 "north".toList,
    springReport (mainId 0 1) 3 2 "west".toList]

theorem earlyFinal_unsound : ∃ final, reporting.exec fourTournament earlyFinal = some final ∧
    final.allComplete = true ∧
    ¬SoundResult fourEntrants.ids (reporting.stepsOf fourTournament earlyFinal) final.bracket := by
  refine ⟨_, rfl, rfl, ?_⟩
  intro sound
  rcases sound.champion with ⟨champion, -, -, -, others⟩
  have north_unbeaten : lostMatches (reporting.stepsOf fourTournament earlyFinal) "north".toList = [] :=
    rfl
  have west_unbeaten : lostMatches (reporting.stepsOf fourTournament earlyFinal) "west".toList = [] :=
    rfl
  by_cases north : "north".toList = champion
  · have west := others "west".toList (by decide) (north ▸ by decide)
    rw [west_unbeaten] at west
    cases west
  · have north_lost := others "north".toList (by decide) north
    rw [north_unbeaten] at north_lost
    cases north_lost

def inOrder : List MatchReport :=
  [springReport (mainId 0 0) 3 1 "north".toList, springReport (mainId 0 1) 3 2 "west".toList,
    springReport (mainId 1 0) 3 0 "north".toList]

theorem inOrder_sound : ∃ final, reporting.exec fourTournament inOrder = some final ∧
    final.allComplete = true ∧
    SoundResult fourEntrants.ids (reporting.stepsOf fourTournament inOrder) final.bracket := by
  have run : reporting.Run fourTournament (reporting.stepsOf fourTournament inOrder) _ :=
    .of_exec rfl
  have full : ∀ step ∈ reporting.stepsOf fourTournament inOrder, ReportStep.Full step := by
    decide
  exact ⟨_, rfl, rfl, (soundResult_iff_full fourEntrants rfl run rfl).mpr full⟩

end ScuffedCrew.Tournaments
