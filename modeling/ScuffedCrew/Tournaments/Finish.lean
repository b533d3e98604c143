import Mathlib.Data.Finset.Card
import ScuffedCrew.Tournaments.DoubleElim

/-!
# Finishing a double elimination

A losers match of the first round waits for the losers of two neighbouring
matches of the first winners round.  When both of these are byes it never has
anybody in it, so the tournament never ends.  Neighbouring byes are there
exactly when fewer than three quarters of the positions are taken; otherwise
some match can be reported until all of them are completed.
-/

namespace ScuffedCrew.Tournaments

open Rust Database StateMachine

/-- A match that is neither completed nor a bye leaves one that can be reported. -/
def CanContinue (tournament : Tournament) : Prop :=
  (∃ key ∈ tournament.bracket.keys, (tournament.bracket.row key).isDone = false) →
    ∃ key ∈ tournament.bracket.keys, (tournament.bracket.row key).status = .pending ∧
      ∃ slot participantId, (tournament.bracket.row key).participant slot = some participantId ∧
        ∃ report after, report.matchId = key ∧ report.winner = participantId ∧
          reporting.next tournament report = some after

/-- Some reports complete the tournament. -/
def CanFinish (tournament : Tournament) : Prop :=
  ∃ steps final, reporting.Run tournament steps final ∧
    (∀ key ∈ final.bracket.keys, (final.bracket.row key).isDone = true) ∧
    final.allComplete = true ∧ final.status = .completed

/-- However the reports so far went, the tournament can be continued to its end. -/
def AlwaysFinishes (start : Tournament) : Prop :=
  ∀ steps tournament, reporting.Run start steps tournament →
    CanContinue tournament ∧ CanFinish tournament

/-- A double elimination bracket at any time of its tournament. -/
structure DoubleElim (half : ℕ) (tournamentId : Text) (ids : List Text) (bracket : Matches) : Prop
    extends DoubleElimWires half bracket where
  tournament : ∀ key, (bracket.row key).tournamentId = tournamentId
  status : ∀ key, (bracket.row key).status = .pending ∨ (bracket.row key).isDone = true
  fed : Fed bracket
  named : Named ids bracket
  byeAt : ∀ position < 2 ^ half, (bracket.row (winnersId 0 position)).status = .bye ↔
    ∃ slot : Slot, positioned ids (half + 1) (2 * position + slot.index) = none
  opened : ∀ position < 2 ^ half, (bracket.row (winnersId 0 position)).status ≠ .bye →
    ∀ slot, ((bracket.row (winnersId 0 position)).participant slot).isSome = true
  byeTaken : ∀ position < 2 ^ half, (bracket.row (winnersId 0 position)).status = .bye →
    (bracket.row (winnersId 0 position)).advances ≠ none
  winner : ∀ key ∈ bracket.keys, (bracket.row key).status = .completed →
    (bracket.row key).winnerId ≠ none
  dropped : ∀ position < 2 ^ half, (bracket.row (winnersId 0 position)).status = .completed →
    ∀ target slot, (bracket.row (winnersId 0 position)).loserNext = some (target, slot) →
      ((bracket.row target).participant slot).isSome = true

/-- No two byes are neighbours in the first winners round. -/
def NoNeighbours (half : ℕ) (bracket : Matches) : Prop :=
  ∀ position < losersCount half 0, half ≠ 0 → ∃ slot : Slot,
    (bracket.row (winnersId 0 (2 * position + slot.index))).status ≠ .bye

namespace DoubleElim

variable {half : ℕ} {tournamentId : Text} {ids : List Text} {bracket after : Matches}
  {id key : MatchId} {winner : Text} {slot : Slot} {round position : ℕ}

theorem reported (double : DoubleElim half tournamentId ids bracket)
    (reported : Reported bracket after id winner) : DoubleElim half tournamentId ids after where
  toDoubleElimWires := double.toDoubleElimWires.reported reported
  tournament key := (reported.tournamentId key).trans (double.tournament key)
  status := by
    intro key
    by_cases same : key = id
    · rcases same with rfl
      exact .inr (by simp [TournamentMatch.isDone, reported.completed])
    · rw [(reported.row_of_ne same).1]
      exact (double.status key).imp_right reported.isDone_of
  fed := reported.fed double.wired double.fed
  named := reported.named double.named
  byeAt := by
    simp only [reported.bye_iff]
    exact double.byeAt
  opened := by
    intro position below not_bye slot
    rw [ne_eq, reported.bye_iff] at not_bye
    exact reported.isSome_of (double.opened position below not_bye slot)
  byeTaken := by
    intro position below bye
    rw [reported.bye_iff] at bye
    have differs : winnersId 0 position ≠ id := by
      rintro rfl
      rw [reported.pending] at bye
      cases bye
    rw [reported.advances_of_ne double.wired differs]
    exact double.byeTaken position below bye
  winner := by
    intro key key_mem completed
    rw [reported.keys] at key_mem
    by_cases same : key = id
    · rw [same, reported.winnerId_self]
      simp
    · rw [(reported.row_of_ne same).1] at completed
      rw [(reported.row_of_ne same).2]
      exact double.winner key key_mem completed
  dropped := by
    intro position below completed target slot leads
    rw [reported.loserNext] at leads
    by_cases same : winnersId 0 position = id
    · have not_bye : (bracket.row (winnersId 0 position)).status ≠ .bye := by
        rw [same, reported.pending]
        simp
      have full := double.opened position below not_bye
      have lost : ((bracket.row id).loserId winner).isSome = true := by
        rw [← same]
        unfold TournamentMatch.loserId
        split
        · exact full .b
        · exact full .a
      rcases Option.isSome_iff_exists.mp lost with ⟨loser, lost⟩
      rw [same] at leads
      rw [reported.participant]
      simp [TournamentMatch.sends, leads, lost]
    · rw [(reported.row_of_ne same).1] at completed
      exact reported.isSome_of (double.dropped position below completed target slot leads)

/-! ## Some match can be reported -/

/-- The order in which the matches can be reached. -/
def reach (half : ℕ) (key : MatchId) : ℕ :=
  match key.round.stage with
  | .losers => half + 1 + key.round.number
  | .grandFinal => 3 * half + 3
  | _ => key.round.number

theorem advances_of_isDone (double : DoubleElim half tournamentId ids bracket)
    (key_mem : key ∈ bracket.keys) (done : (bracket.row key).isDone = true) :
    (bracket.row key).advances ≠ none := by
  rcases Bool.or_eq_true_iff.mp done with completed | bye
  · have completed := eq_of_beq completed
    simpa only [TournamentMatch.advances, completed] using double.winner key key_mem completed
  · rcases double.bye key (eq_of_beq bye) with ⟨position, rfl⟩
    exact double.byeTaken position (double.mem_winners.mp key_mem).2 (eq_of_beq bye)

/-- Every match outside the two first rounds is entered by the winner of an earlier one. -/
theorem exists_feeder (double : DoubleElim half tournamentId ids bracket)
    (key_mem : key ∈ bracket.keys) :
    (∃ position < 2 ^ half, key = winnersId 0 position) ∨
      (∃ position < losersCount half 0, half ≠ 0 ∧ key = losersId 0 position) ∨
      ∃ feeder ∈ bracket.keys, reach half feeder < reach half key ∧
        ∃ slot, (bracket.row feeder).next = some (key, slot) := by
  rcases (double.keys key).mp key_mem with ⟨round, position, rfl, inside, below⟩ |
    ⟨round, position, rfl, inside, below⟩ | rfl
  · cases round with
    | zero => exact .inl ⟨position, below, rfl⟩
    | succ round =>
        have pairs : 2 ^ (half - round) = 2 ^ (half - (round + 1)) * 2 := by
          rw [← Nat.pow_succ]
          congr 1
          omega
        refine .inr (.inr ⟨winnersId round (2 * position),
          double.mem_winners.mpr ⟨by omega, by omega⟩, Nat.lt_succ_self _,
          pairSlot (2 * position), ?_⟩)
        rw [double.winnersNext round (by omega) _ (by omega), winnersTarget, if_pos (by omega),
          show 2 * position / 2 = position by omega]
  · cases round with
    | zero => exact .inr (.inl ⟨position, below, by omega, rfl⟩)
    | succ round =>
        by_cases even : round % 2 = 0
        · have same := @losersCount_even half round even
          refine .inr (.inr ⟨losersId round position, double.mem_losers.mpr ⟨by omega, by omega⟩,
            Nat.lt_succ_self _, .b, ?_⟩)
          rw [double.losersNext round (by omega) _ (by omega), losersTarget, if_pos (by omega),
            if_pos even]
        · have pairs := losersCount_odd inside even
          refine .inr (.inr ⟨losersId round (2 * position),
            double.mem_losers.mpr ⟨by omega, by omega⟩, Nat.lt_succ_self _,
            pairSlot (2 * position), ?_⟩)
          rw [double.losersNext round (by omega) _ (by omega), losersTarget, if_pos (by omega),
            if_neg even, show 2 * position / 2 = position by omega]
  · have below : 0 < 2 ^ (half - half) := Nat.two_pow_pos _
    refine .inr (.inr ⟨winnersId half 0, double.mem_winners.mpr ⟨le_rfl, below⟩, ?_, .a, ?_⟩)
    · simp only [reach, winnersId, grandFinalId]
      omega
    · rw [double.winnersNext half le_rfl 0 below, winnersTarget, if_neg (by omega)]

theorem exists_reportable (double : DoubleElim half tournamentId ids bracket)
    (apart : NoNeighbours half bracket) (key_mem : key ∈ bracket.keys)
    (undone : (bracket.row key).isDone = false) :
    ∃ key ∈ bracket.keys, (bracket.row key).status = .pending ∧
      ∃ slot participantId, (bracket.row key).participant slot = some participantId := by
  induction earlier : reach half key using Nat.strong_induction_on generalizing key with
  | _ reached ih =>
      rcases earlier with rfl
      have pending : (bracket.row key).status = .pending := by
        refine (double.status key).resolve_right ?_
        rw [undone]
        exact Bool.false_ne_true
      rcases double.exists_feeder key_mem with ⟨position, below, rfl⟩ |
        ⟨position, below, some_rounds, rfl⟩ | ⟨feeder, feeder_mem, lower, slot, leads⟩
      · have filled := double.opened position below (by simp [pending]) .a
        exact ⟨_, key_mem, pending, .a, Option.isSome_iff_exists.mp filled⟩
      · rcases apart position below some_rounds with ⟨slot, not_bye⟩
        have pairs := losersCount_first some_rounds
        have side := slot.index_lt
        have feeder_mem : winnersId 0 (2 * position + slot.index) ∈ bracket.keys :=
          double.mem_winners.mpr ⟨Nat.zero_le _, by rw [Nat.sub_zero]; omega⟩
        cases done : (bracket.row (winnersId 0 (2 * position + slot.index))).isDone with
        | false =>
            refine ih _ ?_ feeder_mem done rfl
            simp only [reach, winnersId, losersId]
            omega
        | true =>
            have completed := eq_of_beq ((Bool.or_eq_true_iff.mp done).resolve_right
              fun bye => not_bye (eq_of_beq bye))
            have leads := double.winnersDrop 0 (Nat.zero_le _) (2 * position + slot.index)
              (double.mem_winners.mp feeder_mem).2
            rw [dropTarget, if_neg some_rounds, if_pos rfl,
              show (2 * position + slot.index) / 2 = position by omega] at leads
            have filled := double.dropped _ (double.mem_winners.mp feeder_mem).2 completed _ _ leads
            exact ⟨_, key_mem, pending, _, Option.isSome_iff_exists.mp filled⟩
      · cases done : (bracket.row feeder).isDone with
        | false => exact ih _ lower feeder_mem done rfl
        | true =>
            have advances := double.advances_of_isDone feeder_mem done
            rw [← double.fed feeder feeder_mem key slot leads] at advances
            exact ⟨_, key_mem, pending, slot, Option.ne_none_iff_exists'.mp advances⟩

end DoubleElim

/-! ## Runs -/

/-- The states of a double elimination tournament in which no byes are neighbours. -/
structure Finishing (half : ℕ) (ids : List Text) (tournament : Tournament) : Prop where
  double : DoubleElim half tournament.id ids tournament.bracket
  apart : NoNeighbours half tournament.bracket
  settled : (∀ key ∈ tournament.bracket.keys, (tournament.bracket.row key).isDone = true) →
    tournament.status = .completed

namespace Finishing

variable {half : ℕ} {ids : List Text} {tournament after : Tournament} {report : MatchReport}

theorem step (finishing : Finishing half ids tournament)
    (accepted : reporting.next tournament report = some after) : Finishing half ids after := by
  rcases reporting_next_eq_some accepted with ⟨reported, same_id, status⟩
  have double : DoubleElim half after.id ids after.bracket := by
    rw [same_id]
    exact finishing.double.reported reported
  refine ⟨double, ?_, ?_⟩
  · intro position below some_rounds
    simp only [ne_eq, reported.bye_iff]
    exact finishing.apart position below some_rounds
  · intro done
    rw [status, if_pos ((allComplete_iff double.tournament).mpr done)]

theorem canContinue (finishing : Finishing half ids tournament)
    (entered : ∀ id ∈ ids, id ≠ [] ∧ id.trim = id) : CanContinue tournament := by
  rintro ⟨key, key_mem, undone⟩
  rcases finishing.double.exists_reportable finishing.apart key_mem undone with
    ⟨ready, ready_mem, pending, slot, participantId, present⟩
  rcases entered participantId (finishing.double.named ready ready_mem slot _ present) with
    ⟨named, trimmed⟩
  rcases exists_report ready_mem pending present named trimmed
    (fun target slot leads => (finishing.double.wired.next_mem ready ready_mem _ _ leads).1)
    (fun target slot leads => (finishing.double.wired.loserNext_mem ready ready_mem _ _ leads).1)
    with ⟨report, after, at_ready, for_participant, accepted⟩
  exact ⟨ready, ready_mem, pending, slot, participantId, present, report, after, at_ready,
    for_participant, accepted⟩

def undone (bracket : Matches) : Finset MatchId :=
  bracket.keys.toFinset.filter fun key => (bracket.row key).isDone = false

/-- A report lowers the number of matches that are still open. -/
theorem undone_lower {bracket after : Matches} {id : MatchId} {winner : Text}
    (reported : Reported bracket after id winner) : (undone after).card < (undone bracket).card := by
  apply Finset.card_lt_card
  rw [Finset.ssubset_iff_of_subset]
  · refine ⟨id, ?_, ?_⟩
    · simp [undone, reported.mem, TournamentMatch.isDone, reported.pending]
    · simp [undone, TournamentMatch.isDone, reported.completed]
  · intro key key_mem
    simp only [undone, Finset.mem_filter, List.mem_toFinset, reported.keys] at key_mem ⊢
    refine ⟨key_mem.1, ?_⟩
    by_contra done
    have still_done := reported.isDone_of (Bool.not_eq_false _ ▸ done)
    rw [key_mem.2] at still_done
    cases still_done

theorem canFinish (finishing : Finishing half ids tournament)
    (entered : ∀ id ∈ ids, id ≠ [] ∧ id.trim = id) : CanFinish tournament := by
  induction count : (undone tournament.bracket).card using Nat.strong_induction_on
    generalizing tournament with
  | _ count ih =>
      rcases count with rfl
      by_cases done : ∀ key ∈ tournament.bracket.keys, (tournament.bracket.row key).isDone = true
      · exact ⟨[], tournament, .refl, done,
          (allComplete_iff finishing.double.tournament).mpr done, finishing.settled done⟩
      · simp only [not_forall, Bool.not_eq_true] at done
        rcases done with ⟨key, key_mem, undone⟩
        rcases finishing.canContinue entered ⟨key, key_mem, undone⟩ with
          ⟨-, -, -, -, -, -, report, after, -, -, accepted⟩
        rcases ih _ (undone_lower (reporting_next_eq_some accepted).1) (finishing.step accepted) rfl
          with ⟨steps, final, run, finished⟩
        exact ⟨_, final, (Machine.Run.single accepted).trans run, finished⟩

end Finishing

/-! ## A match nobody can come to -/

/-- A pending match that is empty and entered only by the losers of byes. -/
structure Dead (id : MatchId) (bracket : Matches) : Prop where
  stored : id ∈ bracket.keys
  pending : (bracket.row id).status = .pending
  empty : ∀ slot, (bracket.row id).participant slot = none
  alone : ∀ key ∈ bracket.keys, ∀ slot, (bracket.row key).next ≠ some (id, slot)
  byes : ∀ key ∈ bracket.keys, ∀ slot, (bracket.row key).loserNext = some (id, slot) →
    (bracket.row key).status = .bye

theorem Dead.reported {bracket after : Matches} {id key : MatchId} {winner : Text}
    (dead : Dead key bracket) (reported : Reported bracket after id winner) : Dead key after := by
  have differs : key ≠ id := by
    rintro rfl
    rcases reported.present with ⟨slot, present⟩
    rw [dead.empty] at present
    cases present
  refine ⟨?_, ?_, ?_, ?_, ?_⟩
  · rw [reported.keys]
    exact dead.stored
  · rw [(reported.row_of_ne differs).1]
    exact dead.pending
  · intro slot
    rw [reported.participant_of_none, dead.empty]
    have not_winner := dead.alone id reported.mem slot
    have not_loser : (bracket.row id).loserNext ≠ some (key, slot) := by
      intro leads
      have bye := dead.byes id reported.mem slot leads
      rw [reported.pending] at bye
      cases bye
    simp [TournamentMatch.sends, not_winner, not_loser]
  · simp only [reported.keys, reported.next]
    exact dead.alone
  · simp only [reported.keys, reported.loserNext, reported.bye_iff]
    exact dead.byes

theorem Dead.not_canFinish {tournament : Tournament} {key : MatchId}
    (dead : Dead key tournament.bracket) : ¬CanFinish tournament := by
  rintro ⟨steps, final, run, done, -⟩
  have still : Dead key final.bracket :=
    run.invariant (fun state => Dead key state.bracket) dead fun accepted dead =>
      dead.reported (reporting_next_eq_some accepted).1
  have completed := done key still.stored
  simp [TournamentMatch.isDone, still.pending] at completed

/-! ## The generated bracket -/

section Generated

variable {tournamentId : Text} {ids : List Text} {half : ℕ}

theorem byeAt_generate (size_eq : nextPowerOfTwo ids.length = 2 ^ (half + 1)) (position : ℕ) :
    ((generateDoubleElimBracket tournamentId ids).row (winnersId 0 position)).status = .bye ↔
      ∃ slot : Slot, positioned ids (half + 1) (2 * position + slot.index) = none := by
  rw [((byesFed_doubleElim size_eq).same _).status]
  rcases (first_wiredDoubleElim size_eq position).2 with ⟨bye, missing⟩ | ⟨pending, full⟩
  · exact iff_of_true bye missing
  · refine iff_of_false (by simp [pending]) ?_
    rintro ⟨slot, missing⟩
    have filled := full slot
    rw [missing] at filled
    cases filled

theorem first_generate (size_eq : nextPowerOfTwo ids.length = 2 ^ (half + 1)) (position : ℕ)
    (slot : Slot) :
    ((generateDoubleElimBracket tournamentId ids).row (winnersId 0 position)).participant slot =
      positioned ids (half + 1) (2 * position + slot.index) := by
  have wires := @wires_wiredDoubleElim tournamentId _ _ size_eq
  rw [(byesFed_doubleElim size_eq).kept]
  · exact (first_wiredDoubleElim size_eq position).1 slot
  · intro id id_mem leads
    exact (wires.next_target id_mem leads).2.2 position rfl

theorem exists_first (size_eq : nextPowerOfTwo ids.length = 2 ^ (half + 1)) {key : MatchId}
    {slot : Slot} {participantId : Text} (key_mem : key ∈ (wiredDoubleElim tournamentId ids).keys)
    (filled : ((generateDoubleElimBracket tournamentId ids).row key).participant slot =
      some participantId) :
    ∃ position < 2 ^ half, ∃ slot, ((generateDoubleElimBracket tournamentId ids).row
      (winnersId 0 position)).participant slot = some participantId := by
  have wires := @wires_wiredDoubleElim tournamentId _ _ size_eq
  have byes := @byesFed_doubleElim tournamentId _ _ size_eq
  by_cases first : ∃ position, key = winnersId 0 position
  · rcases first with ⟨position, rfl⟩
    exact ⟨position, (wires.mem_winners.mp key_mem).2, slot, filled⟩
  · by_cases led : ∃ id ∈ (wiredDoubleElim tournamentId ids).keys,
        ((wiredDoubleElim tournamentId ids).row id).next = some (key, slot)
    · rcases led with ⟨id, id_mem, leads⟩
      rw [byes.fed id id_mem key slot leads] at filled
      split at filled
      next =>
        rw [← byes.advances wires.wired] at filled
        rcases TournamentMatch.of_advances filled with ⟨completed, -⟩ | ⟨bye, source, present⟩
        · rw [(byes.same id).status] at completed
          exact absurd completed (undecided_wiredDoubleElim size_eq id)
        · rw [(byes.same id).status] at bye
          rcases wires.bye id bye with ⟨position, rfl⟩
          exact ⟨position, (wires.mem_winners.mp id_mem).2, source, present⟩
      next => cases filled
    · rw [byes.kept key slot fun id id_mem leads => led ⟨id, id_mem, leads⟩,
        (later_wiredDoubleElim fun position same => first ⟨position, same⟩).2 slot] at filled
      cases filled

theorem doubleElim_generate (size_eq : nextPowerOfTwo ids.length = 2 ^ (half + 1))
    (more : 2 ^ half < ids.length) (fits : ids.length ≤ 2 ^ (half + 1)) :
    DoubleElim half tournamentId ids (generateDoubleElimBracket tournamentId ids) := by
  have wires := @wires_wiredDoubleElim tournamentId _ _ size_eq
  have byes := @byesFed_doubleElim tournamentId _ _ size_eq
  have undecided : ∀ key,
      ((generateDoubleElimBracket tournamentId ids).row key).status ≠ .completed := by
    intro key
    rw [(byes.same key).status]
    exact undecided_wiredDoubleElim size_eq key
  exact
    { wires_generateDoubleElimBracket size_eq with
      tournament := fun key =>
        (byes.same key).tournamentId.trans (created_wiredDoubleElim key).1
      status := by
        intro key
        rw [(byes.same key).status]
        by_cases first : ∃ position, key = winnersId 0 position
        · rcases first with ⟨position, rfl⟩
          refine (first_wiredDoubleElim size_eq position).2.symm.imp And.left ?_
          rintro ⟨bye, -⟩
          simp [TournamentMatch.isDone, (byes.same _).status, bye]
        · exact .inl (later_wiredDoubleElim fun position same => first ⟨position, same⟩).1
      fed := by
        refine byes.fed_of wires.wired ?_
        intro key key_mem later
        have not_first : ∀ position, key ≠ winnersId 0 position := by
          rintro position rfl
          have below := (wires.mem_winners.mp key_mem).2
          exact later (List.mem_map.mpr ⟨position, List.mem_range.mpr below, rfl⟩)
        simp only [TournamentMatch.advances, (later_wiredDoubleElim not_first).1]
      named := by
        intro key key_mem slot participantId filled
        rcases exists_first size_eq (byes.keys ▸ key_mem) filled with
          ⟨position, below, slot', present⟩
        rw [first_generate size_eq] at present
        have side := slot'.index_lt
        have double := Nat.pow_succ (n := 2) (m := half)
        rcases exists_seed_of_positioned fits (by omega) present with ⟨seed, -, -, at_seed⟩
        exact List.mem_of_getElem? at_seed
      byeAt := fun position _ => byeAt_generate size_eq position
      opened := by
        intro position _ not_bye slot
        rw [first_generate size_eq, Option.isSome_iff_ne_none]
        intro missing
        exact not_bye ((byeAt_generate size_eq position).mpr ⟨slot, missing⟩)
      byeTaken := by
        intro position below bye
        rcases exists_entered fits more below with ⟨index, side, filled⟩
        rcases Slot.exists_index side with ⟨slot, rfl⟩
        rw [← @first_generate tournamentId _ _ size_eq] at filled
        rcases Option.isSome_iff_exists.mp filled with ⟨participantId, present⟩
        simp only [TournamentMatch.advances, bye]
        cases slot with
        | a => simp [show (TournamentMatch.participantAId _) = some participantId from present]
        | b => simp [show (TournamentMatch.participantBId _) = some participantId from present]
      winner := fun key _ completed => absurd completed (undecided key)
      dropped := fun position _ completed => absurd completed (undecided _) }

theorem noNeighbours_generate (size_eq : nextPowerOfTwo ids.length = 2 ^ (half + 1))
    (fits : ids.length ≤ 2 ^ (half + 1)) (enough : 3 * 2 ^ (half + 1) ≤ 4 * ids.length) :
    NoNeighbours half (generateDoubleElimBracket tournamentId ids) := by
  intro position below some_rounds
  rcases half with _ | k
  · exact absurd rfl some_rounds
  have quarter : losersCount (k + 1) 0 = 2 ^ k := rfl
  have double := Nat.pow_succ (n := 2) (m := k)
  have double' := Nat.pow_succ (n := 2) (m := k + 1)
  rcases @exists_seed k position (by omega) with ⟨seed, seed_lt, rfl⟩
  have in_pair := seedPosition_half k seed
  rw [Nat.mod_eq_of_lt seed_lt] at in_pair
  have at_match : 2 * seedPosition k seed + (pairSlot (seedPosition (k + 1) seed)).index =
      seedPosition (k + 1) seed := by
    rw [index_pairSlot]
    omega
  refine ⟨pairSlot (seedPosition (k + 1) seed), ?_⟩
  rw [at_match, ne_eq, byeAt_generate size_eq]
  rintro ⟨slot, missing⟩
  have full := positioned_full fits (show seed < 2 ^ (k + 1) by omega) (by omega) slot.index_lt
  rw [missing] at full
  cases full

/-- With less than three quarters of the positions taken, the last seeds of a quarter have byes
next to each other. -/
theorem dead_generate {k : ℕ} (size_eq : nextPowerOfTwo ids.length = 2 ^ (k + 1 + 1))
    (fits : ids.length ≤ 2 ^ (k + 1 + 1)) (few : 4 * ids.length < 3 * 2 ^ (k + 1 + 1)) :
    Dead (losersId 0 (seedPosition k (2 ^ k - 1))) (generateDoubleElimBracket tournamentId ids) := by
  have wires := @wires_wiredDoubleElim tournamentId _ _ size_eq
  have byes := @byesFed_doubleElim tournamentId _ _ size_eq
  have positive := Nat.two_pow_pos k
  have below := seedPosition_lt k (2 ^ k - 1)
  have not_first : ∀ position, losersId 0 (seedPosition k (2 ^ k - 1)) ≠ winnersId 0 position :=
    fun position => winnersId_ne_losersId.symm
  have alone : ∀ key ∈ (wiredDoubleElim tournamentId ids).keys, ∀ slot,
      ((wiredDoubleElim tournamentId ids).row key).next ≠
        some (losersId 0 (seedPosition k (2 ^ k - 1)), slot) := by
    intro key key_mem slot leads
    have source := (wires.next_target key_mem leads).1
    simp [slotSource, losersId] at source
  refine ⟨?_, ?_, ?_, ?_, ?_⟩
  · rw [byes.keys]
    exact wires.mem_losers.mpr ⟨by omega, below⟩
  · rw [(byes.same _).status]
    exact (later_wiredDoubleElim not_first).1
  · intro slot
    rw [byes.kept _ slot fun key key_mem => alone key key_mem slot]
    exact (later_wiredDoubleElim not_first).2 slot
  · simp only [byes.keys, (byes.same _).next]
    exact alone
  · intro key key_mem slot leads
    rw [byes.keys] at key_mem
    rw [(byes.same key).loserNext] at leads
    have source := (wires.loserNext_target key_mem leads).1
    simp only [slotSource, losersId, Nat.add_sub_cancel, if_true, Option.some.injEq,
      Sum.inr.injEq] at source
    rcases source with rfl
    rcases seed_of_slot (show 2 ^ k - 1 < 2 ^ k by omega) slot.index_lt with
      ⟨seed, which, at_match⟩
    have double := Nat.pow_succ (n := 2) (m := k)
    have double' := Nat.pow_succ (n := 2) (m := k + 1)
    rw [← at_match, byeAt_generate size_eq]
    rcases positioned_missing fits (show seed < 2 ^ (k + 1) by omega) (by omega) with
      ⟨index, side, missing⟩
    rcases Slot.exists_index side with ⟨slot', rfl⟩
    exact ⟨slot', missing⟩

end Generated

/-- A double elimination tournament can always be finished exactly when at least three quarters of
its positions are taken. -/
theorem alwaysFinishes_iff {start : Tournament} (entrants : Entrants)
    (generated : start.bracket = generateDoubleElimBracket start.id entrants.ids) :
    AlwaysFinishes start ↔ 3 * nextPowerOfTwo entrants.ids.length ≤ 4 * entrants.ids.length := by
  rcases nextPowerOfTwo_eq entrants.two with ⟨half, size_eq, more, fits⟩
  constructor
  · intro always
    by_contra few
    rcases half with _ | k
    · have two := entrants.two
      rw [size_eq] at few
      omega
    · rw [size_eq, not_le] at few
      have dead := @dead_generate start.id _ _ size_eq fits few
      rw [← generated] at dead
      exact dead.not_canFinish (always [] start .refl).2
  · intro enough steps tournament run
    rw [size_eq] at enough
    have finishing : Finishing half entrants.ids tournament := by
      refine run.invariant (Finishing half entrants.ids) ?_ fun accepted finishing =>
        finishing.step accepted
      have double := @doubleElim_generate start.id _ _ size_eq more fits
      have apart := @noNeighbours_generate start.id _ _ size_eq fits enough
      rw [← generated] at double apart
      refine ⟨double, apart, ?_⟩
      intro done
      have final_done := done grandFinalId double.mem_final
      rw [generated, TournamentMatch.isDone, ((byesFed_doubleElim size_eq).same _).status,
        (later_wiredDoubleElim fun position => winnersId_ne_grandFinalId.symm).1] at final_done
      cases final_done
    exact ⟨finishing.canContinue entrants.named, finishing.canFinish entrants.named⟩

def doubleTournament (participantIds : List Text) : Tournament where
  id := "summer".toList
  format := .doubleElim
  status := .inProgress
  participants := ⟨participantIds, fun _ => .active⟩
  rounds := ⟨[], fun _ => .pending⟩
  bracket := generateDoubleElimBracket "summer".toList participantIds

def fiveEntrants : Entrants where
  ids := ["north".toList, "east".toList, "south".toList, "west".toList, "centre".toList]
  distinct := by decide
  named := by decide
  two := by decide

/-- The seeds two and four have byes in neighbouring matches. -/
theorem five_not_alwaysFinishes : ¬AlwaysFinishes (doubleTournament fiveEntrants.ids) := by
  intro always
  have dead : Dead (losersId 0 (seedPosition 1 1)) (doubleTournament fiveEntrants.ids).bracket :=
    dead_generate rfl (by decide) (by decide)
  exact dead.not_canFinish (always [] _ .refl).2

def sixEntrants : Entrants where
  ids := "outpost".toList :: fiveEntrants.ids
  distinct := by decide
  named := by decide
  two := by decide

theorem six_alwaysFinishes : AlwaysFinishes (doubleTournament sixEntrants.ids) :=
  (alwaysFinishes_iff sixEntrants rfl).mpr (by decide)

end ScuffedCrew.Tournaments
