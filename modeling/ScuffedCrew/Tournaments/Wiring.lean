import ScuffedCrew.Tournaments.Report

/-!
# Wired brackets

Every slot of a later match is entered by the winner or the loser of at most one
match, so it holds what that match sent there and nothing overwrites it.
-/

namespace ScuffedCrew.Tournaments

open Rust Database StateMachine

def TournamentMatch.advances (row : TournamentMatch) : Option Text :=
  match row.status with
  | .completed => row.winnerId
  | .bye => row.participantAId.or row.participantBId
  | _ => none

theorem TournamentMatch.of_advances {row : TournamentMatch} {participantId : Text}
    (advances : row.advances = some participantId) :
    row.status = .completed ∧ row.winnerId = some participantId ∨
      row.status = .bye ∧ ∃ slot, row.participant slot = some participantId := by
  unfold TournamentMatch.advances at advances
  split at advances
  next completed => exact .inl ⟨completed, advances⟩
  next bye =>
    rcases Option.or_eq_some_iff.mp advances with first | ⟨-, second⟩
    · exact .inr ⟨bye, .a, first⟩
    · exact .inr ⟨bye, .b, second⟩
  next => cases advances

/-- No slot is entered from two matches, and no bye is entered at all. -/
structure Wired (bracket : Matches) : Prop where
  next_mem : ∀ key ∈ bracket.keys, ∀ target slot, (bracket.row key).next = some (target, slot) →
    target ∈ bracket.keys ∧ (bracket.row target).status ≠ .bye
  loserNext_mem : ∀ key ∈ bracket.keys, ∀ target slot,
    (bracket.row key).loserNext = some (target, slot) →
      target ∈ bracket.keys ∧ (bracket.row target).status ≠ .bye
  next_inj : ∀ key ∈ bracket.keys, ∀ other ∈ bracket.keys, ∀ target,
    (bracket.row key).next = some target → (bracket.row other).next = some target → key = other
  loserNext_inj : ∀ key ∈ bracket.keys, ∀ other ∈ bracket.keys, ∀ target,
    (bracket.row key).loserNext = some target → (bracket.row other).loserNext = some target →
      key = other
  apart : ∀ key ∈ bracket.keys, ∀ other ∈ bracket.keys, ∀ target,
    (bracket.row key).next = some target → (bracket.row other).loserNext ≠ some target

/-- Wires whose source can be told from the slot they lead to do not meet. -/
theorem Wired.of_source {bracket : Matches} (source : MatchId × Slot → Option (MatchId ⊕ MatchId))
    (next_source : ∀ key ∈ bracket.keys, ∀ target slot,
      (bracket.row key).next = some (target, slot) →
        source (target, slot) = some (.inl key) ∧
          target ∈ bracket.keys ∧ (bracket.row target).status ≠ .bye)
    (loserNext_source : ∀ key ∈ bracket.keys, ∀ target slot,
      (bracket.row key).loserNext = some (target, slot) →
        source (target, slot) = some (.inr key) ∧
          target ∈ bracket.keys ∧ (bracket.row target).status ≠ .bye) : Wired bracket where
  next_mem key key_mem target slot leads := (next_source key key_mem target slot leads).2
  loserNext_mem key key_mem target slot leads := (loserNext_source key key_mem target slot leads).2
  next_inj := by
    rintro key key_mem other other_mem ⟨target, slot⟩ leads leads'
    have from_key := (next_source key key_mem target slot leads).1
    have from_other := (next_source other other_mem target slot leads').1
    exact Sum.inl.inj (Option.some.inj (from_key.symm.trans from_other))
  loserNext_inj := by
    rintro key key_mem other other_mem ⟨target, slot⟩ leads leads'
    have from_key := (loserNext_source key key_mem target slot leads).1
    have from_other := (loserNext_source other other_mem target slot leads').1
    exact Sum.inr.inj (Option.some.inj (from_key.symm.trans from_other))
  apart := by
    rintro key key_mem other other_mem ⟨target, slot⟩ leads leads'
    have from_key := (next_source key key_mem target slot leads).1
    have from_other := (loserNext_source other other_mem target slot leads').1
    cases from_key.symm.trans from_other

/-- A slot entered by a winner holds who goes on from that match. -/
def Fed (bracket : Matches) : Prop :=
  ∀ key ∈ bracket.keys, ∀ target slot, (bracket.row key).next = some (target, slot) →
    (bracket.row target).participant slot = (bracket.row key).advances

/-- Only entrants are in the slots. -/
def Named (ids : List Text) (bracket : Matches) : Prop :=
  ∀ key ∈ bracket.keys, ∀ slot participantId,
    (bracket.row key).participant slot = some participantId → participantId ∈ ids

theorem allComplete_iff {tournament : Tournament}
    (own : ∀ key, (tournament.bracket.row key).tournamentId = tournament.id) :
    tournament.allComplete = true ↔
      ∀ key ∈ tournament.bracket.keys, (tournament.bracket.row key).isDone = true := by
  simp [Tournament.allComplete, Tournament.listTournamentMatches, Keyed.values, own]

namespace Reported

variable {bracket after : Matches} {id key : MatchId} {slot : Slot} {winner participantId : Text}

theorem completed (reported : Reported bracket after id winner) :
    (after.row id).status = .completed := by
  rw [reported.status, if_pos rfl]

theorem winnerId_self (reported : Reported bracket after id winner) :
    (after.row id).winnerId = some winner := by
  rw [reported.winnerId, if_pos rfl]

theorem row_of_ne (reported : Reported bracket after id winner) (differs : key ≠ id) :
    (after.row key).status = (bracket.row key).status ∧
      (after.row key).winnerId = (bracket.row key).winnerId := by
  rw [reported.status, reported.winnerId, if_neg differs, if_neg differs]
  exact ⟨rfl, rfl⟩

theorem bye_iff (reported : Reported bracket after id winner) :
    (after.row key).status = .bye ↔ (bracket.row key).status = .bye := by
  by_cases same : key = id
  · rcases same with rfl
    simp [reported.completed, reported.pending]
  · rw [(reported.row_of_ne same).1]

theorem isDone_of (reported : Reported bracket after id winner)
    (done : (bracket.row key).isDone = true) : (after.row key).isDone = true := by
  by_cases same : key = id
  · rcases same with rfl
    simp [TournamentMatch.isDone, reported.completed]
  · simpa [TournamentMatch.isDone, reported.row_of_ne same] using done

theorem isSome_of (reported : Reported bracket after id winner)
    (filled : ((bracket.row key).participant slot).isSome = true) :
    ((after.row key).participant slot).isSome = true := by
  rw [reported.participant]
  simp [filled]

/-- A slot changes only if the match sends someone there. -/
theorem participant_of_none (reported : Reported bracket after id winner)
    (silent : (bracket.row id).sends winner (key, slot) = none) :
    (after.row key).participant slot = (bracket.row key).participant slot := by
  rw [reported.participant, silent, Option.none_or]

theorem silent_of_next (reported : Reported bracket after id winner) (wired : Wired bracket)
    (key_mem : key ∈ bracket.keys) (differs : key ≠ id) {target : MatchId × Slot}
    (goes : (bracket.row key).next = some target) :
    (bracket.row id).sends winner target = none := by
  have not_winner : (bracket.row id).next ≠ some target := fun same =>
    differs (wired.next_inj key key_mem id reported.mem target goes same)
  have not_loser := wired.apart key key_mem id reported.mem target goes
  simp [TournamentMatch.sends, not_winner, not_loser]

theorem silent_of_bye (reported : Reported bracket after id winner) (wired : Wired bracket)
    (bye : (bracket.row key).status = .bye) :
    (bracket.row id).sends winner (key, slot) = none := by
  have not_winner : (bracket.row id).next ≠ some (key, slot) := fun same =>
    (wired.next_mem id reported.mem _ _ same).2 bye
  have not_loser : (bracket.row id).loserNext ≠ some (key, slot) := fun same =>
    (wired.loserNext_mem id reported.mem _ _ same).2 bye
  simp [TournamentMatch.sends, not_winner, not_loser]

theorem advances_of_ne (reported : Reported bracket after id winner) (wired : Wired bracket)
    (differs : key ≠ id) : (after.row key).advances = (bracket.row key).advances := by
  rcases reported.row_of_ne differs with ⟨same_status, same_winner⟩
  unfold TournamentMatch.advances
  rw [same_status, same_winner]
  cases status : (bracket.row key).status with
  | bye =>
      have same (slot : Slot) : (after.row key).participant slot =
          (bracket.row key).participant slot :=
        reported.participant_of_none (reported.silent_of_bye wired status)
      have same_a := same .a
      have same_b := same .b
      simp only [TournamentMatch.participant] at same_a same_b
      simp only [same_a, same_b]
  | _ => rfl

theorem fed (reported : Reported bracket after id winner) (wired : Wired bracket)
    (fed : Fed bracket) : Fed after := by
  intro key key_mem target slot goes
  rw [reported.keys] at key_mem
  rw [reported.next] at goes
  by_cases same : key = id
  · rcases same with rfl
    have not_loser := wired.apart key key_mem key key_mem (target, slot) goes
    rw [reported.participant]
    simp [TournamentMatch.sends, TournamentMatch.advances, not_loser, goes, reported.completed,
      reported.winnerId_self]
  · rw [reported.participant_of_none (reported.silent_of_next wired key_mem same goes),
      reported.advances_of_ne wired same]
    exact fed key key_mem target slot goes

theorem mem_of_sends (reported : Reported bracket after id winner) {target : MatchId × Slot}
    (sent : (bracket.row id).sends winner target = some participantId) :
    ∃ slot, (bracket.row id).participant slot = some participantId := by
  unfold TournamentMatch.sends at sent
  rcases Option.or_eq_some_iff.mp sent with loser | ⟨-, won⟩
  · split at loser
    next =>
      unfold TournamentMatch.loserId at loser
      split at loser
      next => exact ⟨.b, loser⟩
      next => exact ⟨.a, loser⟩
    next => cases loser
  · split at won
    next =>
      rcases Option.some.inj won with rfl
      exact reported.present
    next => cases won

theorem named (reported : Reported bracket after id winner) {ids : List Text}
    (named : Named ids bracket) : Named ids after := by
  intro key key_mem slot participantId filled
  rw [reported.keys] at key_mem
  rw [reported.participant] at filled
  rcases Option.or_eq_some_iff.mp filled with sent | ⟨-, before⟩
  · rcases reported.mem_of_sends sent with ⟨source, present⟩
    exact named id reported.mem source participantId present
  · exact named key key_mem slot participantId before

end Reported

end ScuffedCrew.Tournaments
