import ScuffedCrew.Tournaments.Seeding
import ScuffedCrew.Tournaments.Wiring

/-!
# Building a bracket

What both kinds of elimination brackets are built from: the matches as they are
created, the wiring of their winners and losers, and the byes of the first
round, whose participants go on at once.
-/

namespace ScuffedCrew.Tournaments

open Rust Database

/-- The participants of a tournament in the order of their seeds, under the keys the database has
made up for them. -/
structure Entrants where
  ids : List Text
  distinct : ids.Nodup
  named : ∀ id ∈ ids, id ≠ [] ∧ id.trim = id
  two : 2 ≤ ids.length

/-- `create_tournament_match`, before any wiring. -/
def createTournamentMatch (tournamentId : Text) (id : MatchId)
    (participantA participantB : Option Text) (status : TournamentMatchStatus) :
    TournamentMatch where
  tournamentId := tournamentId
  roundId := id.round
  bracketPosition := id.position
  participantAId := participantA
  participantBId := participantB
  scoreA := none
  scoreB := none
  winnerId := none
  status := status
  nextMatchId := none
  nextMatchSlot := none
  loserNextMatchId := none
  loserNextMatchSlot := none
  notes := none
  replayCodes := []

/-- A match of the first round: two positions, and a bye when one of them is. -/
def firstRoundMatch (tournamentId : Text) (ordered : List (Option Text)) (id : MatchId) :
    TournamentMatch :=
  let participantA := ordered.getD (id.position * 2) none
  let participantB := ordered.getD (id.position * 2 + 1) none
  createTournamentMatch tournamentId id participantA participantB
    (if participantA.isNone || participantB.isNone then .bye else .pending)

theorem participant_firstRoundMatch (tournamentId : Text) (participantIds : List Text) (k : ℕ)
    (id : MatchId) (slot : Slot) :
    (firstRoundMatch tournamentId (seededSlots participantIds (2 ^ k)) id).participant slot =
      positioned participantIds k (2 * id.position + slot.index) := by
  rw [Nat.mul_comm 2]
  cases slot <;> rfl

theorem status_firstRoundMatch (tournamentId : Text) (participantIds : List Text) (k : ℕ)
    (id : MatchId) :
    (firstRoundMatch tournamentId (seededSlots participantIds (2 ^ k)) id).status = .bye ∧
        (∃ slot : Slot, positioned participantIds k (2 * id.position + slot.index) = none) ∨
      (firstRoundMatch tournamentId (seededSlots participantIds (2 ^ k)) id).status = .pending ∧
        ∀ slot : Slot, (positioned participantIds k (2 * id.position + slot.index)).isSome = true := by
  rw [Nat.mul_comm 2]
  simp only [firstRoundMatch, createTournamentMatch]
  split
  next missing =>
    refine .inl ⟨rfl, ?_⟩
    rcases Bool.or_eq_true_iff.mp missing with first | second
    · exact ⟨.a, Option.isNone_iff_eq_none.mp first⟩
    · exact ⟨.b, Option.isNone_iff_eq_none.mp second⟩
  next full =>
    simp only [Bool.or_eq_true, not_or, Option.isNone_iff_eq_none, ← ne_eq,
      Option.ne_none_iff_isSome] at full
    refine .inr ⟨rfl, ?_⟩
    intro slot
    cases slot with
    | a => exact full.1
    | b => exact full.2

def laterMatch (tournamentId : Text) (id : MatchId) : TournamentMatch :=
  createTournamentMatch tournamentId id none none .pending

/-- The slot of the match `index / 2` that the match `index` of a round leads to. -/
def pairSlot (index : ℕ) : Slot := if index % 2 = 0 then .a else .b

@[simp]
theorem index_pairSlot (index : ℕ) : (pairSlot index).index = index % 2 := by
  unfold pairSlot
  split
  next even => exact even.symm
  next odd => exact (Nat.mod_two_ne_zero.mp odd).symm

theorem pairSlot_eq_iff {index : ℕ} {slot : Slot} : pairSlot index = slot ↔ index % 2 = slot.index := by
  constructor
  · rintro rfl
    exact (index_pairSlot index).symm
  · intro same
    rw [← index_pairSlot] at same
    cases filled : pairSlot index <;> cases slot <;> simp_all [Slot.index]

namespace TournamentMatch

/-- `update_match_next`. -/
def updateMatchNext (row : TournamentMatch) : Option (MatchId × Slot) → TournamentMatch
  | some (target, slot) => { row with nextMatchId := some target, nextMatchSlot := some slot }
  | none => row

/-- `update_match_loser_next`. -/
def updateMatchLoserNext (row : TournamentMatch) : Option (MatchId × Slot) → TournamentMatch
  | some (target, slot) =>
      { row with loserNextMatchId := some target, loserNextMatchSlot := some slot }
  | none => row

variable (row : TournamentMatch) (wire : Option (MatchId × Slot)) (slot : Slot)

@[simp]
theorem next_updateMatchNext : (row.updateMatchNext wire).next = wire.or row.next := by
  cases wire <;> rfl

@[simp]
theorem next_updateMatchLoserNext : (row.updateMatchLoserNext wire).next = row.next := by
  cases wire <;> rfl

@[simp]
theorem loserNext_updateMatchNext : (row.updateMatchNext wire).loserNext = row.loserNext := by
  cases wire <;> rfl

@[simp]
theorem loserNext_updateMatchLoserNext :
    (row.updateMatchLoserNext wire).loserNext = wire.or row.loserNext := by
  cases wire <;> rfl

@[simp]
theorem status_updateMatchNext : (row.updateMatchNext wire).status = row.status := by
  cases wire <;> rfl

@[simp]
theorem status_updateMatchLoserNext : (row.updateMatchLoserNext wire).status = row.status := by
  cases wire <;> rfl

@[simp]
theorem participant_updateMatchNext :
    (row.updateMatchNext wire).participant slot = row.participant slot := by
  cases wire <;> cases slot <;> rfl

@[simp]
theorem participant_updateMatchLoserNext :
    (row.updateMatchLoserNext wire).participant slot = row.participant slot := by
  cases wire <;> cases slot <;> rfl

end TournamentMatch

namespace Matches

def updateNext (bracket : Matches) (next : MatchId → Option (MatchId × Slot)) : Matches where
  keys := bracket.keys
  row id := (bracket.row id).updateMatchNext (next id)

def updateLoserNext (bracket : Matches) (loserNext : MatchId → Option (MatchId × Slot)) :
    Matches where
  keys := bracket.keys
  row id := (bracket.row id).updateMatchLoserNext (loserNext id)

/-- The participant of a bye goes on; the later match has been created. -/
def advanceBye (bracket : Matches) (id : MatchId) : Matches :=
  match (bracket.row id).participantAId.or (bracket.row id).participantBId, (bracket.row id).next with
  | some winner, some (target, slot) =>
      if (bracket.row id).status = .bye then
        (bracket.setMatchParticipant target slot winner).getD bracket
      else bracket
  | _, _ => bracket

def advanceByes (bracket : Matches) (firstRound : List MatchId) : Matches :=
  firstRound.foldl advanceBye bracket

end Matches

/-! ## The byes -/

section Byes

variable {bracket : Matches} {id key : MatchId} {slot : Slot}

theorem advanceBye_same (bracket : Matches) (id : MatchId) :
    (bracket.advanceBye id).keys = bracket.keys ∧
      ∀ key, SameButSlots (bracket.row key) ((bracket.advanceBye id).row key) := by
  unfold Matches.advanceBye
  split
  next winner target slot _ _ =>
    split
    next =>
      cases filled : bracket.setMatchParticipant target slot winner with
      | some after => exact setMatchParticipant_same filled
      | none => exact ⟨rfl, fun key => .refl _⟩
    next => exact ⟨rfl, fun key => .refl _⟩
  next => exact ⟨rfl, fun key => .refl _⟩

/-- A bye fills the slot it leads to. -/
theorem advanceBye_participant (wired : Wired bracket) (id_mem : id ∈ bracket.keys) :
    ((bracket.advanceBye id).row key).participant slot =
      (if (bracket.row id).status = .bye ∧ (bracket.row id).next = some (key, slot) then
        (bracket.row id).advances else none).or ((bracket.row key).participant slot) := by
  unfold Matches.advanceBye
  split
  next winner target filled goes_on leads =>
    split
    next bye =>
      have stored := (wired.next_mem id id_mem _ _ leads).1
      have advances : (bracket.row id).advances = some winner := by
        simp only [TournamentMatch.advances, bye, goes_on]
      rw [setMatchParticipant_eq_some.mpr ⟨stored, rfl⟩, Option.getD_some, Keyed.row_replace]
      by_cases same : key = target
      · rcases same with rfl
        by_cases at_slot : slot = filled <;> simp [at_slot, bye, leads, advances, eq_comm]
      · simp [same, leads, Ne.symm same]
    next not_bye => simp [not_bye]
  next stays =>
    split
    next leads =>
      rcases leads with ⟨bye, leads⟩
      cases goes_on : (bracket.row id).participantAId.or (bracket.row id).participantBId with
      | none => simp [TournamentMatch.advances, bye, goes_on]
      | some winner => exact absurd leads (stays winner key slot goes_on)
    next => rfl

theorem Wired.of_same {created : Matches} (wired : Wired created)
    (keys : bracket.keys = created.keys)
    (same : ∀ key, SameButSlots (created.row key) (bracket.row key)) : Wired bracket where
  next_mem := by
    simp only [keys, (same _).next, (same _).status]
    exact wired.next_mem
  loserNext_mem := by
    simp only [keys, (same _).loserNext, (same _).status]
    exact wired.loserNext_mem
  next_inj := by
    simp only [keys, (same _).next]
    exact wired.next_inj
  loserNext_inj := by
    simp only [keys, (same _).loserNext]
    exact wired.loserNext_inj
  apart := by
    simp only [keys, (same _).next, (same _).loserNext]
    exact wired.apart

/-- The slots after the byes so far have gone on. -/
structure ByesFed (created bracket : Matches) (processed : List MatchId) : Prop where
  keys : bracket.keys = created.keys
  same : ∀ key, SameButSlots (created.row key) (bracket.row key)
  kept : ∀ key slot, (∀ id ∈ created.keys, (created.row id).next ≠ some (key, slot)) →
    (bracket.row key).participant slot = (created.row key).participant slot
  fed : ∀ key ∈ created.keys, ∀ target slot, (created.row key).next = some (target, slot) →
    (bracket.row target).participant slot =
      if key ∈ processed then (created.row key).advances else none

namespace ByesFed

variable {created : Matches} {processed : List MatchId}

theorem advances (fed : ByesFed created bracket processed) (wired : Wired created) (key : MatchId) :
    (bracket.row key).advances = (created.row key).advances := by
  unfold TournamentMatch.advances
  rw [(fed.same key).status, (fed.same key).winnerId]
  cases status : (created.row key).status with
  | bye =>
      have open' : ∀ slot, ∀ id ∈ created.keys, (created.row id).next ≠ some (key, slot) :=
        fun slot id id_mem leads => (wired.next_mem id id_mem key slot leads).2 status
      have same_a := fed.kept key .a (open' .a)
      have same_b := fed.kept key .b (open' .b)
      simp only [TournamentMatch.participant] at same_a same_b
      simp only [same_a, same_b]
  | _ => rfl

theorem fed_of (fed : ByesFed created bracket processed) (wired : Wired created)
    (open' : ∀ key ∈ created.keys, key ∉ processed → (created.row key).advances = none) :
    Fed bracket := by
  intro key key_mem target slot leads
  rw [fed.keys] at key_mem
  rw [(fed.same key).next] at leads
  rw [fed.fed key key_mem target slot leads, fed.advances wired key]
  split
  next => rfl
  next other => exact (open' key key_mem other).symm

theorem step (fed : ByesFed created bracket processed) (wired : Wired created)
    (id_mem : id ∈ created.keys) (new : id ∉ processed)
    (undecided : (created.row id).status ≠ .completed) :
    ByesFed created (bracket.advanceBye id) (processed ++ [id]) := by
  have wired' := wired.of_same fed.keys fed.same
  have id_mem' : id ∈ bracket.keys := fed.keys ▸ id_mem
  rcases advanceBye_same bracket id with ⟨keys, same⟩
  have leads_same := (fed.same id).next
  have status_same := (fed.same id).status
  refine ⟨keys.trans fed.keys, fun key => (fed.same key).trans (same key), ?_, ?_⟩
  · intro key slot open'
    rw [advanceBye_participant wired' id_mem', leads_same, if_neg, Option.none_or]
    · exact fed.kept key slot open'
    · exact fun leads => open' id id_mem leads.2
  · intro key key_mem target slot leads
    rw [advanceBye_participant wired' id_mem', leads_same, status_same, fed.advances wired id,
      fed.fed key key_mem target slot leads]
    by_cases own : key = id
    · rcases own with rfl
      simp only [leads, and_true, new, if_false, List.mem_append, List.mem_singleton, or_true,
        if_true, Option.or_none]
      split
      next => rfl
      next not_bye =>
        unfold TournamentMatch.advances
        cases status : (created.row key).status with
        | bye => exact absurd status not_bye
        | completed => exact absurd status undecided
        | _ => rfl
    · have other : (created.row id).next ≠ some (target, slot) := fun same_target =>
        own (wired.next_inj key key_mem id id_mem _ leads same_target)
      simp [other, own]

end ByesFed

/-- The byes fill the slots they lead to, and every other slot stays as it was created. -/
theorem advanceByes_fed {created : Matches} {firstRound : List MatchId} (wired : Wired created)
    (first_mem : ∀ id ∈ firstRound, id ∈ created.keys) (distinct : firstRound.Nodup)
    (undecided : ∀ id, (created.row id).status ≠ .completed)
    (empty : ∀ key ∈ created.keys, ∀ target slot, (created.row key).next = some (target, slot) →
      (created.row target).participant slot = none) :
    ByesFed created (created.advanceByes firstRound) firstRound := by
  have start : ByesFed created created [] :=
    ⟨rfl, fun key => .refl _, fun _ _ _ => rfl, fun key key_mem target slot leads => by
      simpa using empty key key_mem target slot leads⟩
  have run : ∀ (rest processed : List MatchId) (bracket : Matches),
      processed ++ rest = firstRound → ByesFed created bracket processed →
        ByesFed created (rest.foldl Matches.advanceBye bracket) firstRound := by
    intro rest
    induction rest with
    | nil =>
        intro processed bracket split fed
        rw [List.append_nil] at split
        exact split ▸ fed
    | cons id rest ih =>
        intro processed bracket split fed
        have id_mem : id ∈ firstRound := by simp [← split]
        have new : id ∉ processed := by
          intro seen
          rw [← split, List.nodup_append] at distinct
          exact distinct.2.2 id seen id List.mem_cons_self rfl
        refine ih (processed ++ [id]) _ (by simpa using split) ?_
        exact fed.step wired (first_mem id id_mem) new (undecided id)
  exact run firstRound [] created rfl start

end Byes

end ScuffedCrew.Tournaments
