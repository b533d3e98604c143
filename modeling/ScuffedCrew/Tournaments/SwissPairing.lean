import Mathlib.Data.List.Perm.Basic
import ScuffedCrew.Tournaments.Swiss

/-!
# What a Swiss round pairs

Everyone is in one pairing or has the bye.  Two that have met are paired only if
the higher placed of them has met everyone who is left; a better choice for those
above may have been possible.
-/

namespace ScuffedCrew.Tournaments

open Rust Database

/-! ## The standings -/

section standings

@[simp]
theorem participantId_count (standing : SwissStanding) (row : TournamentMatch) :
    (standing.count row).participantId = standing.participantId := by
  dsimp only [SwissStanding.count]
  split
  next => rfl
  next =>
    split
    next => rfl
    next => split <;> rfl

theorem participantId_foldl (completed : List TournamentMatch) (standing : SwissStanding) :
    (completed.foldl SwissStanding.count standing).participantId = standing.participantId := by
  induction completed generalizing standing with
  | nil => rfl
  | cons row completed ih => rw [List.foldl_cons, ih, participantId_count]

/-- The standings rank the participants. -/
theorem participantId_ranked (standings : List SwissStanding) :
    (standings.zipIdx.map fun (s, i) => { s with rank := i + 1 }).map
      SwissStanding.participantId = standings.map SwissStanding.participantId := by
  rw [List.map_map]
  calc
    standings.zipIdx.map _ = standings.zipIdx.map (SwissStanding.participantId ∘ Prod.fst) := rfl
    _ = standings.map SwissStanding.participantId := by
      rw [← List.map_map, List.zipIdx_map_fst]

theorem standings_perm (participants : List SwissParticipant) (rows : List TournamentMatch) :
    ((getSwissStandings participants rows).map SwissStanding.participantId).Perm
      (participants.map SwissParticipant.id) := by
  simp only [getSwissStandings, participantId_ranked]
  refine ((List.perm_insertionSort _ _).map _).trans ?_
  simp only [List.map_map]
  apply List.Perm.of_eq
  apply List.map_congr_left
  intro participant entered
  exact participantId_foldl _ _

end standings

/-! ## The pairs -/

def pairPlayers (pairs : List (Text × Text)) : List Text := pairs.flatMap fun (a, b) => [a, b]

section pairs

variable {previous : List (Text × Text)}

theorem findIdx?_new {available : List Text} {a : Text} {i : ℕ}
    (found : available.findIdx? (fun b => !previous.contains (sortPair a b)) = some i) :
    ∃ inside : i < available.length, ¬sortPair a available[i] ∈ previous := by
  rcases List.findIdx?_eq_some_iff_getElem.mp found with ⟨inside, unmet, -⟩
  exact ⟨inside, by simpa using unmet⟩

theorem pairAvailable_perm {fuel : ℕ} {available : List Text} (enough : available.length ≤ fuel) :
    (pairPlayers (pairAvailable previous fuel available).1 ++
      (pairAvailable previous fuel available).2.toList).Perm available := by
  fun_induction pairAvailable with
  | case1 fuel a b rest available i found pairs left result ih =>
      rcases findIdx?_new found with ⟨inside, -⟩
      have shorter : (available.eraseIdx i).length ≤ fuel := by
        rw [List.length_eraseIdx_of_lt inside]
        simp only [available, List.length_cons] at enough ⊢
        omega
      have remaining := ih shorter
      rw [result] at remaining
      have chosen : available.getD i b = available[i] := by simp [inside]
      simp only [pairPlayers, List.flatMap_cons, chosen, List.cons_append, List.nil_append]
      exact ((remaining.cons available[i]).trans (List.getElem_cons_eraseIdx_perm inside)).cons a
  | case2 fuel a b rest available none_new pairs left result ih =>
      have remaining := ih (by simp only [List.length_cons] at enough; omega)
      rw [result] at remaining
      simp only [pairPlayers, List.flatMap_cons, List.cons_append, List.nil_append]
      exact (remaining.cons b).cons a
  | case3 fuel available short =>
      cases available with
      | nil => exact List.Perm.refl _
      | cons a available =>
          cases available with
          | nil => exact List.Perm.refl _
          | cons b rest =>
              cases fuel with
              | zero => cases enough
              | succ fuel => exact (short fuel a b rest rfl rfl).elim

/-- Where two that have met are paired, the first has met everyone who is left. -/
theorem pairAvailable_rematch {fuel : ℕ} {available : List Text} (enough : available.length ≤ fuel)
    {i : ℕ} {a b : Text} (paired : (pairAvailable previous fuel available).1[i]? = some (a, b))
    (met : sortPair a b ∈ previous) :
    ∃ rest, (a :: rest).Sublist available ∧
      (pairPlayers ((pairAvailable previous fuel available).1.drop i) ++
        (pairAvailable previous fuel available).2.toList).Perm (a :: rest) ∧
      ∀ c ∈ rest, sortPair a c ∈ previous := by
  fun_induction pairAvailable generalizing i with
  | case1 fuel a' b' rest available j found pairs left result ih =>
      rcases findIdx?_new found with ⟨inside, unmet⟩
      have shorter : (available.eraseIdx j).length ≤ fuel := by
        rw [List.length_eraseIdx_of_lt inside]
        simp only [available, List.length_cons] at enough ⊢
        omega
      cases i with
      | zero =>
          simp [inside] at paired
          rcases paired with ⟨rfl, rfl⟩
          exact absurd met unmet
      | succ i =>
          rw [result] at ih
          rcases ih shorter (by simpa using paired) with ⟨others, kept, perm, all_met⟩
          refine ⟨others, ?_, by simpa using perm, all_met⟩
          exact (kept.trans (List.eraseIdx_sublist _ _)).trans (List.sublist_cons_self _ _)
  | case2 fuel a' b' rest available none_new pairs left result ih =>
      have shorter : rest.length ≤ fuel := by
        simp only [List.length_cons] at enough
        omega
      cases i with
      | zero =>
          simp at paired
          rcases paired with ⟨rfl, rfl⟩
          have perm := @pairAvailable_perm previous fuel rest shorter
          rw [result] at perm
          refine ⟨available, List.Sublist.refl _, ?_, ?_⟩
          · simp only [pairPlayers, List.drop_zero, List.flatMap_cons, List.cons_append,
              List.nil_append]
            exact (perm.cons _).cons _
          · intro c here
            have none_new := List.findIdx?_eq_none_iff.mp none_new c here
            simpa using none_new
      | succ i =>
          rw [result] at ih
          rcases ih shorter (by simpa using paired) with ⟨others, kept, perm, all_met⟩
          refine ⟨others, ?_, by simpa using perm, all_met⟩
          exact (kept.trans (List.sublist_cons_self _ _)).trans (List.sublist_cons_self _ _)
  | case3 fuel available short => simp at paired

end pairs

/-! ## The round -/

def TournamentMatch.players (row : TournamentMatch) : List Text :=
  [row.participantAId, row.participantBId].reduceOption

def Rematch (earlier : List TournamentMatch) (a b : Text) : Prop := ∃ row ∈ earlier, row.Plays a b

/-- A round that is complete and pairs two again only for want of others for the first of them. -/
structure SwissRound (order : List Text) (earlier round : List TournamentMatch) : Prop where
  everyone : (round.flatMap TournamentMatch.players).Perm order
  pairings : ∀ row ∈ round, row.status ≠ .bye →
    ∃ a b, row.participantAId = some a ∧ row.participantBId = some b
  bye : ∀ row ∈ round, row.status = .bye →
    (∃ a, row.participantAId = some a ∧ row.participantBId = none) ∧
      row.bracketPosition + 1 = round.length
  rematch : ∀ row ∈ round, ∀ a b, row.participantAId = some a → row.participantBId = some b →
    Rematch earlier a b →
      ∃ rest, (a :: rest).Sublist order ∧
        ((round.drop row.bracketPosition).flatMap TournamentMatch.players).Perm (a :: rest) ∧
        ∀ c ∈ rest, Rematch earlier a c

section round

variable {rows : List TournamentMatch} {a b : Text}

theorem mem_previousPairings : sortPair a b ∈ previousPairings rows ↔ Rematch rows a b := by
  simp only [previousPairings, List.mem_filterMap, Rematch]
  apply exists_congr
  intro row
  apply and_congr_right
  intro row_mem
  constructor
  · intro sorted
    cases at_a : row.participantAId with
    | none => simp [at_a] at sorted
    | some c =>
        cases at_b : row.participantBId with
        | none => simp [at_a, at_b] at sorted
        | some d =>
            simp only [at_a, at_b, Option.some.injEq, sortPair_eq_iff] at sorted
            rcases sorted with ⟨rfl, rfl⟩ | ⟨rfl, rfl⟩
            · exact ⟨.a, at_a, at_b⟩
            · exact ⟨.b, at_b, at_a⟩
  · rintro ⟨slot, at_slot, at_other⟩
    cases slot with
    | a =>
        simp only [TournamentMatch.participant, Slot.other] at at_slot at_other
        simp [at_slot, at_other]
    | b =>
        simp only [TournamentMatch.participant, Slot.other] at at_slot at_other
        simp [at_slot, at_other, sortPair_eq_iff]

/-- The matches of the pairs and of the bye. -/
def roundMatches (tournamentId : Text) (round : RoundId) (pairs : List (Text × Text))
    (left : Option Text) : List TournamentMatch :=
  (pairs.zipIdx.map fun ((a, b), position) =>
    createTournamentMatch tournamentId ⟨round, position⟩ (some a) (some b) .pending) ++
  left.toList.map fun a =>
    createTournamentMatch tournamentId ⟨round, pairs.length⟩ (some a) none .bye

variable {tournamentId : Text} {round : RoundId} {pairs : List (Text × Text)} {left : Option Text}

theorem mem_roundMatches {row : TournamentMatch} :
    row ∈ roundMatches tournamentId round pairs left ↔
      (∃ position a b, pairs[position]? = some (a, b) ∧
        row = createTournamentMatch tournamentId ⟨round, position⟩ (some a) (some b) .pending) ∨
      ∃ a, left = some a ∧
        row = createTournamentMatch tournamentId ⟨round, pairs.length⟩ (some a) none .bye := by
  simp only [roundMatches, List.mem_append, List.mem_map, Option.mem_toList,
    Prod.exists, List.mem_zipIdx_iff_getElem?]
  apply or_congr
  · constructor
    · rintro ⟨a, b, position, here, rfl⟩
      exact ⟨position, a, b, here, rfl⟩
    · rintro ⟨position, a, b, here, rfl⟩
      exact ⟨a, b, position, here, rfl⟩
  · constructor
    · rintro ⟨a, here, rfl⟩
      exact ⟨a, here, rfl⟩
    · rintro ⟨a, here, rfl⟩
      exact ⟨a, here, rfl⟩

theorem players_drop {position : ℕ} (inside : position ≤ pairs.length) :
    ((roundMatches tournamentId round pairs left).drop position).flatMap TournamentMatch.players =
      pairPlayers (pairs.drop position) ++ left.toList := by
  have players_left : (left.toList.map fun a =>
      createTournamentMatch tournamentId ⟨round, pairs.length⟩ (some a) none .bye).flatMap
        TournamentMatch.players = left.toList := by
    cases left <;> rfl
  have players_pairs : ((pairs.zipIdx.drop position).map fun ((a, b), position) =>
      createTournamentMatch tournamentId ⟨round, position⟩ (some a) (some b) .pending).flatMap
        TournamentMatch.players = pairPlayers (pairs.drop position) := by
    calc
      _ = (pairs.zipIdx.drop position).flatMap fun paired => [paired.1.1, paired.1.2] := by
        rw [List.flatMap_map]
        rfl
      _ = ((pairs.zipIdx.drop position).map Prod.fst).flatMap fun (a, b) => [a, b] := by
        rw [List.flatMap_map]
      _ = pairPlayers (pairs.drop position) := by
        rw [List.map_drop, List.zipIdx_map_fst]
        rfl
  rw [roundMatches, List.drop_append_of_le_length (by simpa using inside), List.flatMap_append,
    ← List.map_drop, players_pairs, players_left]

theorem swissRound_roundMatches {order : List Text} (rows : List TournamentMatch) :
    SwissRound order rows (roundMatches tournamentId round
      (pairAvailable (previousPairings rows) order.length order).1
      (pairAvailable (previousPairings rows) order.length order).2) where
  everyone := by
    rw [← List.drop_zero (l := roundMatches ..), players_drop (Nat.zero_le _), List.drop_zero]
    exact pairAvailable_perm (Nat.le_refl _)
  pairings := by
    intro row row_mem not_bye
    rcases mem_roundMatches.mp row_mem with ⟨position, a, b, -, rfl⟩ | ⟨a, -, rfl⟩
    · exact ⟨a, b, rfl, rfl⟩
    · exact absurd rfl not_bye
  bye := by
    intro row row_mem bye
    rcases mem_roundMatches.mp row_mem with ⟨position, a, b, -, rfl⟩ | ⟨a, left, rfl⟩
    · cases bye
    · refine ⟨⟨a, rfl, rfl⟩, ?_⟩
      simp [roundMatches, left, createTournamentMatch]
  rematch := by
    intro row row_mem a b at_a at_b met
    rcases mem_roundMatches.mp row_mem with ⟨position, a', b', paired, rfl⟩ | ⟨a', -, rfl⟩
    · cases at_a
      cases at_b
      rcases pairAvailable_rematch (Nat.le_refl _) paired (mem_previousPairings.mpr met) with
        ⟨rest, kept, perm, all_met⟩
      refine ⟨rest, kept, ?_, fun c here => mem_previousPairings.mp (all_met c here)⟩
      have inside := (List.getElem?_eq_some_iff.mp paired).1
      rw [show (createTournamentMatch tournamentId ⟨round, position⟩ (some a) (some b)
        .pending).bracketPosition = position from rfl, players_drop inside.le]
      exact perm
    · cases at_b

end round

/-- A rematch is scheduled only if every pairing of the same players has one. -/
def AvoidsRematches (earlier round : List TournamentMatch) : Prop :=
  (∃ row ∈ round, ∃ a b, row.participantAId = some a ∧ row.participantBId = some b ∧
    Rematch earlier a b) →
  ∀ pairs, (pairPlayers pairs).Perm ((round.filter fun row => row.status ≠ .bye).flatMap
    TournamentMatch.players) → ∃ pair ∈ pairs, Rematch earlier pair.1 pair.2

def played (round position : ℕ) (winner loser : Text) : TournamentMatch :=
  { createTournamentMatch ['t'] ⟨⟨.main, round⟩, position⟩ (some winner) (some loser) .completed with
    winnerId := some winner
    scoreA := some 1
    scoreB := some 0 }

/-- Six participants after two rounds that the pairing made itself. -/
def twoRounds : List TournamentMatch :=
  [played 1 0 ['a'] ['b'], played 1 1 ['c'] ['d'], played 1 2 ['e'] ['f'],
    played 2 0 ['a'] ['c'], played 2 1 ['e'] ['b'], played 2 2 ['d'] ['f']]

def sixParticipants : List SwissParticipant :=
  [['a'], ['b'], ['c'], ['d'], ['e'], ['f']].map fun id => ⟨id, none, none⟩

end ScuffedCrew.Tournaments
