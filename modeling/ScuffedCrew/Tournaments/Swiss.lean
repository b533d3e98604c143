import Mathlib.Data.List.Sort
import ScuffedCrew.Tournaments.Bracket

/-!
# Swiss rounds

The standings of a Swiss tournament and the pairings of its next round: from the
top, everyone gets the first one left that it has not met, or else the first one
left.
-/

namespace ScuffedCrew.Tournaments

open Rust Database

structure SwissParticipant where
  id : Text
  teamId : Option Text
  externalName : Option Text

structure SwissStanding where
  participantId : Text
  participantName : Text
  wins : ℕ
  losses : ℕ
  draws : ℕ
  gameWins : ℕ
  gameLosses : ℕ
  buchholz : ℕ
  rank : ℕ

/-- What a completed match does to a standing. -/
def SwissStanding.count (standing : SwissStanding) (row : TournamentMatch) : SwissStanding :=
  let isA := row.participantAId = some standing.participantId
  let isB := row.participantBId = some standing.participantId
  if ¬isA ∧ ¬isB then standing
  else
    let (myScore, theirScore) :=
      if isA then (row.scoreA.getD 0, row.scoreB.getD 0) else (row.scoreB.getD 0, row.scoreA.getD 0)
    let standing := { standing with
      gameWins := standing.gameWins + myScore
      gameLosses := standing.gameLosses + theirScore }
    if row.winnerId = some standing.participantId then { standing with wins := standing.wins + 1 }
    else if row.winnerId.isSome then { standing with losses := standing.losses + 1 }
    else { standing with draws := standing.draws + 1 }

def initialStanding (participant : SwissParticipant) : SwissStanding where
  participantId := participant.id
  participantName := (participant.externalName.or participant.teamId).getD "TBD".toList
  wins := 0
  losses := 0
  draws := 0
  gameWins := 0
  gameLosses := 0
  buchholz := 0
  rank := 0

/-- The sum of the wins of the opponents. -/
def buchholz (standings : List SwissStanding) (completed : List TournamentMatch) (id : Text) : ℕ :=
  completed.foldl
    (fun total row =>
      let opponent :=
        if row.participantAId = some id then row.participantBId
        else if row.participantBId = some id then row.participantAId
        else none
      match opponent.bind fun opponent => standings.find? fun s => s.participantId = opponent with
      | some opponent => total + opponent.wins
      | none => total) 0

/-- The order of the standings: wins, then Buchholz, then the difference of the games. -/
def standingLe (a b : SwissStanding) : Prop :=
  b.wins < a.wins ∨ b.wins = a.wins ∧ (b.buchholz < a.buchholz ∨ b.buchholz = a.buchholz ∧
    (b.gameWins : ℤ) - b.gameLosses ≤ (a.gameWins : ℤ) - a.gameLosses)

instance (a b : SwissStanding) : Decidable (standingLe a b) := inferInstanceAs (Decidable (_ ∨ _))

def getSwissStandings (participants : List SwissParticipant) (rows : List TournamentMatch) :
    List SwissStanding :=
  let completed := rows.filter fun row => row.status = .completed
  let standings := participants.map fun p => completed.foldl SwissStanding.count (initialStanding p)
  let standings := standings.map fun s =>
    { s with buchholz := buchholz standings completed s.participantId }
  (standings.insertionSort standingLe).zipIdx.map fun (s, i) => { s with rank := i + 1 }

/-! ## The pairings of a round -/

/-- `pair.sort()` of two. -/
def sortPair (a b : Text) : Text × Text := if b < a then (b, a) else (a, b)

def previousPairings (rows : List TournamentMatch) : List (Text × Text) :=
  rows.filterMap fun row =>
    match row.participantAId, row.participantBId with
    | some a, some b => some (sortPair a b)
    | _, _ => none

/-- The pairs in the order they are made, and the one that is left. -/
def pairAvailable (previous : List (Text × Text)) :
    ℕ → List Text → List (Text × Text) × Option Text
  | fuel + 1, a :: b :: rest =>
      let available := b :: rest
      match available.findIdx? fun b => !previous.contains (sortPair a b) with
      | some i =>
          let (pairs, left) := pairAvailable previous fuel (available.eraseIdx i)
          ((a, available.getD i b) :: pairs, left)
      | none =>
          let (pairs, left) := pairAvailable previous fuel rest
          ((a, b) :: pairs, left)
  | _, available => ([], available.head?)

/-- The new round and its matches. -/
def generateSwissRound (tournamentId : Text) (participants : List SwissParticipant)
    (rounds : List RoundId) (rows : List TournamentMatch) : RoundId × List TournamentMatch :=
  let round : RoundId := ⟨.main, rounds.length + 1⟩
  let available := (getSwissStandings participants rows).map SwissStanding.participantId
  let (pairs, left) := pairAvailable (previousPairings rows) available.length available
  let paired := pairs.zipIdx.map fun ((a, b), position) =>
    createTournamentMatch tournamentId ⟨round, position⟩ (some a) (some b) .pending
  let bye := left.toList.map fun a =>
    createTournamentMatch tournamentId ⟨round, pairs.length⟩ (some a) none .bye
  (round, paired ++ bye)

section order

theorem sortPair_eq_iff {a b c d : Text} :
    sortPair a b = sortPair c d ↔ a = c ∧ b = d ∨ a = d ∧ b = c := by
  unfold sortPair
  split
  next falls =>
    split
    next falls' =>
      constructor
      · simp +contextual
      · rintro (⟨rfl, rfl⟩ | ⟨rfl, rfl⟩)
        · rfl
        · exact absurd falls' (List.lt_asymm falls)
    next rises' =>
      constructor
      · simp +contextual
      · rintro (⟨rfl, rfl⟩ | ⟨rfl, rfl⟩)
        · exact absurd falls rises'
        · rfl
  next rises =>
    split
    next falls' =>
      constructor
      · simp +contextual
      · rintro (⟨rfl, rfl⟩ | ⟨rfl, rfl⟩)
        · exact absurd falls' rises
        · rfl
    next rises' =>
      constructor
      · simp +contextual
      · rintro (⟨rfl, rfl⟩ | ⟨rfl, rfl⟩)
        · rfl
        · rw [List.le_antisymm (List.not_lt.mp rises) (List.not_lt.mp rises')]

end order

end ScuffedCrew.Tournaments
