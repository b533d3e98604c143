import ScuffedCrew.Database.Indexed
import ScuffedCrew.Rust.Text

/-!
# Tournament matches

A match of a bracket: its two slots, its result, and the slots of later matches
its winner and its loser go to.  The key of a match is made up by the database
when the match is created; it is named here by the stage, the round and the
position it is created for.
-/

namespace ScuffedCrew.Tournaments

open Rust Database

inductive BracketStage
  | main
  | winners
  | losers
  | grandFinal
  deriving DecidableEq

structure RoundId where
  stage : BracketStage
  number : ℕ
  deriving DecidableEq

structure MatchId where
  round : RoundId
  position : ℕ
  deriving DecidableEq

inductive Slot
  | a
  | b
  deriving DecidableEq

/-- The place of a slot in its match. -/
def Slot.index : Slot → ℕ
  | .a => 0
  | .b => 1

def Slot.other : Slot → Slot
  | .a => .b
  | .b => .a

theorem Slot.index_lt (slot : Slot) : slot.index < 2 := by
  cases slot <;> decide

theorem Slot.exists_index {index : ℕ} (side : index < 2) : ∃ slot : Slot, slot.index = index := by
  rcases Nat.lt_succ_iff_lt_or_eq.mp side with first | rfl
  · exact ⟨.a, (Nat.lt_one_iff.mp first).symm⟩
  · exact ⟨.b, rfl⟩

inductive TournamentMatchStatus
  | pending
  | scheduled
  | inProgress
  | completed
  | bye
  deriving DecidableEq

structure TournamentMatch where
  tournamentId : Text
  roundId : RoundId
  bracketPosition : ℕ
  participantAId : Option Text
  participantBId : Option Text
  scoreA : Option ℕ
  scoreB : Option ℕ
  winnerId : Option Text
  status : TournamentMatchStatus
  nextMatchId : Option MatchId
  nextMatchSlot : Option Slot
  loserNextMatchId : Option MatchId
  loserNextMatchSlot : Option Slot
  notes : Option Text
  replayCodes : List Text
  deriving DecidableEq

abbrev Matches := Keyed MatchId TournamentMatch

namespace TournamentMatch

def participant (row : TournamentMatch) : Slot → Option Text
  | .a => row.participantAId
  | .b => row.participantBId

def fill (row : TournamentMatch) (slot : Slot) (participantId : Text) : TournamentMatch :=
  match slot with
  | .a => { row with participantAId := some participantId }
  | .b => { row with participantBId := some participantId }

def next (row : TournamentMatch) : Option (MatchId × Slot) :=
  row.nextMatchId.bind fun id => row.nextMatchSlot.map fun slot => (id, slot)

def loserNext (row : TournamentMatch) : Option (MatchId × Slot) :=
  row.loserNextMatchId.bind fun id => row.loserNextMatchSlot.map fun slot => (id, slot)

def loserId (row : TournamentMatch) (winner : Text) : Option Text :=
  if row.participantAId = some winner then row.participantBId else row.participantAId

/-- The match is between the two. -/
def Plays (row : TournamentMatch) (p q : Text) : Prop :=
  ∃ slot, row.participant slot = some p ∧ row.participant slot.other = some q

def isDone (row : TournamentMatch) : Bool :=
  row.status == .completed || row.status == .bye

variable (row : TournamentMatch) (slot other : Slot) (participantId : Text)

@[simp]
theorem participant_fill : (row.fill slot participantId).participant other =
    if other = slot then some participantId else row.participant other := by
  cases slot <;> cases other <;> rfl

@[simp]
theorem status_fill : (row.fill slot participantId).status = row.status := by
  cases slot <;> rfl

@[simp]
theorem winnerId_fill : (row.fill slot participantId).winnerId = row.winnerId := by
  cases slot <;> rfl

@[simp]
theorem tournamentId_fill : (row.fill slot participantId).tournamentId = row.tournamentId := by
  cases slot <;> rfl

@[simp]
theorem next_fill : (row.fill slot participantId).next = row.next := by
  cases slot <;> rfl

@[simp]
theorem loserNext_fill : (row.fill slot participantId).loserNext = row.loserNext := by
  cases slot <;> rfl

end TournamentMatch

end ScuffedCrew.Tournaments
