import ScuffedCrew.StateMachine.Run
import ScuffedCrew.Tournaments.Match

/-!
# Reporting a match

`report_match` checks the report against the stored match, completes the match
if it is still pending, writes its winner and its loser into the slots they go
to, and marks the round and the tournament completed when nothing is left.
-/

namespace ScuffedCrew.Tournaments

open Rust Database StateMachine

inductive TournamentFormat
  | singleElim
  | doubleElim
  | roundRobin
  | swiss
  deriving DecidableEq

inductive TournamentStatus
  | draft
  | registration
  | inProgress
  | completed
  | archived
  deriving DecidableEq

inductive RoundStatus
  | pending
  | inProgress
  | completed
  deriving DecidableEq

inductive ParticipantStatus
  | registered
  | checkedIn
  | active
  | eliminated
  | withdrawn
  | disqualified
  deriving DecidableEq

structure Tournament where
  id : Text
  format : TournamentFormat
  status : TournamentStatus
  participants : Keyed Text ParticipantStatus
  rounds : Keyed RoundId RoundStatus
  bracket : Matches

structure MatchReport where
  tournamentId : Text
  matchId : MatchId
  scoreA : ℕ
  scoreB : ℕ
  winnerId : Text
  notes : Option Text
  replayCodes : Option (List Text)
  deriving DecidableEq

inductive ReportError
  | matchNotFound
  | notInThisTournament
  /-- `winner_id` is not a participant, found by the route. -/
  | notAParticipant
  /-- The same, found by the database layer. -/
  | foreignWinner
  | scoreNotGreater (winnerScore loserScore : ℕ)
  | notPending
  | internal
  deriving DecidableEq

namespace MatchReport

def winner (report : MatchReport) : Text := report.winnerId.trim

/-- What `report_match` checks on the match it has loaded. -/
def routeCheck (report : MatchReport) : Option TournamentMatch → Option ReportError
  | none => some .matchNotFound
  | some existing =>
      if existing.tournamentId ≠ report.tournamentId then some .notInThisTournament
      else if report.winner.isEmpty ∨
          existing.participantAId ≠ some report.winner ∧
            existing.participantBId ≠ some report.winner then
        some .notAParticipant
      else none

def integrityCheck (report : MatchReport) : Option TournamentMatch → Option ReportError
  | none => some .matchNotFound
  | some row =>
      let winner := report.winner.trim
      let participantA := row.participantAId.map Text.trim
      let participantB := row.participantBId.map Text.trim
      if winner.isEmpty ∨ some winner ≠ participantA ∧ some winner ≠ participantB then
        some .foreignWinner
      else
        let (winnerScore, loserScore) :=
          if some winner = participantA then (report.scoreA, report.scoreB)
          else (report.scoreB, report.scoreA)
        if winnerScore ≤ loserScore then some (.scoreNotGreater winnerScore loserScore) else none

def complete (report : MatchReport) (row : TournamentMatch) : TournamentMatch :=
  { row with
    scoreA := some report.scoreA
    scoreB := some report.scoreB
    winnerId := some report.winner.trim
    status := .completed
    replayCodes := report.replayCodes.getD []
    notes := report.notes.or row.notes }

variable (report : MatchReport) (row : TournamentMatch) (slot : Slot)

@[simp]
theorem trim_winner : report.winner.trim = report.winner := Text.trim_trim _

@[simp]
theorem participant_complete : (report.complete row).participant slot = row.participant slot := by
  cases slot <;> rfl

@[simp]
theorem status_complete : (report.complete row).status = .completed := rfl

@[simp]
theorem winnerId_complete : (report.complete row).winnerId = some report.winner :=
  congrArg some report.trim_winner

@[simp]
theorem tournamentId_complete : (report.complete row).tournamentId = row.tournamentId := rfl

@[simp]
theorem next_complete : (report.complete row).next = row.next := rfl

@[simp]
theorem loserNext_complete : (report.complete row).loserNext = row.loserNext := rfl

end MatchReport

namespace Matches

/-- The compare-and-swap of `report_tournament_match`, with the row it returns. -/
def completePending (bracket : Matches) (report : MatchReport) : Option (Matches × TournamentMatch) :=
  (bracket.select report.matchId).bind fun row =>
    if row.status = .pending then
      some (bracket.replace report.matchId (report.complete row), report.complete row)
    else none

def setMatchParticipant (bracket : Matches) (id : MatchId) (slot : Slot) (participantId : Text) :
    Option Matches :=
  (bracket.select id).map fun row => bracket.replace id (row.fill slot participantId)

def advanceWinner (bracket : Matches) (reported : TournamentMatch) (winner : Text) :
    Option Matches :=
  match reported.next with
  | some (id, slot) => bracket.setMatchParticipant id slot winner
  | none => some bracket

def advanceLoser (bracket : Matches) (reported : TournamentMatch) (winner : Text) :
    Option Matches :=
  match reported.loserNext, reported.loserId winner with
  | some (id, slot), some loser => bracket.setMatchParticipant id slot loser
  | _, _ => some bracket

end Matches

namespace Tournament

def listTournamentMatches (tournament : Tournament) : List TournamentMatch :=
  tournament.bracket.values.filter fun row => row.tournamentId = tournament.id

def allComplete (tournament : Tournament) : Bool :=
  tournament.listTournamentMatches.all TournamentMatch.isDone

/-- Only single elimination marks the loser, who has no later match. -/
def eliminateLoser (tournament : Tournament) (reported : TournamentMatch) (winner : Text) :
    Keyed Text ParticipantStatus :=
  match reported.loserNextMatchId, reported.loserId winner with
  | none, some loser =>
      if tournament.format = .singleElim ∧ loser ∈ tournament.participants.keys then
        tournament.participants.replace loser .eliminated
      else tournament.participants
  | _, _ => tournament.participants

def completeRound (tournament : Tournament) (reported : TournamentMatch) :
    Keyed RoundId RoundStatus :=
  let round := tournament.listTournamentMatches.filter fun row => row.roundId = reported.roundId
  if round.all TournamentMatch.isDone ∧ reported.roundId ∈ tournament.rounds.keys then
    tournament.rounds.replace reported.roundId .completed
  else tournament.rounds

/-- The rest of a report, after the advancement. -/
def settle (tournament : Tournament) (reported : TournamentMatch) (winner : Text) : Tournament :=
  { tournament with
    participants := tournament.eliminateLoser reported winner
    rounds := tournament.completeRound reported
    status := if tournament.allComplete then .completed else tournament.status }

def reportMatch (tournament : Tournament) (report : MatchReport) :
    Except ReportError TournamentMatch × Tournament :=
  let existing := tournament.bracket.select report.matchId
  match report.routeCheck existing, report.integrityCheck existing,
    tournament.bracket.completePending report with
  | some error, _, _ => (.error error, tournament)
  | none, some error, _ => (.error error, tournament)
  | none, none, none => (.error .notPending, tournament)
  | none, none, some (completed, reported) =>
      match completed.advanceWinner reported report.winner with
      | none => (.error .internal, { tournament with bracket := completed })
      | some advanced =>
          match advanced.advanceLoser reported report.winner with
          | none => (.error .internal, { tournament with bracket := advanced })
          | some bracket => (.ok reported, { tournament with bracket }.settle reported report.winner)

end Tournament

/-- The sequences of reports that `report_match` accepts. -/
def reporting : Machine Tournament MatchReport where
  next tournament report :=
    match tournament.reportMatch report with
    | (.ok _, after) => some after
    | (.error _, _) => none

abbrev ReportStep := Step Tournament MatchReport

/-! ## What an accepted report does -/

/-- What a reported match sends to a slot. -/
def TournamentMatch.sends (row : TournamentMatch) (winner : Text) (target : MatchId × Slot) :
    Option Text :=
  (if row.loserNext = some target then row.loserId winner else none).or
    (if row.next = some target then some winner else none)

/-- The bracket after a report of a match: the match is completed, and its winner and loser are in
the slots they go to. -/
structure Reported (bracket after : Matches) (id : MatchId) (winner : Text) : Prop where
  mem : id ∈ bracket.keys
  pending : (bracket.row id).status = .pending
  present : ∃ slot, (bracket.row id).participant slot = some winner
  keys : after.keys = bracket.keys
  tournamentId : ∀ key, (after.row key).tournamentId = (bracket.row key).tournamentId
  status : ∀ key, (after.row key).status =
    if key = id then .completed else (bracket.row key).status
  winnerId : ∀ key, (after.row key).winnerId =
    if key = id then some winner else (bracket.row key).winnerId
  next : ∀ key, (after.row key).next = (bracket.row key).next
  loserNext : ∀ key, (after.row key).loserNext = (bracket.row key).loserNext
  participant : ∀ key slot, (after.row key).participant slot =
    ((bracket.row id).sends winner (key, slot)).or ((bracket.row key).participant slot)

section Accepted

variable {bracket after : Matches} {row reported : TournamentMatch} {winner : Text}

theorem setMatchParticipant_eq_some {id : MatchId} {slot : Slot} {participantId : Text} :
    bracket.setMatchParticipant id slot participantId = some after ↔
      id ∈ bracket.keys ∧ after = bracket.replace id ((bracket.row id).fill slot participantId) := by
  unfold Matches.setMatchParticipant Keyed.select
  split
  next stored => simp [stored, eq_comm]
  next absent => simp [absent]

theorem advanceWinner_participant (advanced : bracket.advanceWinner reported winner = some after)
    (key : MatchId) (slot : Slot) :
    (after.row key).participant slot =
      (if reported.next = some (key, slot) then some winner else none).or
        ((bracket.row key).participant slot) := by
  unfold Matches.advanceWinner at advanced
  split at advanced
  next id target goes =>
    rcases setMatchParticipant_eq_some.mp advanced with ⟨-, rfl⟩
    rw [Keyed.row_replace, goes]
    by_cases same : key = id
    · rcases same with rfl
      by_cases filled : slot = target <;> simp [filled, eq_comm]
    · simp [same, Ne.symm same]
  next stays =>
    rcases Option.some.inj advanced with rfl
    simp [stays]

theorem advanceLoser_participant (advanced : bracket.advanceLoser reported winner = some after)
    (key : MatchId) (slot : Slot) :
    (after.row key).participant slot =
      (if reported.loserNext = some (key, slot) then reported.loserId winner else none).or
        ((bracket.row key).participant slot) := by
  unfold Matches.advanceLoser at advanced
  split at advanced
  next id target loser goes lost =>
    rcases setMatchParticipant_eq_some.mp advanced with ⟨-, rfl⟩
    rw [Keyed.row_replace, goes, lost]
    by_cases same : key = id
    · rcases same with rfl
      by_cases filled : slot = target <;> simp [filled, eq_comm]
    · simp [same, Ne.symm same]
  next stays =>
    rcases Option.some.inj advanced with rfl
    split
    next goes =>
      cases lost : reported.loserId winner with
      | none => rfl
      | some loser => exact absurd lost (stays _ _ loser goes)
    next => rfl

/-- An advancement leaves everything but the slots of a row alone. -/
structure SameButSlots (row after : TournamentMatch) : Prop where
  tournamentId : after.tournamentId = row.tournamentId
  status : after.status = row.status
  winnerId : after.winnerId = row.winnerId
  next : after.next = row.next
  loserNext : after.loserNext = row.loserNext

theorem SameButSlots.refl (row : TournamentMatch) : SameButSlots row row :=
  ⟨rfl, rfl, rfl, rfl, rfl⟩

theorem SameButSlots.trans {first second third : TournamentMatch} (left : SameButSlots first second)
    (right : SameButSlots second third) : SameButSlots first third where
  tournamentId := right.tournamentId.trans left.tournamentId
  status := right.status.trans left.status
  winnerId := right.winnerId.trans left.winnerId
  next := right.next.trans left.next
  loserNext := right.loserNext.trans left.loserNext

theorem setMatchParticipant_same {id : MatchId} {slot : Slot} {participantId : Text}
    (filled : bracket.setMatchParticipant id slot participantId = some after) :
    after.keys = bracket.keys ∧ ∀ key, SameButSlots (bracket.row key) (after.row key) := by
  rcases setMatchParticipant_eq_some.mp filled with ⟨-, rfl⟩
  refine ⟨rfl, ?_⟩
  intro key
  rw [Keyed.row_replace]
  split
  next same =>
    rcases same with rfl
    exact ⟨by simp, by simp, by simp, by simp, by simp⟩
  next => exact .refl _

theorem advanceWinner_same (advanced : bracket.advanceWinner reported winner = some after) :
    after.keys = bracket.keys ∧ ∀ key, SameButSlots (bracket.row key) (after.row key) := by
  unfold Matches.advanceWinner at advanced
  split at advanced
  next => exact setMatchParticipant_same advanced
  next =>
    rcases Option.some.inj advanced with rfl
    exact ⟨rfl, fun key => .refl _⟩

theorem advanceLoser_same (advanced : bracket.advanceLoser reported winner = some after) :
    after.keys = bracket.keys ∧ ∀ key, SameButSlots (bracket.row key) (after.row key) := by
  unfold Matches.advanceLoser at advanced
  split at advanced
  next => exact setMatchParticipant_same advanced
  next =>
    rcases Option.some.inj advanced with rfl
    exact ⟨rfl, fun key => .refl _⟩

end Accepted

theorem completePending_eq_some {bracket completed : Matches} {report : MatchReport}
    {reported : TournamentMatch} :
    bracket.completePending report = some (completed, reported) ↔
      report.matchId ∈ bracket.keys ∧ (bracket.row report.matchId).status = .pending ∧
        reported = report.complete (bracket.row report.matchId) ∧
        completed = bracket.replace report.matchId reported := by
  simp only [Matches.completePending, Option.bind_eq_some_iff, Keyed.select_eq_some]
  constructor
  · rintro ⟨row, ⟨stored, rfl⟩, swapped⟩
    split at swapped
    next pending =>
      rcases Prod.mk.inj (Option.some.inj swapped) with ⟨rfl, rfl⟩
      exact ⟨stored, pending, rfl, rfl⟩
    next => cases swapped
  · rintro ⟨stored, pending, rfl, rfl⟩
    exact ⟨_, ⟨stored, rfl⟩, if_pos pending⟩

theorem present_of_routeCheck {report : MatchReport} {row : TournamentMatch}
    (passed : report.routeCheck (some row) = none) :
    ∃ slot, row.participant slot = some report.winner := by
  simp only [MatchReport.routeCheck] at passed
  split_ifs at passed with foreign absent
  simp only [not_or, not_and, not_not] at absent
  by_cases first : row.participantAId = some report.winner
  · exact ⟨.a, first⟩
  · exact ⟨.b, absent.2 first⟩

/-- The bracket an accepted report leaves. -/
theorem reported_of_advance {bracket completed advanced after : Matches} {report : MatchReport}
    {reported : TournamentMatch} (passed : report.routeCheck (bracket.select report.matchId) = none)
    (swapped : bracket.completePending report = some (completed, reported))
    (won : completed.advanceWinner reported report.winner = some advanced)
    (lost : advanced.advanceLoser reported report.winner = some after) :
    Reported bracket after report.matchId report.winner := by
  rcases completePending_eq_some.mp swapped with ⟨stored, pending, rfl, rfl⟩
  rcases advanceWinner_same won with ⟨won_keys, won_same⟩
  rcases advanceLoser_same lost with ⟨lost_keys, lost_same⟩
  have same := fun key => (won_same key).trans (lost_same key)
  rw [Keyed.select_eq_some.mpr ⟨stored, rfl⟩] at passed
  exact
    { mem := stored
      pending := pending
      present := present_of_routeCheck passed
      keys := lost_keys.trans won_keys
      tournamentId := by
        intro key
        rw [(same key).tournamentId, Keyed.row_replace]
        split
        next at_match => rw [at_match, MatchReport.tournamentId_complete]
        next => rfl
      status := by
        intro key
        rw [(same key).status, Keyed.row_replace]
        split <;> rfl
      winnerId := by
        intro key
        rw [(same key).winnerId, Keyed.row_replace]
        split <;> simp
      next := by
        intro key
        rw [(same key).next, Keyed.row_replace]
        split
        next at_match => rw [at_match, MatchReport.next_complete]
        next => rfl
      loserNext := by
        intro key
        rw [(same key).loserNext, Keyed.row_replace]
        split
        next at_match => rw [at_match, MatchReport.loserNext_complete]
        next => rfl
      participant := by
        intro key slot
        have kept : ((bracket.replace report.matchId
            (report.complete (bracket.row report.matchId))).row key).participant slot =
              (bracket.row key).participant slot := by
          rw [Keyed.row_replace]
          split
          next at_match => rw [at_match, MatchReport.participant_complete]
          next => rfl
        rw [advanceLoser_participant lost, advanceWinner_participant won, kept,
          TournamentMatch.sends, Option.or_assoc]
        rfl }

theorem reporting_next_eq_some {tournament after : Tournament} {report : MatchReport}
    (accepted : reporting.next tournament report = some after) :
    Reported tournament.bracket after.bracket report.matchId report.winner ∧
      after.id = tournament.id ∧
      after.status = if after.allComplete then .completed else tournament.status := by
  simp only [reporting] at accepted
  split at accepted
  next reported left answer =>
    rcases Option.some.inj accepted with rfl
    unfold Tournament.reportMatch at answer
    simp only at answer
    split at answer
    next => cases answer
    next => cases answer
    next => cases answer
    next completed reported' passed checked swapped =>
      split at answer
      next => cases answer
      next advanced won =>
        split at answer
        next => cases answer
        next bracket lost =>
          rcases Prod.mk.inj answer with ⟨-, rfl⟩
          exact ⟨reported_of_advance passed swapped won lost, rfl, rfl⟩
  next => cases accepted

/-- The report of a stored match that names this winner, with the score one to nil. -/
def reportFor (row : TournamentMatch) (id : MatchId) (winner : Text) : MatchReport :=
  let isA := row.participantAId.map Text.trim = some winner
  { tournamentId := row.tournamentId
    matchId := id
    scoreA := if isA then 1 else 0
    scoreB := if isA then 0 else 1
    winnerId := winner
    notes := none
    replayCodes := none }

section Reportable

variable {row : TournamentMatch} {id : MatchId} {slot : Slot} {winner : Text}

theorem routeCheck_reportFor (present : row.participant slot = some winner) (named : winner ≠ [])
    (trimmed : winner.trim = winner) : (reportFor row id winner).routeCheck (some row) = none := by
  have same_winner : (reportFor row id winner).winner = winner := trimmed
  have same_tournament : (reportFor row id winner).tournamentId = row.tournamentId := rfl
  simp only [MatchReport.routeCheck, same_winner, same_tournament, List.isEmpty_iff, named]
  cases slot with
  | a => simp [show row.participantAId = some winner from present]
  | b => simp [show row.participantBId = some winner from present]

theorem integrityCheck_reportFor (present : row.participant slot = some winner)
    (named : winner ≠ []) (trimmed : winner.trim = winner) :
    (reportFor row id winner).integrityCheck (some row) = none := by
  have same_winner : (reportFor row id winner).winner = winner := trimmed
  simp only [MatchReport.integrityCheck, same_winner, trimmed, List.isEmpty_iff, named]
  by_cases isA : row.participantAId.map Text.trim = some winner
  · simp [reportFor, isA]
  · have isB : row.participantBId.map Text.trim = some winner := by
      cases slot with
      | a =>
          have trims := congrArg (Option.map Text.trim) present
          exact absurd (by simpa [TournamentMatch.participant, trimmed] using trims) isA
      | b =>
          have trims := congrArg (Option.map Text.trim) present
          simpa [TournamentMatch.participant, trimmed] using trims
    simp [reportFor, isA, isB, Ne.symm isA]

theorem exists_advanceWinner (bracket : Matches) (reported : TournamentMatch) (winner : Text)
    (stored : ∀ target slot, reported.next = some (target, slot) → target ∈ bracket.keys) :
    ∃ after, bracket.advanceWinner reported winner = some after := by
  unfold Matches.advanceWinner
  split
  next target slot goes => exact ⟨_, setMatchParticipant_eq_some.mpr ⟨stored _ _ goes, rfl⟩⟩
  next => exact ⟨bracket, rfl⟩

theorem exists_advanceLoser (bracket : Matches) (reported : TournamentMatch) (winner : Text)
    (stored : ∀ target slot, reported.loserNext = some (target, slot) → target ∈ bracket.keys) :
    ∃ after, bracket.advanceLoser reported winner = some after := by
  unfold Matches.advanceLoser
  split
  next target slot loser goes _ =>
    exact ⟨_, setMatchParticipant_eq_some.mpr ⟨stored _ _ goes, rfl⟩⟩
  next => exact ⟨bracket, rfl⟩

theorem reporting_next_of {tournament : Tournament} {report : MatchReport}
    {completed advanced bracket : Matches} {reported : TournamentMatch}
    (passed : report.routeCheck (tournament.bracket.select report.matchId) = none)
    (checked : report.integrityCheck (tournament.bracket.select report.matchId) = none)
    (swapped : tournament.bracket.completePending report = some (completed, reported))
    (won : completed.advanceWinner reported report.winner = some advanced)
    (lost : advanced.advanceLoser reported report.winner = some bracket) :
    reporting.next tournament report =
      some ({ tournament with bracket }.settle reported report.winner) := by
  simp only [reporting, Tournament.reportMatch, passed, checked, swapped, won, lost]

/-- A pending match whose later matches are stored can be reported for a participant in it. -/
theorem exists_report {tournament : Tournament} (stored : id ∈ tournament.bracket.keys)
    (pending : (tournament.bracket.row id).status = .pending)
    (present : (tournament.bracket.row id).participant slot = some winner) (named : winner ≠ [])
    (trimmed : winner.trim = winner)
    (next_stored : ∀ target slot, (tournament.bracket.row id).next = some (target, slot) →
      target ∈ tournament.bracket.keys)
    (loserNext_stored : ∀ target slot, (tournament.bracket.row id).loserNext = some (target, slot) →
      target ∈ tournament.bracket.keys) :
    ∃ report after, report.matchId = id ∧ report.winner = winner ∧
      reporting.next tournament report = some after := by
  generalize made : reportFor (tournament.bracket.row id) id winner = report
  have at_id : report.matchId = id := made ▸ rfl
  have for_winner : report.winner = winner := made ▸ trimmed
  have selected : tournament.bracket.select report.matchId = some (tournament.bracket.row id) :=
    Keyed.select_eq_some.mpr ⟨at_id ▸ stored, at_id ▸ rfl⟩
  have passed : report.routeCheck (some (tournament.bracket.row id)) = none :=
    made ▸ routeCheck_reportFor present named trimmed
  have checked : report.integrityCheck (some (tournament.bracket.row id)) = none :=
    made ▸ integrityCheck_reportFor present named trimmed
  rw [← selected] at passed checked
  have swapped := (@completePending_eq_some tournament.bracket _ report _).mpr
    ⟨at_id ▸ stored, at_id ▸ pending, rfl, rfl⟩
  rw [at_id] at swapped
  rcases exists_advanceWinner (tournament.bracket.replace id
    (report.complete (tournament.bracket.row id))) (report.complete (tournament.bracket.row id))
    report.winner next_stored with ⟨advanced, won⟩
  have stored_after : ∀ target slot,
      (report.complete (tournament.bracket.row id)).loserNext = some (target, slot) →
        target ∈ advanced.keys := by
    rw [(advanceWinner_same won).1]
    exact loserNext_stored
  rcases exists_advanceLoser advanced (report.complete (tournament.bracket.row id)) report.winner
    stored_after with ⟨bracket, lost⟩
  exact ⟨report, _, at_id, for_winner, reporting_next_of passed checked swapped won lost⟩

end Reportable

end ScuffedCrew.Tournaments
