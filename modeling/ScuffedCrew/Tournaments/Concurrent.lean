import ScuffedCrew.StateMachine.Pool
import ScuffedCrew.Tournaments.Losses

/-!
# Reports at the same time

A call of `report_match` reads and writes the database several times, and other
calls go on in between.  `set_match_participant` reads a whole match and writes
all of it back, so it undoes whatever was written to the match meanwhile: a
slot filled by the other feeder, or the result of the match itself.
-/

namespace ScuffedCrew.Tournaments

open Rust Database StateMachine

/-- A call, by the database access it makes next. -/
inductive ReportCall
  | getMatch (report : MatchReport)
  | selectMatch (report : MatchReport)
  | updatePending (report : MatchReport)
  | selectNext (report : MatchReport) (reported : TournamentMatch)
  | updateNext (report : MatchReport) (reported row : TournamentMatch)
  | selectLoserNext (report : MatchReport) (reported : TournamentMatch)
  | updateLoserNext (report : MatchReport) (reported row : TournamentMatch)
  | eliminate (report : MatchReport) (reported : TournamentMatch)
  | listMatches (report : MatchReport) (reported : TournamentMatch)
  | updateRound (report : MatchReport) (reported : TournamentMatch) (all : List TournamentMatch)
  | updateTournament (report : MatchReport) (reported : TournamentMatch)
      (all : List TournamentMatch)
  | answered (report : MatchReport) (answer : Except ReportError TournamentMatch)

namespace ReportCall

/-- The access a call makes; the tables other than the matches are written one status at a time. -/
def step (tournament : Tournament) : ReportCall → Unit → Option (Tournament × ReportCall)
  | getMatch report, _ =>
      match report.routeCheck (tournament.bracket.select report.matchId) with
      | some error => some (tournament, answered report (.error error))
      | none => some (tournament, selectMatch report)
  | selectMatch report, _ =>
      match report.integrityCheck (tournament.bracket.select report.matchId) with
      | some error => some (tournament, answered report (.error error))
      | none => some (tournament, updatePending report)
  | updatePending report, _ =>
      match tournament.bracket.completePending report with
      | none => some (tournament, answered report (.error .notPending))
      | some (bracket, reported) => some ({ tournament with bracket }, selectNext report reported)
  | selectNext report reported, _ =>
      match reported.next with
      | none => some (tournament, selectLoserNext report reported)
      | some (id, _) =>
          match tournament.bracket.select id with
          | none => some (tournament, answered report (.error .internal))
          | some row => some (tournament, updateNext report reported row)
  | updateNext report reported row, _ =>
      match reported.next with
      | none => none
      | some (id, slot) =>
          some ({ tournament with
                  bracket := tournament.bracket.replace id (row.fill slot report.winner) },
            selectLoserNext report reported)
  | selectLoserNext report reported, _ =>
      match reported.loserNext, reported.loserId report.winner with
      | some (id, _), some _ =>
          match tournament.bracket.select id with
          | none => some (tournament, answered report (.error .internal))
          | some row => some (tournament, updateLoserNext report reported row)
      | _, _ => some (tournament, eliminate report reported)
  | updateLoserNext report reported row, _ =>
      match reported.loserNext, reported.loserId report.winner with
      | some (id, slot), some loser =>
          some ({ tournament with bracket := tournament.bracket.replace id (row.fill slot loser) },
            eliminate report reported)
      | _, _ => none
  | eliminate report reported, _ =>
      some ({ tournament with participants := tournament.eliminateLoser reported report.winner },
        listMatches report reported)
  | listMatches report reported, _ =>
      some (tournament, updateRound report reported tournament.listTournamentMatches)
  | updateRound report reported all, _ =>
      let round := all.filter fun row => row.roundId = reported.roundId
      some ({ tournament with
              rounds :=
                if round.all TournamentMatch.isDone ∧ reported.roundId ∈ tournament.rounds.keys then
                  tournament.rounds.replace reported.roundId .completed
                else tournament.rounds },
        updateTournament report reported all)
  | updateTournament report reported all, _ =>
      some ({ tournament with
              status := if all.all TournamentMatch.isDone then .completed else tournament.status },
        answered report (.ok reported))
  | answered _ _, _ => none

/-- The update writes a match that is no longer as it was selected. -/
def stale (tournament : Tournament) : ReportCall → Bool
  | updateNext _ reported row => reported.next.any fun target => tournament.bracket.row target.1 ≠ row
  | updateLoserNext _ reported row =>
      reported.loserNext.any fun target => tournament.bracket.row target.1 ≠ row
  | _ => false

/-- The match a call has completed, and whether its winner has gone on. -/
def completed : ReportCall → Option (MatchReport × TournamentMatch × Bool)
  | selectNext report reported => some (report, reported, false)
  | updateNext report reported _ => some (report, reported, false)
  | selectLoserNext report reported => some (report, reported, true)
  | updateLoserNext report reported _ => some (report, reported, true)
  | eliminate report reported => some (report, reported, true)
  | listMatches report reported => some (report, reported, true)
  | updateRound report reported _ => some (report, reported, true)
  | updateTournament report reported _ => some (report, reported, true)
  | answered report (.ok reported) => some (report, reported, true)
  | _ => none

end ReportCall

def concurrentReports : Machine (Pool Tournament ReportCall) (Turn Unit) :=
  interleaving ReportCall.step

abbrev ConcurrentStep := Step (Pool Tournament ReportCall) (Turn Unit)

/-- The step does not write a match that has changed since the call selected it. -/
def ConcurrentStep.Fresh (step : ConcurrentStep) : Prop :=
  ∀ call ∈ step.before.processes[step.event.process]?, call.stale step.before.shared = false

/-- What a report writes to its match. -/
def TournamentMatch.result (row : TournamentMatch) :
    Option ℕ × Option ℕ × Option Text × TournamentMatchStatus × Option Text × List Text :=
  (row.scoreA, row.scoreB, row.winnerId, row.status, row.notes, row.replayCodes)

@[simp]
theorem TournamentMatch.result_fill (row : TournamentMatch) (slot : Slot) (participantId : Text) :
    (row.fill slot participantId).result = row.result := by
  cases slot <;> rfl

/-! ## A call on its own -/

def Leads (tournament : Tournament) (call : ReportCall) (after : Tournament) (reached : ReportCall) :
    Prop :=
  ∃ steps, concurrentReports.Run ⟨tournament, [call]⟩ steps ⟨after, [reached]⟩

namespace Leads

variable {tournament after : Tournament} {call final : ReportCall}

theorem refl : Leads tournament call tournament call := ⟨[], .refl⟩

theorem next (middle : Tournament) (reached : ReportCall)
    (taken : call.step tournament () = some (middle, reached))
    (rest : Leads middle reached after final) : Leads tournament call after final := by
  rcases rest with ⟨steps, run⟩
  have first : concurrentReports.next ⟨tournament, [call]⟩ ⟨0, ()⟩ = some ⟨middle, [reached]⟩ :=
    interleaving_next_eq_some.mpr ⟨call, middle, reached, rfl, taken, rfl⟩
  exact ⟨_, (Machine.Run.single first).trans run⟩

theorem trans {middle : Tournament} {reached : ReportCall}
    (left : Leads tournament call middle reached)
    (right : Leads middle reached after final) : Leads tournament call after final := by
  rcases left with ⟨first, run⟩
  rcases right with ⟨second, run'⟩
  exact ⟨_, run.trans run'⟩

end Leads

section Alone

variable {tournament : Tournament} {report : MatchReport} {reported : TournamentMatch}
  {bracket : Matches}

theorem leads_advanceWinner
    (advanced : tournament.bracket.advanceWinner reported report.winner = some bracket) :
    Leads tournament (.selectNext report reported) { tournament with bracket }
      (.selectLoserNext report reported) := by
  unfold Matches.advanceWinner at advanced
  split at advanced
  next id slot goes =>
    rcases setMatchParticipant_eq_some.mp advanced with ⟨stored, rfl⟩
    have selected := Keyed.select_eq_some.mpr ⟨stored, rfl⟩
    refine .next tournament (.updateNext report reported (tournament.bracket.row id)) ?_
      (.next _ _ ?_ .refl)
    · simp only [ReportCall.step, goes, selected]
    · simp only [ReportCall.step, goes]
  next stays =>
    rcases Option.some.inj advanced with rfl
    refine .next _ _ ?_ .refl
    simp only [ReportCall.step, stays]

theorem leads_advanceWinner_none
    (failed : tournament.bracket.advanceWinner reported report.winner = none) :
    Leads tournament (.selectNext report reported) tournament
      (.answered report (.error .internal)) := by
  unfold Matches.advanceWinner at failed
  split at failed
  next id slot goes =>
    have absent := Option.map_eq_none_iff.mp failed
    refine .next _ _ ?_ .refl
    simp only [ReportCall.step, goes, absent]
  next => cases failed

theorem leads_advanceLoser
    (advanced : tournament.bracket.advanceLoser reported report.winner = some bracket) :
    Leads tournament (.selectLoserNext report reported) { tournament with bracket }
      (.eliminate report reported) := by
  unfold Matches.advanceLoser at advanced
  split at advanced
  next id slot loser goes lost =>
    rcases setMatchParticipant_eq_some.mp advanced with ⟨stored, rfl⟩
    have selected := Keyed.select_eq_some.mpr ⟨stored, rfl⟩
    refine .next tournament (.updateLoserNext report reported (tournament.bracket.row id)) ?_
      (.next _ _ ?_ .refl)
    · simp only [ReportCall.step, goes, lost, selected]
    · simp only [ReportCall.step, goes, lost]
  next stays =>
    rcases Option.some.inj advanced with rfl
    refine .next _ _ ?_ .refl
    simp only [ReportCall.step]

theorem leads_advanceLoser_none
    (failed : tournament.bracket.advanceLoser reported report.winner = none) :
    Leads tournament (.selectLoserNext report reported) tournament
      (.answered report (.error .internal)) := by
  unfold Matches.advanceLoser at failed
  split at failed
  next id slot loser goes lost =>
    have absent := Option.map_eq_none_iff.mp failed
    refine .next _ _ ?_ .refl
    simp only [ReportCall.step, goes, lost, absent]
  next => cases failed

theorem leads_settle :
    Leads tournament (.eliminate report reported) (tournament.settle reported report.winner)
      (.answered report (.ok reported)) :=
  .next _ _ rfl (.next _ _ rfl (.next _ _ rfl (.next _ _ rfl .refl)))

/-- A call that nothing interleaves with is `report_match`. -/
theorem leads_reportMatch (tournament : Tournament) (report : MatchReport) :
    Leads tournament (.getMatch report) (tournament.reportMatch report).2
      (.answered report (tournament.reportMatch report).1) := by
  unfold Tournament.reportMatch
  simp only
  split
  next error _ _ refused =>
    refine .next _ _ ?_ .refl
    simp only [ReportCall.step, refused]
  next error _ passed refused =>
    refine .next tournament (.selectMatch report) ?_ (.next _ _ ?_ .refl)
    · simp only [ReportCall.step, passed]
    · simp only [ReportCall.step, refused]
  next passed checked refused =>
    refine .next tournament (.selectMatch report) ?_
      (.next tournament (.updatePending report) ?_ (.next _ _ ?_ .refl))
    · simp only [ReportCall.step, passed]
    · simp only [ReportCall.step, checked]
    · simp only [ReportCall.step, refused]
  next completed reported passed checked swapped =>
    have start : Leads tournament (.getMatch report) { tournament with bracket := completed }
        (.selectNext report reported) := by
      refine .next tournament (.selectMatch report) ?_
        (.next tournament (.updatePending report) ?_ (.next _ _ ?_ .refl))
      · simp only [ReportCall.step, passed]
      · simp only [ReportCall.step, checked]
      · simp only [ReportCall.step, swapped]
    split
    next failed => exact start.trans (leads_advanceWinner_none failed)
    next advanced won =>
      have middle := start.trans (leads_advanceWinner won)
      split
      next failed => exact middle.trans (leads_advanceLoser_none failed)
      next bracket lost => exact (middle.trans (leads_advanceLoser lost)).trans leads_settle

end Alone

/-! ## What a step writes -/

/-- What a step does to the matches, when it does not write a stale one. -/
inductive Moves (bracket : Matches) (call : ReportCall) : Matches → ReportCall → Prop
  | reads {moved : ReportCall} (same : moved.completed = none ∨ moved.completed = call.completed) :
      Moves bracket call bracket moved
  | stays {moved : ReportCall} {report : MatchReport} {reported : TournamentMatch}
      (before : call.completed = some (report, reported, false)) (last : reported.next = none)
      (after : moved.completed = some (report, reported, true)) : Moves bracket call bracket moved
  | completes {moved : ReportCall} {report : MatchReport} (mem : report.matchId ∈ bracket.keys)
      (pending : (bracket.row report.matchId).status = .pending)
      (after : moved.completed =
        some (report, report.complete (bracket.row report.matchId), false)) :
      Moves bracket call
        (bracket.replace report.matchId (report.complete (bracket.row report.matchId))) moved
  | advances {moved : ReportCall} {report : MatchReport} {reported : TournamentMatch} {id : MatchId}
      {slot : Slot} (before : call.completed = some (report, reported, false))
      (leads : reported.next = some (id, slot))
      (after : moved.completed = some (report, reported, true)) :
      Moves bracket call (bracket.replace id ((bracket.row id).fill slot report.winner)) moved
  | drops {moved : ReportCall} {report : MatchReport} {reported : TournamentMatch} {id : MatchId}
      {slot : Slot} {loser : Text} (before : call.completed = some (report, reported, true))
      (leads : reported.loserNext = some (id, slot))
      (after : moved.completed = some (report, reported, true)) :
      Moves bracket call (bracket.replace id ((bracket.row id).fill slot loser)) moved

theorem moves_of_step {tournament after : Tournament} {call moved : ReportCall}
    (taken : call.step tournament () = some (after, moved)) (fresh : call.stale tournament = false) :
    Moves tournament.bracket call after.bracket moved := by
  cases call with
  | getMatch report =>
      simp only [ReportCall.step] at taken
      split at taken <;> rcases Prod.mk.inj (Option.some.inj taken) with ⟨rfl, rfl⟩
      · exact .reads (.inl rfl)
      · exact .reads (.inl rfl)
  | selectMatch report =>
      simp only [ReportCall.step] at taken
      split at taken <;> rcases Prod.mk.inj (Option.some.inj taken) with ⟨rfl, rfl⟩
      · exact .reads (.inl rfl)
      · exact .reads (.inl rfl)
  | updatePending report =>
      simp only [ReportCall.step] at taken
      split at taken
      next =>
        rcases Prod.mk.inj (Option.some.inj taken) with ⟨rfl, rfl⟩
        exact .reads (.inl rfl)
      next completed reported swapped =>
        rcases Prod.mk.inj (Option.some.inj taken) with ⟨rfl, rfl⟩
        rcases completePending_eq_some.mp swapped with ⟨mem, pending, rfl, rfl⟩
        exact .completes mem pending rfl
  | selectNext report reported =>
      simp only [ReportCall.step] at taken
      split at taken
      next last =>
        rcases Prod.mk.inj (Option.some.inj taken) with ⟨rfl, rfl⟩
        exact .stays rfl last rfl
      next =>
        split at taken <;> rcases Prod.mk.inj (Option.some.inj taken) with ⟨rfl, rfl⟩
        · exact .reads (.inl rfl)
        · exact .reads (.inr rfl)
  | updateNext report reported row =>
      simp only [ReportCall.step] at taken
      split at taken
      next => cases taken
      next id slot leads =>
        rcases Prod.mk.inj (Option.some.inj taken) with ⟨rfl, rfl⟩
        have current : tournament.bracket.row id = row := by
          simpa [ReportCall.stale, leads] using fresh
        rcases current with rfl
        exact .advances rfl leads rfl
  | selectLoserNext report reported =>
      simp only [ReportCall.step] at taken
      split at taken
      next =>
        split at taken <;> rcases Prod.mk.inj (Option.some.inj taken) with ⟨rfl, rfl⟩
        · exact .reads (.inl rfl)
        · exact .reads (.inr rfl)
      next =>
        rcases Prod.mk.inj (Option.some.inj taken) with ⟨rfl, rfl⟩
        exact .reads (.inr rfl)
  | updateLoserNext report reported row =>
      simp only [ReportCall.step] at taken
      split at taken
      next id slot loser leads lost =>
        rcases Prod.mk.inj (Option.some.inj taken) with ⟨rfl, rfl⟩
        have current : tournament.bracket.row id = row := by
          simpa [ReportCall.stale, leads] using fresh
        rcases current with rfl
        exact .drops rfl leads rfl
      next => cases taken
  | eliminate report reported =>
      rcases Prod.mk.inj (Option.some.inj taken) with ⟨rfl, rfl⟩
      exact .reads (.inr rfl)
  | listMatches report reported =>
      rcases Prod.mk.inj (Option.some.inj taken) with ⟨rfl, rfl⟩
      exact .reads (.inr rfl)
  | updateRound report reported all =>
      rcases Prod.mk.inj (Option.some.inj taken) with ⟨rfl, rfl⟩
      exact .reads (.inr rfl)
  | updateTournament report reported all =>
      rcases Prod.mk.inj (Option.some.inj taken) with ⟨rfl, rfl⟩
      exact .reads (.inr rfl)
  | answered report answer => cases taken

namespace Moves

variable {bracket after : Matches} {call moved : ReportCall} {key : MatchId} {slot : Slot}

theorem wires (moves : Moves bracket call after moved) (key : MatchId) :
    after.keys = bracket.keys ∧ (after.row key).next = (bracket.row key).next ∧
      (after.row key).loserNext = (bracket.row key).loserNext := by
  cases moves with
  | reads same => exact ⟨rfl, rfl, rfl⟩
  | stays before last after => exact ⟨rfl, rfl, rfl⟩
  | completes mem pending after =>
      rw [Keyed.row_replace]
      split
      next same => simp [same]
      next => exact ⟨rfl, rfl, rfl⟩
  | advances before leads after =>
      rw [Keyed.row_replace]
      split
      next same => simp [same]
      next => exact ⟨rfl, rfl, rfl⟩
  | drops before leads after =>
      rw [Keyed.row_replace]
      split
      next same => simp [same]
      next => exact ⟨rfl, rfl, rfl⟩

theorem result (moves : Moves bracket call after moved)
    (completed : (bracket.row key).status = .completed) :
    (after.row key).result = (bracket.row key).result := by
  cases moves with
  | reads same => rfl
  | stays before last after => rfl
  | completes mem pending after =>
      rw [Keyed.row_replace, if_neg]
      rintro rfl
      rw [pending] at completed
      cases completed
  | advances before leads after =>
      rw [Keyed.row_replace]
      split
      next same => rw [TournamentMatch.result_fill, same]
      next => rfl
  | drops before leads after =>
      rw [Keyed.row_replace]
      split
      next same => rw [TournamentMatch.result_fill, same]
      next => rfl

theorem status (moves : Moves bracket call after moved)
    (completed : (bracket.row key).status = .completed) : (after.row key).status = .completed := by
  have same := moves.result completed
  simp only [TournamentMatch.result, Prod.mk.injEq] at same
  exact same.2.2.2.1.trans completed

/-- A slot is written by a call whose match leads there. -/
theorem participant (moves : Moves bracket call after moved) (key : MatchId) (slot : Slot) :
    (after.row key).participant slot = (bracket.row key).participant slot ∨
      ∃ report reported, (reported.next = some (key, slot) ∧
          call.completed = some (report, reported, false) ∨
        reported.loserNext = some (key, slot) ∧
          call.completed = some (report, reported, true)) := by
  cases moves with
  | reads same => exact .inl rfl
  | stays before last after => exact .inl rfl
  | completes mem pending after =>
      rw [Keyed.row_replace]
      split
      next same => simp [same]
      next => exact .inl rfl
  | @advances _ report reported id filled before leads after =>
      rw [Keyed.row_replace]
      by_cases same : key = id ∧ slot = filled
      · rcases same with ⟨rfl, rfl⟩
        exact .inr ⟨report, reported, .inl ⟨leads, before⟩⟩
      · left
        split
        next at_id =>
          rw [TournamentMatch.participant_fill, if_neg fun at_slot => same ⟨at_id, at_slot⟩, at_id]
        next => rfl
  | @drops _ report reported id filled loser before leads after =>
      rw [Keyed.row_replace]
      by_cases same : key = id ∧ slot = filled
      · rcases same with ⟨rfl, rfl⟩
        exact .inr ⟨report, reported, .inr ⟨leads, before⟩⟩
      · left
        split
        next at_id =>
          rw [TournamentMatch.participant_fill, if_neg fun at_slot => same ⟨at_id, at_slot⟩, at_id]
        next => rfl

theorem completed_cases (moves : Moves bracket call after moved) {report : MatchReport}
    {reported : TournamentMatch} {advanced : Bool}
    (now : moved.completed = some (report, reported, advanced)) :
    (∃ advanced', call.completed = some (report, reported, advanced')) ∨
      report.matchId ∈ bracket.keys ∧
        (bracket.row report.matchId).status = .pending ∧
        (after.row report.matchId).status = .completed ∧
        reported = report.complete (bracket.row report.matchId) ∧ advanced = false := by
  cases moves with
  | reads same =>
      rcases same with none | same
      · rw [none] at now
        cases now
      · exact .inl ⟨advanced, same.symm.trans now⟩
  | stays before last now' =>
      rw [now'] at now
      rcases Option.some.inj now with ⟨⟩
      exact .inl ⟨false, before⟩
  | completes mem pending now' =>
      rw [now'] at now
      rcases Option.some.inj now with ⟨⟩
      exact .inr ⟨mem, pending, by rw [Keyed.row_replace_self, MatchReport.status_complete], rfl, rfl⟩
  | advances before leads now' =>
      rw [now'] at now
      rcases Option.some.inj now with ⟨⟩
      exact .inl ⟨false, before⟩
  | drops before leads now' =>
      rw [now'] at now
      rcases Option.some.inj now with ⟨⟩
      exact .inl ⟨true, before⟩

end Moves

/-! ## Calls that write no stale match -/

/-- What the completed matches of the calls are in the brackets. -/
structure Advancing (created : Matches) (pool : Pool Tournament ReportCall) : Prop where
  keys : pool.shared.bracket.keys = created.keys
  next : ∀ key, (pool.shared.bracket.row key).next = (created.row key).next
  loserNext : ∀ key, (pool.shared.bracket.row key).loserNext = (created.row key).loserNext
  completed : ∀ call ∈ pool.processes, ∀ report reported advanced,
    call.completed = some (report, reported, advanced) →
      report.matchId ∈ created.keys ∧
      (pool.shared.bracket.row report.matchId).status = .completed ∧
      reported.next = (created.row report.matchId).next ∧
      reported.loserNext = (created.row report.matchId).loserNext
  once : ∀ (index index' : ℕ) (call call' : ReportCall) (report report' : MatchReport)
      (reported reported' : TournamentMatch) (advanced advanced' : Bool),
    pool.processes[index]? = some call → pool.processes[index']? = some call' →
      call.completed = some (report, reported, advanced) →
        call'.completed = some (report', reported', advanced') →
          report.matchId = report'.matchId → index = index'
  advanced : ∀ call ∈ pool.processes, ∀ report reported,
    call.completed = some (report, reported, true) →
      ∀ target slot, reported.next = some (target, slot) →
        (pool.shared.bracket.row target).participant slot = some report.winner

namespace Advancing

variable {created bracket : Matches} {pool after : Pool Tournament ReportCall} {turn : Turn Unit}
  {call moved : ReportCall} {index : ℕ}

theorem slot_kept (advancing : Advancing created pool) (wired : Wired created)
    (call_mem : call ∈ pool.processes) (moves : Moves pool.shared.bracket call bracket moved)
    {report : MatchReport} {reported : TournamentMatch} {other : ReportCall}
    (other_mem : other ∈ pool.processes) (done : other.completed = some (report, reported, true))
    {target : MatchId} {slot : Slot} (leads : reported.next = some (target, slot))
    (apart : ∀ report' reported', call.completed = some (report', reported', false) →
      report'.matchId ≠ report.matchId) :
    (bracket.row target).participant slot = some report.winner := by
  have filled := advancing.advanced other other_mem report reported done target slot leads
  rcases advancing.completed other other_mem _ _ _ done with ⟨mem, -, next, -⟩
  rcases moves.participant target slot with same | ⟨report', reported', writes⟩
  · rw [same, filled]
  · exfalso
    rw [next] at leads
    rcases writes with ⟨leads', before⟩ | ⟨leads', before⟩
    · rcases advancing.completed call call_mem _ _ _ before with ⟨mem', -, next', -⟩
      rw [next'] at leads'
      exact apart report' reported' before (wired.next_inj _ mem' _ mem _ leads' leads)
    · rcases advancing.completed call call_mem _ _ _ before with ⟨mem', -, -, loserNext'⟩
      rw [loserNext'] at leads'
      exact wired.apart _ mem _ mem' _ leads leads'

theorem advanced_kept (advancing : Advancing created pool) (wired : Wired created)
    (call_mem : call ∈ pool.processes) (moves : Moves pool.shared.bracket call bracket moved)
    {report : MatchReport} {reported : TournamentMatch}
    (now : moved.completed = some (report, reported, true)) {target : MatchId} {slot : Slot}
    (leads : reported.next = some (target, slot)) :
    (bracket.row target).participant slot = some report.winner := by
  cases moves with
  | reads same =>
      rcases same with none | same
      · rw [none] at now
        cases now
      · exact advancing.advanced call call_mem _ _ (same.symm.trans now) target slot leads
  | stays before last now' =>
      rw [now'] at now
      rcases Option.some.inj now with ⟨⟩
      rw [last] at leads
      cases leads
  | completes mem pending now' =>
      rw [now'] at now
      cases now
  | advances before leads' now' =>
      rw [now'] at now
      rcases Option.some.inj now with ⟨⟩
      rw [leads'] at leads
      rcases Option.some.inj leads with ⟨⟩
      simp
  | drops before leads' now' =>
      rw [now'] at now
      rcases Option.some.inj now with ⟨⟩
      refine advancing.slot_kept wired call_mem (.drops before leads' now') call_mem before leads ?_
      intro report' reported' undone
      rw [before] at undone
      cases undone

theorem step (advancing : Advancing created pool) (wired : Wired created)
    (taken : concurrentReports.next pool turn = some after)
    (fresh : ∀ call ∈ pool.processes[turn.process]?, call.stale pool.shared = false) :
    Advancing created after := by
  rcases interleaving_next_eq_some.mp taken with ⟨call, shared, moved, found, accessed, rfl⟩
  have moves := moves_of_step accessed (fresh call found)
  have call_mem := List.mem_of_getElem? found
  have new : ∀ report reported advanced, moved.completed = some (report, reported, advanced) →
      (∃ advanced', call.completed = some (report, reported, advanced')) ∨
        ∀ other ∈ pool.processes, ∀ report' reported' advanced',
          other.completed = some (report', reported', advanced') →
            report.matchId ≠ report'.matchId := by
    intro report reported advanced now
    refine (moves.completed_cases now).imp_right ?_
    rintro ⟨-, pending, -⟩ other other_mem report' reported' advanced' done same
    rw [same, (advancing.completed other other_mem _ _ _ done).2.1] at pending
    cases pending
  refine ⟨?_, ?_, ?_, ?_, ?_, ?_⟩
  · exact (moves.wires ⟨⟨.main, 0⟩, 0⟩).1.trans advancing.keys
  · exact fun key => (moves.wires key).2.1.trans (advancing.next key)
  · exact fun key => (moves.wires key).2.2.trans (advancing.loserNext key)
  · intro other other_mem report reported advanced now
    rcases List.getElem?_of_mem other_mem with ⟨position, at_position⟩
    rcases Pool.of_set at_position with ⟨-, rfl⟩ | ⟨-, before⟩
    · rcases moves.completed_cases now with ⟨advanced', before⟩ |
        ⟨mem, -, completed, rfl, -⟩
      · rcases advancing.completed call call_mem _ _ _ before with ⟨mem, completed, wires⟩
        exact ⟨mem, moves.status completed, wires⟩
      · exact ⟨advancing.keys ▸ mem, completed, advancing.next _, advancing.loserNext _⟩
    · rcases advancing.completed other (List.mem_of_getElem? before) _ _ _ now with
        ⟨mem, completed, wires⟩
      exact ⟨mem, moves.status completed, wires⟩
  · intro first second one two report report' reported reported' advanced advanced' at_first
      at_second done done' same
    rcases Pool.of_set at_first with ⟨rfl, rfl⟩ | ⟨-, before⟩ <;>
      rcases Pool.of_set at_second with ⟨rfl, rfl⟩ | ⟨-, before'⟩
    · rfl
    · rcases new _ _ _ done with ⟨earlier, was⟩ | unseen
      · exact advancing.once _ _ _ _ _ _ _ _ _ _ found before' was done' same
      · exact absurd same (unseen two (List.mem_of_getElem? before') _ _ _ done')
    · rcases new _ _ _ done' with ⟨earlier, was⟩ | unseen
      · exact advancing.once _ _ _ _ _ _ _ _ _ _ before found done was same
      · exact absurd same.symm (unseen one (List.mem_of_getElem? before) _ _ _ done)
    · exact advancing.once _ _ _ _ _ _ _ _ _ _ before before' done done' same
  · intro other other_mem report reported now target slot leads
    rcases List.getElem?_of_mem other_mem with ⟨position, at_position⟩
    rcases Pool.of_set at_position with ⟨rfl, rfl⟩ | ⟨differs, before⟩
    · exact advancing.advanced_kept wired call_mem moves now leads
    · refine advancing.slot_kept wired call_mem moves (List.mem_of_getElem? before) now leads ?_
      intro report' reported' undone same
      exact differs (advancing.once _ _ _ _ _ _ _ _ _ _ before found now undone same.symm)

end Advancing

theorem advancing_start {start : Pool Tournament ReportCall}
    (called : ∀ call ∈ start.processes, ∃ report, call = .getMatch report) :
    Advancing start.shared.bracket start := by
  have unswapped : ∀ call ∈ start.processes, call.completed = none := by
    intro call call_mem
    rcases called call call_mem with ⟨report, rfl⟩
    rfl
  refine ⟨rfl, fun key => rfl, fun key => rfl, ?_, ?_, ?_⟩
  · intro call call_mem report reported advanced done
    rw [unswapped call call_mem] at done
    cases done
  · intro index index' call call' report report' reported reported' advanced advanced' at_index _ done
    rw [unswapped call (List.mem_of_getElem? at_index)] at done
    cases done
  · intro call call_mem report reported done
    rw [unswapped call call_mem] at done
    cases done

/-- Calls that write no stale match keep the winners of all of them in the slots they went to, and
every completed result. -/
theorem advancements_kept {start final : Pool Tournament ReportCall} {steps : List ConcurrentStep}
    (wired : Wired start.shared.bracket)
    (called : ∀ call ∈ start.processes, ∃ report, call = .getMatch report)
    (run : concurrentReports.Run start steps final)
    (fresh : ∀ step ∈ steps, ConcurrentStep.Fresh step) :
    (∀ report reported, .answered report (.ok reported) ∈ final.processes →
      ∀ target slot, (start.shared.bracket.row report.matchId).next = some (target, slot) →
        (final.shared.bracket.row target).participant slot = some report.winner) ∧
    ∀ step ∈ steps, ∀ key, (step.before.shared.bracket.row key).status = .completed →
      (step.after.shared.bracket.row key).result = (step.before.shared.bracket.row key).result := by
  constructor
  · have advancing : Advancing start.shared.bracket final :=
      run.invariant_of_forall (Advancing start.shared.bracket) (advancing_start called) fresh
        fun taken fresh advancing => advancing.step wired taken fresh
    intro report reported answered target slot leads
    rcases advancing.completed _ answered report reported true rfl with ⟨-, -, next, -⟩
    exact advancing.advanced _ answered report reported rfl target slot (next.trans leads)
  · intro step step_mem key completed
    have taken := run.next_of_mem step step_mem
    rcases interleaving_next_eq_some.mp taken with ⟨call, shared, moved, found, accessed, after⟩
    rw [after]
    exact (moves_of_step accessed (fresh step step_mem call found)).result completed

/-! ## A lost slot and a lost result -/

def turns (process count : ℕ) : List (Turn Unit) := List.replicate count ⟨process, ()⟩

def northWins : MatchReport := springReport (mainId 0 0) 3 1 "north".toList

def westWins : MatchReport := springReport (mainId 0 1) 3 2 "west".toList

def northChampion : MatchReport := springReport (mainId 1 0) 3 0 "north".toList

/-- Both calls select the final before either of them writes it. -/
def bothSelect : List (Turn Unit) :=
  turns 0 4 ++ turns 1 4 ++ turns 0 1 ++ turns 1 1 ++ turns 0 5 ++ turns 1 5

/-- The final is completed between the select and the update of a call that fills its slot. -/
def finalBetween : List (Turn Unit) := turns 0 10 ++ turns 1 4 ++ turns 2 3

theorem advancements_lost :
    (∃ final, concurrentReports.exec
        ⟨fourTournament, [.getMatch northWins, .getMatch westWins]⟩ bothSelect = some final ∧
      (∃ north west, final.processes =
        [.answered northWins (.ok north), .answered westWins (.ok west)]) ∧
      (fourTournament.bracket.row northWins.matchId).next = some (mainId 1 0, .a) ∧
      (final.shared.bracket.row (mainId 1 0)).participantAId = none) ∧
    ∃ before after, concurrentReports.exec
        ⟨fourTournament, [.getMatch northWins, .getMatch westWins, .getMatch northChampion]⟩
        finalBetween = some before ∧
      concurrentReports.next before ⟨1, ()⟩ = some after ∧
      (before.shared.bracket.row (mainId 1 0)).status = .completed ∧
      (after.shared.bracket.row (mainId 1 0)).status = .pending :=
  ⟨⟨_, rfl, ⟨_, _, rfl⟩, rfl, rfl⟩, _, _, rfl, rfl, rfl, rfl⟩

/-- One call after the other. -/
def inTurn : List (Turn Unit) := turns 0 10 ++ turns 1 10

instance (step : ConcurrentStep) : Decidable step.Fresh :=
  inferInstanceAs (Decidable (∀ call ∈ step.before.processes[step.event.process]?, _))

theorem inTurn_kept : ∃ final, concurrentReports.exec
    ⟨fourTournament, [.getMatch northWins, .getMatch westWins]⟩ inTurn = some final ∧
      (final.shared.bracket.row (mainId 1 0)).participant .a = some "north".toList ∧
      (final.shared.bracket.row (mainId 1 0)).participant .b = some "west".toList := by
  have run : concurrentReports.Run _ (concurrentReports.stepsOf
      ⟨fourTournament, [.getMatch northWins, .getMatch westWins]⟩ inTurn) _ := .of_exec rfl
  have wired : Wired fourTournament.bracket := (singleElim_generate rfl).wired
  have fresh : ∀ step ∈ concurrentReports.stepsOf
      ⟨fourTournament, [.getMatch northWins, .getMatch westWins]⟩ inTurn,
      ConcurrentStep.Fresh step := by
    decide
  have kept := (advancements_kept wired (by simp) run fresh).1
  exact ⟨_, rfl, kept northWins _ (.head _) _ _ rfl, kept westWins _ (.tail _ (.head _)) _ _ rfl⟩

end ScuffedCrew.Tournaments
