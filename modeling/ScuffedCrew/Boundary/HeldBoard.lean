import ScuffedCrew.Boundary.Night

/-!
# The held board and the reset streak

A fresh-match board that does not split is held off the session, and the
streak counts it as a reset signal.  Three fields carry this: the streak, the
reset baseline and the held board.  `resetSignals_cases` says what one step of
the machine does to them; the invariants of a run follow from it alone.
-/

namespace ScuffedCrew.Boundary

open Rust CaptureGate StateMachine

/-- The fields a reset is decided from. -/
structure ResetSignals where
  streak : ℕ
  baseline : Option GateState
  held : Option Counters

namespace Session

def resetSignals (session : Session) : ResetSignals :=
  ⟨session.state.resetStreak, session.state.resetBaseline, session.state.deferred⟩

variable {session : Session} {tab : Tab} {tick : Tick} {plan : CapturePlan}

@[simp]
theorem resetSignals_adoptRead : (session.adoptRead tab).resetSignals = session.resetSignals := by
  rcases session.adoptRead_eq tab with ⟨map, source, read⟩
  rw [read]
  rfl

@[simp]
theorem resetSignals_backFill {outcome : MatchOutcome} {now : Instant} :
    (session.backFill outcome now).resetSignals = session.resetSignals := by
  rcases session.backFill_eq outcome now with same | ⟨mark, -, -, filled⟩
  · rw [same]
  · rw [filled]
    rfl

end Session

/-! ## The events of the streak -/

def Defers (session : Session) (event : Event) : Prop :=
  ∃ tab plan, event = .tab tab ∧ session.plan tab = some plan ∧ plan.defer = true ∧
    (session.planInput tab).isFreshReset tab.held = true

namespace CapturePlan

def endsStreak (plan : CapturePlan) : Bool :=
  plan.refreshBaseline || plan.countProgress || plan.clearHint

end CapturePlan

/-- A step refreshes the baseline, counts progress, or changes the session. -/
def EndsStreak (session : Session) (event : Event) : Prop :=
  (session.closes event).isSome = true ∨
    ∃ tab plan, event = .tab tab ∧ session.plan tab = some plan ∧ plan.endsStreak = true

/-- A poll primes the streak: a hero select before any fresh board. -/
def Primes (before after : ResetSignals) : Prop :=
  before.held = none ∧ after = ⟨max before.streak 1, before.baseline, none⟩

/-- The signals after a fresh-match board was held off the session. -/
structure AfterDefer (before after : ResetSignals) : Prop where
  streak : after.streak = saturatingAdd 32 before.streak 1
  baseline : after.baseline.isSome = true

/-- The signals after the streak ended. -/
structure Cleared (signals : ResetSignals) : Prop where
  streak : signals.streak = 0
  held : signals.held = none

variable {session after : Session} {event : Event} {tick : Tick} {tab : Tab} {plan : CapturePlan}

theorem cleared_of_poll (closes : (session.closes (.poll tick)).isSome = true) :
    Cleared (session.afterPoll tick).resetSignals := by
  simp only [Session.closes, Session.pollCommit] at closes
  cases decided : session.pollDecision tick with
  | «open» new =>
      simp only [Session.afterPoll, Session.pollCommit, decided]
      exact ⟨rfl, rfl⟩
  | keep => simp [decided, commitPoll] at closes
  | ignoreContradictory => simp [decided, commitPoll] at closes
  | update => simp [decided, commitPoll] at closes

theorem resetSignals_poll (stays : (session.closes (.poll tick)).isSome = false) :
    (session.afterPoll tick).resetSignals = session.resetSignals ∨
      Primes session.resetSignals (session.afterPoll tick).resetSignals := by
  simp only [Session.closes, Session.pollCommit] at stays
  cases decided : session.pollDecision tick with
  | «open» new => simp [decided, commitPoll] at stays
  | keep | ignoreContradictory =>
      exact .inl (by simp [Session.afterPoll, Session.pollCommit, decided, commitPoll,
        Session.resetSignals])
  | update update =>
      simp only [Session.afterPoll, Session.pollCommit, decided, commitPoll, Session.resetSignals,
        BoundaryState.update_resetStreak, BoundaryState.update_resetBaseline,
        BoundaryState.update_deferred, Primes]
      split_ifs with primes
      · simp only [Bool.and_eq_true, Option.isNone_iff_eq_none] at primes
        exact .inr ⟨primes.2, by rw [primes.2]⟩
      · exact .inl rfl

theorem resetSignals_stored (session : Session) (plan : CapturePlan) (tab : Tab)
    (keeps : plan.ignoreRow = false) (stores : plan.defer = false) :
    (session.stored plan tab).resetSignals =
      ⟨plan.resetStreak,
        if plan.refreshBaseline then some (refreshedBaseline tab.accepted)
        else plan.resetBaseline,
        if plan.refreshBaseline || plan.countProgress || plan.clearHint then none
        else session.state.deferred⟩ := by
  have folded : (session.stored plan tab).resetSignals = (session.noted plan tab).resetSignals := by
    simp only [Session.stored]
    split_ifs <;> simp
  rw [folded]
  simp [Session.noted, noteAcceptedCapture_stored keeps stores, Session.resetSignals,
    BoundaryState.storeBoard]

@[simp]
theorem endsStreak_stay (input : CapturePlanInput) (doubt : BoardDoubt) (effect : Effect)
    (implausibleJump : Bool) :
    (input.stay doubt effect implausibleJump).endsStreak =
      input.dropsStreak doubt effect implausibleJump := by
  simp only [CapturePlan.endsStreak, CapturePlanInput.stay, CapturePlanInput.dropsStreak]
  rw [Bool.and_or_distrib_left, Bool.and_comm (input.counts doubt),
    Bool.and_comm (input.counts doubt), Bool.or_assoc]

theorem cleared_of_tab (planned : session.plan tab = some plan)
    (ends : plan.split = true ∨ plan.endsStreak = true) :
    Cleared (session.afterTab plan tab).resetSignals := by
  rcases Session.plan_cases planned with rfl | ⟨-, ⟨-, -, rfl⟩ | ⟨-, -, rfl⟩ |
    ⟨effect, implausibleJump, -, rfl⟩⟩
  · exact ⟨rfl, rfl⟩
  · exact ⟨rfl, rfl⟩
  · simp [CapturePlanInput.hold, CapturePlan.endsStreak] at ends
  · rcases ends with splits | ends
    · cases splits
    · have signals := resetSignals_stored session
        ((session.planInput tab).stay (session.doubt tab) effect implausibleJump) tab rfl rfl
      rw [← CapturePlan.endsStreak, if_pos ends] at signals
      rw [endsStreak_stay] at ends
      have streak : ((session.planInput tab).stay (session.doubt tab) effect
          implausibleJump).resetStreak = 0 := if_pos ends
      rw [streak] at signals
      constructor
      · exact congrArg ResetSignals.streak signals
      · exact congrArg ResetSignals.held signals

theorem resetSignals_tab (planned : session.plan tab = some plan) (stays : plan.split = false)
    (quiet : plan.endsStreak = false) :
    (session.afterTab plan tab).resetSignals = session.resetSignals ∨
      (Defers session (.tab tab) ∧
        AfterDefer session.resetSignals (session.afterTab plan tab).resetSignals) := by
  rcases Session.plan_cases planned with rfl | ⟨-, ⟨-, -, rfl⟩ | ⟨fresh, -, rfl⟩ |
    ⟨effect, implausibleJump, -, rfl⟩⟩
  · cases stays
  · cases stays
  · exact .inr ⟨⟨tab, _, rfl, planned, rfl, fresh⟩, rfl,
      CapturePlanInput.compare_isSome_of_fresh fresh⟩
  · left
    have signals := resetSignals_stored session
      ((session.planInput tab).stay (session.doubt tab) effect implausibleJump) tab rfl rfl
    rw [← CapturePlan.endsStreak, quiet] at signals
    rw [endsStreak_stay] at quiet
    have refresh :
        (session.planInput tab).refreshes (session.doubt tab) implausibleJump = false := by
      simp only [CapturePlanInput.dropsStreak, Bool.or_eq_false_iff] at quiet
      exact quiet.1
    refine Eq.trans signals ?_
    simp only [CapturePlanInput.stay, quiet, refresh, Bool.false_eq_true, if_false]
    rfl

theorem cleared_of_endsStreak (step : night.next session event = some after)
    (ends : EndsStreak session event) : Cleared after.resetSignals := by
  cases event with
  | poll tick =>
      rcases next_poll step with rfl
      rcases ends with closes | ⟨tab, plan, same, -⟩
      · exact cleared_of_poll closes
      · cases same
  | tab tab =>
      rcases next_tab step with ⟨plan, planned, rfl⟩
      refine cleared_of_tab planned ?_
      rcases ends with closes | ⟨other, plan', same, planned', ends⟩
      · rw [Session.closes_tab planned] at closes
        exact .inl closes
      · cases same
        rcases Option.some.inj (planned.symm.trans planned') with rfl
        exact .inr ends

theorem resetSignals_cases (step : night.next session event = some after)
    (stays : ¬EndsStreak session event) :
    after.resetSignals = session.resetSignals ∨
      Primes session.resetSignals after.resetSignals ∨
      (Defers session event ∧ AfterDefer session.resetSignals after.resetSignals) := by
  have keeps : (session.closes event).isSome = false := by
    simpa using fun closes => stays (.inl closes)
  cases event with
  | poll tick =>
      rcases next_poll step with rfl
      rcases resetSignals_poll keeps with same | primes
      · exact .inl same
      · exact .inr (.inl primes)
  | tab tab =>
      rcases next_tab step with ⟨plan, planned, rfl⟩
      rw [Session.closes_tab planned] at keeps
      have quiet : plan.endsStreak = false := by
        rw [← Bool.not_eq_true]
        intro ends
        exact stays (.inr ⟨tab, plan, rfl, planned, ends⟩)
      rcases resetSignals_tab planned keeps quiet with same | defers
      · exact .inl same
      · exact .inr (.inr defers)

/-! ## The held board -/

/-- A held board comes with a reset signal and a baseline. -/
def HeldBoardCounted (signals : ResetSignals) : Prop :=
  signals.held.isSome = true → 1 ≤ signals.streak ∧ signals.baseline.isSome = true

theorem heldBoardCounted_next (step : night.next session event = some after)
    (counted : HeldBoardCounted session.resetSignals) : HeldBoardCounted after.resetSignals := by
  intro held
  by_cases ends : EndsStreak session event
  · simp [(cleared_of_endsStreak step ends).held] at held
  · rcases resetSignals_cases step ends with same | primes | ⟨-, defers⟩
    · rw [same] at held ⊢
      exact counted held
    · simp [primes.2] at held
    · refine ⟨?_, defers.baseline⟩
      rw [defers.streak, saturatingAdd, maxValue]
      omega

theorem heldBoardCounted_of_run {map : Option Text} {mapSource : Option MapSource}
    {steps : List (Step Session Event)} {final : Session}
    (run : night.Run (.opened map mapSource) steps final) :
    HeldBoardCounted final.resetSignals := by
  refine run.invariant (fun session => HeldBoardCounted session.resetSignals) ?_
    heldBoardCounted_next
  intro held
  cases held

theorem commits_of_held (counted : HeldBoardCounted session.resetSignals)
    (held : session.state.deferred.isSome = true) :
    (session.planInput tab).commits (session.doubt tab) = true := by
  have streak : 1 ≤ session.state.resetStreak := (counted held).1
  simp [CapturePlanInput.commits, Session.doubt, Session.planInput, held, streak]

theorem split_of_held (counted : HeldBoardCounted session.resetSignals)
    (held : session.state.deferred.isSome = true)
    (fresh : (session.planInput tab).isFreshReset tab.held = true)
    (planned : session.plan tab = some plan) : plan.split = true ∧ plan.defer = false := by
  rcases Session.plan_cases planned with rfl | ⟨-, ⟨-, -, rfl⟩ | ⟨-, waits, -⟩ | ⟨_, _, stale, -⟩⟩
  · exact ⟨rfl, rfl⟩
  · exact ⟨rfl, rfl⟩
  · rw [commits_of_held counted held] at waits
    cases waits
  · rw [fresh] at stale
    cases stale

/-- A held board is written when a capture splits, or when it was carried in. -/
def carriedCountersToWrite (carried : Option Counters) (split deferredImported : Bool) :
    Option Counters :=
  if split || deferredImported then carried else none

/-- In every run: a held board comes with a reset signal and a baseline, the next fresh-match
board splits and recovers it, and it leaves the session only when the streak goes to zero. -/
theorem held_board_recovered {map : Option Text} {mapSource : Option MapSource}
    {steps : List (Step Session Event)} {final : Session}
    (run : night.Run (.opened map mapSource) steps final) :
    (final.state.deferred.isSome = true →
        1 ≤ final.state.resetStreak ∧ final.state.resetBaseline.isSome = true) ∧
      (∀ tab board, final.state.deferred = some board →
        (final.planInput tab).isFreshReset tab.held = true →
        ∃ plan, final.plan tab = some plan ∧ plan.split = true ∧ plan.defer = false ∧
          carriedCountersToWrite final.state.deferred plan.split false = some board) ∧
      ∀ step ∈ steps, ∀ board, step.before.state.deferred = some board →
        step.after.state.deferred ≠ some board →
        step.after.state.resetStreak = 0 ∧ EndsStreak step.before step.event := by
  refine ⟨heldBoardCounted_of_run run, ?_, ?_⟩
  · intro tab board held fresh
    rcases Option.isSome_iff_exists.mp (final.plan_isSome tab) with ⟨plan, planned⟩
    have splits := split_of_held (heldBoardCounted_of_run run) (by simp [held]) fresh planned
    exact ⟨plan, planned, splits.1, splits.2, by simp [carriedCountersToWrite, splits.1, held]⟩
  · intro step step_mem board held gone
    rcases List.append_of_mem step_mem with ⟨earlier, later, rfl⟩
    rcases run.reaches_before with ⟨reached, taken⟩
    by_cases ends : EndsStreak step.before step.event
    · exact ⟨(cleared_of_endsStreak taken ends).streak, ends⟩
    · exfalso
      rcases resetSignals_cases taken ends with
        same | primes | ⟨⟨tab, plan, event, planned, defers, fresh⟩, -⟩
      · exact gone ((congrArg ResetSignals.held same).trans held)
      · have empty : step.before.state.deferred = none := primes.1
        rw [held] at empty
        cases empty
      · have splits :=
          split_of_held (heldBoardCounted_of_run reached) (by simp [held]) fresh planned
        rw [defers] at splits
        cases splits.2

def rowTab (secs : ℕ) (cur : Counters) (suspectRow : Bool) : Tab where
  cur := cur
  suspect := .splat false
  held := .splat false
  suspectRow := suspectRow
  rowCounts := true
  rowId := some 0
  frameOutcome := .unknown
  incomingMap := none
  createSession := false
  suppressSameUnfinished := true
  minGap := .fromSecs 120
  classicRegressed := false
  accepted := { GateState.default with accepted := cur, lastRaw := cur }
  hero := none
  mapRead := none
  mapReadSource := none
  replacesTextFallback := false
  backFills := true
  now := Duration.fromSecs secs

/-- A mature board, and a minute later the first board of the next game. -/
def missedEnd : List Event :=
  [.tab (rowTab 0 ⟨10, 3, 4, 2000, 0, 0⟩ false), .tab (rowTab 60 ⟨1, 0, 0, 90, 0, 0⟩ false)]

theorem held_board_recovered_missedEnd :
    ∃ session, night.exec (.opened none none) missedEnd = some session ∧
      session.state.deferred = some ⟨1, 0, 0, 90, 0, 0⟩ ∧
      ∃ plan, session.plan (rowTab 90 ⟨2, 0, 1, 300, 0, 0⟩ false) = some plan ∧
        plan.split = true ∧ plan.defer = false ∧
        carriedCountersToWrite session.state.deferred plan.split false =
          some ⟨1, 0, 0, 90, 0, 0⟩ := by
  have run : night.Run (.opened none none) (night.stepsOf (.opened none none) missedEnd) _ :=
    .of_exec rfl
  exact ⟨_, rfl, rfl, (held_board_recovered run).2.1 _ _ rfl (by decide)⟩

/-! ## Strikes on a suspect row -/

/-- The streak beyond a primed one, and a held board, come from a capture that was held off. -/
def DeferralBehind (steps : List (Step Session Event)) (signals : ResetSignals) : Prop :=
  2 ≤ signals.streak ∨ signals.held.isSome = true →
    Since (fun step => Defers step.before step.event)
      (fun step => ¬EndsStreak step.before step.event) steps

theorem deferralBehind_of_run {map : Option Text} {mapSource : Option MapSource}
    {steps : List (Step Session Event)} {final : Session}
    (run : night.Run (.opened map mapSource) steps final) :
    DeferralBehind steps final.resetSignals := by
  refine run.history (fun steps session => DeferralBehind steps session.resetSignals) ?_ ?_
  · rintro (streak | held)
    · exact absurd (show 2 ≤ 0 from streak) (by omega)
    · cases held
  · intro steps session event after step behind evidence
    rw [Since.snoc_iff]
    by_cases ends : EndsStreak session event
    · have cleared := cleared_of_endsStreak step ends
      rw [cleared.streak, cleared.held] at evidence
      simp at evidence
    · rcases resetSignals_cases step ends with same | primes | ⟨defers, -⟩
      · rw [same] at evidence
        exact .inr ⟨ends, behind evidence⟩
      · refine .inr ⟨ends, behind (.inl ?_)⟩
        rw [primes.2] at evidence
        rcases evidence with streak | held
        · simp only [le_max_iff] at streak
          omega
        · cases held
      · exact .inl defers

/-- A capture with a suspect row splits the session for a stat reset. -/
def SuspectReset (step : Step Session Event) : Prop :=
  ∃ tab record, step.event = .tab tab ∧ tab.suspectRow = true ∧
    step.before.closes step.event = some record ∧ record.reason = .statReset

/-- In every run, a suspect board splits for a stat reset only when another fresh-match board of
the session was held off before it, with no refresh, progress or session change in between. -/
theorem suspect_reset_follows_deferral {map : Option Text} {mapSource : Option MapSource}
    {earlier later : List (Step Session Event)} {step : Step Session Event} {final : Session}
    (run : night.Run (.opened map mapSource) (earlier ++ step :: later) final)
    (reset : SuspectReset step) :
    Since (fun other => Defers other.before other.event)
      (fun other => ¬EndsStreak other.before other.event) earlier := by
  rcases run.reaches_before with ⟨reached, taken⟩
  refine deferralBehind_of_run reached ?_
  rcases reset with ⟨tab, record, event, suspect, closes, reason⟩
  rw [event] at taken closes
  rcases next_tab taken with ⟨plan, planned, -⟩
  simp only [Session.closes, planned, Option.bind_some] at closes
  rcases Session.plan_cases planned with rfl | ⟨-, ⟨-, commits, -⟩ | ⟨-, -, rfl⟩ | ⟨_, _, -, rfl⟩⟩
  · rcases Option.some.inj closes with rfl
    cases reason
  · simpa [CapturePlanInput.commits, Session.doubt, Session.planInput, Session.resetSignals,
      suspect] using commits
  · cases closes
  · cases closes

theorem suspect_reset_follows_deferral_missedEnd :
    Since (fun other => Defers other.before other.event)
      (fun other => ¬EndsStreak other.before other.event)
      (night.stepsOf (.opened none none) missedEnd) := by
  have run : night.Run (.opened none none)
      (night.stepsOf (.opened none none) missedEnd ++ [_]) _ :=
    .of_exec (rfl : night.exec (.opened none none)
      (missedEnd ++ [.tab (rowTab 90 ⟨2, 0, 1, 300, 0, 0⟩ true)]) = some _)
  exact suspect_reset_follows_deferral run ⟨_, _, rfl, rfl, rfl, rfl⟩

end ScuffedCrew.Boundary
