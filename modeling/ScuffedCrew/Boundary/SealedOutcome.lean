import ScuffedCrew.Boundary.Night

/-!
# The outcome of a session

A recorded outcome stays until the session closes, and a close seals at most
the hint of a session that recorded none.
-/

namespace ScuffedCrew.Boundary

open Rust CaptureGate StateMachine

variable {session after : Session} {event : Event} {tick : Tick} {tab : Tab} {plan : CapturePlan}

/-! ## One step -/

theorem outcome_poll (stays : session.closes (.poll tick) = none)
    (decided : session.state.outcome.isDecided = true) :
    (session.afterPoll tick).state.outcome = session.state.outcome := by
  rcases Session.afterPoll_cases stays with same | ⟨update, updates⟩
  · rw [same]
  · simp [Session.afterPoll_update updates, BoundaryState.recorded, decided]

theorem outcome_adoptRead (session : Session) (tab : Tab) :
    (session.adoptRead tab).state.outcome = session.state.outcome := by
  rcases session.adoptRead_eq tab with ⟨map, source, read⟩
  rw [read]

theorem outcome_noted (keeps : plan.ignoreRow = false) (stores : plan.defer = false) :
    (session.noted plan tab).state.outcome = session.state.outcome := by
  simp [Session.noted, noteAcceptedCapture_stored keeps stores, BoundaryState.storeBoard]

theorem outcome_stored (keeps : plan.ignoreRow = false) (stores : plan.defer = false)
    (decided : session.state.outcome.isDecided = true) :
    (session.stored plan tab).state.outcome = session.state.outcome := by
  have read : ((session.noted plan tab).adoptRead tab).state.outcome = session.state.outcome := by
    rw [outcome_adoptRead, outcome_noted keeps stores]
  simp only [Session.stored]
  split_ifs
  · simp [Session.backFill, read, decided]
  · exact read

theorem outcome_next (step : night.next session event = some after)
    (stays : session.closes event = none) (decided : session.state.outcome.isDecided = true) :
    after.state.outcome = session.state.outcome := by
  cases event with
  | poll tick =>
      rcases next_poll step with rfl
      exact outcome_poll stays decided
  | tab tab =>
      rcases next_tab step with ⟨plan, planned, rfl⟩
      have splits := Session.closes_tab planned
      rw [stays] at splits
      rcases Session.plan_cases planned with rfl | ⟨-, ⟨-, -, rfl⟩ | ⟨-, -, rfl⟩ |
        ⟨effect, implausibleJump, -, rfl⟩⟩
      · cases splits
      · cases splits
      · rfl
      · exact outcome_stored rfl rfl decided

def HoldsHint (session : Session) (word : MatchOutcome) : Prop :=
  session.state.outcome.isDecided = false ∧
    ∃ mark, session.state.result = some mark ∧ mark.confirmed = false ∧ mark.outcome = word ∧
      word.isDecided = true

theorem holdsHint_of_sealableHint {word : MatchOutcome}
    (undecided : session.state.outcome.isDecided = false)
    (hint : session.state.sealableHint = some word) : HoldsHint session word := by
  rcases Option.bind_eq_some_iff.mp hint with ⟨mark, held, hint⟩
  exact ⟨undecided, mark, held, ResultMark.hint_eq_some.mp hint⟩

/-- A close seals the hint of the session, and only when no outcome is recorded. -/
theorem holdsHint_of_sealed {record : CloseRecord} {word : MatchOutcome}
    (closes : session.closes event = some record) (sealed : record.sealed = some word) :
    HoldsHint session word := by
  cases event with
  | poll tick =>
      rcases Session.closes_poll_eq_some closes with ⟨new, opens, rfl⟩
      rcases outcomeSealedOnClose_eq_some.mp sealed with ⟨undecided, explicit, -⟩
      rcases (decidePoll_open opens).1 with nothing | hint
      · rw [nothing] at explicit
        cases explicit
      · exact holdsHint_of_sealableHint undecided (hint.symm.trans explicit)
  | tab tab =>
      rcases Option.bind_eq_some_iff.mp closes with ⟨plan, planned, record_eq⟩
      split_ifs at record_eq with splits
      rcases Option.some.inj record_eq with rfl
      rcases outcomeSealedOnClose_eq_some.mp sealed with ⟨undecided, explicit, -⟩
      have hint : plan.sealed = none ∨ plan.sealed = session.openHint := by
        rcases Session.plan_cases planned with rfl | ⟨-, ⟨-, -, rfl⟩ | ⟨-, -, rfl⟩ |
          ⟨effect, implausibleJump, -, rfl⟩⟩
        · exact .inr rfl
        · exact .inr rfl
        · exact .inl rfl
        · exact .inl rfl
      rcases hint with nothing | hint
      · rw [nothing] at explicit
        cases explicit
      · rw [hint, Session.openHint, undecided] at explicit
        exact holdsHint_of_sealableHint undecided explicit

/-! ## A whole run -/

/-- In every run a decided outcome stays until a step closes the session, and a step that closes
it seals the hint the session held, with no outcome recorded, or nothing. -/
theorem outcome_sealed_with_session {map : Option Text} {mapSource : Option MapSource}
    {earlier later : List (Step Session Event)} {step : Step Session Event} {final : Session}
    (run : night.Run (.opened map mapSource) (earlier ++ step :: later) final) :
    (step.before.state.outcome.isDecided = true →
        (∀ other ∈ step :: later, other.before.closes other.event = none) →
        final.state.outcome = step.before.state.outcome) ∧
      ∀ record word, step.before.closes step.event = some record → record.sealed = some word →
        HoldsHint step.before word := by
  constructor
  · intro decided stays
    rcases run.exists_middle with ⟨middle, -, rest⟩
    rcases rest.cons_inv with ⟨rfl, -, -⟩
    refine rest.invariant_of_forall
      (fun session => session.state.outcome = step.before.state.outcome) rfl stays ?_
    intro session event after taken closes kept
    rw [outcome_next taken closes (kept ▸ decided), kept]
  · intro record word closes sealed
    exact holdsHint_of_sealed closes sealed

def defeatOnce : Tick where
  signal := some .defeat
  signalConfirmed := false
  accoladeMap := none
  startScreen := none
  blockMapVote := false
  now := 0

def mapVote : Tick where
  signal := none
  signalConfirmed := false
  accoladeMap := none
  startScreen := some (.mapVote [])
  blockMapVote := false
  now := Duration.fromSecs 30

theorem outcome_sealed_with_session_mapVote :
    ∃ session, night.exec (.opened none none) [.poll defeatOnce] = some session ∧
      session.closes (.poll mapVote) = some ⟨.mapVote, some .defeat⟩ ∧
        HoldsHint session .defeat := by
  have run : night.Run (.opened none none)
      (night.stepsOf (.opened none none) [.poll defeatOnce] ++ [_]) _ :=
    .of_exec (rfl : night.exec (.opened none none) [.poll defeatOnce, .poll mapVote] = some _)
  exact ⟨_, rfl, rfl, (outcome_sealed_with_session run).2 _ .defeat rfl rfl⟩

end ScuffedCrew.Boundary
