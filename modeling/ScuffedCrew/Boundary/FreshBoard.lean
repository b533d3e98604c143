import ScuffedCrew.Boundary.HeldBoard

/-!
# Boards in the shape of a new game

A board of the baseline's own row that is under the fresh-match thresholds must
not become the baseline: its low counters would leave nothing mature to reset
from.  It splits the session, or what a reset is decided from stays at least as
strong.  A baseline counts as mature only on a column both boards have a number
for, so a board without that number re-anchors like any other.
-/

namespace ScuffedCrew.Boundary

open Rust CaptureGate StateMachine

/-- What a reset is decided from has not been weakened. -/
structure NoWeaker (before after : ResetSignals) : Prop where
  baseline : after.baseline = before.baseline
  streak : before.streak ≤ after.streak
  held : ∀ board, before.held = some board → after.held = some board

/-- A board of the baseline's own row with every column both have a number for
under the fresh-match thresholds. -/
structure FreshShaped (session : Session) (baseline : GateState) (tab : Tab) : Prop where
  compared : session.state.resetBaseline = some baseline
  row : sameBaselineRow session.state.baselineRow tab.rowId = true
  under : underFreshMatch baseline.accepted tab.cur (knownCols baseline tab.held) = true

theorem countersProgressed_of_under {prev cur : Counters} {known : Col → Bool}
    (mature : matureBoard prev known = true) (under : underFreshMatch prev cur known = true) :
    countersProgressed prev cur known = false := by
  simp only [underFreshMatch, Bool.and_eq_true, Bool.or_eq_true, Bool.not_eq_true',
    decide_eq_true_eq] at under
  have dropped : (eddCols.any fun col =>
      known col && decide (cur.toArray col < prev.toArray col)) = true := by
    simp only [matureBoard, Bool.or_eq_true, Bool.and_eq_true, decide_eq_true_eq] at mature
    rcases mature with ⟨elims, enough⟩ | ⟨damage, enough⟩
    · have fell : cur.elims < prev.elims := by
        have := under.1.1.resolve_left (by simp [elims])
        omega
      simpa [eddCols, elims] using .inl fell
    · have fell : cur.damage < prev.damage := by
        have := under.2.resolve_left (by simp [damage])
        omega
      simpa [eddCols, damage] using .inr (.inr fell)
  simp [countersProgressed, dropped]

namespace CapturePlanInput

variable {input : CapturePlanInput} {doubt : BoardDoubt} {now : Instant} {gate : GateState}

theorem refreshes_eq_false (implausibleJump : Bool) (compared : input.compare = some gate)
    (row : sameBaselineRow input.baselineRow input.rowId = true)
    (mature : matureBoard gate.accepted (knownCols gate doubt.held) = true)
    (under : underFreshMatch gate.accepted input.cur (knownCols gate doubt.held) = true) :
    input.refreshes doubt implausibleJump = false := by
  simp [refreshes, compared, row, mature, under]

/-- A board that is no reset and no progress is stored, unless a gap splits. -/
theorem planCaptureHeld_of_steady {plan : CapturePlan}
    (planned : planCaptureHeld input doubt now = some plan)
    (fresh : input.isFreshReset doubt.held = false)
    (steady : input.progressed doubt.held = false) :
    plan.split = true ∨
      plan = input.stay doubt .append (input.implausibleJump doubt.held) := by
  unfold planCaptureHeld at planned
  cases early : input.earlySplit doubt now with
  | some split =>
      rw [early] at planned
      rcases Option.some.inj planned with rfl
      exact .inl rfl
  | none =>
      right
      simpa [early, transition, boardEffect, boardObs, fresh, steady, planFromEffect, eq_comm]
        using planned

end CapturePlanInput

/-! ## The signals of a run -/

section Run

variable {map : Option Text} {mapSource : Option MapSource} {steps : List (Step Session Event)}
  {final : Session}

theorem streak_le_of_run (run : night.Run (.opened map mapSource) steps final) :
    final.resetSignals.streak ≤ maxValue 32 := by
  refine run.invariant (fun session => session.resetSignals.streak ≤ maxValue 32)
    (Nat.zero_le _) ?_
  intro session event after step le
  by_cases ends : EndsStreak session event
  · rw [(cleared_of_endsStreak step ends).streak]
    exact Nat.zero_le _
  · rcases resetSignals_cases step ends with same | primes | ⟨-, defers⟩
    · rw [same]
      exact le
    · rw [primes.2]
      exact max_le le (by decide)
    · rw [defers.streak]
      exact min_le_right _ _

theorem noWeaker_of_hold (counted : HeldBoardCounted final.resetSignals)
    (bounded : final.resetSignals.streak ≤ maxValue 32) {baseline : GateState} {tab : Tab}
    (compared : final.state.resetBaseline = some baseline)
    (waits : (final.planInput tab).commits (final.doubt tab) = false) :
    NoWeaker final.resetSignals
      (final.afterTab ((final.planInput tab).hold (final.doubt tab)) tab).resetSignals where
  baseline := by
    change (final.state.resetBaseline.or _) = final.state.resetBaseline
    rw [compared]
    rfl
  streak := by
    change final.state.resetStreak ≤ saturatingAdd 32 final.state.resetStreak 1
    have bounded : final.state.resetStreak ≤ maxValue 32 := bounded
    rw [saturatingAdd]
    omega
  held board held := by
    have held : final.state.deferred.isSome = true := Option.isSome_of_eq_some held
    rw [commits_of_held counted held] at waits
    cases waits

/-- In every run, a board of the baseline's own row under the fresh-match
thresholds splits the session or weakens nothing a reset is decided from. -/
theorem fresh_board_splits_or_keeps (run : night.Run (.opened map mapSource) steps final)
    {baseline : GateState} {tab : Tab} {plan : CapturePlan}
    (shaped : FreshShaped final baseline tab)
    (mature : matureBoard baseline.accepted (knownCols baseline tab.held) = true)
    (planned : final.plan tab = some plan) :
    plan.split = true ∨ (plan.refreshBaseline = false ∧
      NoWeaker final.resetSignals (final.afterTab plan tab).resetSignals) := by
  have compared : (final.planInput tab).compare = some baseline := by
    simp [CapturePlanInput.compare, Session.planInput, shaped.compared]
  cases fresh : (final.planInput tab).isFreshReset tab.held with
  | true =>
      rcases Session.plan_cases planned with rfl | ⟨-, ⟨-, -, rfl⟩ | ⟨-, waits, rfl⟩ |
        ⟨_, _, stale, -⟩⟩
      · exact .inl rfl
      · exact .inl rfl
      · exact .inr ⟨rfl, noWeaker_of_hold (heldBoardCounted_of_run run) (streak_le_of_run run)
          shaped.compared waits⟩
      · rw [fresh] at stale
        cases stale
  | false =>
      have steady : (final.planInput tab).progressed tab.held = false := by
        have still := countersProgressed_of_under mature shaped.under
        simp only [CapturePlanInput.progressed, compared, Option.any_some]
        rw [Bool.and_eq_false_iff]
        exact .inr still
      rcases CapturePlanInput.planCaptureHeld_of_steady planned fresh steady with splits | rfl
      · exact .inl splits
      · right
        have refresh : (final.planInput tab).refreshes (final.doubt tab)
            ((final.planInput tab).implausibleJump tab.held) = false := by
          apply CapturePlanInput.refreshes_eq_false _ compared
          · exact shaped.row
          · exact mature
          · exact shaped.under
        refine ⟨refresh, ?_⟩
        have quiet : ((final.planInput tab).stay (final.doubt tab) .append
            ((final.planInput tab).implausibleJump tab.held)).endsStreak = false := by
          rw [endsStreak_stay, CapturePlanInput.dropsStreak, refresh]
          simp
        rcases resetSignals_tab planned rfl quiet with same | ⟨defers, -⟩
        · rw [same]
          exact ⟨rfl, le_rfl, fun _ held => held⟩
        · rcases defers with ⟨other, _, event, -, -, again⟩
          cases event
          rw [fresh] at again
          cases again

end Run

/-- A Tab without a number for elims. -/
def elimsHeldTab (secs : ℕ) (cur : Counters) (accepted : GateState) : Tab :=
  { rowTab secs cur false with
    held := .ofFn fun col => decide (col = 0)
    suspect := .ofFn fun col => decide (col = 0)
    accepted := accepted }

/-- The next game's first board has no elims, and its damage is under the thresholds. -/
theorem fresh_board_splits_or_keeps_masked :
    ∃ session plan, night.exec (.opened none none)
        [.tab (rowTab 0 ⟨10, 3, 4, 2000, 0, 0⟩ false)] = some session ∧
      (plan.split = true ∨ (plan.refreshBaseline = false ∧
        NoWeaker session.resetSignals (session.afterTab plan
          (elimsHeldTab 60 ⟨10, 0, 0, 90, 0, 0⟩ .default)).resetSignals)) := by
  have run : night.Run (.opened none none) (night.stepsOf (.opened none none)
      [.tab (rowTab 0 ⟨10, 3, 4, 2000, 0, 0⟩ false)]) _ := .of_exec rfl
  exact ⟨_, _, rfl, fresh_board_splits_or_keeps run ⟨rfl, by decide, by decide⟩ (by decide) rfl⟩

/-- Maturity read off the baseline alone, whatever the capture has a number for. -/
def FreshBoardsKeep : Prop :=
  ∀ (map : Option Text) (mapSource : Option MapSource) (steps : List (Step Session Event))
    (final : Session) (baseline : GateState) (tab : Tab) (plan : CapturePlan),
    night.Run (.opened map mapSource) steps final → FreshShaped final baseline tab →
      matureBoard baseline.accepted (fun _ => true) = true → final.plan tab = some plan →
      plan.split = true ∨ NoWeaker final.resetSignals (final.afterTab plan tab).resetSignals

/-- A mature board, and the first board of the next game held off it. -/
def heldOff : List Event :=
  [.tab (rowTab 0 ⟨10, 3, 4, 100, 0, 0⟩ false), .tab (rowTab 60 ⟨1, 0, 0, 20, 0, 0⟩ false)]

/-- Without a number for elims, the next board of the new game refreshes the baseline. -/
theorem not_freshBoardsKeep : ¬FreshBoardsKeep := by
  intro keeps
  have run : night.Run (.opened none none) (night.stepsOf (.opened none none) heldOff) _ :=
    .of_exec rfl
  have kept := keeps none none _ _ _ (elimsHeldTab 90 ⟨10, 0, 0, 24, 0, 0⟩
    { GateState.default with accepted := ⟨10, 3, 4, 100, 0, 0⟩, lastRaw := ⟨10, 0, 0, 24, 0, 0⟩ })
    _ run ⟨rfl, by decide, by decide⟩ (by decide) rfl
  rcases kept with splits | noWeaker
  · cases splits
  · exact absurd noWeaker.streak (by decide)

end ScuffedCrew.Boundary
