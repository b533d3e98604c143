import ScuffedCrew.Boundary.State

/-!
# The transition of the match boundary

What one observation does to the open session.  The phase is derived from the
state; the effect is applied by the poll path and by the capture path.
-/

namespace ScuffedCrew.Boundary

open Rust CaptureGate

inductive Effect
  | ignore
  | append
  /-- Record the outcome on this session. -/
  | «seal» (outcome : MatchOutcome)
  | rememberHint (outcome : MatchOutcome)
  | clearHintAndAppend
  /-- The first fresh-match board is held off this session. -/
  | defer
  | armPending
  | primeReset
  | countProgress
  | split (reason : CloseReason) (sealed : Option MatchOutcome) (newOutcome : MatchOutcome)
  deriving DecidableEq, Repr

namespace Effect

def asSplit : Effect → Option (CloseReason × Option MatchOutcome × MatchOutcome)
  | .split reason sealed newOutcome => some (reason, sealed, newOutcome)
  | _ => none

end Effect

/-- A scoreboard, with the flags the capture path computes. -/
structure BoardObs where
  freshReset : Bool
  progressed : Bool
  implausible : Bool
  frameOutcome : MatchOutcome
  suspectRow : Bool
  deriving DecidableEq, Repr

inductive Obs
  | confirmedWord (outcome : MatchOutcome)
  | unconfirmedWord (outcome : MatchOutcome) (relation : MapRelation)
  | startScreen (screen : StartScreen) (blockMapVote : Bool)
  | board (board : BoardObs)
  | gap (frameOutcome : MatchOutcome)
  | endScreenDifferentMap (outcome : MatchOutcome) (map : Text)
  | hintedDifferentMap (frameOutcome : MatchOutcome)
  deriving DecidableEq, Repr

def confirmedWord (phase : Phase) (outcome : MatchOutcome) : Effect :=
  match phase with
  | .postMatch => .ignore
  | .idle | .liveMatch | .postResultStreak | .newGameStarting => .seal outcome

/-- A different map never replaces the hint; a missing one does unless the boundary is armed. -/
def unconfirmedReplaces (pendingBoundary : Bool) (relation : MapRelation) : Bool :=
  match relation with
  | .matches => true
  | .differs => false
  | .absent => !pendingBoundary

def unconfirmedWord (state : BoundaryState) (phase : Phase) (outcome : MatchOutcome)
    (relation : MapRelation) : Effect :=
  if !unconfirmedReplaces state.pendingBoundary relation then .ignore
  else match phase with
    | .postMatch => .ignore
    | .idle | .liveMatch | .postResultStreak | .newGameStarting => .rememberHint outcome

def screenReason : StartScreen → CloseReason × List Text
  | .mapVote candidates => (.mapVote, candidates)
  | .heroSelect | .heroBan => (.heroSelectOrBan, [])

def startScreen (state : BoundaryState) (phase : Phase) (screen : StartScreen)
    (blockMapVote : Bool) : Effect :=
  let splitUnsealed := Effect.split (screenReason screen).1 none .unknown
  let splitSealed := Effect.split (screenReason screen).1 state.sealableHint .unknown
  match phase, screen with
  | .postMatch, .mapVote _ => if blockMapVote then .ignore else splitUnsealed
  | .postMatch, _ => splitUnsealed
  | .postResultStreak, .mapVote _ => if blockMapVote then .ignore else splitSealed
  | .postResultStreak, .heroBan => splitSealed
  | .postResultStreak, .heroSelect => if state.gate.isSome then .armPending else splitSealed
  | .idle, .mapVote _ | .liveMatch, .mapVote _ => if blockMapVote then .ignore else splitUnsealed
  -- A ban or a select after one deferred board is not the second signal.
  | .idle, .heroBan | .liveMatch, .heroBan =>
      if state.deferred.isSome then .ignore else splitUnsealed
  | .idle, .heroSelect | .liveMatch, .heroSelect =>
      if state.deferred.isSome then .ignore else .primeReset
  | .newGameStarting, .heroSelect => .ignore
  | .newGameStarting, .mapVote _ | .newGameStarting, .heroBan =>
      if blockMapVote then .ignore else splitUnsealed

def gapEffect (state : BoundaryState) (phase : Phase) (frameOutcome : MatchOutcome) : Effect :=
  match phase with
  | .idle | .newGameStarting | .postMatch => .ignore
  | .liveMatch | .postResultStreak =>
      .split .statRegression state.sealableHint
        (if frameOutcome.isDecided then frameOutcome else .unknown)

def endScreen (state : BoundaryState) (phase : Phase) (outcome : MatchOutcome) : Effect :=
  match phase with
  | .postMatch | .idle | .newGameStarting => .ignore
  | .liveMatch | .postResultStreak => .split .endScreenMap state.sealableHint outcome

/-- A fresh-match board commits a split: a trusted row after one earlier
signal, a suspect row after two, or with a trusted fresh board already held. -/
def commitsReset (state : BoundaryState) (suspectRow : Bool) : Bool :=
  if suspectRow then decide (state.resetStreak ≥ 2) || state.deferred.isSome
  else decide (state.resetStreak ≥ 1) || state.pendingBoundary

def boardEffect (state : BoundaryState) (board : BoardObs) : Effect :=
  if board.freshReset then
    if commitsReset state board.suspectRow then .split .statReset state.sealableHint .unknown
    else .defer
  else
    let hintOpen := state.sealableHint.isSome && !state.outcome.isDecided
    if hintOpen && board.progressed && ! board.implausible && !board.frameOutcome.isDecided then
      if state.pendingBoundary || decide (state.progressedBoards ≥ 1) then .clearHintAndAppend
      else .countProgress
    else .append

/-- The one transition.  The poll and the capture path both call it. -/
def transition (state : BoundaryState) : Obs → Effect
  | .confirmedWord outcome => confirmedWord state.phaseOf outcome
  | .unconfirmedWord outcome relation => unconfirmedWord state state.phaseOf outcome relation
  | .startScreen screen blockMapVote => startScreen state state.phaseOf screen blockMapVote
  | .board board => boardEffect state board
  | .gap frameOutcome => gapEffect state state.phaseOf frameOutcome
  | .endScreenDifferentMap outcome _ => endScreen state state.phaseOf outcome
  | .hintedDifferentMap frameOutcome => gapEffect state state.phaseOf frameOutcome

/-! ## What an observation can do -/

variable {state : BoundaryState} {phase : Phase} {outcome : MatchOutcome}

theorem confirmedWord_cases (phase : Phase) (outcome : MatchOutcome) :
    confirmedWord phase outcome = .ignore ∨ confirmedWord phase outcome = .seal outcome := by
  cases phase <;> simp [confirmedWord]

theorem unconfirmedWord_cases (state : BoundaryState) (phase : Phase) (outcome : MatchOutcome)
    (relation : MapRelation) :
    unconfirmedWord state phase outcome relation = .ignore ∨
      (unconfirmedWord state phase outcome relation = .rememberHint outcome ∧
        unconfirmedReplaces state.pendingBoundary relation = true) := by
  cases replaces : unconfirmedReplaces state.pendingBoundary relation with
  | false => exact .inl (by simp [unconfirmedWord, replaces])
  | true => cases phase <;> simp [unconfirmedWord, replaces]

theorem startScreen_cases (state : BoundaryState) (phase : Phase) (screen : StartScreen)
    (blockMapVote : Bool) :
    startScreen state phase screen blockMapVote = .ignore ∨
      startScreen state phase screen blockMapVote = .armPending ∨
      startScreen state phase screen blockMapVote = .primeReset ∨
      ∃ sealed, (sealed = none ∨ sealed = state.sealableHint) ∧
        startScreen state phase screen blockMapVote =
          .split (screenReason screen).1 sealed .unknown := by
  cases phase <;> cases screen <;> simp only [startScreen] <;> (try split_ifs) <;> simp

theorem gapEffect_cases (state : BoundaryState) (phase : Phase) (frameOutcome : MatchOutcome) :
    gapEffect state phase frameOutcome = .ignore ∨
      gapEffect state phase frameOutcome = .split .statRegression state.sealableHint
        (if frameOutcome.isDecided then frameOutcome else .unknown) := by
  cases phase <;> simp [gapEffect]

theorem endScreen_cases (state : BoundaryState) (phase : Phase) (outcome : MatchOutcome) :
    endScreen state phase outcome = .ignore ∨
      endScreen state phase outcome = .split .endScreenMap state.sealableHint outcome := by
  cases phase <;> simp [endScreen]

theorem boardEffect_of_fresh {board : BoardObs} (fresh : board.freshReset = true) :
    boardEffect state board =
      if commitsReset state board.suspectRow then .split .statReset state.sealableHint .unknown
      else .defer := by
  simp [boardEffect, fresh]

theorem boardEffect_of_not_fresh (state : BoundaryState) {board : BoardObs}
    (fresh : board.freshReset = false) :
    boardEffect state board = .append ∨ boardEffect state board = .clearHintAndAppend ∨
      boardEffect state board = .countProgress := by
  simp only [boardEffect, fresh, Bool.false_eq_true, if_false]
  split_ifs <;> simp

variable {obs : Obs} {reason : CloseReason} {sealed : Option MatchOutcome}
  {newOutcome : MatchOutcome}

/-- A split seals the hint of the session it closes, or nothing. -/
theorem transition_split (split : transition state obs = .split reason sealed newOutcome) :
    sealed = none ∨ sealed = state.sealableHint := by
  cases obs with
  | confirmedWord word =>
      rcases confirmedWord_cases state.phaseOf word with effect | effect <;>
        simp [transition, effect] at split
  | unconfirmedWord word relation =>
      rcases unconfirmedWord_cases state state.phaseOf word relation with effect | ⟨effect, -⟩ <;>
        simp [transition, effect] at split
  | startScreen screen blockMapVote =>
      rcases startScreen_cases state state.phaseOf screen blockMapVote with
        effect | effect | effect | ⟨_, hint, effect⟩ <;> simp [transition, effect] at split
      rcases split with ⟨-, rfl, -⟩
      exact hint
  | board board =>
      cases fresh : board.freshReset with
      | true =>
          simp only [transition, boardEffect_of_fresh fresh] at split
          split_ifs at split
          cases split
          exact .inr rfl
      | false =>
          rcases boardEffect_of_not_fresh state fresh with effect | effect | effect <;>
            simp [transition, effect] at split
  | gap frameOutcome | hintedDifferentMap frameOutcome =>
      rcases gapEffect_cases state state.phaseOf frameOutcome with effect | effect <;>
        simp [transition, effect] at split
      exact .inr split.2.1.symm
  | endScreenDifferentMap word map =>
      rcases endScreen_cases state state.phaseOf word with effect | effect <;>
        simp [transition, effect] at split
      exact .inr split.2.1.symm

end ScuffedCrew.Boundary
