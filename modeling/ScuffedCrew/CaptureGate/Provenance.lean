import ScuffedCrew.CaptureGate.ConfirmedValue

/-!
# Where an accepted value comes from

A column's accepted value is carried from capture to capture, and every capture
either leaves it as it was or stores its own read of the column.  So the value
is the read of one capture of the game, or the value the game was seeded with;
a column without either is marked unread and keeps its placeholder.
-/

namespace ScuffedCrew.CaptureGate

open Rust StateMachine

/-- The capture starts a game: the first one of the session, a split or a restart. -/
def Opens (step : Step (Option GateState) Capture) : Prop :=
  step.before = none ∨ ¬InGame step

/-- A number read for the column on a row that is kept, and that the gate does not hold. -/
structure Supplies (step : Step (Option GateState) Capture) (col : Col) (value : ℕ) : Prop where
  read : step.event.raw.toArray col = value
  notHeld : step.event.held col = false
  rowKept : ∃ cell, step.event.suspect cell = false ∧ step.event.held cell = false
  noHold : ∀ hold ∈ (step.event.outcome step.before).holds, hold.col ≠ col

/-- The game starts with the column held, and the seed has its value. -/
structure Seeds (step : Step (Option GateState) Capture) (col : Col) (value : ℕ) : Prop where
  opens : Opens step
  held : step.event.board.held col = true
  seeded : ∃ earlier age, step.event.seed = some (earlier, age) ∧ earlier.toArray col = value

/-- A capture of the game that goes on supplied the value, or its seed did. -/
def Provenance (steps : List (Step (Option GateState) Capture)) (col : Col) (value : ℕ) : Prop :=
  Since (fun step => Supplies step col value ∨ Seeds step col value)
    (fun later => ¬Opens later) steps

namespace Board

variable {board : Board} {seed : Option (Counters × Duration)} {anchor : Option Counters}
  {col : Col}

theorem held_of_mem_firstOutcome_holds {hold : Hold}
    (pushed : hold ∈ (board.firstOutcome seed anchor).holds) : board.held hold.col = true := by
  simp only [firstOutcome, List.mem_filterMap, seedHold] at pushed
  rcases pushed with ⟨col, -, pushed⟩
  split_ifs at pushed with held
  rcases Option.some.inj pushed with rfl
  simp only [Bool.and_eq_true] at held
  exact held.1

@[simp]
theorem firstOutcome_accepted :
    (board.firstOutcome seed anchor).state.accepted.toArray col = board.first seed col := by
  simp [firstOutcome, freshState]

@[simp]
theorem firstOutcome_unread :
    (board.firstOutcome seed anchor).state.unread col = (board.held col && seed.isNone) := by
  simp [firstOutcome]

theorem first_cases (read : (board.held col && seed.isNone) = false) :
    (board.held col = false ∧ board.first seed col = board.read col) ∨
      (board.held col = true ∧ ∃ earlier age, seed = some (earlier, age) ∧
        board.first seed col = earlier.toArray col) := by
  cases held : board.held col with
  | false => exact .inl ⟨rfl, by simp [first, held]⟩
  | true =>
      cases seed with
      | none => simp [held] at read
      | some seeded =>
          rcases seeded with ⟨earlier, age⟩
          exact .inr ⟨rfl, earlier, age, rfl, by simp [first, held]⟩

theorem rowKept_of_notHeld {raw : Counters} {suspect held : Cols Bool} {trusted : Bool}
    (notHeld : (ofCapture raw suspect held trusted).held col = false) :
    held col = false ∧ ∃ cell, suspect cell = false ∧ held cell = false := by
  simp only [ofCapture, Bool.or_eq_false_iff] at notHeld
  refine ⟨notHeld.2, ?_⟩
  by_contra! discarded
  have all : (allCols fun cell => suspect cell || held cell) = true := by
    refine allCols_eq_true.mpr fun cell => ?_
    by_cases marked : suspect cell = false
    · simp [discarded cell marked]
    · simp_all
  simp [all] at notHeld

end Board

namespace Gating

variable {gating : Gating} {col : Col}

theorem col_of_hold {hold : Hold} (pushed : gating.hold col = some hold) : hold.col = col := by
  unfold Gating.hold at pushed
  cases verdict : gating.verdict col <;> simp only [verdict] at pushed <;> cases pushed <;> rfl

theorem col_of_refusedHold {hold : Hold} (pushed : gating.refusedHold col = some hold) :
    hold.col = col ∧ gating.refused col = true := by
  unfold refusedHold at pushed
  split_ifs at pushed with refused
  rcases Option.some.inj pushed with rfl
  exact ⟨rfl, refused⟩

theorem notMem_holds (noHold : gating.hold col = none) (notRefused : gating.refused col = false) :
    ∀ hold ∈ gating.holds, hold.col ≠ col := by
  intro hold hold_mem same
  simp only [holds, List.mem_append, List.mem_filterMap] at hold_mem
  rcases hold_mem with ⟨other, -, pushed⟩ | ⟨other, -, pushed⟩
  · rcases same.symm.trans (col_of_hold pushed) with rfl
    simp [noHold] at pushed
  · rcases col_of_refusedHold pushed with ⟨pushed, refused⟩
    rcases same.symm.trans pushed with rfl
    simp [notRefused] at refused

/-- A capture stores its own read of a column, or leaves the value as it was. -/
theorem out_cases (read : gating.unread col = false) :
    (gating.board.held col = false ∧ gating.out col = gating.board.read col ∧
        ∀ hold ∈ gating.holds, hold.col ≠ col) ∨
      (gating.state.unread col = false ∧ gating.out col = gating.prevAcc col) := by
  have stored (reads : gating.Reads col) (stores : gating.out col = gating.cur col)
      (noHold : gating.hold col = none) : gating.board.held col = false ∧
        gating.out col = gating.board.read col ∧ ∀ hold ∈ gating.holds, hold.col ≠ col := by
    refine ⟨reads.1, stores.trans (cur_eq_read reads), notMem_holds noHold ?_⟩
    simp [refused, startsColumn, reads.2]
  have spec := gating.verdict_spec col
  cases verdict : gating.verdict col with
  | held =>
      simp only [verdict] at spec
      have before : gating.state.unread col = false := by
        simpa [unread, firstRead, startsColumn, spec] using read
      exact .inr ⟨before, by simp [out, verdict, cur, spec]⟩
  | firstRead =>
      simp only [verdict] at spec
      have starts : gating.board.held col = false ∧ gating.state.unread col = true := by
        simpa [startsColumn] using spec
      -- The read was taken: no other column dropped on this capture.
      have steady : gating.decreased = false := by
        simpa [unread, firstRead, spec, starts.2] using read
      refine .inl ⟨starts.1, by simp [out, verdict, steady, cur, starts.1], notMem_holds ?_ ?_⟩
      · simp [hold, verdict]
      · simp [refused, steady]
  | unlatched =>
      simp only [verdict] at spec
      exact .inl (stored spec.1 (by simp [out, verdict]) (by simp [hold, verdict]))
  | passed =>
      simp only [verdict] at spec
      exact .inl (stored spec.1 (by simp [out, verdict]) (by simp [hold, verdict]))
  | monotonic =>
      simp only [verdict] at spec
      exact .inr ⟨spec.1.2, by simp [out, verdict]⟩
  | digitInject =>
      simp only [verdict] at spec
      exact .inr ⟨spec.1.2, by simp [out, verdict]⟩
  | rateCap =>
      simp only [verdict] at spec
      exact .inr ⟨spec.1.2, by simp [out, verdict]⟩
  | jump =>
      simp only [verdict] at spec
      exact .inr ⟨spec.1.2, by simp [out, verdict]⟩

end Gating

theorem outcome_of_opens {prev after : Option GateState} {capture : Capture}
    (opens : Opens ⟨prev, capture, after⟩) :
    capture.outcome prev = capture.board.firstOutcome capture.seed
      (anchorOf capture.raw capture.suspect capture.held) := by
  rcases capture.outcome_cases prev with ⟨state, rfl, noSplit, noRestart, -⟩ | opened
  · rcases opens with absent | notInGame
    · cases absent
    · exact absurd ⟨noSplit, by simpa using noRestart⟩ notInGame
  · exact opened

theorem outcome_of_notOpens {prev after : Option GateState} {capture : Capture}
    (goesOn : ¬Opens ⟨prev, capture, after⟩) :
    ∃ state, prev = some state ∧ capture.outcome prev = (capture.gating state).outcome
      (anchorOf capture.raw capture.suspect capture.held) := by
  simp only [Opens, not_or, not_not] at goesOn
  rcases Option.ne_none_iff_exists'.mp goesOn.1 with ⟨state, rfl⟩
  exact ⟨state, rfl, Capture.outcome_of_running goesOn.2.1 (goesOn.2.2 state rfl)⟩

theorem supplies_of_notHeld {prev after : Option GateState} {capture : Capture} {col : Col}
    (notHeld : capture.board.held col = false)
    (noHold : ∀ hold ∈ (capture.outcome prev).holds, hold.col ≠ col) :
    Supplies ⟨prev, capture, after⟩ col (capture.raw.toArray col) where
  read := rfl
  notHeld := (Board.rowKept_of_notHeld notHeld).1
  rowKept := (Board.rowKept_of_notHeld notHeld).2
  noHold := noHold

theorem source_of_opens {prev after : Option GateState} {capture : Capture} {col : Col}
    (opens : Opens ⟨prev, capture, after⟩)
    (read : (capture.outcome prev).state.unread col = false) :
    Supplies ⟨prev, capture, after⟩ col ((capture.outcome prev).state.accepted.toArray col) ∨
      Seeds ⟨prev, capture, after⟩ col ((capture.outcome prev).state.accepted.toArray col) := by
  have opened := outcome_of_opens opens
  rw [opened, Board.firstOutcome_unread] at read
  rw [opened, Board.firstOutcome_accepted]
  rcases Board.first_cases read with ⟨notHeld, same⟩ | ⟨held, earlier, age, seeded, same⟩
  · rw [same]
    refine .inl (supplies_of_notHeld notHeld ?_)
    intro hold pushed shared
    rw [opened] at pushed
    have held := Board.held_of_mem_firstOutcome_holds pushed
    simp [shared, notHeld] at held
  · exact .inr ⟨opens, held, earlier, age, seeded, same.symm⟩

theorem source_of_notOpens {prev after : Option GateState} {capture : Capture} {col : Col}
    (goesOn : ¬Opens ⟨prev, capture, after⟩)
    (read : (capture.outcome prev).state.unread col = false) :
    Supplies ⟨prev, capture, after⟩ col ((capture.outcome prev).state.accepted.toArray col) ∨
      ∃ state, prev = some state ∧ state.unread col = false ∧
        (capture.outcome prev).state.accepted.toArray col = state.accepted.toArray col := by
  rcases outcome_of_notOpens goesOn with ⟨state, rfl, gated⟩
  rw [gated, Gating.outcome_unread] at read
  rw [gated, Gating.outcome_accepted]
  rcases Gating.out_cases read with ⟨notHeld, same, noHold⟩ | ⟨before, same⟩
  · rw [same]
    refine .inl (supplies_of_notHeld notHeld ?_)
    rw [gated]
    exact noHold
  · exact .inr ⟨state, rfl, before, same⟩

theorem provenance_snoc {steps : List (Step (Option GateState) Capture)}
    {prev after : Option GateState} {capture : Capture} {col : Col}
    (sourced : ∀ state, prev = some state → state.unread col = false →
      Provenance steps col (state.accepted.toArray col))
    (read : (capture.outcome prev).state.unread col = false) :
    Provenance (steps ++ [⟨prev, capture, after⟩]) col
      ((capture.outcome prev).state.accepted.toArray col) := by
  refine Since.snoc_iff.mpr ?_
  by_cases opens : Opens ⟨prev, capture, after⟩
  · exact .inl (source_of_opens opens read)
  · rcases source_of_notOpens opens read with supplied | ⟨state, reached, before, same⟩
    · exact .inl (.inl supplied)
    · rw [same]
      exact .inr ⟨opens, sourced state reached before⟩

theorem provenance_of_run {steps : List (Step (Option GateState) Capture)}
    {final : Option GateState} (run : game.Run none steps final) :
    ∀ state, final = some state → ∀ col, state.unread col = false →
      Provenance steps col (state.accepted.toArray col) := by
  refine run.history (fun steps prev => ∀ state, prev = some state → ∀ col,
    state.unread col = false → Provenance steps col (state.accepted.toArray col)) (by simp) ?_
  intro steps prev capture after step sourced state reached col read
  rcases Option.some.inj (reached.symm.trans (game_next step)) with rfl
  exact provenance_snoc (fun state reached => sourced state reached col) read

/-- After every capture a column that is not unread holds a read of the current
game, taken on a kept row, or its seed's value; an unread column holds 0. -/
theorem accepted_has_provenance {steps : List (Step (Option GateState) Capture)}
    {final : Option GateState} (run : game.Run none steps final) :
    ∀ state, final = some state → ∀ col,
      (state.unread col = false → Provenance steps col (state.accepted.toArray col)) ∧
        (state.unread col = true → state.accepted.toArray col = 0) := by
  intro state reached col
  exact ⟨provenance_of_run run state reached col,
    (wellFormed_of_run run state reached).unread_accepted col⟩

/-- Elims start from the seed's 5, and a fallback's 4 is held. -/
def seededRun : List Capture :=
  [{ wholeRow 0 ⟨7, 2, 1, 900, 0, 100⟩ true with
      held := .ofFn fun col => decide (col = 0)
      seed := some (⟨5, 2, 1, 800, 0, 100⟩, Duration.fromSecs 30) },
    wholeRow 60 ⟨4, 3, 1, 950, 0, 120⟩ false]

theorem accepted_has_provenance_seeded : Provenance (game.stepsOf none seededRun) 0 5 := by
  have run : game.Run none (game.stepsOf none seededRun) _ := .of_exec rfl
  exact (accepted_has_provenance run _ rfl 0).1 (by decide)

end ScuffedCrew.CaptureGate
