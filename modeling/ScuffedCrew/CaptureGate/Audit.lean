import ScuffedCrew.CaptureGate.Refusal

/-!
# What a capture lists

The caller shows the holds and the un-latches of a capture next to the row it
stores.  Every stored value that is not the board's own read is listed as a hold
that carries the value, and a value goes down inside a game only with an
un-latch.
-/

namespace ScuffedCrew.CaptureGate

open Rust

namespace Gating

variable {gating : Gating} {col : Col}

theorem accepted_outcome (anchor : Option Counters) :
    (gating.outcome anchor).accepted.toArray col = gating.out col := by
  simp [outcome]

theorem out_of_noHold (unlisted : gating.holdKind col = none) :
    gating.out col = gating.board.read col := by
  have number : gating.noRead col = false := by
    by_contra without
    simp [holdKind_of_noRead (by simpa using without)] at unlisted
  have kindOf : (gating.verdict col).holdKind = none := by
    by_contra listed
    rcases Option.ne_none_iff_exists'.mp listed with ⟨kind, listed⟩
    simp [(holdKind_of_read number).mpr listed] at unlisted
  simp only [noRead, refused, Bool.or_eq_false_iff, Bool.and_eq_false_iff] at number
  have stores : gating.out col = gating.cur col := by
    have spec := gating.verdict_spec col
    cases verdict : gating.verdict col <;> simp_all [Verdict.holdKind, out]
  simp [stores, cur, number.1]

/-- A lower value is stored only over a column that was read, by an un-latch. -/
theorem unlatched_of_lt (placeholder : gating.state.unread col = true → gating.prevAcc col = 0)
    (lower : gating.out col < gating.prevAcc col) : gating.verdict col = .unlatched := by
  have read : gating.state.unread col = false := by
    by_contra unread
    simp [placeholder (by simpa using unread)] at lower
  by_contra kept
  exact absurd lower (not_lt.mpr (prevAcc_le_out read kept))

end Gating

theorem Board.accepted_firstOutcome {board : Board} {seed : Option (Counters × Duration)}
    {anchor : Option Counters} {col : Col} :
    (board.firstOutcome seed anchor).accepted.toArray col = board.first seed col := by
  simp [firstOutcome]

/-- A trusted board with every cell read and no suspect cell. -/
structure Capture.Clean (capture : Capture) : Prop where
  trusted : capture.trusted = true
  notSuspect : ∀ cell, capture.suspect cell = false
  notHeld : ∀ cell, capture.held cell = false

theorem Capture.clean_iff {capture : Capture} :
    capture.board.clean = true ↔ capture.Clean := by
  constructor
  · intro clean
    simp only [Board.clean, board, Board.ofCapture, Bool.and_eq_true, Bool.not_eq_true',
      anyCol_eq_false, Bool.or_eq_false_iff] at clean
    exact ⟨clean.1, fun cell => (clean.2 cell).1, fun cell => (clean.2 cell).2⟩
  · rintro ⟨trusted, notSuspect, notHeld⟩
    simp [Board.clean, board, Board.ofCapture, trusted, notSuspect, notHeld]

theorem Capture.Clean.notHeld_board {capture : Capture} (clean : capture.Clean) (col : Col) :
    capture.board.held col = false := by
  simp only [board, Board.ofCapture, clean.notSuspect, clean.notHeld]
  decide

theorem Capture.Clean.notSuspect_board {capture : Capture} (clean : capture.Clean) (col : Col) :
    capture.board.suspect col = false := by
  simp [board, Board.ofCapture, clean.notSuspect, clean.notHeld]

/-- The clean board reads the column's last raw number again. -/
structure CleanRepeat (capture : Capture) (state : GateState) (col : Col) : Prop where
  clean : capture.Clean
  notSuspect : state.lastRawSuspect col = false
  same : state.lastRaw.toArray col = capture.raw.toArray col

/-- The stored value of the column is the read, a listed hold, or the placeholder. -/
structure Accounted (capture : Capture) (outcome : GateOutcome) (col : Col) : Prop where
  stored : outcome.accepted.toArray col = capture.raw.toArray col ∨
    (∃ hold ∈ outcome.holds, hold.col = col ∧ hold.held = outcome.accepted.toArray col) ∨
    (outcome.state.unread col = true ∧ outcome.accepted.toArray col = 0)
  carried : ∀ hold ∈ outcome.holds, hold.held = outcome.accepted.toArray hold.col

/-- The stored value of the column went down by a listed un-latch. -/
structure Revised (capture : Capture) (state : GateState) (outcome : GateOutcome) (col : Col) :
    Prop where
  listed : ∃ unlatch ∈ outcome.unlatches, unlatch.col = col ∧
    unlatch.raw = outcome.accepted.toArray col ∧ unlatch.revisedFrom = state.accepted.toArray col
  allowed : (state.unconfirmed col = true ∧ capture.Clean) ∨
    (state.rowShift col = true ∧ CleanRepeat capture state col)

namespace Capture

variable {capture : Capture} {state : GateState} {col : Col}

theorem accounted_firstOutcome (capture : Capture) (anchor : Option Counters) (col : Col) :
    Accounted capture (capture.board.firstOutcome capture.seed anchor) col where
  stored := by
    rw [Board.accepted_firstOutcome]
    cases held : capture.board.held col with
    | false =>
        left
        rw [Board.first, held]
        rfl
    | true =>
        right
        cases seed : capture.seed with
        | none => exact .inr ⟨by simp [held], by simp [Board.first, held]⟩
        | some seeded =>
            refine .inl
              ⟨⟨col, .unread, capture.board.read col, capture.board.first (some seeded) col⟩,
              ?_, rfl, rfl⟩
            simp only [Board.firstOutcome, List.mem_filterMap]
            exact ⟨col, mem_colOrder col, by simp [Board.seedHold, held]⟩
  carried hold pushed := by
    rw [Board.accepted_firstOutcome]
    simp only [Board.firstOutcome, List.mem_filterMap, Board.seedHold] at pushed
    rcases pushed with ⟨listed, -, pushed⟩
    split_ifs at pushed
    rcases Option.some.inj pushed with rfl
    rfl

theorem accounted_gating (capture : Capture) (state : GateState) (anchor : Option Counters)
    (col : Col) : Accounted capture ((capture.gating state).outcome anchor) col where
  stored := by
    rw [Gating.accepted_outcome]
    cases listed : (capture.gating state).holdKind col with
    | none => exact .inl (Gating.out_of_noHold listed)
    | some kind =>
        refine .inr (.inl ⟨⟨col, kind, capture.board.read col, state.accepted.toArray col⟩, ?_,
          rfl, (Gating.out_of_holdKind listed).symm⟩)
        exact Gating.mem_holds.mpr ⟨listed, rfl, rfl⟩
  carried hold pushed := by
    rcases Gating.mem_holds.mp pushed with ⟨listed, -, held⟩
    rw [Gating.accepted_outcome, held, Gating.out_of_holdKind listed]

theorem allowed_of_unlatches (unlatches : (capture.gating state).unlatches col = true) :
    (state.unconfirmed col = true ∧ capture.Clean) ∨
      (state.rowShift col = true ∧ CleanRepeat capture state col) := by
  have clean : capture.Clean := clean_iff.mp (Gating.clean_of_unlatches unlatches)
  simp only [Gating.unlatches, Gating.reviseDown, Gating.replaceLow, Gating.cleanMatch,
    Bool.and_eq_true, Bool.or_eq_true, Bool.not_eq_true', decide_eq_true_eq] at unlatches
  rcases unlatches.1.1.2 with replaced | ⟨shifted, ⟨-, notSuspect⟩, same⟩
  · exact .inl ⟨replaced.1.2, clean⟩
  · refine .inr ⟨shifted, clean, notSuspect, same.trans ?_⟩
    rw [Gating.cur, if_neg (by simp [gating, clean.notHeld_board col])]
    rfl

theorem revised_gating (anchor : Option Counters)
    (placeholder : state.unread col = true → state.accepted.toArray col = 0)
    (lower : ((capture.gating state).outcome anchor).accepted.toArray col <
      state.accepted.toArray col) :
    Revised capture state ((capture.gating state).outcome anchor) col := by
  rw [Gating.accepted_outcome] at lower
  have unlatched := Gating.unlatched_of_lt placeholder lower
  refine ⟨⟨⟨col, (capture.gating state).cur col, state.accepted.toArray col, true⟩, ?_, rfl, ?_,
    rfl⟩, allowed_of_unlatches (Gating.unlatches_of_unlatched unlatched)⟩
  · simp only [Gating.outcome, List.mem_filterMap]
    refine ⟨col, mem_colOrder col, ?_⟩
    rw [Gating.unlatch, if_pos unlatched]
    rfl
  · rw [Gating.accepted_outcome, Gating.out_of_unlatched unlatched]

end Capture

/-- Every capture accounts for every stored value, and within a game a value
goes down only by an un-latch of an unconfirmed value or of a row shift. -/
theorem decisions_accounted (prev : Option GateState) (capture : Capture) (col : Col) :
    Accounted capture (capture.outcome prev) col ∧
      ∀ state, prev = some state → capture.split = false →
        restarts state capture.trusted = false →
        (state.unread col = true → state.accepted.toArray col = 0) →
        (capture.outcome prev).accepted.toArray col < state.accepted.toArray col →
        Revised capture state (capture.outcome prev) col := by
  constructor
  · rcases capture.outcome_cases prev with ⟨state, rfl, -, -, running⟩ | opened
    · rw [running]
      exact capture.accounted_gating state _ col
    · rw [opened]
      exact capture.accounted_firstOutcome _ col
  · rintro state rfl noSplit noRestart placeholder lower
    rw [Capture.outcome_of_running noSplit noRestart] at lower ⊢
    exact Capture.revised_gating _ placeholder lower

/-- A clean 12 replaces the fallback's 16. -/
theorem decisions_accounted_fallback :
    let confirmed := ((wholeRow 0 ⟨10, 10, 5, 1000, 500, 300⟩ true).outcome none).state
    let state := ((wholeRow 60 ⟨16, 12, 5, 1000, 500, 300⟩ false).outcome (some confirmed)).state
    let capture := wholeRow 60 ⟨12, 12, 5, 1000, 500, 300⟩ true
    Revised capture state (capture.outcome (some state)) 0 :=
  (decisions_accounted (some _) _ 0).2 _ rfl rfl (by decide) (by decide) (by decide)

end ScuffedCrew.CaptureGate
