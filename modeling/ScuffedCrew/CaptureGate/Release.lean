import ScuffedCrew.CaptureGate.Audit

/-!
# A true value is not held for ever

A board that is not below the accepted values in any column drops nothing, so a
clean trusted one is either stored or held for its height.  The read it leaves
behind corroborates the next one: the same board a second time is stored in
every column but those that look like an injected digit.
-/

namespace ScuffedCrew.CaptureGate

open Rust

theorem corroborates_self (value : ℕ) : corroborates value value = true := by
  simp [corroborates, absDiff]

namespace Gating

/-- A clean board with no column below its accepted value. -/
structure Rises (gating : Gating) : Prop where
  trusted : gating.board.trusted = true
  notHeld : ∀ col, gating.board.held col = false
  notSuspect : ∀ col, gating.board.suspect col = false
  le : ∀ col, gating.prevAcc col ≤ gating.board.read col

namespace Rises

variable {gating : Gating}

theorem cur_eq (rises : gating.Rises) (col : Col) : gating.cur col = gating.board.read col := by
  simp [cur, rises.notHeld col]

theorem prevAcc_le_cur (rises : gating.Rises) (col : Col) :
    gating.prevAcc col ≤ gating.cur col := by
  rw [rises.cur_eq]
  exact rises.le col

theorem unlatches_eq_false (rises : gating.Rises) (col : Col) : gating.unlatches col = false := by
  have notBelow : ¬gating.cur col < gating.prevAcc col := not_lt.mpr (rises.prevAcc_le_cur col)
  simp [unlatches, notBelow]

theorem decreased_eq_false (rises : gating.Rises) : gating.decreased = false := by
  simp only [decreased, anyCol_eq_false, beq_eq_false_iff_ne]
  intro col dropped
  have spec := gating.verdict_spec col
  simp only [dropped] at spec
  exact absurd spec.2 (not_lt.mpr (rises.prevAcc_le_cur col))

theorem noRead_eq_false (rises : gating.Rises) (col : Col) : gating.noRead col = false := by
  simp [noRead, refused, rises.notHeld col, rises.decreased_eq_false]

theorem unread_eq_false (rises : gating.Rises) (col : Col) : gating.unread col = false := by
  simp [unread, firstRead, startsColumn, rises.notHeld col, rises.decreased_eq_false]

theorem lastRaw_eq (rises : gating.Rises) (col : Col) :
    gating.lastRaw col = gating.board.read col := by
  simp [lastRaw, rises.noRead_eq_false col]

theorem lastRawSuspect_eq_false (rises : gating.Rises) (col : Col) :
    gating.lastRawSuspect col = false := by
  simp [lastRawSuspect, rises.noRead_eq_false col, rawSuspectMask, rises.trusted,
    rises.notSuspect col]

theorem out_le (rises : gating.Rises) (col : Col) : gating.out col ≤ gating.board.read col := by
  cases listed : gating.holdKind col with
  | none => exact (out_of_noHold listed).le
  | some kind =>
      rw [out_of_holdKind listed]
      exact rises.le col

/-- A corroborated rise is stored, whatever its height, unless it looks like an injected digit. -/
theorem out_of_corroborated (rises : gating.Rises) {col : Col}
    (read : gating.state.unread col = false) (corroborated : gating.corroborated col = true) :
    gating.out col = gating.board.read col ∨ gating.holdKind col = some .digitInject := by
  have notBelow : ¬gating.cur col < gating.prevAcc col := not_lt.mpr (rises.prevAcc_le_cur col)
  have verdict : gating.verdict col = .digitInject ∨ gating.verdict col = .passed := by
    simp only [Gating.verdict, rises.notHeld col, startsColumn, read, rises.unlatches_eq_false col,
      notBelow, corroborated]
    simp only [Bool.and_false, Bool.not_true, Bool.false_eq_true, if_false, Bool.false_and]
    split_ifs <;> simp
  rcases verdict with injected | passed
  · right
    exact (holdKind_of_read (rises.noRead_eq_false col)).mpr (by simp [injected, Verdict.holdKind])
  · left
    simp [out, passed, rises.cur_eq col]

end Rises

end Gating

/-- What a clean board of at least the accepted values leaves behind. -/
structure LastRead (values : Counters) (state : GateState) : Prop where
  le : ∀ col, state.accepted.toArray col ≤ values.toArray col
  read : ∀ col, state.unread col = false
  lastRaw : ∀ col, state.lastRaw.toArray col = values.toArray col
  notSuspect : ∀ col, state.lastRawSuspect col = false

namespace Capture

variable {capture : Capture} {state : GateState}

theorem rises_gating (clean : capture.Clean)
    (le : ∀ col, state.accepted.toArray col ≤ capture.raw.toArray col) :
    (capture.gating state).Rises where
  trusted := clean.trusted
  notHeld := clean.notHeld_board
  notSuspect := clean.notSuspect_board
  le := le

theorem first_of_clean (clean : capture.Clean) (seed : Option (Counters × Duration)) (col : Col) :
    capture.board.first seed col = capture.raw.toArray col := by
  rw [Board.first, clean.notHeld_board col]
  rfl

theorem lastRead_firstOutcome (clean : capture.Clean) (anchor : Option Counters) :
    LastRead capture.raw (capture.board.firstOutcome capture.seed anchor).state where
  le col := by
    rw [Board.firstOutcome_accepted, first_of_clean clean]
  read col := by simp [clean.notHeld_board col]
  lastRaw col := by
    simpa [Board.firstOutcome, freshState] using first_of_clean clean capture.seed col
  notSuspect col := by
    have trusted : capture.board.trusted = true := clean.trusted
    simp [Board.firstOutcome, freshState, rawSuspectMask, clean.notHeld_board col, trusted,
      clean.notSuspect_board col]

theorem lastRead_outcome (clean : capture.Clean)
    (le : ∀ col, state.accepted.toArray col ≤ capture.raw.toArray col) :
    LastRead capture.raw (capture.outcome (some state)).state := by
  rcases capture.outcome_cases (some state) with ⟨before, same, -, -, running⟩ | opened
  · rcases Option.some.inj same with rfl
    have rises := rises_gating clean le
    rw [running]
    constructor
    · intro col
      rw [Gating.outcome_accepted]
      exact rises.out_le col
    · intro col
      rw [Gating.outcome_unread]
      exact rises.unread_eq_false col
    · intro col
      rw [Gating.outcome_lastRaw]
      exact rises.lastRaw_eq col
    · intro col
      rw [Gating.outcome_lastRawSuspect]
      exact rises.lastRawSuspect_eq_false col
  · rw [opened]
    exact lastRead_firstOutcome clean _

theorem corroborated_of_lastRead (clean : capture.Clean) (lastRead : LastRead capture.raw state)
    (col : Col) : (capture.gating state).corroborated col = true := by
  have cur := (rises_gating clean lastRead.le).cur_eq col
  have prevRaw : (capture.gating state).prevRaw col = capture.raw.toArray col :=
    lastRead.lastRaw col
  have read : (capture.gating state).board.read col = capture.raw.toArray col := rfl
  have notSuspect : (capture.gating state).state.lastRawSuspect col = false :=
    lastRead.notSuspect col
  rw [Gating.corroborated, notSuspect, cur, prevRaw, read, corroborates_self]
  rfl

theorem released_of_lastRead (clean : capture.Clean) (lastRead : LastRead capture.raw state)
    (col : Col) :
    (capture.outcome (some state)).accepted.toArray col = capture.raw.toArray col ∨
      ∃ hold ∈ (capture.outcome (some state)).holds, hold.col = col ∧ hold.kind = .digitInject := by
  rcases capture.outcome_cases (some state) with ⟨before, reached, -, -, running⟩ | opened
  · rcases Option.some.inj reached with rfl
    have rises := rises_gating clean lastRead.le
    rw [running]
    rcases rises.out_of_corroborated (lastRead.read col)
      (corroborated_of_lastRead clean lastRead col) with stored | injected
    · left
      rw [Gating.accepted_outcome]
      exact stored
    · right
      exact ⟨⟨col, .digitInject, capture.raw.toArray col, state.accepted.toArray col⟩,
        Gating.mem_holds.mpr ⟨injected, rfl, rfl⟩, rfl, rfl⟩
  · left
    rw [opened, Board.accepted_firstOutcome]
    exact first_of_clean clean _ col

end Capture

/-- The same clean board on two captures is stored by the second, but for what
the gate still lists as an injected digit. -/
theorem released_by_second_read {state : GateState} {first second : Capture}
    (cleanFirst : first.Clean) (cleanSecond : second.Clean) (same : second.raw = first.raw)
    (le : ∀ col, state.accepted.toArray col ≤ first.raw.toArray col) (col : Col) :
    let outcome := second.outcome (some (first.outcome (some state)).state)
    outcome.accepted.toArray col = first.raw.toArray col ∨
      ∃ hold ∈ outcome.holds, hold.col = col ∧ hold.kind = .digitInject := by
  have lastRead : LastRead second.raw (first.outcome (some state)).state := by
    rw [same]
    exact Capture.lastRead_outcome cleanFirst le
  rw [← same]
  exact Capture.released_of_lastRead cleanSecond lastRead col

/-- Elims jump from 13 to 18 and stay there. -/
theorem released_by_second_read_jump :
    let state := ((wholeRow 0 ⟨13, 10, 5, 1000, 500, 300⟩ true).outcome none).state
    let capture := wholeRow 30 ⟨18, 10, 5, 1000, 500, 300⟩ true
    let outcome := capture.outcome (some (capture.outcome (some state)).state)
    outcome.accepted.toArray 0 = 18 ∨
      ∃ hold ∈ outcome.holds, hold.col = 0 ∧ hold.kind = .digitInject :=
  released_by_second_read ⟨rfl, by decide, by decide⟩ ⟨rfl, by decide, by decide⟩ rfl
    (by decide) 0

end ScuffedCrew.CaptureGate
