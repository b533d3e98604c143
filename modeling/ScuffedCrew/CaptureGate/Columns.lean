import Mathlib.Data.Fin.Basic
import Mathlib.Data.Fintype.Card
import ScuffedCrew.CaptureGate.Gate

/-!
# What one capture does to one column

Every fact about a capture of a running game goes through the verdict of the
column.  Only an un-latch stores a value below the accepted one, and a column
that had no read in the game stores its placeholder or its first read.
-/

namespace ScuffedCrew.CaptureGate

open Rust

namespace Gating

variable {gating : Gating} {col : Col}

def Reads (gating : Gating) (col : Col) : Prop :=
  gating.board.held col = false ∧ gating.state.unread col = false

instance (gating : Gating) (col : Col) : Decidable (gating.Reads col) :=
  inferInstanceAs (Decidable (_ ∧ _))

section Outcome

variable (gating : Gating) (anchor : Option Counters) (col : Col)

@[simp]
theorem outcome_accepted :
    (gating.outcome anchor).state.accepted.toArray col = gating.out col := by
  simp [outcome]

@[simp]
theorem outcome_lastRaw :
    (gating.outcome anchor).state.lastRaw.toArray col = gating.lastRaw col := by
  simp [outcome]

@[simp]
theorem outcome_lastRawSuspect :
    (gating.outcome anchor).state.lastRawSuspect col = gating.lastRawSuspect col := by
  simp [outcome]

@[simp]
theorem outcome_unconfirmed :
    (gating.outcome anchor).state.unconfirmed col = gating.unconfirmed col := by
  simp [outcome]

@[simp]
theorem outcome_confirmedFloor :
    (gating.outcome anchor).state.confirmedFloor col = gating.confirmedFloor col := by
  simp [outcome]

@[simp]
theorem outcome_hasConfirmedFloor :
    (gating.outcome anchor).state.hasConfirmedFloor col = gating.hasConfirmedFloor col := by
  simp [outcome]

@[simp]
theorem outcome_rowShift :
    (gating.outcome anchor).state.rowShift col = gating.rowShift col := by
  simp [outcome]

@[simp]
theorem outcome_unread : (gating.outcome anchor).state.unread col = gating.unread col := by
  simp [outcome]

@[simp]
theorem outcome_heldSecs : (gating.outcome anchor).state.heldSecs col = gating.heldSecs col := by
  simp [outcome]

@[simp]
theorem outcome_refusedFirstRead :
    (gating.outcome anchor).state.refusedFirstRead col = gating.refusedFirstRead col := by
  simp [outcome]

theorem outcome_lowTrust (unconfirmed : gating.unconfirmed col = true) :
    (gating.outcome anchor).state.lowTrust = true := by
  simp only [outcome, Bool.or_eq_true, anyCol_eq_true]
  exact .inl ⟨col, unconfirmed⟩

end Outcome

theorem cur_eq_read (reads : gating.Reads col) : gating.cur col = gating.board.read col := by
  simp [cur, reads.1]

theorem verdict_spec (gating : Gating) (col : Col) :
    match gating.verdict col with
    | .held => gating.board.held col = true
    | .firstRead => gating.startsColumn col = true
    | .unlatched => gating.Reads col ∧ gating.unlatches col = true
    | .monotonic => gating.Reads col ∧ gating.cur col < gating.prevAcc col
    | .digitInject | .rateCap | .jump => gating.Reads col ∧ gating.prevAcc col ≤ gating.cur col
    | .passed => gating.Reads col ∧ gating.prevAcc col ≤ gating.cur col := by
  by_cases held : gating.board.held col = true
  · simp [verdict, held]
  by_cases first : gating.startsColumn col = true
  · simp [verdict, held, first]
  have reads : gating.Reads col := by simpa [Reads, startsColumn, held] using first
  by_cases unlatched : gating.unlatches col = true
  · simp [verdict, held, first, unlatched, reads]
  by_cases below : gating.cur col < gating.prevAcc col
  · simp [verdict, held, first, unlatched, below, reads]
  have above : gating.prevAcc col ≤ gating.cur col := not_lt.mp below
  simp only [verdict, held, first, unlatched, below, if_false, Bool.false_eq_true]
  split_ifs <;> exact ⟨reads, above⟩

theorem reads_of_unlatched (unlatched : gating.verdict col = .unlatched) : gating.Reads col := by
  have spec := gating.verdict_spec col
  rw [unlatched] at spec
  exact spec.1

theorem unlatches_of_unlatched (unlatched : gating.verdict col = .unlatched) :
    gating.unlatches col = true := by
  have spec := gating.verdict_spec col
  rw [unlatched] at spec
  exact spec.2

theorem verdict_eq_unlatched_iff :
    gating.verdict col = .unlatched ↔ gating.Reads col ∧ gating.unlatches col = true := by
  refine ⟨fun unlatched => ⟨reads_of_unlatched unlatched, unlatches_of_unlatched unlatched⟩, ?_⟩
  rintro ⟨⟨held, read⟩, unlatches⟩
  simp [verdict, startsColumn, held, read, unlatches]

theorem out_of_unlatched (unlatched : gating.verdict col = .unlatched) :
    gating.out col = gating.cur col := by
  simp [out, unlatched]

/-- Only an un-latch stores a value below the accepted one. -/
theorem prevAcc_le_out (read : gating.state.unread col = false)
    (kept : gating.verdict col ≠ .unlatched) : gating.prevAcc col ≤ gating.out col := by
  have spec := gating.verdict_spec col
  cases verdict : gating.verdict col with
  | held =>
      simp only [verdict] at spec
      simp [out, verdict, cur, spec]
  | firstRead =>
      simp only [verdict, startsColumn, read, Bool.and_false, Bool.false_eq_true] at spec
  | unlatched => exact absurd verdict kept
  | monotonic => simp [out, verdict]
  | digitInject => simp [out, verdict]
  | rateCap => simp [out, verdict]
  | jump => simp [out, verdict]
  | passed =>
      simp only [verdict] at spec
      simpa [out, verdict] using spec.2

theorem firstRead_eq_false (read : gating.state.unread col = false) :
    gating.firstRead col = false := by
  simp [firstRead, startsColumn, read]

theorem out_of_unread (unread : gating.unread col = true) :
    gating.out col = gating.prevAcc col := by
  simp only [Gating.unread, Bool.and_eq_true, Bool.not_eq_true'] at unread
  rcases unread with ⟨before, notFirst⟩
  have spec := gating.verdict_spec col
  cases verdict : gating.verdict col with
  | held =>
      simp only [verdict] at spec
      simp [out, verdict, cur, spec]
  | firstRead =>
      simp only [verdict] at spec
      have decreased : gating.decreased = true := by simpa [firstRead, spec] using notFirst
      simp [out, verdict, decreased]
  | unlatched => simp [Reads, verdict, before] at spec
  | monotonic => simp [Reads, verdict, before] at spec
  | digitInject => simp [Reads, verdict, before] at spec
  | rateCap => simp [Reads, verdict, before] at spec
  | jump => simp [Reads, verdict, before] at spec
  | passed => simp [Reads, verdict, before] at spec

theorem clean_of_unlatches (unlatches : gating.unlatches col = true) :
    gating.board.clean = true := by
  simp only [Gating.unlatches, reviseDown, replaceLow, cleanMatch, Bool.and_eq_true,
    Bool.or_eq_true] at unlatches
  rcases unlatches.1.1.2 with replaced | repeated
  · exact replaced.1.1
  · exact repeated.2.1.1

theorem trusted_of_unlatches (unlatches : gating.unlatches col = true) :
    gating.board.trusted = true := by
  have clean := clean_of_unlatches unlatches
  simp only [Board.clean, Bool.and_eq_true] at clean
  exact clean.1

theorem confirmedFloor_le_cur (unlatches : gating.unlatches col = true)
    (floored : gating.state.hasConfirmedFloor col = true) :
    gating.state.confirmedFloor col ≤ gating.cur col := by
  simp only [Gating.unlatches, belowFloor, floored, Bool.and_eq_true, Bool.true_and,
    Bool.not_eq_true', decide_eq_false_iff_not, not_lt] at unlatches
  exact unlatches.1.2

theorem confirms_of_unlatched (unlatched : gating.verdict col = .unlatched)
    (lowTrust : gating.state.lowTrust = true) : gating.confirms col = true := by
  have clean := clean_of_unlatches (unlatches_of_unlatched unlatched)
  simp [confirms, replacing, lowTrust, clean, out_of_unlatched unlatched, unlatched]

/-! ## The cells beside a drop -/

def unmarked (beside : Cols Bool) : Finset Col := Finset.univ.filter fun col => beside col = false

theorem markBeside_of_marked (beside : Cols Bool) (turn : Col) (marked : beside col = true) :
    gating.markBeside beside turn col = true := by
  unfold markBeside
  split_ifs <;> simp [marked]

theorem sweepBeside_of_marked (gating : Gating) {beside : Cols Bool} (marked : beside col = true) :
    gating.sweepBeside beside col = true := by
  unfold sweepBeside
  generalize colOrder = turns
  induction turns generalizing beside with
  | nil => exact marked
  | cons turn turns ih => exact ih (markBeside_of_marked beside turn marked)

/-- With fuel for every unmarked cell, the last sweep marks nothing. -/
theorem sweepBeside_growBeside (fuel : ℕ) (beside : Cols Bool)
    (enough : (unmarked beside).card < fuel) :
    gating.sweepBeside (gating.growBeside fuel beside) = gating.growBeside fuel beside := by
  induction fuel generalizing beside with
  | zero => omega
  | succ fuel ih =>
      simp only [growBeside]
      split_ifs with grew
      · apply ih
        have fewer : unmarked (gating.sweepBeside beside) ⊂ unmarked beside := by
          rcases anyCol_eq_true.mp grew with ⟨col, marked⟩
          simp only [Bool.and_eq_true, Bool.not_eq_true'] at marked
          refine Finset.ssubset_iff_of_subset ?_ |>.mpr ⟨col, by simp [unmarked, marked.2],
            by simp [unmarked, marked.1]⟩
          intro other unswept
          simp only [unmarked, Finset.mem_filter, Finset.mem_univ, true_and] at unswept ⊢
          by_contra marked
          simp [gating.sweepBeside_of_marked (by simpa using marked)] at unswept
        have := Finset.card_lt_card fewer
        omega
      · have same : gating.sweepBeside beside = beside := by
          ext col
          simp only [anyCol_eq_true, not_exists, Bool.and_eq_true, Bool.not_eq_true',
            not_and] at grew
          by_cases marked : beside col = true
          · rw [marked, gating.sweepBeside_of_marked marked]
          · have kept : gating.sweepBeside beside col ≠ true := fun swept => by
              simp [grew col swept] at marked
            simp_all
        rw [same, same]

/-- The marked cells of `besideDrop` are closed under a sweep. -/
theorem sweepBeside_besideDrop :
    gating.sweepBeside (gating.growBeside (gateCols + 1) (.splat false)) =
      gating.growBeside (gateCols + 1) (.splat false) := by
  apply sweepBeside_growBeside
  have := Finset.card_le_univ (unmarked (.splat false))
  simp at this ⊢
  omega

end Gating

end ScuffedCrew.CaptureGate
