import ScuffedCrew.CaptureGate.Provenance

/-!
# A board that stores nothing

A board is refused as a whole when every cell of it is suspect, or when the
gate holds each of its columns.  In a game that goes on, such a board leaves the
accepted values and the unread columns as they were.  What it reads still
counts for the next capture wherever a number was compared and held: the read
becomes the last raw read, and a row-shift tag needs a held drop to stay.
-/

namespace ScuffedCrew.CaptureGate

open Rust

/-- Each column has no number on this capture, or the gate holds it. -/
def Capture.Refused (capture : Capture) (state : GateState) : Prop :=
  ∀ col, capture.board.held col = true ∨
    ∃ hold ∈ (capture.outcome (some state)).holds, hold.col = col

instance (capture : Capture) (state : GateState) : Decidable (capture.Refused state) :=
  inferInstanceAs (Decidable (∀ _ : Col, _))

namespace Verdict

/-- The hold the column loop lists for the verdict. -/
def holdKind : Verdict → Option HoldKind
  | .held => some .unread
  | .monotonic => some .monotonic
  | .digitInject => some .digitInject
  | .rateCap => some .rateCap
  | .jump => some .jump
  | .firstRead | .unlatched | .passed => none

end Verdict

namespace Gating

variable {gating : Gating} {col : Col} {hold : Hold}

/-- The hold listed for the column, the refused first reads included. -/
def holdKind (gating : Gating) (col : Col) : Option HoldKind :=
  if gating.refused col then some .unread else (gating.verdict col).holdKind

theorem verdict_of_startsColumn (starts : gating.startsColumn col = true) :
    gating.verdict col = .firstRead := by
  have notHeld : gating.board.held col = false := by
    simp only [startsColumn, Bool.and_eq_true, Bool.not_eq_true'] at starts
    exact starts.1
  simp [verdict, notHeld, starts]

theorem starts_of_refused (refused : gating.refused col = true) :
    gating.decreased = true ∧ gating.startsColumn col = true := by
  simpa [Gating.refused] using refused

theorem hold_eq : gating.hold col = (gating.verdict col).holdKind.map fun kind =>
    ⟨col, kind, gating.board.read col, gating.prevAcc col⟩ := by
  have spec := gating.verdict_spec col
  cases verdict : gating.verdict col <;> simp only [verdict] at spec <;>
    simp [Gating.hold, verdict, Verdict.holdKind]
  all_goals exact cur_eq_read spec.1

theorem refusedHold_eq : gating.refusedHold col =
    if gating.refused col then some ⟨col, .unread, gating.board.read col, gating.prevAcc col⟩
    else none := by
  unfold refusedHold
  split_ifs with refused
  · have starts := (starts_of_refused refused).2
    simp only [startsColumn, Bool.and_eq_true, Bool.not_eq_true'] at starts
    simp [cur, starts.1]
  · rfl

theorem refused_eq_false (kind : HoldKind) (listed : (gating.verdict col).holdKind = some kind) :
    gating.refused col = false := by
  by_contra refused
  rw [Bool.not_eq_false] at refused
  simp [verdict_of_startsColumn (starts_of_refused refused).2, Verdict.holdKind] at listed

/-- Every hold carries the board's read and the value that was kept. -/
theorem mem_holds : hold ∈ gating.holds ↔ gating.holdKind hold.col = some hold.kind ∧
    hold.raw = gating.board.read hold.col ∧ hold.held = gating.prevAcc hold.col := by
  simp only [holds, List.mem_append, List.mem_filterMap, mem_colOrder, true_and, hold_eq,
    refusedHold_eq, holdKind]
  constructor
  · rintro (⟨other, listed⟩ | ⟨other, listed⟩)
    · rcases Option.map_eq_some_iff.mp listed with ⟨kind, kindOf, rfl⟩
      exact ⟨by simp [refused_eq_false kind kindOf, kindOf], rfl, rfl⟩
    · split_ifs at listed with refused
      rcases Option.some.inj listed with rfl
      exact ⟨by simp [refused], rfl, rfl⟩
  · rcases hold with ⟨col, kind, raw, held⟩
    dsimp only
    rintro ⟨listed, rfl, rfl⟩
    split_ifs at listed with refused
    · exact .inr ⟨col, by simp [refused, Option.some.inj listed]⟩
    · exact .inl ⟨col, by simp only [listed, Option.map_some]⟩

theorem exists_hold_iff : (∃ hold ∈ gating.holds, hold.col = col) ↔ gating.holdKind col ≠ none := by
  constructor
  · rintro ⟨hold, pushed, rfl⟩
    simp [(mem_holds.mp pushed).1]
  · intro listed
    rcases Option.ne_none_iff_exists'.mp listed with ⟨kind, listed⟩
    exact ⟨⟨col, kind, gating.board.read col, gating.prevAcc col⟩,
      mem_holds.mpr ⟨listed, rfl, rfl⟩, rfl⟩

theorem holdKind_of_noRead (without : gating.noRead col = true) :
    gating.holdKind col = some .unread := by
  by_cases refused : gating.refused col = true
  · simp [holdKind, refused]
  · have held : gating.board.held col = true := by simpa [noRead, refused] using without
    simp [holdKind, refused, verdict, held, Verdict.holdKind]

/-- A hold of another kind is the verdict of a column that had a number. -/
theorem holdKind_of_read {kind : HoldKind} (number : gating.noRead col = false) :
    gating.holdKind col = some kind ↔ (gating.verdict col).holdKind = some kind := by
  have notRefused : gating.refused col = false := by
    simp only [noRead, Bool.or_eq_false_iff] at number
    exact number.2
  simp [holdKind, notRefused]

theorem reads_of_holdKind {kind : HoldKind} (number : gating.noRead col = false)
    (listed : gating.holdKind col = some kind) : gating.Reads col := by
  have spec := gating.verdict_spec col
  have kindOf := (holdKind_of_read number).mp listed
  simp only [noRead, Bool.or_eq_false_iff] at number
  cases verdict : gating.verdict col with
  | held =>
      simp only [verdict] at spec
      simp [number.1] at spec
  | firstRead => simp [verdict, Verdict.holdKind] at kindOf
  | unlatched => simp [verdict, Verdict.holdKind] at kindOf
  | passed => simp [verdict, Verdict.holdKind] at kindOf
  | monotonic =>
      simp only [verdict] at spec
      exact spec.1
  | digitInject =>
      simp only [verdict] at spec
      exact spec.1
  | rateCap =>
      simp only [verdict] at spec
      exact spec.1
  | jump =>
      simp only [verdict] at spec
      exact spec.1

theorem noRead_of_mem_holds (pushed : hold ∈ gating.holds) (kind : hold.kind = .unread) :
    gating.noRead hold.col = true := by
  have listed := (mem_holds.mp pushed).1
  by_contra number
  rw [Bool.not_eq_true] at number
  have kindOf := (holdKind_of_read number).mp listed
  rw [kind] at kindOf
  have reads := reads_of_holdKind number listed
  cases verdict : gating.verdict hold.col <;> simp [verdict, Verdict.holdKind] at kindOf
  simpa [verdict, reads.1] using gating.verdict_spec hold.col

theorem decreased_iff :
    gating.decreased = true ↔ ∃ hold ∈ gating.holds, hold.kind = .monotonic := by
  simp only [decreased, anyCol_eq_true, beq_iff_eq]
  constructor
  · rintro ⟨col, dropped⟩
    refine ⟨⟨col, .monotonic, gating.board.read col, gating.prevAcc col⟩, mem_holds.mpr ?_, rfl⟩
    have kindOf : (gating.verdict col).holdKind = some .monotonic := by
      simp [dropped, Verdict.holdKind]
    simp [holdKind, refused_eq_false _ kindOf, kindOf]
  · rintro ⟨hold, pushed, kind⟩
    have listed := (mem_holds.mp pushed).1
    rw [kind] at listed
    have number : gating.noRead hold.col = false := by
      by_contra without
      simp [holdKind_of_noRead (by simpa using without)] at listed
    have kindOf := (holdKind_of_read number).mp listed
    refine ⟨hold.col, ?_⟩
    cases verdict : gating.verdict hold.col <;> simp [verdict, Verdict.holdKind] at kindOf ⊢

/-! ## What a held column keeps -/

theorem out_of_holdKind {kind : HoldKind} (listed : gating.holdKind col = some kind) :
    gating.out col = gating.prevAcc col := by
  by_cases refused : gating.refused col = true
  · have starts := starts_of_refused refused
    simp [out, verdict_of_startsColumn starts.2, starts.1]
  · have spec := gating.verdict_spec col
    simp only [holdKind, refused, Bool.false_eq_true, if_false] at listed
    cases verdict : gating.verdict col <;> simp_all [Verdict.holdKind, out, cur]

theorem firstRead_of_holdKind {kind : HoldKind} (listed : gating.holdKind col = some kind) :
    gating.firstRead col = false := by
  by_contra first
  simp only [Bool.not_eq_false, firstRead, Bool.and_eq_true, Bool.not_eq_true'] at first
  simp [holdKind, refused, first, verdict_of_startsColumn first.1, Verdict.holdKind] at listed

theorem rose_of_markBeside {beside : Cols Bool} {turn : Col}
    (before : beside col = true → gating.rose col = true)
    (marked : gating.markBeside beside turn col = true) : gating.rose col = true := by
  unfold markBeside at marked
  split_ifs at marked with marks
  · simp only [Cols.get_set] at marked
    split_ifs at marked with same
    · simp only [Bool.and_eq_true] at marks
      rw [same]
      exact marks.1.2
    · exact before marked
  · exact before marked

theorem rose_of_sweepBeside {beside : Cols Bool}
    (before : beside col = true → gating.rose col = true)
    (marked : gating.sweepBeside beside col = true) : gating.rose col = true := by
  unfold sweepBeside at marked
  generalize colOrder = turns at marked
  induction turns generalizing beside with
  | nil => exact before marked
  | cons turn turns ih => exact ih (rose_of_markBeside before) marked

theorem rose_of_growBeside (fuel : ℕ) {beside : Cols Bool}
    (before : beside col = true → gating.rose col = true)
    (marked : gating.growBeside fuel beside col = true) : gating.rose col = true := by
  induction fuel generalizing beside with
  | zero => exact before marked
  | succ fuel ih =>
      simp only [growBeside] at marked
      split_ifs at marked
      · exact ih (rose_of_sweepBeside before) marked
      · exact rose_of_sweepBeside before marked

/-- Only a cell that is stored above its accepted value is tagged. -/
theorem prevAcc_lt_out_of_besideDrop (marked : gating.besideDrop col = true) :
    gating.prevAcc col < gating.out col := by
  have rose := rose_of_growBeside (gateCols + 1) (by simp) marked
  simp only [Gating.rose, Bool.and_eq_true, decide_eq_true_eq] at rose
  exact rose.1.2

theorem rowShift_of_holdKind {kind : HoldKind} (number : gating.noRead col = false)
    (listed : gating.holdKind col = some kind) :
    gating.rowShift col = (gating.state.rowShift col && gating.decreased) := by
  have same := out_of_holdKind listed
  have unmarked : gating.besideDrop col = false := by
    by_contra marked
    have := prevAcc_lt_out_of_besideDrop (by simpa using marked)
    omega
  simp only [rowShift, number, unmarked, same]
  cases gating.decreased <;> cases gating.state.rowShift col <;> simp

theorem confirms_of_kept (same : gating.out col = gating.prevAcc col)
    (kept : gating.board.clean = false ∨ gating.cur col ≠ gating.prevAcc col) :
    gating.confirms col = false := by
  rcases kept with unclean | differs
  · simp [confirms, replacing, unclean]
  · simp [confirms, same, Ne.symm differs]

theorem unconfirmed_of_kept (same : gating.out col = gating.prevAcc col)
    (notFirst : gating.firstRead col = false)
    (kept : gating.board.clean = false ∨ gating.cur col ≠ gating.prevAcc col) :
    gating.unconfirmed col =
      (gating.state.unconfirmed col || killColOverCeiling col (gating.prevAcc col)) := by
  simp [unconfirmed, markImplausible, confirms_of_kept same kept, adopts, notFirst, same]

end Gating

theorem Board.clean_of_held {raw : Counters} {suspect held : Cols Bool} {trusted : Bool} {col : Col}
    (without : (ofCapture raw suspect held trusted).held col = true) :
    (ofCapture raw suspect held trusted).clean = false := by
  have marked : (suspect col || held col) = true := by
    simp only [ofCapture, Bool.or_eq_true, allCols_eq_true] at without ⊢
    rcases without with discarded | held
    · exact discarded col
    · exact .inr held
  have suspects : anyCol (ofCapture raw suspect held trusted).suspect = true :=
    anyCol_eq_true.mpr ⟨col, marked⟩
  simp [clean, suspects]

/-- What a refused board leaves of the state, and what it changes in it. -/
structure Leaves (capture : Capture) (before after : GateState) (holds : List Hold) : Prop where
  accepted : after.accepted = before.accepted
  unread : after.unread = before.unread
  /-- A kept kill value past the ceiling is marked. -/
  unconfirmed : ∀ col,
    capture.board.held col = true ∨ capture.raw.toArray col ≠ before.accepted.toArray col →
    after.unconfirmed col =
      (before.unconfirmed col || killColOverCeiling col (before.accepted.toArray col))
  withoutNumber : ∀ hold ∈ holds, hold.kind = .unread →
    after.lastRaw.toArray hold.col = before.lastRaw.toArray hold.col ∧
      after.rowShift hold.col = before.rowShift hold.col
  compared : ∀ hold ∈ holds, hold.kind ≠ .unread →
    after.lastRaw.toArray hold.col = capture.raw.toArray hold.col ∧
      after.rowShift hold.col =
        (before.rowShift hold.col && holds.any fun hold => hold.kind == .monotonic)

namespace Capture

variable {capture : Capture} {state : GateState}

/-- Only a discarded board can restart a game and store nothing. -/
theorem restarts_of_refused (refused : capture.Refused state)
    (numbered : restarts state capture.trusted = true → ∃ col, capture.board.held col = false) :
    restarts state capture.trusted = false := by
  by_contra restart
  rw [Bool.not_eq_false] at restart
  rcases numbered restart with ⟨col, notHeld⟩
  have opened : capture.outcome (some state) = capture.board.firstOutcome capture.seed
      (anchorOf capture.raw capture.suspect capture.held) := by
    simp [outcome, applyGateSeeded, restart, board]
  rcases refused col with held | ⟨hold, pushed, rfl⟩
  · simp [notHeld] at held
  · rw [opened] at pushed
    simp [Board.held_of_mem_firstOutcome_holds pushed] at notHeld

/-- A trusted board without any number starts a game with only low-trust reads over. -/
theorem unread_of_discarded (restart : restarts state capture.trusted = true)
    (discarded : ∀ col, capture.board.held col = true) (noSeed : capture.seed = none) (col : Col) :
    (capture.outcome (some state)).state.unread col = true ∧
      (capture.outcome (some state)).state.accepted.toArray col = 0 := by
  have opened : capture.outcome (some state) = capture.board.firstOutcome capture.seed
      (anchorOf capture.raw capture.suspect capture.held) := by
    simp [outcome, applyGateSeeded, restart, board]
  rw [opened, Board.firstOutcome_unread, Board.firstOutcome_accepted]
  simp [discarded col, noSeed, Board.first]

end Capture

namespace Capture

variable {capture : Capture} {state : GateState}

theorem leaves_gating (anchor : Option Counters)
    (refused : ∀ col, ∃ kind, (capture.gating state).holdKind col = some kind) :
    Leaves capture state ((capture.gating state).outcome anchor).state
      (capture.gating state).holds where
  accepted := by
    have same : (capture.gating state).out = state.accepted.toArray := by
      funext col
      rcases refused col with ⟨kind, listed⟩
      exact Gating.out_of_holdKind listed
    simp only [Gating.outcome, same]
    rfl
  unread := by
    ext col
    rcases refused col with ⟨kind, listed⟩
    rw [Gating.outcome_unread, Gating.unread, Gating.firstRead_of_holdKind listed]
    simp [gating]
  unconfirmed col kept := by
    rcases refused col with ⟨kind, listed⟩
    rw [Gating.outcome_unconfirmed]
    apply Gating.unconfirmed_of_kept (Gating.out_of_holdKind listed)
      (Gating.firstRead_of_holdKind listed)
    by_cases held : capture.board.held col = true
    · exact .inl (Board.clean_of_held held)
    · have number : (capture.gating state).board.held col = false := Bool.eq_false_iff.mpr held
      refine .inr ?_
      rw [Gating.cur, number]
      exact kept.resolve_left held
  withoutNumber hold pushed kind := by
    have without := Gating.noRead_of_mem_holds pushed kind
    rw [Gating.outcome_lastRaw, Gating.outcome_rowShift, Gating.lastRaw, Gating.rowShift,
      if_pos without, if_pos without]
    exact ⟨rfl, rfl⟩
  compared hold pushed kind := by
    have listed := (Gating.mem_holds.mp pushed).1
    have number : (capture.gating state).noRead hold.col = false := by
      by_contra without
      rw [Gating.holdKind_of_noRead (by simpa using without)] at listed
      exact kind (Option.some.inj listed).symm
    have drops : (capture.gating state).decreased =
        (capture.gating state).holds.any fun hold => hold.kind == .monotonic := by
      rw [Bool.eq_iff_iff, Gating.decreased_iff]
      simp
    constructor
    · rw [Gating.outcome_lastRaw, Gating.lastRaw, number]
      rfl
    · rw [Gating.outcome_rowShift, Gating.rowShift_of_holdKind number listed, drops]
      rfl

end Capture

/-- In a game that goes on, a refused board leaves the accepted values and the
unread columns, and its numbers are only compared with on the next capture. -/
theorem leaves_of_refused {capture : Capture} {state : GateState} (noSplit : capture.split = false)
    (refused : capture.Refused state)
    (numbered : restarts state capture.trusted = true → ∃ col, capture.board.held col = false) :
    Leaves capture state (capture.outcome (some state)).state
      (capture.outcome (some state)).holds := by
  have goesOn := Capture.restarts_of_refused refused numbered
  have running := Capture.outcome_of_running noSplit goesOn
  rw [running]
  apply Capture.leaves_gating
  intro col
  rcases refused col with held | listed
  · exact ⟨.unread, Gating.holdKind_of_noRead (by simp [Gating.noRead, Capture.gating, held])⟩
  · rw [running] at listed
    exact Option.ne_none_iff_exists'.mp (Gating.exists_hold_iff.mp listed)

/-- A row that reads lower in every column. -/
theorem leaves_of_refused_lower :
    let state := (Board.firstOutcome (.ofCapture ⟨10, 10, 5, 1000, 500, 300⟩ (.splat false)
      (.splat false) true) none none).state
    let capture := wholeRow 60 ⟨4, 3, 2, 700, 200, 100⟩ true
    Leaves capture state (capture.outcome (some state)).state
      (capture.outcome (some state)).holds :=
  leaves_of_refused rfl (by decide) (by decide)

/-- The reading under which a refused board leaves no trace. -/
def RefusedChangesNothing : Prop :=
  ∀ (state : GateState) (capture : Capture), capture.split = false → capture.Refused state →
    let after := (capture.outcome (some state)).state
    after.accepted = state.accepted ∧ after.unread = state.unread ∧
      after.unconfirmed = state.unconfirmed ∧ after.rowShift = state.rowShift ∧
      after.lastRaw = state.lastRaw

/-- A row that reads lower in every column becomes the last raw read. -/
theorem not_refusedChangesNothing : ¬RefusedChangesNothing := by
  intro unchanged
  have same := unchanged { GateState.default with
    accepted := ⟨10, 10, 5, 1000, 500, 300⟩
    lastRaw := ⟨10, 10, 5, 1000, 500, 300⟩ }
    (wholeRow 60 ⟨4, 3, 2, 700, 200, 100⟩ true) rfl (by decide)
  exact absurd same.2.2.2.2 (by decide)

end ScuffedCrew.CaptureGate
