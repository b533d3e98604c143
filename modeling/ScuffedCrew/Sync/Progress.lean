import ScuffedCrew.Sync.Partition

/-!
# Progress against a consistent server

A server that refuses exactly the batches with a bad row, and names no row,
makes a pass cut one row off the head of the chunk for every two requests.
Whether the pass reaches the first good row depends on the budget alone.
-/

namespace ScuffedCrew.Sync

open Rust StateMachine

variable {Row : Type} {upload : Upload Row} {bad : Row → Bool} {rows : List Row} {walk next : Walk}

/-- The server accepts a batch exactly when it contains no bad row, and names no row. -/
structure ConsistentServer (upload : Upload Row) (bad : Row → Bool) : Prop where
  accepts : ∀ number batch, batch.any bad = false →
    ∃ response, upload number batch = .ok response
  refuses : ∀ number batch, batch.any bad = true →
    ∃ err, upload number batch = .error err ∧ err.isPayloadReject = true ∧
      payloadNamesARow err.message = false

namespace ConsistentServer

variable {number : ℕ} {batch : List Row} {response : StatsUploadResponse} {err : SyncUploadError}

theorem good_of_ok (server : ConsistentServer upload bad)
    (answer : upload number batch = .ok response) : batch.any bad = false := by
  rw [← Bool.not_eq_true]
  intro some
  rcases server.refuses number batch some with ⟨err, refused, -⟩
  rw [answer] at refused
  cases refused

theorem bad_of_error (server : ConsistentServer upload bad)
    (answer : upload number batch = .error err) :
    batch.any bad = true ∧ err.isPayloadReject = true ∧ payloadNamesARow err.message = false := by
  cases contains : batch.any bad with
  | false =>
      rcases server.accepts number batch contains with ⟨response, accepted⟩
      rw [answer] at accepted
      cases accepted
  | true =>
      rcases server.refuses number batch contains with ⟨other, refused, kind⟩
      rw [answer] at refused
      rcases Except.error.inj refused with rfl
      exact ⟨rfl, kind⟩

end ConsistentServer

/-- The number of bad rows at the head of the chunk. -/
def leadingBad (bad : Row → Bool) (rows : List Row) : ℕ := rows.findIdx fun row => !bad row

/-- The budget reaches the first good row: two requests for each bad row before it, one for the
rest of the chunk, and a probe when that still contains a bad row. -/
def ReachesGoodRow (bad : Row → Bool) (rows : List Row) : Prop :=
  if (rows.drop (leadingBad bad rows)).any bad = true then
    2 * leadingBad bad rows + 1 < isolationRequestBudget rows.length
  else 2 * leadingBad bad rows < isolationRequestBudget rows.length

instance : Decidable (ReachesGoodRow bad rows) := by
  unfold ReachesGoodRow
  infer_instance

/-! ## The rows of the chunk -/

theorem leadingBad_lt (good : ∃ row ∈ rows, bad row = false) :
    leadingBad bad rows < rows.length := by
  refine List.findIdx_lt_length.mpr ?_
  simpa using good

theorem bad_of_lt {row : ℕ} (lt : row < leadingBad bad rows) (bound : row < rows.length) :
    bad rows[row] = true := by
  simpa using List.not_of_lt_findIdx lt

theorem good_leadingBad (bound : leadingBad bad rows < rows.length) :
    bad rows[leadingBad bad rows] = false := by
  have good : (!bad rows[leadingBad bad rows]) = true :=
    @List.findIdx_getElem _ (fun row => !bad row) rows bound
  simpa using good

def tail (row : ℕ) (bound : row < rows.length) : Range := ⟨row, rows.length, bound⟩

theorem slice_tail {row : ℕ} (bound : row < rows.length) :
    (tail row bound).slice rows = rows.drop row := by
  simp only [tail, Range.slice, Range.len]
  rw [← List.length_drop, List.take_length]

theorem slice_probe_tail {row : ℕ} (bound : row < rows.length) :
    (tail row bound).probe.slice rows = [rows[row]] := by
  simp only [tail, Range.probe, Range.slice, Range.len, Nat.add_sub_cancel_left]
  rw [List.drop_eq_getElem_cons bound]
  rfl

theorem any_drop_of_lt {row : ℕ} (lt : row < leadingBad bad rows) (bound : row < rows.length) :
    (rows.drop row).any bad = true := by
  rw [List.drop_eq_getElem_cons bound, List.any_cons, bad_of_lt lt bound]
  rfl

/-! ## The walk -/

/-- Where the walk over the chunk stands. -/
inductive Standing (bad : Row → Bool) (rows : List Row) (walk : Walk) : Prop
  /-- The rows before `row` were refused, and the rest is still on the stack. -/
  | at (row : ℕ) (bound : row < rows.length) (leading : row ≤ leadingBad bad rows)
      (stack : walk.stack = [tail row bound]) (requests : walk.requests = 2 * row)
      (running : walk.halt = false) (none : walk.accepted = [])
  | accepted (some : walk.accepted ≠ []) (reaches : ReachesGoodRow bad rows)
  | exhausted (none : walk.accepted = []) (stack : walk.stack = [])
      (short : ¬ReachesGoodRow bad rows)

theorem accepted_step {budget : ℕ} (step : isolationStep upload rows budget walk = some next)
    (some : walk.accepted ≠ []) : next.accepted ≠ [] := by
  rcases isolationStep_move step with ⟨range, stack, -, move⟩
  cases move with
  | accept | probeAccept =>
      simp [Walk.push, Walk.accept, Walk.send, some]
  | _ => exact some

theorem standing_step (server : ConsistentServer upload bad)
    (good : ∃ row ∈ rows, bad row = false)
    (step : isolationStep upload rows (isolationRequestBudget rows.length) walk = some next)
    (standing : Standing bad rows walk) : Standing bad rows next := by
  have inside := leadingBad_lt good
  cases standing with
  | accepted some reaches => exact .accepted (accepted_step step some) reaches
  | exhausted none stack short =>
      rw [isolationStep_eq_none.mpr stack] at step
      cases step
  | «at» row bound leading stack requests running none =>
      rcases isolationStep_move step with ⟨range, others, pending, move⟩
      rcases List.cons.inj (stack.symm.trans pending) with ⟨rfl, rfl⟩
      have batch := slice_tail bound
      have probe := slice_probe_tail bound
      cases move with
      | leave spent =>
          refine .exhausted none rfl ?_
          simp only [running, Bool.false_eq_true, false_or, requests] at spent
          unfold ReachesGoodRow
          split_ifs <;> omega
      | accept room answer =>
          rw [batch] at answer
          have clean := server.good_of_ok answer
          have here : row = leadingBad bad rows := by
            refine le_antisymm leading (not_lt.mp fun lt => ?_)
            rw [any_drop_of_lt lt bound] at clean
            cases clean
          subst here
          have nonempty : (tail (leadingBad bad rows) bound).indices ≠ [] := by
            have length := Nat.sub_pos_of_lt bound
            simp [Range.indices, Range.len, tail]
            omega
          refine .accepted ?_ ?_
          · simp [Walk.accept, nonempty]
          · simp only [requests] at room
            simpa [ReachesGoodRow, clean] using room
      | bisect room answer payload several named =>
          have unnamed := (server.bad_of_error answer).2.2
          rw [named] at unnamed
          cases unnamed
      | spent room answer payload several unnamed last =>
          rw [batch] at answer
          have dirty := (server.bad_of_error answer).1
          refine .exhausted none rfl ?_
          simp only [requests] at last
          rcases leading.lt_or_eq with lt | rfl
          · unfold ReachesGoodRow
            split_ifs <;> omega
          · simp only [ReachesGoodRow, dirty, if_true]
            omega
      | probeAccept room answer payload several unnamed probed =>
          rw [batch] at answer
          rw [probe] at probed
          have dirty := (server.bad_of_error answer).1
          have clean : bad rows[row] = false := by simpa using server.good_of_ok probed
          have here : row = leadingBad bad rows := by
            refine le_antisymm leading (not_lt.mp fun lt => ?_)
            rw [bad_of_lt lt bound] at clean
            cases clean
          subst here
          refine .accepted ?_ ?_
          · simp [Walk.push, Walk.accept]
          · simp only [requests] at room
            simpa [ReachesGoodRow, dirty] using room
      | probeReject room answer payload several unnamed probed blamed =>
          rw [probe] at probed
          have dirty : bad rows[row] = true := by simpa using (server.bad_of_error probed).1
          have lt : row < leadingBad bad rows := by
            refine lt_of_le_of_ne leading ?_
            rintro rfl
            rw [good_leadingBad inside] at dirty
            cases dirty
          refine .at (row + 1) (by omega) lt ?_ ?_ running none
          · rfl
          · simp only [Walk.push, Walk.reject, Walk.send, requests]
            omega
      | probeStop room answer probed other =>
          have payload := (server.bad_of_error probed).2.1
          rw [other] at payload
          cases payload
      | reject room answer payload single =>
          rw [batch] at answer
          have last : row = leadingBad bad rows := by
            have one : ¬1 < rows.length - row := single
            omega
          subst last
          have dirty := (server.bad_of_error answer).1
          rw [List.drop_eq_getElem_cons bound, List.drop_eq_nil_of_le] at dirty
          · simp [good_leadingBad inside] at dirty
          · have one : ¬1 < rows.length - leadingBad bad rows := single
            omega
      | stop room answer other =>
          have payload := (server.bad_of_error answer).2.1
          rw [other] at payload
          cases payload

theorem standing_isolationWalk (server : ConsistentServer upload bad)
    (good : ∃ row ∈ rows, bad row = false) : Standing bad rows (isolationWalk upload rows) := by
  have nonempty : 0 < rows.length := Nat.zero_lt_of_lt (leadingBad_lt good)
  refine loop_invariant (Standing bad rows) ?_ (standing_step server good)
  refine .at 0 nonempty (Nat.zero_le _) ?_ rfl rfl rfl
  simp [initialWalk, nonempty, tail]

/-- Against a consistent server, a pass over a chunk with a good row accepts a row if and only if
its budget reaches the first good row. -/
theorem isolateRejected_progress_iff (server : ConsistentServer upload bad)
    (good : ∃ row ∈ rows, bad row = false) :
    (isolateRejected upload rows).accepted ≠ [] ↔ ReachesGoodRow bad rows := by
  rw [isolateRejected, finishIsolation_accepted]
  cases standing_isolationWalk server good with
  | accepted some reaches => exact ⟨fun _ => reaches, fun _ => some⟩
  | exhausted none stack short => simp [none, short]
  | «at» row bound leading stack requests running none =>
      rw [isolationWalk_stack] at stack
      cases stack

/-- The refusal of a batch as a whole. -/
def schemaMismatch : SyncUploadError :=
  { SyncUploadError.plain "schema mismatch".toList with status := some 400 }

/-- A server that refuses a batch with a row below `first`. -/
def refuseBelow (first : ℕ) : Upload ℕ := fun _ batch =>
  if batch.any fun row => decide (row < first) then .error schemaMismatch
  else .ok ⟨batch.length, 0, 0⟩

theorem refuseBelow_consistent (first : ℕ) :
    ConsistentServer (refuseBelow first) fun row => decide (row < first) where
  accepts number batch clean := ⟨⟨batch.length, 0, 0⟩, by simp only [refuseBelow, clean]; rfl⟩
  refuses number batch dirty :=
    ⟨schemaMismatch, by simp only [refuseBelow, dirty]; rfl, rfl, by decide⟩

/-- Three bad rows at the head of eight do not stop the pass. -/
theorem isolateRejected_progress_three :
    (isolateRejected (refuseBelow 3) (List.range 8)).accepted ≠ [] :=
  (isolateRejected_progress_iff (refuseBelow_consistent 3) ⟨3, by decide, by decide⟩).mpr
    (by decide)

/-- Seven of eight do: the pass spends its fourteen requests on them, and row 7 stays queued. -/
theorem isolateRejected_no_progress :
    ConsistentServer (refuseBelow 7) (fun row => decide (row < 7)) ∧
      (∃ row ∈ List.range 8, decide (row < 7) = false) ∧
      (isolateRejected (refuseBelow 7) (List.range 8)).accepted = [] :=
  ⟨refuseBelow_consistent 7, ⟨7, by decide, by decide⟩, by decide⟩

end ScuffedCrew.Sync
