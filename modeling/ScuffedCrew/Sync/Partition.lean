import Mathlib.Tactic.Ring
import ScuffedCrew.Sync.Isolation

/-!
# The chunk after an isolation pass

Whatever the server answers, the walk ends, stays within its budget, and files
every row of the chunk exactly once.
-/

namespace ScuffedCrew.Sync

open Rust StateMachine

variable {Row : Type} {upload : Upload Row} {rows : List Row} {budget : ℕ} {walk next : Walk}
  {range : Range}

namespace Range

theorem indices_halves (range : Range) (several : 1 < range.len) :
    range.indices = (range.front several).indices ++ (range.back several).indices := by
  have length : range.len = (range.front several).len + (range.back several).len := by
    unfold front back mid len at *
    dsimp only
    omega
  have middle : (range.back several).start = range.start + 1 * (range.front several).len := by
    unfold front back mid len at *
    dsimp only
    omega
  rw [indices, length, ← List.range'_append, ← middle]
  rfl

theorem indices_rest (range : Range) (several : 1 < range.len) :
    range.indices = range.start :: (range.rest several).indices := by
  have length : range.len = (range.rest several).len + 1 := by
    unfold rest len at *
    dsimp only
    omega
  rw [indices, length, List.range'_succ]
  rfl

theorem indices_single (range : Range) (one : ¬1 < range.len) : range.indices = [range.start] := by
  have length : range.len = 1 := by
    have nonempty := range.nonempty
    unfold len at *
    omega
  rw [indices, length]
  rfl

end Range

/-! ## Every row is filed once -/

namespace Walk

def filed (walk : Walk) : List ℕ :=
  walk.accepted ++ walk.rejected.map RejectedUpload.index ++ walk.deferred ++
    walk.stack.flatMap Range.indices

def occurrences (walk : Walk) (row : ℕ) : ℕ := walk.filed.count row

variable (walk : Walk) (row : ℕ)

@[simp]
theorem occurrences_push (ranges : List Range) :
    (walk.push ranges).occurrences row =
      (ranges.flatMap Range.indices).count row + walk.occurrences row := by
  simp only [occurrences, filed, push, List.flatMap_append, List.count_append]
  omega

@[simp]
theorem occurrences_accept (indices : List ℕ) :
    (walk.accept indices).occurrences row = indices.count row + walk.occurrences row := by
  simp only [occurrences, filed, accept, List.count_append]
  omega

@[simp]
theorem occurrences_reject (index : ℕ) (err : SyncUploadError) :
    (walk.reject index err).occurrences row = [index].count row + walk.occurrences row := by
  simp only [occurrences, filed, reject, List.map_append, List.count_append, List.map_cons,
    List.map_nil, rejectedUpload]
  omega

@[simp]
theorem occurrences_defer (range : Range) :
    (walk.defer range).occurrences row = range.indices.count row + walk.occurrences row := by
  simp only [occurrences, filed, defer, List.count_append]
  omega

@[simp]
theorem occurrences_stop (range : Range) (err : SyncUploadError) :
    (walk.stop range err).occurrences row = range.indices.count row + walk.occurrences row :=
  walk.occurrences_defer row range

@[simp]
theorem occurrences_send (range : Range) :
    (walk.send range).occurrences row = walk.occurrences row := rfl

end Walk

/-- A step of the walk loses no row and files none twice. -/
theorem occurrences_step (step : isolationStep upload rows budget walk = some next) (row : ℕ) :
    next.occurrences row = walk.occurrences row := by
  rcases isolationStep_move step with ⟨range, stack, pending, move⟩
  have before : walk.occurrences row =
      range.indices.count row + { walk with stack := stack }.occurrences row := by
    simp only [Walk.occurrences, Walk.filed, pending, List.flatMap_cons, List.count_append]
    omega
  have cut (several : 1 < range.len) : range.indices.count row =
      [range.start].count row + (range.rest several).indices.count row := by
    rw [range.indices_rest several, ← List.singleton_append, List.count_append]
  rw [before]
  cases move with
  | leave | accept | spent | probeStop | stop => simp
  | bisect room answer payload several named =>
      rw [range.indices_halves several]
      simp
  | probeAccept room answer payload several unnamed probed =>
      simp only [Walk.occurrences_push, Walk.occurrences_accept, Walk.occurrences_send,
        List.flatMap_singleton, cut several]
      omega
  | probeReject room answer payload several unnamed probed blamed =>
      simp only [Walk.occurrences_push, Walk.occurrences_reject, Walk.occurrences_send,
        List.flatMap_singleton, cut several]
      omega
  | reject room answer payload single =>
      rw [range.indices_single single]
      simp

/-! ## The requests -/

def Answered (upload : Upload Row) (rows : List Row) (walk : Walk) (row : ℕ) : Prop :=
  ∃ sent ∈ walk.sent, row ∈ sent.range.indices ∧
    ∃ response, upload sent.number (sent.range.slice rows) = .ok response

/-- The requests are counted and within the budget, and every accepted row was answered. -/
structure Audited (upload : Upload Row) (rows : List Row) (budget : ℕ) (walk : Walk) : Prop where
  counted : walk.sent.length = walk.requests
  within : walk.requests ≤ budget
  answered : ∀ row ∈ walk.accepted, Answered upload rows walk row

theorem Answered.send {row : ℕ} (answered : Answered upload rows walk row) (range : Range) :
    Answered upload rows (walk.send range) row := by
  rcases answered with ⟨sent, sent_mem, carries⟩
  exact ⟨sent, List.mem_cons_of_mem _ sent_mem, carries⟩

theorem Audited.send (audited : Audited upload rows budget walk) (range : Range)
    (room : walk.requests < budget) : Audited upload rows budget (walk.send range) where
  counted := by simp [Walk.send, audited.counted]
  within := room
  answered row accepted := (audited.answered row accepted).send range

theorem Audited.accept {response : StatsUploadResponse} (accepted : List ℕ)
    (audited : Audited upload rows budget walk) (room : walk.requests < budget)
    (answer : upload walk.requests (range.slice rows) = .ok response)
    (carried : ∀ row ∈ accepted, row ∈ range.indices) :
    Audited upload rows budget ((walk.send range).accept accepted) where
  counted := (audited.send range room).counted
  within := room
  answered := by
    intro row row_mem
    rcases List.mem_append.mp row_mem with earlier | now
    · exact (audited.answered row earlier).send range
    · exact ⟨⟨walk.requests, range⟩, List.mem_cons_self, carried row now, response, answer⟩

theorem Audited.of_same {other : Walk} (audited : Audited upload rows budget walk)
    (sent : other.sent = walk.sent) (requests : other.requests = walk.requests)
    (accepted : other.accepted = walk.accepted) : Audited upload rows budget other where
  counted := by rw [sent, requests, audited.counted]
  within := requests ▸ audited.within
  answered := by
    intro row row_mem
    rw [accepted] at row_mem
    rcases audited.answered row row_mem with ⟨request, request_mem, carries⟩
    exact ⟨request, sent ▸ request_mem, carries⟩

theorem audited_step (step : isolationStep upload rows budget walk = some next)
    (audited : Audited upload rows budget walk) : Audited upload rows budget next := by
  rcases isolationStep_move step with ⟨range, stack, pending, move⟩
  have popped : Audited upload rows budget { walk with stack := stack } :=
    audited.of_same rfl rfl rfl
  cases move with
  | leave => exact popped.of_same rfl rfl rfl
  | accept room answer => exact popped.accept _ room answer fun row row_mem => row_mem
  | bisect room | spent room | reject room | stop room =>
      exact (popped.send range room).of_same rfl rfl rfl
  | probeAccept room answer payload several unnamed probed =>
      have batch := popped.send range (Nat.lt_of_succ_lt room)
      have probe := batch.accept [range.start] room probed (by
        intro row row_mem
        rcases List.mem_singleton.mp row_mem with rfl
        simp [Range.indices, Range.probe, Range.len])
      exact probe.of_same rfl rfl rfl
  | probeReject room | probeStop room =>
      have batch := popped.send range (Nat.lt_of_succ_lt room)
      exact (batch.send range.probe room).of_same rfl rfl rfl

/-! ## Termination -/

namespace Walk

/-- A range of `n` rows is cut at most `2 * n - 1` times. -/
def weight (walk : Walk) : ℕ := (walk.stack.map fun range => 2 * range.len - 1).sum

end Walk

theorem weight_step (step : isolationStep upload rows budget walk = some next) :
    next.weight < walk.weight := by
  rcases isolationStep_move step with ⟨range, stack, pending, move⟩
  have before : walk.weight = (2 * range.len - 1) + { walk with stack := stack }.weight := by
    simp [Walk.weight, pending]
  have length : 0 < range.len := Nat.sub_pos_of_lt range.nonempty
  rw [before]
  cases move with
  | leave | accept | spent | probeStop | stop | reject =>
      simp only [Walk.weight, Walk.defer, Walk.accept, Walk.send, Walk.stop, Walk.reject]
      omega
  | bisect room answer payload several named =>
      have halves : (range.front several).len + (range.back several).len = range.len := by
        unfold Range.front Range.back Range.mid Range.len at *
        dsimp only
        omega
      have front := Nat.sub_pos_of_lt (range.front several).nonempty
      have back := Nat.sub_pos_of_lt (range.back several).nonempty
      simp only [Walk.weight, Walk.push, Walk.send, List.map_append, List.map_cons, List.map_nil,
        List.sum_append, List.sum_cons, List.sum_nil]
      unfold Range.len at *
      omega
  | probeAccept room answer payload several | probeReject room answer payload several =>
      have rest : (range.rest several).len + 1 = range.len := by
        unfold Range.rest Range.len at *
        dsimp only
        omega
      simp only [Walk.weight, Walk.push, Walk.send, Walk.accept, Walk.reject, List.map_append,
        List.map_cons, List.map_nil, List.sum_append, List.sum_cons, List.sum_nil]
      omega

theorem isolationWalk_stack (upload : Upload Row) (rows : List Row) :
    (isolationWalk upload rows).stack = [] := by
  refine isolationStep_eq_none.mp (loop_leaves Walk.weight weight_step ?_)
  unfold initialWalk Walk.weight
  split_ifs
  · simp [Range.len]
  · simp

/-! ## The whole pass -/

theorem audited_isolationWalk (upload : Upload Row) (rows : List Row) :
    Audited upload rows (isolationRequestBudget rows.length) (isolationWalk upload rows) := by
  refine loop_invariant _ ?_ audited_step
  exact ⟨rfl, Nat.zero_le _, fun row accepted => absurd accepted List.not_mem_nil⟩

/-- The walk files every row of the chunk exactly once. -/
theorem filed_isolationWalk (upload : Upload Row) (rows : List Row) :
    (isolationWalk upload rows).filed.Perm (List.range rows.length) := by
  rw [List.perm_iff_count]
  intro row
  refine loop_invariant
    (fun walk : Walk => walk.occurrences row = (List.range rows.length).count row) ?_ ?_
  · unfold initialWalk Walk.occurrences Walk.filed
    split_ifs with nonempty
    · simp [Range.indices, Range.len, List.range_eq_range']
    · simp [List.eq_nil_of_length_eq_zero (Nat.eq_zero_of_not_pos nonempty)]
  · intro walk next step kept
    rw [occurrences_step step, kept]

theorem finishIsolation_perm (walk : Walk) (finished : walk.stack = []) :
    ((finishIsolation walk).accepted ++ (finishIsolation walk).rejected.map RejectedUpload.index ++
      (finishIsolation walk).deferred).Perm walk.filed := by
  unfold finishIsolation Walk.filed
  cases accepted : walk.accepted with
  | cons first others => simp [finished]
  | nil =>
      cases rejected : walk.rejected with
      | nil => simp [finished]
      | cons first others => simpa [finished] using List.mergeSort_perm _ _

@[simp]
theorem finishIsolation_accepted (walk : Walk) :
    (finishIsolation walk).accepted = walk.accepted := by
  unfold finishIsolation
  cases accepted : walk.accepted with
  | cons first others => rfl
  | nil => cases walk.rejected <;> rfl

@[simp]
theorem finishIsolation_requests (walk : Walk) :
    (finishIsolation walk).requests = walk.requests := by
  unfold finishIsolation
  cases walk.accepted with
  | cons first others => rfl
  | nil => cases walk.rejected <;> rfl

theorem finishIsolation_rejected (walk : Walk) (none : walk.accepted = []) :
    (finishIsolation walk).rejected = [] := by
  unfold finishIsolation
  rw [none]
  cases walk.rejected <;> rfl

/-- For every chunk and every server: the pass ends with no range left, stays within its budget,
files every row of the chunk in exactly one of the three lists, accepts only rows of a request
the server answered with success, and refuses a row only when it accepted another. -/
theorem isolateRejected_partitions (upload : Upload Row) (rows : List Row) :
    let walk := isolationWalk upload rows
    let result := isolateRejected upload rows
    walk.stack = [] ∧ result.requests = walk.sent.length ∧
      result.requests ≤ isolationRequestBudget rows.length ∧
      (result.accepted ++ result.rejected.map RejectedUpload.index ++ result.deferred).Perm
        (List.range rows.length) ∧
      (∀ row ∈ result.accepted, Answered upload rows walk row) ∧
      (result.rejected ≠ [] → result.accepted ≠ []) := by
  have finished := isolationWalk_stack upload rows
  have audited := audited_isolationWalk upload rows
  refine ⟨finished, ?_, ?_, ?_, ?_, ?_⟩
  · simp [isolateRejected, audited.counted]
  · simpa [isolateRejected] using audited.within
  · exact (finishIsolation_perm _ finished).trans (filed_isolationWalk upload rows)
  · simpa [isolateRejected] using audited.answered
  · intro refused none
    refine refused (finishIsolation_rejected _ ?_)
    simpa [isolateRejected] using none

end ScuffedCrew.Sync
