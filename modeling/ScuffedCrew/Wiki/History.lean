import Mathlib.Data.List.Count
import Mathlib.Data.List.Perm.Basic
import ScuffedCrew.Wiki.Updates

/-!
# The history of a wiki page

A revision records the content its update has read, so the history of a page is
complete when every update replaces the content it has read.  A base version the
read has seen makes sure of it: the compare-and-swap fails when the page has
changed since.  An update without one may replace a content nobody records.
-/

namespace ScuffedCrew.Wiki

open Rust Database StateMachine

variable {pageId : ℕ} {store after : WikiStore} {call moved : UpdateCall} {clocks : Clocks}
  {start pool later final : Pool WikiStore UpdateCall} {turn : Turn Clocks}
  {steps : List UpdateStep}

/-! ## The page after a step -/

/-- An update that lands gives its page a content and a version; the other pages stay. -/
theorem get?_landed {request : UpdateRequest} {page : Record WikiPage} {tip : WikiPage} {now : ℕ}
    (found : store.pages.get? page.id = some tip) (accepted : request.accepts tip = true) :
    (store.pages.updateWhere (fun row => row.id == page.id && request.accepts row.value)
      (request.write now)).get? pageId =
        if page.id = pageId then some (request.write now tip) else store.pages.get? pageId := by
  rw [Table.get?_updateWhere]
  split
  next same =>
    rcases same with rfl
    simp [found, accepted]
  next differs =>
    have other : (pageId == page.id) = false := by simpa using Ne.symm differs
    cases store.pages.get? pageId <;> simp [other]

/-- The content an update has read, until it is in a revision. -/
def UpdateCall.pending (pageId : ℕ) : UpdateCall → List Text
  | createRevision _ page _ => if page.id = pageId then [page.value.contentMarkdown] else []
  | _ => []

theorem recorded_create {request : UpdateRequest} {page : Record WikiPage} {now : ℕ} :
    ({ store with revisions := store.revisions.create (request.revision page now) } :
      WikiStore).recorded pageId =
        store.recorded pageId ++
          if page.id = pageId then [page.value.contentMarkdown] else [] := by
  by_cases same : page.id = pageId
  · simp [WikiStore.recorded, Table.create, UpdateRequest.revision, same]
  · simp [WikiStore.recorded, Table.create, UpdateRequest.revision, same]

/-- A content that waits for its revision, or has it, keeps doing so. -/
theorem Updates.recorded_mono (effect : Updates store call clocks after moved) (content : Text) :
    (store.recorded pageId).count content + (call.pending pageId).count content ≤
      (after.recorded pageId).count content + (moved.pending pageId).count content := by
  cases effect with
  | misses request error now later calling =>
      rcases calling with rfl | ⟨page, rfl, -⟩ <;> exact le_rfl
  | reads request page at_select =>
      rcases at_select with rfl
      exact le_rfl
  | lands request page tip at_update =>
      rcases at_update with rfl
      exact Nat.add_le_add_left (by simp [UpdateCall.pending]) _
  | records request page updated at_create =>
      rcases at_create with rfl
      rw [recorded_create, List.count_append]
      exact le_rfl

/-! ## What the calls have read -/

/-- What the calls have read of the page was on it, and is on it unless the version is newer. -/
structure Reading (pageId : ℕ) (start : Pool WikiStore UpdateCall) (steps : List UpdateStep)
    (pool : Pool WikiStore UpdateCall) : Prop where
  past : ∀ id page, pool.shared.pages.get? id = some page → page.updatedAt ≤ pool.shared.now
  tip : ∀ page, pool.shared.pages.get? pageId = some page →
    page.contentMarkdown ∈ contentsHeld pageId start steps
  seen : ∀ request page, .update request page ∈ pool.processes → page.id = pageId →
    page.value.contentMarkdown ∈ contentsHeld pageId start steps ∧
      ∀ tip, pool.shared.pages.get? pageId = some tip → page.value.updatedAt ≤ tip.updatedAt ∧
        (page.value.updatedAt = tip.updatedAt →
          page.value.contentMarkdown = tip.contentMarkdown)

theorem contentsHeld_snoc {step : UpdateStep} :
    contentsHeld pageId start (steps ++ [step]) =
      contentsHeld pageId start steps ++ (step.written? pageId).toList := by
  simp only [contentsHeld, List.filterMap_append, ← List.append_assoc]
  cases written : step.written? pageId <;> simp [written]

theorem contentsHeld_grows {step : UpdateStep} {content : Text}
    (held : content ∈ contentsHeld pageId start steps) :
    content ∈ contentsHeld pageId start (steps ++ [step]) := by
  rw [contentsHeld_snoc]
  exact List.mem_append_left _ held

/-- A step that leaves the page alone writes no version of it. -/
theorem written?_of_same {step : UpdateStep}
    (same : step.after.shared.pages.get? pageId = step.before.shared.pages.get? pageId) :
    step.written? pageId = none := by
  simp [UpdateStep.written?, WikiStore.version?, same]

theorem written?_of_landed {step : UpdateStep} {tip written : WikiPage}
    (before : step.before.shared.pages.get? pageId = some tip)
    (landed : step.after.shared.pages.get? pageId = some written)
    (newer : tip.updatedAt < written.updatedAt) :
    step.written? pageId = some written.contentMarkdown := by
  have differs : tip.updatedAt ≠ written.updatedAt := Nat.ne_of_lt newer
  simp [UpdateStep.written?, WikiStore.version?, WikiStore.content?, before, landed, differs]

/-- The page after a step is the one before it, or a newer one that the step has written. -/
theorem Reading.page_cases (reading : Reading pageId start steps pool)
    (taken : concurrentUpdates.next pool turn = some later) :
    later.shared.pages.get? pageId = pool.shared.pages.get? pageId ∨
      ∃ tip written, pool.shared.pages.get? pageId = some tip ∧
        later.shared.pages.get? pageId = some written ∧ tip.updatedAt < written.updatedAt ∧
        UpdateStep.written? ⟨pool, turn, later⟩ pageId = some written.contentMarkdown := by
  rcases interleaving_next_eq_some.mp taken with ⟨call, shared, moved, found, accessed, rfl⟩
  cases updates_of_step accessed with
  | misses => exact .inl rfl
  | reads => exact .inl rfl
  | records => exact .inl rfl
  | lands request page tip at_update newer stored accepted =>
      have landed := @get?_landed pageId pool.shared request page tip turn.choice.database stored
        accepted
      split at landed
      next same =>
        rcases same with rfl
        have newer := Nat.lt_of_le_of_lt (reading.past _ tip stored) newer
        exact .inr ⟨tip, _, stored, landed, newer,
          @written?_of_landed _ ⟨pool, turn, _⟩ _ _ stored landed newer⟩
      next => exact .inl landed

theorem Reading.step (reading : Reading pageId start steps pool)
    (taken : concurrentUpdates.next pool turn = some later) :
    Reading pageId start (steps ++ [⟨pool, turn, later⟩]) later := by
  have pages := reading.page_cases taken
  rcases interleaving_next_eq_some.mp taken with ⟨call, shared, moved, found, accessed, rfl⟩
  have effect := updates_of_step accessed
  have tip_held : ∀ page, shared.pages.get? pageId = some page → page.contentMarkdown ∈
      contentsHeld pageId start (steps ++
        [⟨pool, turn, ⟨shared, pool.processes.set turn.process moved⟩⟩]) := by
    intro page page_found
    rcases pages with same | ⟨tip, written, -, landed, -, written_eq⟩
    · have before : pool.shared.pages.get? pageId = some page := same ▸ page_found
      exact contentsHeld_grows (reading.tip page before)
    · rcases Option.some.inj (page_found.symm.trans landed) with rfl
      rw [contentsHeld_snoc, written_eq]
      exact List.mem_append_right _ (List.mem_singleton_self _)
  refine ⟨?_, tip_held, ?_⟩
  · intro id page page_found
    cases effect with
    | misses request error now newer => exact (reading.past id page page_found).trans newer
    | reads => exact reading.past id page page_found
    | records => exact reading.past id page page_found
    | lands request row tip at_update newer stored accepted =>
        rw [get?_landed stored accepted] at page_found
        split at page_found
        next =>
          rcases Option.some.inj page_found with rfl
          exact le_rfl
        next => exact (reading.past id page page_found).trans (Nat.le_of_lt newer)
  · intro request page update_mem of_page
    rcases List.getElem?_of_mem update_mem with ⟨position, at_position⟩
    rcases Pool.of_set at_position with ⟨-, at_update⟩ | ⟨-, before⟩
    · cases effect with
      | misses => cases at_update
      | records => cases at_update
      | lands => cases at_update
      | reads other row at_select stored =>
          rcases UpdateCall.update.inj at_update with ⟨rfl, rfl⟩
          rw [of_page] at stored
          refine ⟨tip_held _ stored, ?_⟩
          intro tip tip_found
          rcases Option.some.inj (tip_found.symm.trans stored) with rfl
          exact ⟨le_rfl, fun _ => rfl⟩
    · rcases reading.seen request page (List.mem_of_getElem? before) of_page with ⟨held, newest⟩
      refine ⟨contentsHeld_grows held, ?_⟩
      intro tip tip_found
      rcases pages with same | ⟨old, written, old_found, landed, newer, -⟩
      · exact newest tip (same ▸ tip_found)
      · rcases Option.some.inj (tip_found.symm.trans landed) with rfl
        have older := Nat.lt_of_le_of_lt (newest old old_found).1 newer
        exact ⟨Nat.le_of_lt older, fun same => absurd same (Nat.ne_of_lt older)⟩

/-- An update that lands on a content it has not read is one the condition speaks of. -/
theorem Reading.read_eq_tip (reading : Reading pageId start steps pool)
    {request : UpdateRequest} {page : Record WikiPage} {tip : WikiPage}
    (at_update : .update request page ∈ pool.processes) (of_page : page.id = pageId)
    (found : pool.shared.pages.get? pageId = some tip) (accepted : request.accepts tip = true)
    (replaces : UpdateCall.replacesUnread pool.shared pageId (.update request page) = false) :
    page.value.contentMarkdown = tip.contentMarkdown := by
  have newest := (reading.seen request page at_update of_page).2 tip found
  by_contra differs
  have unseen : request.prevUpdatedAt.all (fun prev => page.value.updatedAt < prev) = false := by
    simpa [UpdateCall.replacesUnread, of_page, found, accepted, Ne.symm differs] using replaces
  cases base : request.prevUpdatedAt with
  | none => simp [base] at unseen
  | some prev =>
      have same : tip.updatedAt = prev := by simpa [UpdateRequest.accepts, base] using accepted
      have seen : prev ≤ page.value.updatedAt := by simpa [base] using unseen
      exact differs (newest.2 (Nat.le_antisymm newest.1 (same ▸ seen)))

/-! ## What is recorded, and what is to be -/

/-- How often a content waits for its revision. -/
def awaiting (pageId : ℕ) (content : Text) (pool : Pool WikiStore UpdateCall) : ℕ :=
  (pool.processes.map fun call => (call.pending pageId).count content).sum

/-- Every content the page held before is recorded, or waits for its revision. -/
def Balanced (pageId : ℕ) (start : Pool WikiStore UpdateCall) (steps : List UpdateStep)
    (pool : Pool WikiStore UpdateCall) : Prop :=
  ∀ content, (pool.shared.content? pageId).toList.count content +
      (pool.shared.recorded pageId).count content + awaiting pageId content pool =
    (start.shared.recorded pageId).count content + (contentsHeld pageId start steps).count content

theorem awaiting_step {call moved : UpdateCall} {shared : WikiStore} (content : Text)
    (found : pool.processes[turn.process]? = some call) :
    awaiting pageId content ⟨shared, pool.processes.set turn.process moved⟩ +
        (call.pending pageId).count content =
      awaiting pageId content pool + (moved.pending pageId).count content :=
  Pool.sum_set (fun call => (call.pending pageId).count content) found

theorem Balanced.step (balanced : Balanced pageId start steps pool)
    (reading : Reading pageId start steps pool)
    (taken : concurrentUpdates.next pool turn = some later)
    (replaces : UpdateStep.ReplacesRead ⟨pool, turn, later⟩ pageId) :
    Balanced pageId start (steps ++ [⟨pool, turn, later⟩]) later := by
  intro content
  have before := balanced content
  rw [contentsHeld_snoc, List.count_append]
  rcases interleaving_next_eq_some.mp taken with ⟨call, shared, moved, found, accessed, rfl⟩
  have waits := @awaiting_step pageId pool turn call moved shared content found
  have call_mem := List.mem_of_getElem? found
  cases updates_of_step accessed with
  | misses request error now newer calling =>
      rw [written?_of_same rfl]
      rcases calling with rfl | ⟨page, rfl, -⟩ <;>
        simp only [UpdateCall.pending, WikiStore.content?, WikiStore.recorded] at waits before ⊢ <;>
        simp only [List.count_nil, Option.toList_none] at waits ⊢ <;> omega
  | reads request page at_select =>
      rcases at_select with rfl
      rw [written?_of_same rfl]
      simp only [UpdateCall.pending, List.count_nil, Option.toList_none] at waits ⊢
      omega
  | records request page updated at_create =>
      rcases at_create with rfl
      rw [written?_of_same rfl, recorded_create, List.count_append]
      simp only [UpdateCall.pending, WikiStore.content?, List.count_nil, Option.toList_none]
        at waits before ⊢
      omega
  | lands request page tip at_update newer stored accepted =>
      rcases at_update with rfl
      have landed := @get?_landed pageId pool.shared request page tip turn.choice.database stored
        accepted
      split at landed
      next same =>
        rcases same with rfl
        have newer := Nat.lt_of_le_of_lt (reading.past _ tip stored) newer
        have read := reading.read_eq_tip call_mem rfl stored accepted (replaces _ found)
        rw [@written?_of_landed _ ⟨pool, turn, _⟩ _ _ stored landed newer]
        simp only [UpdateCall.pending, WikiStore.content?, WikiStore.recorded, stored, landed, read,
          if_true, List.count_nil, Option.map_some, Option.toList_some] at waits before ⊢
        omega
      next differs =>
        rw [@written?_of_same _ ⟨pool, turn, _⟩ landed]
        simp only [UpdateCall.pending, WikiStore.content?, WikiStore.recorded, landed, differs,
          if_false, List.count_nil, Option.toList_none] at waits before ⊢
        omega

/-- A content is recorded, or waits for its revision, twice. -/
def RecordedTwice (pageId : ℕ) (start pool : Pool WikiStore UpdateCall) : Prop :=
  ∃ content, (start.shared.recorded pageId).count content + 2 ≤
    (pool.shared.recorded pageId).count content + awaiting pageId content pool

theorem RecordedTwice.step (twice : RecordedTwice pageId start pool)
    (taken : concurrentUpdates.next pool turn = some later) :
    RecordedTwice pageId start later := by
  rcases interleaving_next_eq_some.mp taken with ⟨call, shared, moved, found, accessed, rfl⟩
  rcases twice with ⟨content, twice⟩
  have waits := @awaiting_step pageId pool turn call moved shared content found
  have grows := @Updates.recorded_mono pageId _ _ _ _ _ (updates_of_step accessed) content
  refine ⟨content, ?_⟩
  simp only at grows ⊢
  omega

/-- An update that replaces what it has not read is about to land on another content. -/
theorem UpdateCall.replacesUnread_iff :
    call.replacesUnread store pageId = true ↔
      ∃ request page tip, call = .update request page ∧ page.id = pageId ∧
        request.prevUpdatedAt.all (fun prev => page.value.updatedAt < prev) = true ∧
        store.pages.get? pageId = some tip ∧ request.accepts tip = true ∧
        tip.contentMarkdown ≠ page.value.contentMarkdown := by
  constructor
  · intro replaces
    cases call with
    | select => cases replaces
    | createRevision => cases replaces
    | returned => cases replaces
    | update request page =>
        simp only [UpdateCall.replacesUnread, Bool.and_eq_true, beq_iff_eq, Option.any_eq_true,
          bne_iff_ne] at replaces
        rcases replaces with ⟨⟨same, unseen⟩, tip, found, accepted, differs⟩
        exact ⟨request, page, tip, rfl, same, unseen, found, accepted, differs⟩
  · rintro ⟨request, page, tip, rfl, same, unseen, found, accepted, differs⟩
    simp [UpdateCall.replacesUnread, same, unseen, found, accepted, differs]

/-- An update that replaces a content it has not read records an earlier one again. -/
theorem Balanced.twice_of_unread (balanced : Balanced pageId start steps pool)
    (reading : Reading pageId start steps pool)
    (taken : concurrentUpdates.next pool turn = some later)
    (unread : ¬UpdateStep.ReplacesRead ⟨pool, turn, later⟩ pageId) :
    RecordedTwice pageId start later := by
  rcases interleaving_next_eq_some.mp taken with ⟨call, shared, moved, found, accessed, rfl⟩
  have replaces : call.replacesUnread pool.shared pageId = true := by
    by_contra kept
    apply unread
    intro other other_found
    rcases Option.some.inj (found.symm.trans other_found) with rfl
    simpa using kept
  rcases UpdateCall.replacesUnread_iff.mp replaces with
    ⟨request, page, tip, rfl, rfl, -, stored, accepted, differs⟩
  have held := (reading.seen request page (List.mem_of_getElem? found) rfl).1
  have before := balanced page.value.contentMarkdown
  have once := List.count_pos_iff.mpr held
  have waits := @awaiting_step page.id pool turn _ moved shared page.value.contentMarkdown found
  refine ⟨page.value.contentMarkdown, ?_⟩
  cases updates_of_step accessed with
  | reads other row at_select => cases at_select
  | records other row updated at_create => cases at_create
  | misses other error now newer calling =>
      rcases calling with at_select | ⟨row, at_update, missed⟩
      · cases at_select
      · rcases UpdateCall.update.inj at_update with ⟨rfl, rfl⟩
        simp [stored, accepted] at missed
  | lands other row current at_update newer =>
      rcases UpdateCall.update.inj at_update with ⟨rfl, rfl⟩
      simp only [UpdateCall.pending, WikiStore.content?, WikiStore.recorded, stored, if_true,
        List.count_nil, List.count_singleton_self, Option.map_some, Option.toList_some,
        List.count_singleton, beq_eq_false_iff_ne.mpr differs] at waits before ⊢
      simp only [Bool.false_eq_true, if_false] at before
      omega

/-! ## A call that conflicts -/

/-- The call has written the page. -/
def UpdateCall.Landed : UpdateCall → Prop
  | createRevision _ _ _ | returned _ (.ok _) => True
  | _ => False

/-- A call that has not written the page has changed nothing. -/
def Harmless (steps : List UpdateStep) (pool : Pool WikiStore UpdateCall) : Prop :=
  ∀ index call, pool.processes[index]? = some call → call.Landed ∨
    ∀ step ∈ steps, step.event.process = index →
      step.after.shared.pages = step.before.shared.pages ∧
        step.after.shared.revisions = step.before.shared.revisions

theorem Harmless.step (harmless : Harmless steps pool)
    (taken : concurrentUpdates.next pool turn = some later) :
    Harmless (steps ++ [⟨pool, turn, later⟩]) later := by
  rcases interleaving_next_eq_some.mp taken with ⟨call, shared, moved, found, accessed, rfl⟩
  intro index other at_index
  rcases Pool.of_set at_index with ⟨rfl, rfl⟩ | ⟨differs, before⟩
  · -- The call that moves leaves the tables alone unless it writes the page or has written it.
    have unchanged (same : shared.pages = pool.shared.pages ∧
        shared.revisions = pool.shared.revisions) (fresh : ¬call.Landed) :
        ∀ step ∈ steps ++ [⟨pool, turn, ⟨shared, pool.processes.set turn.process other⟩⟩],
          step.event.process = turn.process → step.after.shared.pages = step.before.shared.pages ∧
            step.after.shared.revisions = step.before.shared.revisions := by
      intro step step_mem mine
      rcases List.mem_append.mp step_mem with earlier | last
      · exact ((harmless turn.process call found).resolve_left fresh) step earlier mine
      · rcases List.mem_singleton.mp last with rfl
        exact same
    cases updates_of_step accessed with
    | misses request error now newer calling =>
        refine .inr (unchanged ⟨rfl, rfl⟩ ?_)
        rcases calling with rfl | ⟨page, rfl, -⟩ <;> exact id
    | reads request page at_select =>
        refine .inr (unchanged ⟨rfl, rfl⟩ ?_)
        rcases at_select with rfl
        exact id
    | lands => exact .inl trivial
    | records => exact .inl trivial
  · rcases harmless index other before with landed | unchanged
    · exact .inl landed
    · refine .inr fun step step_mem mine => ?_
      rcases List.mem_append.mp step_mem with earlier | last
      · exact unchanged step earlier mine
      · rcases List.mem_singleton.mp last with rfl
        exact absurd mine.symm differs

/-! ## Complete histories -/

theorem Reading.atStart (called : ∀ call ∈ start.processes, call.Fresh)
    (past : ∀ row ∈ start.shared.pages.rows, row.value.updatedAt ≤ start.shared.now) :
    Reading pageId start [] start where
  past id page found := past ⟨id, page⟩ (Table.mem_rows_iff.mpr found)
  tip page found := by simp [contentsHeld, WikiStore.content?, found]
  seen request page update_mem := absurd (called _ update_mem) id

theorem awaiting_eq_zero (content : Text)
    (quiet : ∀ call ∈ pool.processes, call.pending pageId = []) :
    awaiting pageId content pool = 0 := by
  apply List.sum_eq_zero
  intro waits waits_mem
  rcases List.mem_map.mp waits_mem with ⟨call, call_mem, rfl⟩
  simp [quiet call call_mem]

theorem Balanced.atStart (called : ∀ call ∈ start.processes, call.Fresh) :
    Balanced pageId start [] start := by
  intro content
  have none_waits : awaiting pageId content start = 0 := by
    apply awaiting_eq_zero
    intro call call_mem
    have fresh := called call call_mem
    cases call with
    | select => rfl
    | update => exact absurd fresh id
    | createRevision => exact absurd fresh id
    | returned => exact absurd fresh id
  simp only [contentsHeld, List.filterMap_nil, List.append_nil, none_waits]
  omega

theorem balanced_of_run (called : ∀ call ∈ start.processes, call.Fresh)
    (past : ∀ row ∈ start.shared.pages.rows, row.value.updatedAt ≤ start.shared.now)
    (run : concurrentUpdates.Run start steps final) :
    Reading pageId start steps final ∧
      ((∀ step ∈ steps, step.ReplacesRead pageId) → Balanced pageId start steps final) ∧
      ((∀ step ∈ steps, step.ReplacesRead pageId) ∨ RecordedTwice pageId start final) := by
  apply run.history fun steps pool => Reading pageId start steps pool ∧
    ((∀ step ∈ steps, UpdateStep.ReplacesRead step pageId) → Balanced pageId start steps pool) ∧
    ((∀ step ∈ steps, UpdateStep.ReplacesRead step pageId) ∨ RecordedTwice pageId start pool)
  · exact ⟨.atStart called past, fun _ => .atStart called, .inl (by simp)⟩
  · intro steps pool turn later taken ⟨reading, balanced, read_or_twice⟩
    refine ⟨reading.step taken, fun reads => ?_, ?_⟩
    · exact (balanced fun step step_mem => reads step (List.mem_append_left _ step_mem)).step reading
        taken (reads _ (List.mem_append_right _ (List.mem_singleton_self _)))
    · rcases read_or_twice with reads | twice
      · by_cases last : UpdateStep.ReplacesRead ⟨pool, turn, later⟩ pageId
        · left
          intro step step_mem
          rcases List.mem_append.mp step_mem with earlier | same
          · exact reads step earlier
          · rcases List.mem_singleton.mp same with rfl
            exact last
        · exact .inr ((balanced reads).twice_of_unread reading taken last)
      · exact .inr (twice.step taken)

/-- When all calls have returned, the history of a page is complete if every update that has landed
on it replaced the content its call had read, and only if so when the contents are distinct; and a
call that has returned a conflict has changed nothing. -/
theorem history_complete_iff (called : ∀ call ∈ start.processes, call.Fresh)
    (past : ∀ row ∈ start.shared.pages.rows, row.value.updatedAt ≤ start.shared.now)
    (run : concurrentUpdates.Run start steps final) :
    ((∀ call ∈ final.processes, call.Returned) → ∀ pageId,
      ((∀ step ∈ steps, step.ReplacesRead pageId) → HistoryComplete pageId start steps final) ∧
      ((contentsHeld pageId start steps).Nodup → HistoryComplete pageId start steps final →
        ∀ step ∈ steps, step.ReplacesRead pageId)) ∧
      ∀ index request message,
        final.processes[index]? = some (.returned request (.error (.conflict message))) →
          ∀ step ∈ steps, step.event.process = index →
            step.after.shared.pages = step.before.shared.pages ∧
              step.after.shared.revisions = step.before.shared.revisions := by
  constructor
  · intro returned pageId
    rcases @balanced_of_run pageId _ _ _ called past run with ⟨-, balanced, read_or_twice⟩
    have none_waits (content) : awaiting pageId content final = 0 := by
      apply awaiting_eq_zero
      intro call call_mem
      have done := returned call call_mem
      cases call with
      | returned => rfl
      | select => exact absurd done id
      | update => exact absurd done id
      | createRevision => exact absurd done id
    constructor
    · intro reads
      apply List.perm_iff_count.mpr
      intro content
      have counts := balanced reads content
      rw [none_waits] at counts
      rw [List.count_append, List.count_append]
      omega
    · intro distinct complete
      rcases read_or_twice with reads | ⟨content, twice⟩
      · exact reads
      · have counts := List.perm_iff_count.mp complete content
        have once := List.nodup_iff_count_le_one.mp distinct content
        rw [none_waits] at twice
        rw [List.count_append, List.count_append] at counts
        omega
  · intro index request message at_index
    have harmless : Harmless steps final :=
      run.history Harmless (fun _ _ _ => .inr (by simp)) fun taken harmless => harmless.step taken
    exact (harmless index _ at_index).resolve_left id

/-! ## Three editors -/

def homePage (version : ℕ) : WikiPage :=
  ⟨"home".toList, "Home".toList, "v1".toList, "a".toList, version, version, true⟩

/-- The page, at its first version. -/
def homeStore : WikiStore := ⟨Table.empty.create (homePage 1), Table.empty, 1⟩

def edit (content : String) (prevUpdatedAt : Option ℕ) : UpdateCall :=
  .select ⟨"home".toList, content.toList, "a".toList, none, prevUpdatedAt⟩

def turnOf (process now : ℕ) : Turn Clocks := ⟨process, now, now⟩

def threeEditors : Pool WikiStore UpdateCall :=
  ⟨homeStore, [edit "v2" (some 1), edit "v3" (some 1), edit "v4" none]⟩

/-- The second update loses its compare-and-swap to the first, and the third begins later. -/
def editorTurns : List (Turn Clocks) :=
  [turnOf 0 2, turnOf 1 2, turnOf 0 3, turnOf 1 4, turnOf 0 5, turnOf 2 5, turnOf 2 6, turnOf 2 7]

def twoEditors : Pool WikiStore UpdateCall := ⟨homeStore, [edit "v2" none, edit "v3" none]⟩

/-- Both updates read the first version before either lands. -/
def bothRead : List (Turn Clocks) :=
  [turnOf 0 2, turnOf 1 2, turnOf 0 3, turnOf 1 4, turnOf 0 5, turnOf 1 6]

theorem three_editors_recorded : ∃ final,
    concurrentUpdates.exec threeEditors editorTurns = some final ∧
      HistoryComplete 0 threeEditors (concurrentUpdates.stepsOf threeEditors editorTurns) final ∧
      final.shared.content? 0 = some "v4".toList ∧
      final.shared.recorded 0 = ["v1".toList, "v2".toList] := by
  have run : concurrentUpdates.Run threeEditors
      (concurrentUpdates.stepsOf threeEditors editorTurns) _ := .of_exec rfl
  have called : ∀ call ∈ threeEditors.processes, call.Fresh := by decide
  have past : ∀ row ∈ threeEditors.shared.pages.rows,
      row.value.updatedAt ≤ threeEditors.shared.now := by decide
  have reads : ∀ step ∈ concurrentUpdates.stepsOf threeEditors editorTurns,
      ∀ call ∈ step.before.processes[step.event.process]?,
        call.replacesUnread step.before.shared 0 = false := by decide
  exact ⟨_, rfl, ((history_complete_iff called past run).1 (by decide) 0).1 reads, rfl, rfl⟩

/-- The second version is in no revision, and the first is in two. -/
theorem second_version_is_lost : ∃ final,
    concurrentUpdates.exec twoEditors bothRead = some final ∧
      (∀ call ∈ final.processes, call.Returned) ∧
      contentsHeld 0 twoEditors (concurrentUpdates.stepsOf twoEditors bothRead) =
        ["v1".toList, "v2".toList, "v3".toList] ∧
      final.shared.content? 0 = some "v3".toList ∧
      final.shared.recorded 0 = ["v1".toList, "v1".toList] ∧
      ¬HistoryComplete 0 twoEditors (concurrentUpdates.stepsOf twoEditors bothRead) final := by
  refine ⟨_, rfl, by decide, rfl, rfl, rfl, fun complete => ?_⟩
  have lost : "v2".toList ∈ ["v3".toList, "v1".toList, "v1".toList] := complete.mem_iff.mpr (by decide)
  exact absurd lost (by decide)

end ScuffedCrew.Wiki
