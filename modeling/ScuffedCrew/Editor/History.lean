import Mathlib.Logic.Function.Iterate
import ScuffedCrew.Editor.Inverse
import ScuffedCrew.StateMachine.Run

/-!
# The history of the editor

Sequences of recorded edits, undone and redone.  Every recorded edit pushes one
action, which undone restores the document before the edit.  Redone it restores
the document after the edit, unless the edit was a drag that ended elsewhere
than where the pointer was released.
-/

namespace ScuffedCrew.Editor

open Rust (Text)
open StateMachine

variable {Scalar : Type}

/-! ## Undoing and redoing lists of actions -/

def undoAll (actions : List (UndoableAction Scalar)) (state : StrategyState Scalar) :
    StrategyState Scalar :=
  actions.foldr (fun action state => applyUndo state action) state

def redoAll (actions : List (UndoableAction Scalar)) (state : StrategyState Scalar) :
    StrategyState Scalar :=
  actions.foldl applyRedo state

theorem undoAll_concat (actions : List (UndoableAction Scalar)) (action : UndoableAction Scalar)
    (state : StrategyState Scalar) :
    undoAll (actions ++ [action]) state = undoAll actions (applyUndo state action) := by
  simp [undoAll]

theorem redoAll_concat (actions : List (UndoableAction Scalar)) (action : UndoableAction Scalar)
    (state : StrategyState Scalar) :
    redoAll (actions ++ [action]) state = applyRedo (redoAll actions state) action := by
  simp [redoAll]

theorem StrategyState.Same.undoAll {state other : StrategyState Scalar} (same : state.Same other)
    (actions : List (UndoableAction Scalar)) :
    (undoAll actions state).Same (undoAll actions other) := by
  induction actions with
  | nil => exact same
  | cons action actions ih => exact ih.applyUndo action

theorem StrategyState.Same.redoAll {state other : StrategyState Scalar} (same : state.Same other)
    (actions : List (UndoableAction Scalar)) :
    (redoAll actions state).Same (redoAll actions other) := by
  induction actions generalizing state other with
  | nil => exact same
  | cons action actions ih => exact ih (same.applyRedo action)

namespace Page

/-- The undo button pressed again and again. -/
theorem iterate_undo {page : Page Scalar} {done undone : List (UndoableAction Scalar)}
    (stacked : page.manager = ⟨done, undone.reverse⟩) :
    (Page.undo^[done.length] page).manager = ⟨[], (done ++ undone).reverse⟩ ∧
      (Page.undo^[done.length] page).strategy = undoAll done page.strategy := by
  induction done using List.reverseRecOn generalizing page undone with
  | nil => exact ⟨stacked, rfl⟩
  | append_singleton done action ih =>
      have pressed : page.undo.manager = ⟨done, (action :: undone).reverse⟩ ∧
          page.undo.strategy = applyUndo page.strategy action := by
        simp [Page.undo, UndoManager.undo, stacked]
      rcases ih pressed.1 with ⟨same_stacks, same_strategy⟩
      rw [List.length_append, List.length_singleton, Function.iterate_succ_apply, undoAll_concat,
        ← pressed.2, List.append_assoc]
      exact ⟨same_stacks, same_strategy⟩

/-- The redo button pressed again and again. -/
theorem iterate_redo {page : Page Scalar} {done undone : List (UndoableAction Scalar)}
    (stacked : page.manager = ⟨done, undone.reverse⟩) :
    (Page.redo^[undone.length] page).strategy = redoAll undone page.strategy := by
  induction undone generalizing page done with
  | nil => rfl
  | cons action undone ih =>
      have pressed : page.redo.manager = ⟨done ++ [action], undone.reverse⟩ ∧
          page.redo.strategy = applyRedo page.strategy action := by
        simp [Page.redo, UndoManager.redo, stacked]
      rw [List.length_cons, Function.iterate_succ_apply, ih pressed.1, pressed.2]
      rfl

end Page

/-! ## Recorded edits -/

inductive RecordedEdit (Scalar : Type)
  | addElement (element : StrategyElement Scalar)
  | deleteElement (id : Uuid)
  | updateElement (id : Uuid) (change : FieldChange Scalar)
  | drag (id : Uuid) (grabbed : Position Scalar) (moves : List (Position Scalar))
      (released : Position Scalar)
  | addPhase (id : Uuid) (name : Text)
  | deletePhase (id : Uuid)
  | assignHero (slot : TeamSlot) (heroId : HeroId)
  | clearSlot (slot : TeamSlot)
  | clearAllSlots

/-- Where a drag leaves the element. -/
def landing [Add Scalar] [Sub Scalar] (start grabbed : Position Scalar)
    (moves : List (Position Scalar)) : Position Scalar :=
  match moves.getLast? with
  | none => start
  | some last => ⟨last.x + (start.x - grabbed.x), last.y + (start.y - grabbed.y)⟩

variable [Add Scalar] [Sub Scalar]

namespace Page

variable (page : Page Scalar)

def edit [BEq Scalar] : RecordedEdit Scalar → Page Scalar
  | .addElement element => page.addElement element
  | .deleteElement id => page.deleteElement id
  | .updateElement id change => page.updateElementField id change
  | .drag id grabbed moves released => page.drag id grabbed moves released
  | .addPhase id name => page.addPhase id name
  | .deletePhase id => page.deletePhase id
  | .assignHero slot heroId => page.assignHero slot heroId
  | .clearSlot slot => page.clearSlot slot
  | .clearAllSlots => page.clearAllSlots

/-- The edit makes an entry in the history.  The ids of new elements and phases are new. -/
def records [BEq Scalar] : RecordedEdit Scalar → Bool
  | .addElement element => (page.strategy.elementIndex element.id).isNone
  | .deleteElement id => (page.strategy.elementIndex id).isSome
  | .updateElement id change =>
      (page.strategy.elements.find? fun element => decide (element.id = id)).any fun before =>
        !(change.mutate before == before)
  | .drag id _ _ _ =>
      (page.strategy.elements.find? fun element => decide (element.id = id)).isSome
  | .addPhase id _ => (page.strategy.phaseIndex id).isNone
  | .deletePhase id => (page.strategy.phaseIndex id).isSome
  | .assignHero _ _ => true
  | .clearSlot slot => (page.strategy.heroAt slot).isSome
  | .clearAllSlots => !page.strategy.teamComposition.isEmpty

/-- A drag leaves the element where the pointer is released. -/
def Lands : RecordedEdit Scalar → Prop
  | .drag id grabbed moves released =>
      ∀ element, (page.strategy.elements.find? fun element => decide (element.id = id)) =
        some element → landing element.position grabbed moves = released
  | _ => True

end Page

def recording [BEq Scalar] : Machine (Page Scalar) (RecordedEdit Scalar) where
  next page edit := if page.records edit then some (page.edit edit) else none

/-- The entry that an edit makes, and what undoing and redoing it does. -/
structure Entry (page after : Page Scalar) (edit : RecordedEdit Scalar)
    (action : UndoableAction Scalar) : Prop where
  pushed : after.manager = page.manager.push action
  undone : OrdersArePositions page.strategy.phases →
    (applyUndo after.strategy action).Same page.strategy
  redone : page.Lands edit → (applyRedo page.strategy action).Same after.strategy
  landed : ∀ state : StrategyState Scalar, (applyRedo state action).Same after.strategy →
    page.Lands edit
  orders : OrdersArePositions page.strategy.phases → OrdersArePositions after.strategy.phases

section entries

variable {page : Page Scalar}

theorem entry_addElement {element : StrategyElement Scalar}
    (fresh : page.strategy.elementIndex element.id = none) :
    Entry page (page.addElement element) (.addElement element) (.addElement element) where
  pushed := rfl
  undone _ := StrategyState.removeElement_addElement _ fresh
  redone _ := .refl _
  landed _ _ := trivial
  orders := id

theorem entry_deleteElement {id : Uuid} {index : ℕ} {element : StrategyElement Scalar}
    (found : page.strategy.elementIndex id = some index)
    (here : page.strategy.elements[index]? = some element) (is_id : element.id = id) :
    Entry page (page.deleteElement id) (.deleteElement id) (.removeElement element index) := by
  have deletes : page.deleteElement id =
      page.record (page.strategy.removeElement id).1 (.removeElement element index) := by
    simp only [Page.deleteElement, StrategyState.removeElement, found, here, Option.map_some]
  rw [deletes]
  subst is_id
  exact {
    pushed := rfl
    undone := fun _ => StrategyState.insertElement_removeElement _ found here
    redone := fun _ => .refl _
    landed := fun _ _ => trivial
    orders := by
      intro orders
      simp only [Page.record, StrategyState.removeElement, found]
      exact orders }

theorem entry_updateElement [BEq Scalar] {id : Uuid} {change : FieldChange Scalar}
    {before : StrategyElement Scalar}
    (found : (page.strategy.elements.find? fun element => decide (element.id = id)) = some before)
    (changes : (change.mutate before == before) = false) :
    Entry page (page.updateElementField id change) (.updateElement id change)
      (.updateElement id before (change.mutate before)) := by
  have is_id : before.id = id := by simpa using List.find?_some found
  have updates : page.updateElementField id change =
      page.record (page.strategy.updateElement id (change.mutate before))
        (.updateElement id before (change.mutate before)) := by
    simp only [Page.updateElementField, found, changes, Bool.false_eq_true, if_false]
  rcases StrategyState.exists_elementIndex_of_find? found with ⟨index, at_index, here⟩
  rw [updates]
  exact {
    pushed := rfl
    undone := by
      intro _
      refine (StrategyState.modifyElement_modifyElement _ ?_).trans
        (StrategyState.modifyElement_same _ at_index here rfl)
      intro _ _
      rw [FieldChange.id_mutate, is_id]
    redone := fun _ => .refl _
    landed := fun _ _ => trivial
    orders := by
      intro orders
      simp only [Page.record, StrategyState.updateElement, StrategyState.phases_modifyElement]
      exact orders }

/-- The moves of a drag leave the element where the last of them puts it. -/
theorem drag_moves {id : Uuid} {start : StrategyElement Scalar}
    (found : (page.strategy.elements.find? fun element => decide (element.id = id)) = some start)
    (grabbed : Position Scalar) (moves : List (Position Scalar)) :
    let moved := moves.foldl (fun page position => page.moveElement id
      ⟨position.x + (start.position.x - grabbed.x), position.y + (start.position.y - grabbed.y)⟩) page
    moved.manager = page.manager ∧ moved.strategy.phases = page.strategy.phases ∧
      (page.strategy.setPosition id (landing start.position grabbed moves)).Same moved.strategy := by
  induction moves using List.reverseRecOn with
  | nil =>
      rcases StrategyState.exists_elementIndex_of_find? found with ⟨index, at_index, here⟩
      exact ⟨rfl, rfl, StrategyState.modifyElement_same _ at_index here rfl⟩
  | append_singleton moves last ih =>
      rcases ih with ⟨same_manager, same_phases, same⟩
      simp only [List.foldl_append, List.foldl_cons, List.foldl_nil]
      refine ⟨same_manager, ?_, ?_⟩
      · exact (StrategyState.phases_modifyElement _ _ _).trans same_phases
      · have lands : landing start.position grabbed (moves ++ [last]) =
            ⟨last.x + (start.position.x - grabbed.x), last.y + (start.position.y - grabbed.y)⟩ := by
          simp [landing]
        rw [lands]
        exact (StrategyState.setPosition_setPosition _ id _ _).symm.trans (same.modifyElement id _)

theorem entry_drag {id : Uuid} {start : StrategyElement Scalar}
    (found : (page.strategy.elements.find? fun element => decide (element.id = id)) = some start)
    (grabbed : Position Scalar) (moves : List (Position Scalar)) (released : Position Scalar) :
    Entry page (page.drag id grabbed moves released) (.drag id grabbed moves released)
      (.moveElement id start.position released) := by
  rcases drag_moves found grabbed moves with ⟨same_manager, same_phases, same⟩
  rcases StrategyState.exists_elementIndex_of_find? found with ⟨index, at_index, here⟩
  simp only [Page.drag, found, Page.elementDragEnd]
  exact {
    pushed := by simp only [same_manager]
    undone := by
      intro _
      refine (same.symm.modifyElement id _).trans ?_
      exact (StrategyState.setPosition_setPosition _ id _ _).trans
        (StrategyState.modifyElement_same _ at_index here rfl)
    redone := by
      intro lands
      rw [← lands start found]
      exact same
    landed := by
      intro state redone element is_start
      rw [found] at is_start
      rcases Option.some.inj is_start with rfl
      exact (StrategyState.position_eq_of_same at_index (redone.trans same.symm)).symm
    orders := by
      intro orders
      rw [same_phases]
      exact orders }

theorem entry_addPhase {id : Uuid} (fresh : page.strategy.phaseIndex id = none) (name : Text) :
    Entry page (page.addPhase id name) (.addPhase id name)
      (.addPhase (.new id name page.strategy.phases.length)) := by
  have found : ((page.strategy.addPhase id name).phases.find? fun phase => decide (phase.id = id)) =
      some (.new id name page.strategy.phases.length) := by
    have absent : (page.strategy.phases.find? fun phase => decide (phase.id = id)) = none := by
      rw [List.find?_eq_none]
      intro phase phase_mem
      rw [List.findIdx?_eq_none_iff.mp fresh phase phase_mem]
      exact Bool.false_ne_true
    simp [StrategyState.addPhase, StrategyState.pushPhase, StrategyState.markUnsaved,
      List.find?_append, absent, TimelinePhase.new]
  simp only [Page.addPhase, found]
  exact {
    pushed := rfl
    undone := fun orders => StrategyState.removePhase_addPhase _ orders fresh name
    redone := fun _ => .refl _
    landed := fun _ _ => trivial
    orders := fun orders => ordersArePositions_concat orders id name }

theorem entry_deletePhase {id : Uuid} {index : ℕ} {phase : TimelinePhase}
    (found : page.strategy.phaseIndex id = some index)
    (here : page.strategy.phases[index]? = some phase) (is_id : phase.id = id) :
    Entry page (page.deletePhase id) (.deletePhase id) (.removePhase phase index) := by
  have deletes : page.deletePhase id =
      page.record (page.strategy.removePhase id).1 (.removePhase phase index) := by
    simp only [Page.deletePhase, StrategyState.removePhase, found, here, Option.map_some]
  rw [deletes]
  subst is_id
  exact {
    pushed := rfl
    undone := fun orders => StrategyState.insertPhase_removePhase _ orders found here
    redone := fun _ => .refl _
    landed := fun _ _ => trivial
    orders := by
      intro _
      simp only [Page.record, StrategyState.removePhase, found]
      exact ordersArePositions_renumber _ }

theorem entry_assignHero (slot : TeamSlot) (heroId : HeroId) :
    Entry page (page.assignHero slot heroId) (.assignHero slot heroId)
      (.assignHeroToSlot slot heroId (page.strategy.heroAt slot)) where
  pushed := rfl
  undone _ := StrategyState.restoreSlot_assignHeroToSlot _ slot heroId
  redone _ := .refl _
  landed _ _ := trivial
  orders := id

theorem entry_clearSlot {slot : TeamSlot} {heroId : HeroId}
    (previous : page.strategy.heroAt slot = some heroId) :
    Entry page (page.clearSlot slot) (.clearSlot slot) (.clearSlot slot heroId) := by
  simp only [Page.clearSlot, previous]
  exact {
    pushed := rfl
    undone := fun _ => StrategyState.assignHeroToSlot_clearSlot _ previous
    redone := fun _ => .refl _
    landed := fun _ _ => trivial
    orders := id }

theorem entry_clearAllSlots (some_hero : page.strategy.teamComposition.isEmpty = false) :
    Entry page page.clearAllSlots .clearAllSlots
      (.clearAllSlots page.strategy.teamComposition) := by
  simp only [Page.clearAllSlots, some_hero, Bool.false_eq_true, if_false]
  exact {
    pushed := rfl
    undone := fun _ => ⟨rfl, rfl, fun _ => rfl⟩
    redone := fun _ => .refl _
    landed := fun _ _ => trivial
    orders := id }

theorem exists_entry [BEq Scalar] {edit : RecordedEdit Scalar} {after : Page Scalar}
    (step : recording.next page edit = some after) :
    ∃ action, Entry page after edit action := by
  simp only [recording] at step
  split at step
  next records =>
    rcases Option.some.inj step with rfl
    cases edit with
    | addElement element =>
        exact ⟨_, entry_addElement (Option.isNone_iff_eq_none.mp records)⟩
    | deleteElement id =>
        rcases Option.isSome_iff_exists.mp records with ⟨index, found⟩
        rcases StrategyState.exists_of_elementIndex found with ⟨element, here, is_id⟩
        exact ⟨_, entry_deleteElement found here is_id⟩
    | updateElement id change =>
        rcases (Option.any_eq_true _ _).mp records with ⟨before, found, changes⟩
        exact ⟨_, entry_updateElement found (by simpa using changes)⟩
    | drag id grabbed moves released =>
        rcases Option.isSome_iff_exists.mp records with ⟨start, found⟩
        exact ⟨_, entry_drag found grabbed moves released⟩
    | addPhase id name => exact ⟨_, entry_addPhase (Option.isNone_iff_eq_none.mp records) name⟩
    | deletePhase id =>
        rcases Option.isSome_iff_exists.mp records with ⟨index, found⟩
        rcases StrategyState.exists_of_phaseIndex found with ⟨phase, here, is_id⟩
        exact ⟨_, entry_deletePhase found here is_id⟩
    | assignHero slot heroId => exact ⟨_, entry_assignHero slot heroId⟩
    | clearSlot slot =>
        rcases Option.isSome_iff_exists.mp records with ⟨heroId, previous⟩
        exact ⟨_, entry_clearSlot previous⟩
    | clearAllSlots => exact ⟨_, entry_clearAllSlots (by simpa [Page.records] using records)⟩
  next => cases step

end entries

/-! ## Undoing and redoing runs -/

/-- Undo and redo, as often as there were edits, and edits after some undos. -/
structure Inverse [BEq Scalar] (start page : Page Scalar) (entries : ℕ) : Prop where
  undone : (Page.undo^[entries] page).strategy.Same start.strategy
  redone : (Page.redo^[entries] (Page.undo^[entries] page)).strategy.Same page.strategy
  diverged : ∀ (undos : ℕ) (edit : RecordedEdit Scalar) (after : Page Scalar),
    recording.next (Page.undo^[undos] page) edit = some after → after.manager.redo = none

section runs

variable [BEq Scalar] {start page : Page Scalar}
  {steps : List (Step (Page Scalar) (RecordedEdit Scalar))}

omit [Add Scalar] [Sub Scalar] [BEq Scalar] in
theorem push_of_length_lt {manager : UndoManager Scalar}
    (few : manager.undoStack.length < maxHistory) (action : UndoableAction Scalar) :
    manager.push action = ⟨manager.undoStack ++ [action], []⟩ := by
  have nothing : (manager.undoStack ++ [action]).length - maxHistory = 0 := by
    rw [List.length_append, List.length_singleton]
    omega
  simp only [UndoManager.push, nothing, List.drop_zero]

/-- The entries of a run: one for each edit, and what undoing and redoing them all does. -/
theorem history_spec (run : recording.Run start steps page) (fresh : start.manager = .new)
    (orders : OrdersArePositions start.strategy.phases) (few : steps.length ≤ maxHistory) :
    OrdersArePositions page.strategy.phases ∧
      ∃ actions, actions.length = steps.length ∧ page.manager = ⟨actions, []⟩ ∧
        (undoAll actions page.strategy).Same start.strategy ∧
        ((∀ step ∈ steps, step.before.Lands step.event) →
          (redoAll actions start.strategy).Same page.strategy) := by
  induction run with
  | refl => exact ⟨orders, [], rfl, fresh, .refl _, fun _ => .refl _⟩
  | @snoc steps page after edit run step ih =>
      rw [List.length_append, List.length_singleton] at few
      rcases ih (by omega) with ⟨page_orders, actions, same_length, stacked, undoes, redoes⟩
      rcases exists_entry step with ⟨action, entry⟩
      refine ⟨entry.orders page_orders, actions ++ [action], ?_, ?_, ?_, ?_⟩
      · simp [same_length]
      · have room : page.manager.undoStack.length < maxHistory := by
          rw [stacked]
          show actions.length < maxHistory
          omega
        rw [entry.pushed, push_of_length_lt room, stacked]
      · rw [undoAll_concat]
        exact ((entry.undone page_orders).undoAll actions).trans undoes
      · intro lands
        rw [redoAll_concat]
        have redone : (redoAll actions start.strategy).Same page.strategy := by
          apply redoes
          intro earlier earlier_mem
          exact lands earlier (List.mem_append_left _ earlier_mem)
        have last_lands : page.Lands edit := lands ⟨page, edit, after⟩ (by simp)
        exact (redone.applyRedo action).trans (entry.redone last_lands)

theorem redo_eq_none_of_next {edit : RecordedEdit Scalar} {after : Page Scalar}
    (step : recording.next page edit = some after) : after.manager.redo = none := by
  rcases exists_entry step with ⟨action, entry⟩
  rw [entry.pushed]
  rfl

theorem inverse_of_lands (run : recording.Run start steps page) (fresh : start.manager = .new)
    (orders : OrdersArePositions start.strategy.phases) (few : steps.length ≤ maxHistory)
    (lands : ∀ step ∈ steps, step.before.Lands step.event) : Inverse start page steps.length := by
  rcases history_spec run fresh orders few with ⟨-, actions, same_length, stacked, undoes, redoes⟩
  have all_done : page.manager = ⟨actions, List.reverse []⟩ := stacked
  rcases Page.iterate_undo all_done with ⟨undone_stacks, undone_strategy⟩
  rw [List.append_nil] at undone_stacks
  have redone_strategy := Page.iterate_redo undone_stacks
  rw [← same_length]
  refine ⟨?_, ?_, fun _ _ _ step => redo_eq_none_of_next step⟩
  · rw [undone_strategy]
    exact undoes
  · rw [redone_strategy, undone_strategy]
    exact (undoes.redoAll actions).trans (redoes lands)

/-- If a run that ends with a drag can be redone, the drag landed where it was released. -/
theorem lands_of_inverse {edit : RecordedEdit Scalar} {after : Page Scalar}
    (run : recording.Run start steps page) (step : recording.next page edit = some after)
    (fresh : start.manager = .new) (orders : OrdersArePositions start.strategy.phases)
    (few : steps.length < maxHistory) (inverse : Inverse start after (steps.length + 1)) :
    page.Lands edit := by
  rcases history_spec run fresh orders few.le with ⟨-, actions, same_length, stacked, -, -⟩
  rcases exists_entry step with ⟨action, entry⟩
  have after_stacks : after.manager = ⟨actions ++ [action], List.reverse []⟩ := by
    have room : page.manager.undoStack.length < maxHistory := by
      rw [stacked]
      show actions.length < maxHistory
      omega
    rw [entry.pushed, push_of_length_lt room, stacked]
    rfl
  rcases Page.iterate_undo after_stacks with ⟨undone_stacks, undone_strategy⟩
  rw [List.append_nil] at undone_stacks
  have redone_strategy := Page.iterate_redo undone_stacks
  have same_count : (actions ++ [action]).length = steps.length + 1 := by simp [same_length]
  have redone := inverse.redone
  rw [← same_count, redone_strategy, redoAll_concat] at redone
  exact entry.landed _ redone

/-- Undo and redo are inverse after every part of a run exactly when every drag
of the run leaves the element where the pointer is released. -/
theorem inverse_iff (run : recording.Run start steps page) (fresh : start.manager = .new)
    (orders : OrdersArePositions start.strategy.phases) (few : steps.length ≤ maxHistory) :
    (∀ earlier later middle, steps = earlier ++ later → recording.Run start earlier middle →
      Inverse start middle earlier.length) ↔
      ∀ step ∈ steps, step.before.Lands step.event := by
  constructor
  · intro inverse step step_mem
    rcases List.append_of_mem step_mem with ⟨earlier, later, rfl⟩
    rcases run.reaches_before with ⟨before_run, next⟩
    rw [List.length_append, List.length_cons] at few
    apply lands_of_inverse before_run next fresh orders (by omega)
    have through := inverse (earlier ++ [step]) later step.after (by simp) (before_run.snoc next)
    simpa using through
  · intro lands earlier later middle split before_run
    subst split
    rw [List.length_append] at few
    apply inverse_of_lands before_run fresh orders (by omega)
    intro step step_mem
    exact lands step (List.mem_append_left _ step_mem)

end runs

/-! ## A drag by the edge -/

/-- A marker is put on the map and then dragged, grabbed at a point. -/
def placeAndDrag (grabbed : Position ℤ) : List (RecordedEdit ℤ) :=
  [.addElement ⟨1, .playerMarker, ⟨0, 0⟩, none, none, ⟨0, 0, 0, 1⟩, none, 0⟩,
    .drag 1 grabbed [⟨5, 5⟩] ⟨5, 5⟩]

theorem inverse_iff_centred :
    (∀ earlier later middle,
      recording.stepsOf (.default 0) (placeAndDrag ⟨0, 0⟩) = earlier ++ later →
        recording.Run (.default 0) earlier middle →
          Inverse (.default 0) middle earlier.length) ↔
      ∀ step ∈ recording.stepsOf (.default 0) (placeAndDrag ⟨0, 0⟩),
        step.before.Lands step.event :=
  inverse_iff (.of_exec rfl) rfl (renumber_eq_self_iff.mp rfl) (by decide)

/-- Grabbed off its centre the marker goes to (4, 4), and redone to where it was released. -/
theorem redone_elsewhere :
    ∃ steps page, recording.Run (.default 0 : Page ℤ) steps page ∧
      OrdersArePositions (StrategyState.default 0 : StrategyState ℤ).phases ∧
      steps.length ≤ maxHistory ∧ ¬Inverse (.default 0) page steps.length := by
  refine ⟨recording.stepsOf (.default 0) (placeAndDrag ⟨1, 1⟩), _, .of_exec rfl,
    renumber_eq_self_iff.mp rfl, by decide, ?_⟩
  intro inverse
  exact absurd inverse.redone.elements (by decide)

end ScuffedCrew.Editor
