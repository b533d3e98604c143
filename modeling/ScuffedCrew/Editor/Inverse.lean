import ScuffedCrew.Editor.Undo

/-!
# Inverse actions

Undoing an action leads from a state with the document after the edit to one
with the document before it, and redoing it leads back.  The document is the
elements, the phases and the hero of each slot.
-/

namespace ScuffedCrew.Editor

open Rust (Text)

variable {Scalar : Type}

/-! ## Orders -/

def OrdersArePositions (phases : List TimelinePhase) : Prop :=
  ∀ (index : ℕ) (phase : TimelinePhase), phases[index]? = some phase → phase.order = index

theorem renumber_eq_self_iff {phases : List TimelinePhase} :
    renumber phases = phases ↔ OrdersArePositions phases := by
  rw [renumber, List.mapIdx_eq_iff]
  constructor
  · intro fixed index phase here
    have same := fixed index
    rw [here, Option.map_some, Option.some.injEq] at same
    rw [same]
  · intro orders index
    cases here : phases[index]? with
    | none => rfl
    | some phase => simp [← orders index phase here]

/-- Renumbering forgets the orders there were. -/
theorem renumber_congr {phases others : List TimelinePhase}
    (same : phases.map (fun phase => { phase with order := 0 }) =
      others.map fun phase => { phase with order := 0 }) :
    renumber phases = renumber others := by
  have forgets (phases : List TimelinePhase) : renumber phases =
      renumber (phases.map fun phase => { phase with order := 0 }) := by
    apply List.ext_getElem?
    intro index
    simp only [renumber, List.getElem?_mapIdx, List.getElem?_map, Option.map_map]
    rfl
  rw [forgets phases, same, ← forgets others]

theorem map_renumber (phases : List TimelinePhase) :
    (renumber phases).map (fun phase => { phase with order := 0 }) =
      phases.map fun phase => { phase with order := 0 } := by
  apply List.ext_getElem?
  intro index
  simp only [renumber, List.getElem?_mapIdx, List.getElem?_map, Option.map_map]
  rfl

theorem ordersArePositions_renumber (phases : List TimelinePhase) :
    OrdersArePositions (renumber phases) :=
  renumber_eq_self_iff.mp (renumber_congr (map_renumber phases))

theorem ordersArePositions_concat {phases : List TimelinePhase} (orders : OrdersArePositions phases)
    (id : Uuid) (name : Text) :
    OrdersArePositions (phases ++ [.new id name phases.length]) := by
  intro index phase here
  rw [List.getElem?_append] at here
  split at here
  next => exact orders index phase here
  next past =>
    rw [List.getElem?_singleton] at here
    split at here
    next first =>
      rcases Option.some.inj here with rfl
      simp only [TimelinePhase.new]
      omega
    next => cases here

/-- Putting the removed phase back restores the phases. -/
theorem renumber_insertIdx_renumber_eraseIdx {phases : List TimelinePhase} {index : ℕ}
    {phase : TimelinePhase} (here : phases[index]? = some phase) :
    renumber ((renumber (phases.eraseIdx index)).insertIdx index phase) = renumber phases := by
  rcases List.getElem?_eq_some_iff.mp here with ⟨inside, rfl⟩
  apply renumber_congr
  rw [List.map_insertIdx, map_renumber, ← List.map_insertIdx,
    List.insertIdx_eraseIdx_getElem inside]

namespace StrategyState

/-! ## The hero of a slot -/

theorem heroAt_clearSlot (state : StrategyState Scalar) (slot other : TeamSlot) :
    (state.clearSlot slot).heroAt other = if other = slot then none else state.heroAt other := by
  simp only [clearSlot, markUnsaved, heroAt, List.find?_filter]
  split
  next same =>
    rw [Option.map_eq_none_iff, List.find?_eq_none]
    intro hero _
    simp [same]
  next different =>
    congr 2
    funext hero
    by_cases here : hero.slot = other
    · simp [here, different]
    · simp [here]

theorem heroAt_assignHeroToSlot (state : StrategyState Scalar) (slot other : TeamSlot)
    (heroId : HeroId) :
    (state.assignHeroToSlot slot heroId).heroAt other =
      if other = slot then some heroId else state.heroAt other := by
  have split : (state.assignHeroToSlot slot heroId).heroAt other =
      ((state.clearSlot slot).heroAt other).or
        (if slot = other then some heroId else none) := by
    simp only [assignHeroToSlot, clearSlot, markUnsaved, heroAt, List.find?_append, Option.map_or]
    congr 1
    by_cases same : slot = other
    · simp [same]
    · simp [same]
  rw [split, heroAt_clearSlot]
  by_cases same : other = slot
  · simp [same]
  · simp [same, Ne.symm same]

/-! ## The same document -/

structure Same (state other : StrategyState Scalar) : Prop where
  elements : state.elements = other.elements
  phases : state.phases = other.phases
  heroes : ∀ slot, state.heroAt slot = other.heroAt slot

namespace Same

variable {state other third : StrategyState Scalar}

theorem refl (state : StrategyState Scalar) : state.Same state := ⟨rfl, rfl, fun _ => rfl⟩

theorem symm (same : state.Same other) : other.Same state :=
  ⟨same.elements.symm, same.phases.symm, fun slot => (same.heroes slot).symm⟩

theorem trans (first : state.Same other) (second : other.Same third) : state.Same third :=
  ⟨first.elements.trans second.elements, first.phases.trans second.phases,
    fun slot => (first.heroes slot).trans (second.heroes slot)⟩

theorem elementIndex_eq (same : state.Same other) (id : Uuid) :
    state.elementIndex id = other.elementIndex id := by
  rw [elementIndex, same.elements]
  rfl

theorem phaseIndex_eq (same : state.Same other) (id : Uuid) :
    state.phaseIndex id = other.phaseIndex id := by
  rw [phaseIndex, same.phases]
  rfl

theorem addElement (same : state.Same other) (element : StrategyElement Scalar) :
    (state.addElement element).Same (other.addElement element) :=
  ⟨congrArg (· ++ [element]) same.elements, same.phases, same.heroes⟩

theorem pushPhase (same : state.Same other) (phase : TimelinePhase) :
    (state.pushPhase phase).Same (other.pushPhase phase) :=
  ⟨same.elements, congrArg (· ++ [phase]) same.phases, same.heroes⟩

theorem clearSlot (same : state.Same other) (slot : TeamSlot) :
    (state.clearSlot slot).Same (other.clearSlot slot) := by
  refine ⟨same.elements, same.phases, ?_⟩
  intro asked
  rw [heroAt_clearSlot, heroAt_clearSlot, same.heroes]

theorem assignHeroToSlot (same : state.Same other) (slot : TeamSlot) (heroId : HeroId) :
    (state.assignHeroToSlot slot heroId).Same (other.assignHeroToSlot slot heroId) := by
  refine ⟨same.elements, same.phases, ?_⟩
  intro asked
  rw [heroAt_assignHeroToSlot, heroAt_assignHeroToSlot, same.heroes]

theorem setComposition (same : state.Same other) (composition : List HeroSelection) :
    (state.setComposition composition).Same (other.setComposition composition) :=
  ⟨same.elements, same.phases, fun _ => rfl⟩

theorem insertElement (same : state.Same other) (index : ℕ) (element : StrategyElement Scalar) :
    (state.insertElement index element).Same (other.insertElement index element) := by
  refine ⟨?_, same.phases, same.heroes⟩
  simp only [StrategyState.insertElement, markUnsaved, same.elements]

theorem insertPhase (same : state.Same other) (index : ℕ) (phase : TimelinePhase) :
    (state.insertPhase index phase).Same (other.insertPhase index phase) := by
  refine ⟨same.elements, ?_, same.heroes⟩
  simp only [StrategyState.insertPhase, markUnsaved, same.phases]

theorem modifyElement (same : state.Same other) (id : Uuid)
    (change : StrategyElement Scalar → StrategyElement Scalar) :
    (state.modifyElement id change).Same (other.modifyElement id change) := by
  simp only [StrategyState.modifyElement, same.elementIndex_eq id]
  cases other.elementIndex id with
  | none => exact same
  | some index =>
      exact ⟨congrArg (List.modify · index change) same.elements, same.phases, same.heroes⟩

theorem removeElement (same : state.Same other) (id : Uuid) :
    (state.removeElement id).1.Same (other.removeElement id).1 := by
  simp only [StrategyState.removeElement, same.elementIndex_eq id]
  cases other.elementIndex id with
  | none => exact same
  | some index =>
      exact ⟨congrArg (List.eraseIdx · index) same.elements, same.phases, same.heroes⟩

theorem removePhase (same : state.Same other) (id : Uuid) :
    (state.removePhase id).1.Same (other.removePhase id).1 := by
  simp only [StrategyState.removePhase, same.phaseIndex_eq id]
  cases other.phaseIndex id with
  | none => exact same
  | some index =>
      refine ⟨same.elements, ?_, same.heroes⟩
      simp only [markUnsaved, same.phases]

theorem applyUndo (same : state.Same other) (action : UndoableAction Scalar) :
    (applyUndo state action).Same (applyUndo other action) := by
  cases action with
  | addElement element => exact same.removeElement element.id
  | removeElement element index => exact same.insertElement index element
  | updateElement id before after => exact same.modifyElement id _
  | moveElement id before after => exact same.modifyElement id _
  | addPhase phase => exact same.removePhase phase.id
  | removePhase phase index => exact same.insertPhase index phase
  | assignHeroToSlot slot heroId previous =>
      cases previous with
      | none => exact same.clearSlot slot
      | some heroId => exact same.assignHeroToSlot slot heroId
  | clearSlot slot heroId => exact same.assignHeroToSlot slot heroId
  | clearAllSlots previous => exact same.setComposition previous

theorem applyRedo (same : state.Same other) (action : UndoableAction Scalar) :
    (applyRedo state action).Same (applyRedo other action) := by
  cases action with
  | addElement element => exact same.addElement element
  | removeElement element index => exact same.removeElement element.id
  | updateElement id before after => exact same.modifyElement id _
  | moveElement id before after => exact same.modifyElement id _
  | addPhase phase => exact same.pushPhase phase
  | removePhase phase index => exact same.removePhase phase.id
  | assignHeroToSlot slot heroId previous => exact same.assignHeroToSlot slot heroId
  | clearSlot slot heroId => exact same.clearSlot slot
  | clearAllSlots previous => exact same.setComposition []

end Same

/-! ## The inverse of each edit -/

variable (state : StrategyState Scalar)

/-- The ids of the elements decide where an element is found. -/
theorem elementIndex_eq_findIdx? (id : Uuid) :
    state.elementIndex id =
      (state.elements.map StrategyElement.id).findIdx? fun other => decide (other = id) := by
  rw [List.findIdx?_map]
  rfl

theorem removeElement_addElement {element : StrategyElement Scalar}
    (fresh : state.elementIndex element.id = none) :
    ((state.addElement element).removeElement element.id).1.Same state := by
  have found : (state.addElement element).elementIndex element.id = some state.elements.length := by
    rw [elementIndex] at fresh ⊢
    simp [addElement, markUnsaved, List.findIdx?_append, fresh]
  simp only [removeElement, found]
  exact ⟨List.eraseIdx_append_of_length_le (Nat.le_refl _) _ |>.trans (by simp), rfl, fun _ => rfl⟩

theorem insertElement_removeElement {id : Uuid} {index : ℕ} {element : StrategyElement Scalar}
    (found : state.elementIndex id = some index) (here : state.elements[index]? = some element) :
    ((state.removeElement id).1.insertElement index element).Same state := by
  rcases List.getElem?_eq_some_iff.mp here with ⟨inside, rfl⟩
  simp only [removeElement, found]
  refine ⟨?_, rfl, fun _ => rfl⟩
  have at_most : min index (state.elements.eraseIdx index).length = index := by
    rw [List.length_eraseIdx_of_lt inside]
    omega
  simp only [insertElement, markUnsaved, at_most]
  exact List.insertIdx_eraseIdx_getElem inside

theorem phases_modifyElement (id : Uuid) (change : StrategyElement Scalar → StrategyElement Scalar) :
    (state.modifyElement id change).phases = state.phases := by
  simp only [modifyElement]
  split <;> rfl

theorem elementIndex_modifyElement {id : Uuid}
    {change : StrategyElement Scalar → StrategyElement Scalar}
    (keeps : ∀ element, element.id = id → (change element).id = id) :
    (state.modifyElement id change).elementIndex id = state.elementIndex id := by
  cases found : state.elementIndex id with
  | none => simp only [modifyElement, found]
  | some index =>
      rcases exists_of_elementIndex found with ⟨element, here, is_id⟩
      rw [← found, elementIndex_eq_findIdx?, elementIndex_eq_findIdx?]
      congr 1
      simp only [modifyElement, found, markUnsaved]
      apply List.ext_getElem?
      intro other
      rw [List.getElem?_map, List.getElem?_map, List.getElem?_modify]
      by_cases same : index = other
      · subst same
        simp [here, is_id, keeps element is_id]
      · simp [same]

/-- A change that keeps the id of the element can be followed by another one. -/
theorem modifyElement_modifyElement {id : Uuid}
    {first second : StrategyElement Scalar → StrategyElement Scalar}
    (keeps : ∀ element, element.id = id → (first element).id = id) :
    ((state.modifyElement id first).modifyElement id second).Same
      (state.modifyElement id (second ∘ first)) := by
  have still := state.elementIndex_modifyElement keeps
  cases found : state.elementIndex id with
  | none =>
      simp only [modifyElement, found]
      exact .refl state
  | some index =>
      rw [found] at still
      rw [modifyElement, still]
      simp only [modifyElement, found, markUnsaved, List.modify_modify_eq]
      exact ⟨rfl, rfl, fun _ => rfl⟩

theorem setPosition_setPosition (id : Uuid)
    (first second : Position Scalar) :
    ((state.setPosition id first).setPosition id second).Same (state.setPosition id second) :=
  modifyElement_modifyElement state fun _ is_id => is_id

theorem getElem?_setPosition {id : Uuid} {index : ℕ} {element : StrategyElement Scalar}
    (found : state.elementIndex id = some index) (here : state.elements[index]? = some element)
    (position : Position Scalar) :
    (state.setPosition id position).elements[index]? = some { element with position } := by
  simp [setPosition, modifyElement, found, markUnsaved, here]

/-- An element cannot be at two positions. -/
theorem position_eq_of_same {state other : StrategyState Scalar} {id : Uuid} {index : ℕ}
    {first second : Position Scalar} (found : other.elementIndex id = some index)
    (same : (state.setPosition id first).Same (other.setPosition id second)) : first = second := by
  have keeps (position : Position Scalar) (element : StrategyElement Scalar)
      (is_id : element.id = id) : { element with position : StrategyElement Scalar }.id = id := is_id
  have found_here : state.elementIndex id = some index := by
    rw [← state.elementIndex_modifyElement (keeps first), ← found,
      ← other.elementIndex_modifyElement (keeps second)]
    exact same.elementIndex_eq id
  rcases exists_of_elementIndex found_here with ⟨element, at_index, -⟩
  rcases exists_of_elementIndex found with ⟨element', at_index', -⟩
  have same_element := getElem?_setPosition state found_here at_index first
  rw [same.elements, getElem?_setPosition other found at_index' second, Option.some.injEq]
    at same_element
  exact (congrArg StrategyElement.position same_element).symm

/-- A change that leaves the element as it is changes nothing. -/
theorem modifyElement_same {id : Uuid} {index : ℕ} {element : StrategyElement Scalar}
    {change : StrategyElement Scalar → StrategyElement Scalar}
    (found : state.elementIndex id = some index) (here : state.elements[index]? = some element)
    (unchanged : change element = element) : (state.modifyElement id change).Same state := by
  simp only [modifyElement, found]
  refine ⟨?_, rfl, fun _ => rfl⟩
  apply List.ext_getElem?
  intro other
  simp only [markUnsaved, List.getElem?_modify]
  by_cases same : index = other
  · subst same
    simp [here, unchanged]
  · simp [same]

theorem removePhase_addPhase (orders : OrdersArePositions state.phases) {id : Uuid}
    (fresh : state.phaseIndex id = none) (name : Text) :
    ((state.addPhase id name).removePhase id).1.Same state := by
  have found : (state.addPhase id name).phaseIndex id = some state.phases.length := by
    rw [phaseIndex] at fresh ⊢
    simp [addPhase, pushPhase, markUnsaved, List.findIdx?_append, fresh, TimelinePhase.new]
  simp only [removePhase, found]
  refine ⟨rfl, ?_, fun _ => rfl⟩
  simp only [addPhase, pushPhase, markUnsaved]
  rw [List.eraseIdx_append_of_length_le (Nat.le_refl _), Nat.sub_self, List.eraseIdx_cons_zero,
    List.append_nil]
  exact renumber_eq_self_iff.mpr orders

theorem insertPhase_removePhase (orders : OrdersArePositions state.phases) {id : Uuid} {index : ℕ}
    {phase : TimelinePhase} (found : state.phaseIndex id = some index)
    (here : state.phases[index]? = some phase) :
    ((state.removePhase id).1.insertPhase index phase).Same state := by
  rcases List.getElem?_eq_some_iff.mp here with ⟨inside, -⟩
  simp only [removePhase, found]
  refine ⟨rfl, ?_, fun _ => rfl⟩
  have at_most : min index (renumber (state.phases.eraseIdx index)).length = index := by
    rw [renumber, List.length_mapIdx, List.length_eraseIdx_of_lt inside]
    omega
  simp only [insertPhase, markUnsaved, at_most]
  rw [renumber_insertIdx_renumber_eraseIdx here]
  exact renumber_eq_self_iff.mpr orders

/-- Giving the slot its hero back. -/
theorem restoreSlot_assignHeroToSlot (slot : TeamSlot) (heroId : HeroId) :
    (applyUndo (state.assignHeroToSlot slot heroId)
      (.assignHeroToSlot slot heroId (state.heroAt slot))).Same state := by
  cases previous : state.heroAt slot with
  | none =>
      refine ⟨rfl, rfl, ?_⟩
      intro other
      simp only [applyUndo, heroAt_clearSlot, heroAt_assignHeroToSlot]
      split
      next same => rw [same, previous]
      next => rfl
  | some heroBefore =>
      refine ⟨rfl, rfl, ?_⟩
      intro other
      simp only [applyUndo, heroAt_assignHeroToSlot]
      split
      next same => rw [same, previous]
      next => rfl

theorem assignHeroToSlot_clearSlot {slot : TeamSlot} {heroId : HeroId}
    (previous : state.heroAt slot = some heroId) :
    ((state.clearSlot slot).assignHeroToSlot slot heroId).Same state := by
  refine ⟨rfl, rfl, ?_⟩
  intro other
  rw [heroAt_assignHeroToSlot, heroAt_clearSlot]
  split
  next same => rw [same, previous]
  next => rfl

end StrategyState

end ScuffedCrew.Editor
