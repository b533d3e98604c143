import ScuffedCrew.Editor.Session

/-!
# The unsaved marker

A handler of the page either marks the document, whatever the flag was, or keeps
the flag and everything the flag stands for.  A successful response clears the
flag when the fields that `mark_saved` compares still are those of the snapshot.
-/

namespace ScuffedCrew.Editor

open Rust (Text)
open StateMachine

variable {Scalar : Type}

/-! ## What an edit does to the flag -/

def StrategyState.withFlag (state : StrategyState Scalar) (flag : Bool) : StrategyState Scalar :=
  { state with hasUnsavedChanges := flag }

/-- What the flag stands for: the state without its names on the server, its
selections and its playback. -/
def StrategyState.content (state : StrategyState Scalar) : StrategyState Scalar :=
  { state with
    strategyId := none
    ownerId := none
    selectedPhase := none
    selectedElement := none
    playbackState := .stopped
    hasUnsavedChanges := false }

/-- Either the flag is set whatever it was, or it is kept, and with it what it stands for. -/
def StrategyState.Effect (change : StrategyState Scalar → StrategyState Scalar)
    (state : StrategyState Scalar) : Prop :=
  (∀ flag, (change (state.withFlag flag)).hasUnsavedChanges = true) ∨
    ∀ flag, (change (state.withFlag flag)).hasUnsavedChanges = flag ∧
      (change (state.withFlag flag)).content = state.content

namespace StrategyState

variable (state : StrategyState Scalar)

theorem effect_modifyElement (id : Uuid) (change : StrategyElement Scalar → StrategyElement Scalar) :
    Effect (fun state => state.modifyElement id change) state := by
  rcases found : state.elementIndex id with _ | index
  · right
    intro flag
    have absent : (state.withFlag flag).elementIndex id = none := found
    simp only [modifyElement, absent]
    exact ⟨rfl, rfl⟩
  · left
    intro flag
    have present : (state.withFlag flag).elementIndex id = some index := found
    simp only [modifyElement, present, hasUnsavedChanges_markUnsaved]

theorem effect_removeElement (id : Uuid) :
    Effect (fun state => (state.removeElement id).1) state := by
  rcases found : state.elementIndex id with _ | index
  · right
    intro flag
    have absent : (state.withFlag flag).elementIndex id = none := found
    simp only [removeElement, absent]
    exact ⟨rfl, rfl⟩
  · left
    intro flag
    have present : (state.withFlag flag).elementIndex id = some index := found
    simp only [removeElement, present, hasUnsavedChanges_markUnsaved]

theorem effect_removePhase (id : Uuid) :
    Effect (fun state => (state.removePhase id).1) state := by
  rcases found : state.phaseIndex id with _ | index
  · right
    intro flag
    have absent : (state.withFlag flag).phaseIndex id = none := found
    simp only [removePhase, absent]
    exact ⟨rfl, rfl⟩
  · left
    intro flag
    have present : (state.withFlag flag).phaseIndex id = some index := found
    simp only [removePhase, present, hasUnsavedChanges_markUnsaved]

theorem effect_applyUndo (action : UndoableAction Scalar) :
    Effect (fun state => applyUndo state action) state := by
  cases action with
  | addElement element => exact effect_removeElement state element.id
  | updateElement id before after => exact effect_modifyElement state id _
  | moveElement id before after => exact effect_modifyElement state id _
  | addPhase phase => exact effect_removePhase state phase.id
  | assignHeroToSlot slot heroId previous =>
      left
      intro flag
      cases previous <;> rfl
  | removeElement | removePhase | clearSlot | clearAllSlots => exact .inl fun _ => rfl

theorem effect_applyRedo (action : UndoableAction Scalar) :
    Effect (fun state => applyRedo state action) state := by
  cases action with
  | removeElement element index => exact effect_removeElement state element.id
  | updateElement id before after => exact effect_modifyElement state id _
  | moveElement id before after => exact effect_modifyElement state id _
  | removePhase phase index => exact effect_removePhase state phase.id
  | addElement | addPhase | assignHeroToSlot | clearSlot | clearAllSlots =>
      exact .inl fun _ => rfl

/-- Selecting another phase is no change of the document. -/
theorem selectPhaseAt_kept (index : ℕ) :
    (state.selectPhaseAt index).hasUnsavedChanges = state.hasUnsavedChanges ∧
      (state.selectPhaseAt index).content = state.content := by
  simp only [selectPhaseAt]
  split <;> exact ⟨rfl, rfl⟩

theorem nextPhase_kept :
    state.nextPhase.hasUnsavedChanges = state.hasUnsavedChanges ∧
      state.nextPhase.content = state.content := by
  simp only [nextPhase]
  split
  · split
    · exact selectPhaseAt_kept state _
    · exact ⟨rfl, rfl⟩
  · exact selectPhaseAt_kept state _

theorem prevPhase_kept :
    state.prevPhase.hasUnsavedChanges = state.hasUnsavedChanges ∧
      state.prevPhase.content = state.content := by
  simp only [prevPhase]
  split
  · split
    · exact selectPhaseAt_kept state _
    · exact ⟨rfl, rfl⟩
  · exact selectPhaseAt_kept state _

theorem playbackTick_kept :
    state.playbackTick.hasUnsavedChanges = state.hasUnsavedChanges ∧
      state.playbackTick.content = state.content := by
  simp only [playbackTick]
  split
  · exact ⟨rfl, rfl⟩
  · split
    · split
      · exact ⟨rfl, rfl⟩
      · exact nextPhase_kept state
    · exact ⟨rfl, rfl⟩

theorem effect_of_kept {change : StrategyState Scalar → StrategyState Scalar}
    (kept : ∀ state : StrategyState Scalar,
      (change state).hasUnsavedChanges = state.hasUnsavedChanges ∧
        (change state).content = state.content) : Effect change state :=
  .inr fun flag => kept (state.withFlag flag)

end StrategyState

namespace Page

def withFlag (page : Page Scalar) (flag : Bool) : Page Scalar :=
  { page with strategy := page.strategy.withFlag flag }

def Unsaved (page : Page Scalar) : Prop := page.strategy.hasUnsavedChanges = true

/-- What the flag of the page stands for, with the map. -/
def content (page : Page Scalar) : StrategyState Scalar × CanvasState :=
  (page.strategy.content, page.canvas)

/-- The handler sets the flag, also when it was not set before. -/
def Marks [BEq Scalar] (page : Page Scalar) (edit : Edit Scalar) : Prop :=
  ((page.withFlag false).perform edit).Unsaved

def Effect (change : Page Scalar → Page Scalar) (page : Page Scalar) : Prop :=
  (∀ flag, (change (page.withFlag flag)).Unsaved) ∨
    ∀ flag, (change (page.withFlag flag)).strategy.hasUnsavedChanges = flag ∧
      (change (page.withFlag flag)).content = page.content

variable (page : Page Scalar)

theorem effect_changeStrategy {change : StrategyState Scalar → StrategyState Scalar}
    (effect : StrategyState.Effect change page.strategy) :
    Effect (fun page => page.changeStrategy change) page := by
  rcases effect with marks | keeps
  · exact .inl marks
  · right
    intro flag
    rcases keeps flag with ⟨same_flag, same_content⟩
    exact ⟨same_flag, Prod.ext same_content rfl⟩

theorem effect_deleteElement (id : Uuid) : Effect (fun page => page.deleteElement id) page := by
  rcases found : page.strategy.elementIndex id with _ | index
  · right
    intro flag
    have absent : (page.withFlag flag).strategy.elementIndex id = none := found
    simp only [deleteElement, StrategyState.removeElement, absent]
    exact ⟨rfl, rfl⟩
  · left
    intro flag
    have present : (page.withFlag flag).strategy.elementIndex id = some index := found
    rcases StrategyState.exists_of_elementIndex present with ⟨element, here, -⟩
    simp only [deleteElement, StrategyState.removeElement, present, here, Option.map_some]
    rfl

theorem effect_deletePhase (id : Uuid) : Effect (fun page => page.deletePhase id) page := by
  rcases found : page.strategy.phaseIndex id with _ | index
  · right
    intro flag
    have absent : (page.withFlag flag).strategy.phaseIndex id = none := found
    simp only [deletePhase, StrategyState.removePhase, absent]
    exact ⟨rfl, rfl⟩
  · left
    intro flag
    have present : (page.withFlag flag).strategy.phaseIndex id = some index := found
    rcases StrategyState.exists_of_phaseIndex present with ⟨phase, here, -⟩
    simp only [deletePhase, StrategyState.removePhase, present, here, Option.map_some]
    rfl

theorem effect_updateElementField [BEq Scalar] (id : Uuid) (change : FieldChange Scalar) :
    Effect (fun page => page.updateElementField id change) page := by
  rcases found : page.strategy.elements.find? fun element => decide (element.id = id)
    with _ | before
  · right
    intro flag
    have absent : ((page.withFlag flag).strategy.elements.find?
        fun element => decide (element.id = id)) = none := found
    simp only [updateElementField, absent]
    exact ⟨rfl, rfl⟩
  · have present (flag : Bool) : ((page.withFlag flag).strategy.elements.find?
        fun element => decide (element.id = id)) = some before := found
    cases same : change.mutate before == before with
    | true =>
        right
        intro flag
        simp only [updateElementField, present flag, same, if_true]
        exact ⟨rfl, rfl⟩
    | false =>
        left
        intro flag
        rcases StrategyState.exists_elementIndex_of_find? (present flag) with ⟨index, at_index, -⟩
        simp only [updateElementField, present flag, same, Bool.false_eq_true, if_false,
          StrategyState.updateElement, StrategyState.modifyElement, at_index]
        rfl

theorem effect_swapElements (first second : ℕ) :
    Effect (fun page => page.swapElements first second) page := by
  rcases upper_at : page.strategy.elements[first]? with _ | upper
  · right
    intro flag
    have absent : (page.withFlag flag).strategy.elements[first]? = none := upper_at
    simp only [swapElements, absent]
    exact ⟨rfl, rfl⟩
  · have upper_here (flag : Bool) :
        (page.withFlag flag).strategy.elements[first]? = some upper := upper_at
    rcases lower_at : page.strategy.elements[second]? with _ | lower
    · right
      intro flag
      have absent : (page.withFlag flag).strategy.elements[second]? = none := lower_at
      simp only [swapElements, upper_here flag, absent]
      exact ⟨rfl, rfl⟩
    · left
      intro flag
      have lower_here : (page.withFlag flag).strategy.elements[second]? = some lower := lower_at
      simp only [swapElements, upper_here flag, lower_here]
      rfl

theorem effect_of_eq {change : Page Scalar → Page Scalar}
    (same : ∀ flag, change (page.withFlag flag) = page.withFlag flag) : Effect change page := by
  right
  intro flag
  rw [same flag]
  exact ⟨rfl, rfl⟩

theorem effect_moveUp (id : Uuid) : Effect (fun page => page.moveUp id) page := by
  rcases found : page.strategy.elementIndex id with _ | index
  · apply effect_of_eq
    intro flag
    have absent : (page.withFlag flag).strategy.elementIndex id = none := found
    simp only [moveUp, absent]
  · have present (flag : Bool) : (page.withFlag flag).strategy.elementIndex id = some index := found
    by_cases inside : 0 < index
    · have swaps (flag : Bool) : (page.withFlag flag).moveUp id =
          (page.withFlag flag).swapElements index (index - 1) := by
        simp only [moveUp, present flag, inside, if_true]
      simpa only [Effect, swaps] using effect_swapElements page index (index - 1)
    · apply effect_of_eq
      intro flag
      simp only [moveUp, present flag, inside, if_false]

theorem effect_moveDown (id : Uuid) : Effect (fun page => page.moveDown id) page := by
  rcases found : page.strategy.elementIndex id with _ | index
  · apply effect_of_eq
    intro flag
    have absent : (page.withFlag flag).strategy.elementIndex id = none := found
    simp only [moveDown, absent]
  · have present (flag : Bool) : (page.withFlag flag).strategy.elementIndex id = some index := found
    by_cases inside : index + 1 < page.strategy.elements.length
    · have below (flag : Bool) : index + 1 < (page.withFlag flag).strategy.elements.length := inside
      have swaps (flag : Bool) : (page.withFlag flag).moveDown id =
          (page.withFlag flag).swapElements index (index + 1) := by
        simp only [moveDown, present flag, below flag, if_true]
      simpa only [Effect, swaps] using effect_swapElements page index (index + 1)
    · have past (flag : Bool) :
          ¬index + 1 < (page.withFlag flag).strategy.elements.length := inside
      apply effect_of_eq
      intro flag
      simp only [moveDown, present flag, past flag, if_false]

theorem effect_addPhase (id : Uuid) (name : Text) :
    Effect (fun page => page.addPhase id name) page := by
  left
  intro flag
  simp only [addPhase]
  split <;> rfl

theorem effect_clearSlot (slot : TeamSlot) : Effect (fun page => page.clearSlot slot) page := by
  left
  intro flag
  simp only [clearSlot]
  split <;> rfl

theorem effect_clearAllSlots : Effect (fun page => page.clearAllSlots) page := by
  cases empty : page.strategy.teamComposition.isEmpty with
  | true =>
      apply effect_of_eq
      intro flag
      have still : (page.withFlag flag).strategy.teamComposition.isEmpty = true := empty
      simp only [clearAllSlots, still, if_true]
  | false =>
      left
      intro flag
      have still : (page.withFlag flag).strategy.teamComposition.isEmpty = false := empty
      simp only [clearAllSlots, still, Bool.false_eq_true, if_false]
      rfl

theorem effect_undo : Effect (fun page => page.undo) page := by
  rcases taken : page.manager.undo with _ | ⟨action, manager⟩
  · apply effect_of_eq
    intro flag
    have nothing : (page.withFlag flag).manager.undo = none := taken
    simp only [undo, nothing]
  · have undone (flag : Bool) : (page.withFlag flag).manager.undo = some (action, manager) := taken
    rcases StrategyState.effect_applyUndo page.strategy action with marks | keeps
    · left
      intro flag
      simp only [undo, undone flag]
      exact marks flag
    · right
      intro flag
      rcases keeps flag with ⟨same_flag, same_content⟩
      simp only [undo, undone flag]
      exact ⟨same_flag, Prod.ext same_content rfl⟩

theorem effect_redo : Effect (fun page => page.redo) page := by
  rcases taken : page.manager.redo with _ | ⟨action, manager⟩
  · apply effect_of_eq
    intro flag
    have nothing : (page.withFlag flag).manager.redo = none := taken
    simp only [redo, nothing]
  · have redone (flag : Bool) : (page.withFlag flag).manager.redo = some (action, manager) := taken
    rcases StrategyState.effect_applyRedo page.strategy action with marks | keeps
    · left
      intro flag
      simp only [redo, redone flag]
      exact marks flag
    · right
      intro flag
      rcases keeps flag with ⟨same_flag, same_content⟩
      simp only [redo, redone flag]
      exact ⟨same_flag, Prod.ext same_content rfl⟩

/-- Every handler marks the document, or keeps the flag and what it stands for. -/
theorem effect_perform [BEq Scalar] (edit : Edit Scalar) :
    Effect (fun page => page.perform edit) page := by
  cases edit with
  | formatChange | assign | nameChange | visibilityChange | elementAdd | chooseMap =>
      exact .inl fun _ => rfl
  | elementSelect | selectPhase | elementDragEnd | playPause =>
      exact .inr fun _ => ⟨rfl, rfl⟩
  | clearSlot slot => exact effect_clearSlot page slot
  | clearAll => exact effect_clearAllSlots page
  | elementMove id position =>
      exact effect_changeStrategy page (StrategyState.effect_modifyElement page.strategy id _)
  | fieldChange id change => exact effect_updateElementField page id change
  | moveUp id => exact effect_moveUp page id
  | moveDown id => exact effect_moveDown page id
  | delete id => exact effect_deleteElement page id
  | addPhase id name => exact effect_addPhase page id name
  | deletePhase id => exact effect_deletePhase page id
  | nextPhase =>
      exact effect_changeStrategy page (StrategyState.effect_of_kept _ StrategyState.nextPhase_kept)
  | prevPhase =>
      exact effect_changeStrategy page (StrategyState.effect_of_kept _ StrategyState.prevPhase_kept)
  | firstPhase =>
      apply effect_changeStrategy
      apply StrategyState.effect_of_kept
      exact fun state => state.selectPhaseAt_kept 0
  | lastPhase =>
      apply effect_changeStrategy
      apply StrategyState.effect_of_kept
      exact fun state => state.selectPhaseAt_kept (state.phases.length - 1)
  | playbackTick =>
      exact effect_changeStrategy page
        (StrategyState.effect_of_kept _ StrategyState.playbackTick_kept)
  | undo => exact effect_undo page
  | redo => exact effect_redo page

variable {page}

theorem unsaved_of_marks [BEq Scalar] {edit : Edit Scalar} (marks : page.Marks edit) :
    (page.perform edit).Unsaved := by
  rcases effect_perform page edit with always | keeps
  · exact always page.strategy.hasUnsavedChanges
  · have cleared := (keeps false).1
    rw [Marks, Unsaved] at marks
    rw [marks] at cleared
    exact absurd cleared (by decide)

theorem kept_of_not_marks [BEq Scalar] {edit : Edit Scalar} (unmarked : ¬page.Marks edit) :
    (page.perform edit).strategy.hasUnsavedChanges = page.strategy.hasUnsavedChanges ∧
      (page.perform edit).content = page.content := by
  rcases effect_perform page edit with always | keeps
  · exact absurd (always false) unmarked
  · exact keeps page.strategy.hasUnsavedChanges

/-- An edit never clears the flag. -/
theorem unsaved_perform [BEq Scalar] (edit : Edit Scalar) (unsaved : page.Unsaved) :
    (page.perform edit).Unsaved := by
  by_cases marks : page.Marks edit
  · exact unsaved_of_marks marks
  · rw [Unsaved, (kept_of_not_marks marks).1]
    exact unsaved

end Page

/-! ## The saves of a run -/

/-- The step is an edit that sets the flag. -/
def MarkingEdit [BEq Scalar] (step : Step (Session Scalar) (Event Scalar)) : Prop :=
  ∃ edit, step.event = .edit edit ∧ step.before.page.Marks edit

/-- A save of a run that succeeds: the step that takes the snapshot, the steps
while the request is in flight, and the step of the response. -/
structure Save (steps : List (Step (Session Scalar) (Event Scalar)))
    (taken : Step (Session Scalar) (Event Scalar))
    (meanwhile : List (Step (Session Scalar) (Event Scalar)))
    (answered : Step (Session Scalar) (Event Scalar)) : Prop where
  inside : ∃ earlier later, steps = earlier ++ taken :: (meanwhile ++ answered :: later)
  is_save : taken.event = .save
  idle : taken.before.saving = none
  sent : taken.after.saving.isSome
  flying : ∀ step ∈ meanwhile, step.after.saving.isSome
  succeeds : ∃ id ownerId, answered.event = .saved id ownerId

/-- An edit since the snapshot leaves the flag set, and a clean editor is what was saved. -/
def TellsTruth [BEq Scalar] (steps : List (Step (Session Scalar) (Event Scalar))) : Prop :=
  ∀ taken meanwhile answered, Save steps taken meanwhile answered →
    ((∃ edit ∈ meanwhile, MarkingEdit edit) → answered.after.page.Unsaved) ∧
      (¬answered.after.page.Unsaved → answered.after.page.content = taken.before.page.content)

/-- At every response after a marking edit, something that `mark_saved` compares has changed. -/
def ComparedChanges [BEq Scalar] (steps : List (Step (Session Scalar) (Event Scalar))) : Prop :=
  ∀ taken meanwhile answered, Save steps taken meanwhile answered →
    (∃ edit ∈ meanwhile, MarkingEdit edit) →
      answered.before.page.strategy.savedFieldsEq taken.before.page.strategy = false

variable [BEq Scalar] {session final : Session Scalar}
  {steps : List (Step (Session Scalar) (Event Scalar))}

section flight

variable {flight : Flight Scalar} {event : Event Scalar} {after : Session Scalar}

/-- While the request is in flight a step is an edit, or a save that does nothing. -/
theorem step_cases (step : editing.next session event = some after)
    (saving : session.saving = some flight) (flying : after.saving.isSome) :
    (∃ edit, event = .edit edit ∧ after = { session with page := session.page.perform edit }) ∨
      (event = .save ∧ after = session) := by
  cases event with
  | edit edit => exact .inl ⟨edit, rfl, (Option.some.inj step).symm⟩
  | save =>
      right
      have same : session.save = after := Option.some.inj step
      simp only [Session.save, saving] at same
      exact ⟨rfl, same.symm⟩
  | saved id ownerId =>
      simp only [editing, Session.saved, saving, Option.map_some, Option.some.injEq] at step
      rw [← step] at flying
      simp at flying
  | saveFailed =>
      simp only [editing, Session.saveFailed, saving, Option.map_some, Option.some.injEq] at step
      rw [← step] at flying
      simp at flying

/-- The snapshot stays, the flag is set once an edit marks the document, and
until then nothing that it stands for changes. -/
theorem meanwhile_spec (run : editing.Run session steps final)
    (saving : session.saving = some flight) (flying : ∀ step ∈ steps, step.after.saving.isSome) :
    final.saving = some flight ∧
      ((∃ edit ∈ steps, MarkingEdit edit) → final.page.Unsaved) ∧
      ((¬∃ edit ∈ steps, MarkingEdit edit) → final.page.content = session.page.content) := by
  induction run with
  | refl => exact ⟨saving, by simp, fun _ => rfl⟩
  | @snoc steps state after event run step ih =>
      rcases ih fun step step_mem => flying step (List.mem_append_left _ step_mem) with
        ⟨same_flight, marked, unmarked⟩
      have last_flying : after.saving.isSome := flying ⟨state, event, after⟩ (by simp)
      have split : (∃ edit ∈ steps ++ [⟨state, event, after⟩], MarkingEdit edit) ↔
          (∃ edit ∈ steps, MarkingEdit edit) ∨ MarkingEdit ⟨state, event, after⟩ := by
        simp only [List.mem_append, List.mem_singleton, or_and_right, exists_or, exists_eq_left]
      rw [split]
      rcases step_cases step same_flight last_flying with ⟨edit, rfl, rfl⟩ | ⟨rfl, rfl⟩
      · refine ⟨same_flight, ?_, ?_⟩
        · rintro (earlier | ⟨edit', is_edit, marks⟩)
          · exact Page.unsaved_perform edit (marked earlier)
          · rcases Event.edit.inj is_edit with rfl
            exact Page.unsaved_of_marks marks
        · intro none_marks
          have unmarked_now : ¬state.page.Marks edit := by
            intro marks
            exact none_marks (.inr ⟨edit, rfl, marks⟩)
          rw [(Page.kept_of_not_marks unmarked_now).2]
          exact unmarked fun earlier => none_marks (.inl earlier)
      · refine ⟨same_flight, ?_, ?_⟩
        · rintro (earlier | ⟨edit, is_edit, -⟩)
          · exact marked earlier
          · cases is_edit
        · intro none_marks
          exact unmarked fun earlier => none_marks (.inl earlier)

end flight

/-- What the snapshot of a save and its response are. -/
theorem Save.spec {taken answered : Step (Session Scalar) (Event Scalar)}
    {meanwhile : List (Step (Session Scalar) (Event Scalar))}
    (run : editing.Run session steps final) (save : Save steps taken meanwhile answered) :
    ((∃ edit ∈ meanwhile, MarkingEdit edit) → answered.before.page.Unsaved) ∧
      ((¬∃ edit ∈ meanwhile, MarkingEdit edit) →
        answered.before.page.content = taken.before.page.content) ∧
      answered.after.page.content = answered.before.page.content ∧
      answered.after.page.strategy.hasUnsavedChanges =
        (if answered.before.page.strategy.savedFieldsEq taken.before.page.strategy then false
          else answered.before.page.strategy.hasUnsavedChanges) := by
  rcases save.inside with ⟨earlier, later, rfl⟩
  rcases run.exists_middle with ⟨_, -, from_taken⟩
  rcases from_taken.cons_inv with ⟨rfl, takes, from_sent⟩
  rcases from_sent.exists_middle with ⟨_, flies, from_answered⟩
  rcases from_answered.cons_inv with ⟨rfl, answers, -⟩
  rcases save.succeeds with ⟨id, ownerId, is_saved⟩
  have sent : ∃ request, taken.after = ⟨taken.before.page,
      some ⟨taken.before.page.strategy, request⟩⟩ := by
    have after_eq : taken.before.save = taken.after := by
      rw [save.is_save] at takes
      exact Option.some.inj takes
    have in_flight := save.sent
    rw [← after_eq] at in_flight ⊢
    simp only [Session.save, save.idle] at in_flight ⊢
    cases made : taken.before.page.saveRequest with
    | none => simp [made, save.idle] at in_flight
    | some request => exact ⟨request, rfl⟩
  rcases sent with ⟨request, sent⟩
  have saving : taken.after.saving = some ⟨taken.before.page.strategy, request⟩ := by rw [sent]
  have same_page : taken.after.page = taken.before.page := by rw [sent]
  rcases meanwhile_spec flies saving save.flying with ⟨same_flight, marked, unmarked⟩
  rw [same_page] at unmarked
  rw [is_saved] at answers
  simp only [editing, Session.saved, same_flight, Option.map_some, Option.some.injEq] at answers
  rw [← answers]
  exact ⟨marked, unmarked, rfl, rfl⟩

/-- The marker tells the truth exactly in the runs where, at every response
after a marking edit, something that is compared has changed. -/
theorem tellsTruth_iff (run : editing.Run session steps final) :
    TellsTruth steps ↔ ComparedChanges steps := by
  constructor
  · intro truth taken meanwhile answered save edited
    rcases save.spec run with ⟨-, -, -, flag⟩
    have still := (truth taken meanwhile answered save).1 edited
    rw [Page.Unsaved, flag] at still
    cases same : answered.before.page.strategy.savedFieldsEq taken.before.page.strategy with
    | false => rfl
    | true => simp [same] at still
  · intro changes taken meanwhile answered save
    rcases save.spec run with ⟨marked, unmarked, same_content, flag⟩
    have leaves : (∃ edit ∈ meanwhile, MarkingEdit edit) → answered.after.page.Unsaved := by
      intro edited
      rw [Page.Unsaved, flag, changes taken meanwhile answered save edited]
      exact marked edited
    refine ⟨leaves, ?_⟩
    intro clean
    rw [same_content]
    exact unmarked fun edited => clean (leaves edited)

/-! ## A map chosen during the save -/

/-- The strategy is created for Ilios, and while the request is in flight an edit is made. -/
def creation (meanwhile : Edit Scalar) : List (Event Scalar) :=
  [.edit (.chooseMap "ilios".toList), .save, .edit meanwhile,
    .saved "s1".toList "u1".toList]

theorem tellsTruth_iff_renamed :
    TellsTruth (editing.stepsOf ⟨.default 0, none⟩
        (creation (.nameChange "Dive".toList : Edit ℤ))) ↔
      ComparedChanges (editing.stepsOf ⟨.default 0, none⟩
        (creation (.nameChange "Dive".toList : Edit ℤ))) :=
  tellsTruth_iff (.of_exec rfl)

/-- Busan is chosen while the strategy is created for Ilios, and the editor is clean. -/
theorem chosen_map_lost :
    ∃ (steps : List (Step (Session ℤ) (Event ℤ))) (final : Session ℤ),
      editing.Run ⟨.default 0, none⟩ steps final ∧ ¬TellsTruth steps := by
  refine ⟨editing.stepsOf ⟨.default 0, none⟩ (creation (.chooseMap "busan".toList)), _,
    .of_exec rfl, ?_⟩
  intro truth
  have save : Save (editing.stepsOf ⟨.default 0, none⟩
      (creation (.chooseMap "busan".toList : Edit ℤ))) _ [_] _ :=
    { inside := ⟨[_], [], rfl⟩
      is_save := rfl
      idle := rfl
      sent := rfl
      flying := by
        intro step step_mem
        rcases List.mem_singleton.mp step_mem with rfl
        rfl
      succeeds := ⟨_, _, rfl⟩ }
  have unsaved := (truth _ _ _ save).1 ⟨_, List.mem_singleton_self _, _, rfl, rfl⟩
  exact Bool.false_ne_true unsaved

end ScuffedCrew.Editor
