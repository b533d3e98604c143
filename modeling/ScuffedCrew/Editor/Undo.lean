import ScuffedCrew.Editor.Document

/-!
# Undo and redo

The actions that can be reversed, the two stacks, and what the page does for
every event of the editor.
-/

namespace ScuffedCrew.Editor

open Rust (Text)

def maxHistory : ℕ := 50

inductive UndoableAction (Scalar : Type)
  | addElement (element : StrategyElement Scalar)
  | removeElement (element : StrategyElement Scalar) (index : ℕ)
  | updateElement (id : Uuid) (before after : StrategyElement Scalar)
  | moveElement (id : Uuid) (before after : Position Scalar)
  | addPhase (phase : TimelinePhase)
  | removePhase (phase : TimelinePhase) (index : ℕ)
  | assignHeroToSlot (slot : TeamSlot) (heroId : HeroId) (previous : Option HeroId)
  | clearSlot (slot : TeamSlot) (previousHeroId : HeroId)
  | clearAllSlots (previous : List HeroSelection)

variable {Scalar : Type}

/-- The most recent action of each stack is its last one. -/
structure UndoManager (Scalar : Type) where
  undoStack : List (UndoableAction Scalar)
  redoStack : List (UndoableAction Scalar)

namespace UndoManager

def new : UndoManager Scalar := ⟨[], []⟩

def push (manager : UndoManager Scalar) (action : UndoableAction Scalar) : UndoManager Scalar :=
  let stack := manager.undoStack ++ [action]
  ⟨stack.drop (stack.length - maxHistory), []⟩

def undo (manager : UndoManager Scalar) : Option (UndoableAction Scalar × UndoManager Scalar) :=
  manager.undoStack.getLast?.map fun action =>
    (action, ⟨manager.undoStack.dropLast, manager.redoStack ++ [action]⟩)

def redo (manager : UndoManager Scalar) : Option (UndoableAction Scalar × UndoManager Scalar) :=
  manager.redoStack.getLast?.map fun action =>
    (action, ⟨manager.undoStack ++ [action], manager.redoStack.dropLast⟩)

end UndoManager

def applyUndo (state : StrategyState Scalar) : UndoableAction Scalar → StrategyState Scalar
  | .addElement element => (state.removeElement element.id).1
  | .removeElement element index => state.insertElement index element
  | .updateElement id before _ => state.updateElement id before
  | .moveElement id before _ => state.setPosition id before
  | .addPhase phase => (state.removePhase phase.id).1
  | .removePhase phase index => state.insertPhase index phase
  | .assignHeroToSlot slot _ (some heroId) => state.assignHeroToSlot slot heroId
  | .assignHeroToSlot slot _ none => state.clearSlot slot
  | .clearSlot slot previousHeroId => state.assignHeroToSlot slot previousHeroId
  | .clearAllSlots previous => state.setComposition previous

def applyRedo (state : StrategyState Scalar) : UndoableAction Scalar → StrategyState Scalar
  | .addElement element => state.addElement element
  | .removeElement element _ => (state.removeElement element.id).1
  | .updateElement id _ after => state.updateElement id after
  | .moveElement id _ after => state.setPosition id after
  | .addPhase phase => state.pushPhase phase
  | .removePhase phase _ => (state.removePhase phase.id).1
  | .assignHeroToSlot slot heroId _ => state.assignHeroToSlot slot heroId
  | .clearSlot slot _ => state.clearSlot slot
  | .clearAllSlots _ => state.setComposition []

/-! ## The page -/

structure Page (Scalar : Type) where
  strategy : StrategyState Scalar
  canvas : CanvasState
  manager : UndoManager Scalar

/-- The single-field edits of the properties panel. -/
inductive FieldChange (Scalar : Type)
  | label (value : Option Text)
  | color (value : Color Scalar)
  | hero (value : Option HeroId)
  | phase (value : Option Uuid)

def FieldChange.mutate (change : FieldChange Scalar) (element : StrategyElement Scalar) :
    StrategyElement Scalar :=
  match change with
  | .label value => { element with label := value }
  | .color value => { element with color := value }
  | .hero value => { element with heroId := value }
  | .phase value => { element with phaseId := value }

theorem FieldChange.id_mutate (change : FieldChange Scalar) (element : StrategyElement Scalar) :
    (change.mutate element).id = element.id := by
  cases change <;> rfl

namespace Page

/-- The page of a new editor. -/
def default (phaseId : Uuid) : Page Scalar := ⟨.default phaseId, ⟨none, none⟩, .new⟩

variable (page : Page Scalar)

/-- The page changes the strategy and records the action. -/
def record (strategy : StrategyState Scalar) (action : UndoableAction Scalar) : Page Scalar :=
  { page with strategy, manager := page.manager.push action }

def addElement (element : StrategyElement Scalar) : Page Scalar :=
  page.record (page.strategy.addElement element) (.addElement element)

def deleteElement (id : Uuid) : Page Scalar :=
  match page.strategy.removeElement id with
  | (_, none) => page
  | (strategy, some (index, element)) => page.record strategy (.removeElement element index)

def updateElementField [BEq Scalar] (id : Uuid) (change : FieldChange Scalar) : Page Scalar :=
  match page.strategy.elements.find? fun element => decide (element.id = id) with
  | none => page
  | some before =>
      let after := change.mutate before
      if after == before then page
      else page.record (page.strategy.updateElement id after) (.updateElement id before after)

/-- `on_element_move`: nothing is recorded before the drag ends. -/
def moveElement (id : Uuid) (position : Position Scalar) : Page Scalar :=
  { page with strategy := page.strategy.setPosition id position }

def elementDragEnd (id : Uuid) (before after : Position Scalar) : Page Scalar :=
  { page with manager := page.manager.push (.moveElement id before after) }

def swapElements (first second : ℕ) : Page Scalar :=
  match page.strategy.elements[first]?, page.strategy.elements[second]? with
  | some upper, some lower =>
      { page with
        strategy := { page.strategy with
          elements := (page.strategy.elements.set first lower).set second upper }.markUnsaved }
  | _, _ => page

def moveUp (id : Uuid) : Page Scalar :=
  match page.strategy.elementIndex id with
  | none => page
  | some index => if 0 < index then page.swapElements index (index - 1) else page

def moveDown (id : Uuid) : Page Scalar :=
  match page.strategy.elementIndex id with
  | none => page
  | some index =>
      if index + 1 < page.strategy.elements.length then page.swapElements index (index + 1)
      else page

def addPhase (id : Uuid) (name : Text) : Page Scalar :=
  let strategy := page.strategy.addPhase id name
  match strategy.phases.find? fun phase => decide (phase.id = id) with
  | none => { page with strategy }
  | some phase => page.record strategy (.addPhase phase)

def deletePhase (id : Uuid) : Page Scalar :=
  match page.strategy.removePhase id with
  | (_, none) => page
  | (strategy, some (index, phase)) => page.record strategy (.removePhase phase index)

def assignHero (slot : TeamSlot) (heroId : HeroId) : Page Scalar :=
  page.record (page.strategy.assignHeroToSlot slot heroId)
    (.assignHeroToSlot slot heroId (page.strategy.heroAt slot))

def clearSlot (slot : TeamSlot) : Page Scalar :=
  match page.strategy.heroAt slot with
  | none => { page with strategy := page.strategy.clearSlot slot }
  | some heroId => page.record (page.strategy.clearSlot slot) (.clearSlot slot heroId)

def clearAllSlots : Page Scalar :=
  if page.strategy.teamComposition.isEmpty then page
  else page.record (page.strategy.setComposition [])
    (.clearAllSlots page.strategy.teamComposition)

def undo : Page Scalar :=
  match page.manager.undo with
  | none => page
  | some (action, manager) => { page with strategy := applyUndo page.strategy action, manager }

def redo : Page Scalar :=
  match page.manager.redo with
  | none => page
  | some (action, manager) => { page with strategy := applyRedo page.strategy action, manager }

/-- A drag of the selected element on the canvas.  It is grabbed at a point, follows the pointer
with the offset it was grabbed with, and is released at a point. -/
def drag [Add Scalar] [Sub Scalar] (id : Uuid) (grabbed : Position Scalar)
    (moves : List (Position Scalar)) (released : Position Scalar) : Page Scalar :=
  match page.strategy.elements.find? fun element => decide (element.id = id) with
  | none => page
  | some element =>
      let start := element.position
      let offset : Position Scalar := ⟨start.x - grabbed.x, start.y - grabbed.y⟩
      (moves.foldl (fun page position =>
        page.moveElement id ⟨position.x + offset.x, position.y + offset.y⟩) page).elementDragEnd
          id start released

/-! ## Without an entry in the history -/

def changeStrategy (change : StrategyState Scalar → StrategyState Scalar) : Page Scalar :=
  { page with strategy := change page.strategy }

def changeName (name : Text) : Page Scalar :=
  page.changeStrategy fun strategy => { strategy with name, hasUnsavedChanges := true }

def changeVisibility (visibility : Visibility) : Page Scalar :=
  page.changeStrategy fun strategy => { strategy with visibility, hasUnsavedChanges := true }

def changeFormat (teamFormat : TeamFormat) : Page Scalar :=
  page.changeStrategy fun strategy => { strategy with teamFormat, hasUnsavedChanges := true }

def chooseMap (mapId : Text) : Page Scalar :=
  { page.changeStrategy StrategyState.markUnsaved with canvas := page.canvas.selectMap mapId none }

def selectElement (selected : Option Uuid) : Page Scalar :=
  page.changeStrategy fun strategy => { strategy with selectedElement := selected }

def selectPhase (selected : Option Uuid) : Page Scalar :=
  page.changeStrategy fun strategy => { strategy with selectedPhase := selected }

end Page

end ScuffedCrew.Editor
