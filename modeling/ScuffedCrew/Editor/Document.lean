import Mathlib.Data.List.InsertIdx
import ScuffedCrew.Rust.Text

/-!
# The document of the strategy editor

The strategy being edited and the operations on its elements, its phases and its
team.  `Scalar` are the floating point numbers of the drawing.
-/

namespace ScuffedCrew.Editor

open Rust (Text)

abbrev Uuid : Type := ℕ

abbrev HeroId : Type := Text

structure Position (Scalar : Type) where
  x : Scalar
  y : Scalar
  deriving BEq, DecidableEq

structure Color (Scalar : Type) where
  r : ℕ
  g : ℕ
  b : ℕ
  a : Scalar
  deriving BEq, DecidableEq

inductive IconType
  | skull
  | warning
  | star
  | flag
  | eye
  | shield
  | target
  | question
  deriving BEq, DecidableEq

inductive ElementType (Scalar : Type)
  | playerMarker
  | route (points : List (Position Scalar))
  | area (points : List (Position Scalar))
  | ability (abilityId : Text)
  | text (content : Text) (fontSize : Scalar)
  | icon (iconType : IconType)
  | drawing (points : List (Position Scalar)) (strokeWidth : Scalar)
  | arrow (tip : Position Scalar)
  deriving BEq, DecidableEq

structure StrategyElement (Scalar : Type) where
  id : Uuid
  elementType : ElementType Scalar
  position : Position Scalar
  heroId : Option HeroId
  label : Option Text
  color : Color Scalar
  phaseId : Option Uuid
  zIndex : ℤ
  deriving BEq, DecidableEq

structure TimelinePhase where
  id : Uuid
  name : Text
  order : ℕ
  timestamp : Option Text
  description : Option Text
  deriving BEq, DecidableEq

def TimelinePhase.new (id : Uuid) (name : Text) (order : ℕ) : TimelinePhase :=
  ⟨id, name, order, none, none⟩

inductive TeamSlot
  | tank1
  | tank2
  | dps1
  | dps2
  | support1
  | support2
  deriving DecidableEq

structure HeroSelection where
  heroId : HeroId
  playerName : Option Text
  slot : TeamSlot
  deriving DecidableEq

inductive TeamFormat
  | fiveVFive
  | sixVSix
  deriving DecidableEq

inductive Visibility
  | private_
  | unlisted
  | public_
  deriving DecidableEq

inductive PlaybackState
  | stopped
  | playing
  | paused
  deriving DecidableEq

structure StrategyState (Scalar : Type) where
  strategyId : Option Text
  ownerId : Option Text
  name : Text
  description : Option Text
  elements : List (StrategyElement Scalar)
  phases : List TimelinePhase
  selectedPhase : Option Uuid
  selectedElement : Option Uuid
  teamFormat : TeamFormat
  teamComposition : List HeroSelection
  playbackState : PlaybackState
  hasUnsavedChanges : Bool
  visibility : Visibility

/-- The strategy of a new editor.  The id is the one drawn for its phase. -/
def StrategyState.default {Scalar : Type} (phaseId : Uuid) : StrategyState Scalar where
  strategyId := none
  ownerId := none
  name := "Untitled Strategy".toList
  description := none
  elements := []
  phases := [⟨phaseId, "Setup".toList, 0, some "0:00".toList, some "Initial positioning".toList⟩]
  selectedPhase := none
  selectedElement := none
  teamFormat := .fiveVFive
  teamComposition := []
  playbackState := .stopped
  hasUnsavedChanges := false
  visibility := .private_

/-- The fields of the canvas that belong to the strategy. -/
structure CanvasState where
  currentMap : Option Text
  selectedSubMap : Option Text
  deriving DecidableEq

def nonemptyId (text : Text) : Option Text := if text.trim.isEmpty then none else some text.trim

def CanvasState.selectMap (_ : CanvasState) (mapId : Text) (subMapId : Option Text) : CanvasState :=
  ⟨nonemptyId mapId, subMapId.bind nonemptyId⟩

/-- The phases with their positions as their orders. -/
def renumber (phases : List TimelinePhase) : List TimelinePhase :=
  phases.mapIdx fun index phase => { phase with order := index }

namespace StrategyState

variable {Scalar : Type}

def markUnsaved (state : StrategyState Scalar) : StrategyState Scalar :=
  { state with hasUnsavedChanges := true }

def elementIndex (state : StrategyState Scalar) (id : Uuid) : Option ℕ :=
  state.elements.findIdx? fun element => decide (element.id = id)

def phaseIndex (state : StrategyState Scalar) (id : Uuid) : Option ℕ :=
  state.phases.findIdx? fun phase => decide (phase.id = id)

@[simp]
theorem hasUnsavedChanges_markUnsaved (state : StrategyState Scalar) :
    state.markUnsaved.hasUnsavedChanges = true := rfl

theorem exists_of_elementIndex {state : StrategyState Scalar} {id : Uuid} {index : ℕ}
    (found : state.elementIndex id = some index) :
    ∃ element, state.elements[index]? = some element ∧ element.id = id := by
  rcases List.findIdx?_eq_some_iff_getElem.mp found with ⟨inside, same, -⟩
  exact ⟨state.elements[index], List.getElem?_eq_getElem inside, by simpa using same⟩

theorem exists_elementIndex_of_find? {state : StrategyState Scalar} {id : Uuid}
    {element : StrategyElement Scalar}
    (found : (state.elements.find? fun element => decide (element.id = id)) = some element) :
    ∃ index, state.elementIndex id = some index ∧ state.elements[index]? = some element := by
  rcases List.find?_eq_some_iff_getElem.mp found with ⟨is_id, index, inside, here, earlier⟩
  refine ⟨index, ?_, by rw [List.getElem?_eq_getElem inside, here]⟩
  rw [elementIndex, List.findIdx?_eq_some_iff_getElem]
  refine ⟨inside, by rw [here]; exact is_id, ?_⟩
  intro other before
  simpa using earlier other before

theorem exists_of_phaseIndex {state : StrategyState Scalar} {id : Uuid} {index : ℕ}
    (found : state.phaseIndex id = some index) :
    ∃ phase, state.phases[index]? = some phase ∧ phase.id = id := by
  rcases List.findIdx?_eq_some_iff_getElem.mp found with ⟨inside, same, -⟩
  exact ⟨state.phases[index], List.getElem?_eq_getElem inside, by simpa using same⟩

def addElement (state : StrategyState Scalar) (element : StrategyElement Scalar) :
    StrategyState Scalar :=
  { state with elements := state.elements ++ [element] }.markUnsaved

/-- `if let Some(existing) = self.elements.iter_mut().find(|e| e.id == id)`. -/
def modifyElement (state : StrategyState Scalar) (id : Uuid)
    (change : StrategyElement Scalar → StrategyElement Scalar) : StrategyState Scalar :=
  match state.elementIndex id with
  | none => state
  | some index => { state with elements := state.elements.modify index change }.markUnsaved

def updateElement (state : StrategyState Scalar) (id : Uuid) (updated : StrategyElement Scalar) :
    StrategyState Scalar :=
  state.modifyElement id fun _ => updated

def setPosition (state : StrategyState Scalar) (id : Uuid) (position : Position Scalar) :
    StrategyState Scalar :=
  state.modifyElement id fun element => { element with position }

/-- The state without the element, its former index and the element. -/
def removeElement (state : StrategyState Scalar) (id : Uuid) :
    StrategyState Scalar × Option (ℕ × StrategyElement Scalar) :=
  match state.elementIndex id with
  | none => (state, none)
  | some index =>
      ({ state with
          elements := state.elements.eraseIdx index
          selectedElement :=
            if state.selectedElement = some id then none else state.selectedElement }.markUnsaved,
        state.elements[index]?.map fun element => (index, element))

def insertElement (state : StrategyState Scalar) (index : ℕ) (element : StrategyElement Scalar) :
    StrategyState Scalar :=
  { state with
    elements := state.elements.insertIdx (min index state.elements.length) element }.markUnsaved

def pushPhase (state : StrategyState Scalar) (phase : TimelinePhase) : StrategyState Scalar :=
  { state with phases := state.phases ++ [phase] }.markUnsaved

/-- The id is the one drawn for the phase. -/
def addPhase (state : StrategyState Scalar) (id : Uuid) (name : Text) : StrategyState Scalar :=
  state.pushPhase (TimelinePhase.new id name state.phases.length)

def removePhase (state : StrategyState Scalar) (id : Uuid) :
    StrategyState Scalar × Option (ℕ × TimelinePhase) :=
  match state.phaseIndex id with
  | none => (state, none)
  | some index =>
      ({ state with
          phases := renumber (state.phases.eraseIdx index)
          selectedPhase :=
            if state.selectedPhase = some id then none else state.selectedPhase }.markUnsaved,
        state.phases[index]?.map fun phase => (index, phase))

def insertPhase (state : StrategyState Scalar) (index : ℕ) (phase : TimelinePhase) :
    StrategyState Scalar :=
  { state with
    phases := renumber (state.phases.insertIdx (min index state.phases.length) phase) }.markUnsaved

def assignHeroToSlot (state : StrategyState Scalar) (slot : TeamSlot) (heroId : HeroId) :
    StrategyState Scalar :=
  { state with
    teamComposition :=
      (state.teamComposition.filter fun hero : HeroSelection => decide (hero.slot ≠ slot)) ++
        [HeroSelection.mk heroId none slot] }.markUnsaved

def clearSlot (state : StrategyState Scalar) (slot : TeamSlot) : StrategyState Scalar :=
  { state with
    teamComposition :=
      state.teamComposition.filter fun hero => decide (hero.slot ≠ slot) }.markUnsaved

def setComposition (state : StrategyState Scalar) (composition : List HeroSelection) :
    StrategyState Scalar :=
  { state with teamComposition := composition }.markUnsaved

/-- The hero of a slot, as the team panel finds it. -/
def heroAt (state : StrategyState Scalar) (slot : TeamSlot) : Option HeroId :=
  (state.teamComposition.find? fun hero => decide (hero.slot = slot)).map HeroSelection.heroId

/-! ## Selection and playback -/

def currentPhaseIndex (state : StrategyState Scalar) : Option ℕ :=
  state.selectedPhase.bind state.phaseIndex

def selectPhaseAt (state : StrategyState Scalar) (index : ℕ) : StrategyState Scalar :=
  match state.phases[index]? with
  | none => state
  | some phase => { state with selectedPhase := some phase.id }

def nextPhase (state : StrategyState Scalar) : StrategyState Scalar :=
  match state.currentPhaseIndex with
  | some index => if index + 1 < state.phases.length then state.selectPhaseAt (index + 1) else state
  | none => state.selectPhaseAt 0

def prevPhase (state : StrategyState Scalar) : StrategyState Scalar :=
  match state.currentPhaseIndex with
  | some index => if 0 < index then state.selectPhaseAt (index - 1) else state
  | none => state.selectPhaseAt (state.phases.length - 1)

def playPause (state : StrategyState Scalar) : StrategyState Scalar :=
  { state with
    playbackState := match state.playbackState with
      | .playing => .paused
      | _ => .playing }

def playbackTick (state : StrategyState Scalar) : StrategyState Scalar :=
  if state.playbackState ≠ .playing then state
  else
    match state.currentPhaseIndex with
    | some index =>
        if state.phases.length ≤ index + 1 then { state with playbackState := .stopped }
        else state.nextPhase
    | none => { state with playbackState := .stopped }

/-! ## Saving -/

/-- The fields that `mark_saved` compares. -/
def savedFieldsEq [BEq Scalar] (state snapshot : StrategyState Scalar) : Bool :=
  decide (state.name = snapshot.name) && decide (state.description = snapshot.description) &&
    decide (state.visibility = snapshot.visibility) && state.elements == snapshot.elements &&
    state.phases == snapshot.phases

/-- The state after a successful save, and whether it is clean. -/
def markSaved [BEq Scalar] (state snapshot : StrategyState Scalar) (id ownerId : Text) :
    StrategyState Scalar × Bool :=
  let unchanged := state.savedFieldsEq snapshot
  let saved := { state with
    strategyId := some id
    ownerId := some ownerId
    hasUnsavedChanges := if unchanged then false else state.hasUnsavedChanges }
  (saved, !saved.hasUnsavedChanges)

end StrategyState

end ScuffedCrew.Editor
