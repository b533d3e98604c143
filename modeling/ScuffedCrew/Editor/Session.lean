import ScuffedCrew.Editor.Undo
import ScuffedCrew.StateMachine.Run

/-!
# A session of the editor

Edits, saves and their responses in any order.
-/

namespace ScuffedCrew.Editor

open Rust (Text)
open StateMachine

variable {Scalar : Type}

/-! ## The handlers -/

inductive Edit (Scalar : Type)
  | formatChange (format : TeamFormat)
  | assign (slot : TeamSlot) (heroId : HeroId)
  | clearSlot (slot : TeamSlot)
  | clearAll
  | nameChange (name : Text)
  | visibilityChange (visibility : Visibility)
  | elementAdd (element : StrategyElement Scalar)
  | elementSelect (id : Option Uuid)
  | elementMove (id : Uuid) (position : Position Scalar)
  | elementDragEnd (id : Uuid) (before after : Position Scalar)
  | fieldChange (id : Uuid) (change : FieldChange Scalar)
  | moveUp (id : Uuid)
  | moveDown (id : Uuid)
  | delete (id : Uuid)
  | selectPhase (phase : Option Uuid)
  | addPhase (id : Uuid) (name : Text)
  | deletePhase (id : Uuid)
  | playPause
  | nextPhase
  | prevPhase
  | firstPhase
  | lastPhase
  | playbackTick
  | undo
  | redo
  | chooseMap (mapId : Text)

def Page.perform [BEq Scalar] (page : Page Scalar) : Edit Scalar → Page Scalar
  | .formatChange format => page.changeFormat format
  | .assign slot heroId => page.assignHero slot heroId
  | .clearSlot slot => page.clearSlot slot
  | .clearAll => page.clearAllSlots
  | .nameChange name => page.changeName name
  | .visibilityChange visibility => page.changeVisibility visibility
  | .elementAdd element => page.addElement element
  | .elementSelect id => page.selectElement id
  | .elementMove id position => page.moveElement id position
  | .elementDragEnd id before after => page.elementDragEnd id before after
  | .fieldChange id change => page.updateElementField id change
  | .moveUp id => page.moveUp id
  | .moveDown id => page.moveDown id
  | .delete id => page.deleteElement id
  | .selectPhase phase => page.selectPhase phase
  | .addPhase id name => page.addPhase id name
  | .deletePhase id => page.deletePhase id
  | .playPause => page.changeStrategy .playPause
  | .nextPhase => page.changeStrategy .nextPhase
  | .prevPhase => page.changeStrategy .prevPhase
  | .firstPhase => page.changeStrategy fun strategy => strategy.selectPhaseAt 0
  | .lastPhase => page.changeStrategy fun strategy =>
      strategy.selectPhaseAt (strategy.phases.length - 1)
  | .playbackTick => page.changeStrategy .playbackTick
  | .undo => page.undo
  | .redo => page.redo
  | .chooseMap mapId => page.chooseMap mapId

/-! ## Saving -/

/-- The request of a save.  Its game mode is read off the map. -/
inductive SaveRequest (Scalar : Type)
  | update (id name : Text) (description : Option Text) (visibility : Visibility)
      (elements : List (StrategyElement Scalar)) (phases : List TimelinePhase)
  | create (name : Text) (description : Option Text) (mapId : Text) (subMapId : Option Text)
      (visibility : Visibility) (elements : List (StrategyElement Scalar))
      (phases : List TimelinePhase)

/-- A save in progress. -/
structure Flight (Scalar : Type) where
  snapshot : StrategyState Scalar
  request : SaveRequest Scalar

structure Session (Scalar : Type) where
  page : Page Scalar
  saving : Option (Flight Scalar)

def mapIdForCreate (currentMap : Option Text) : Option Text := currentMap.bind nonemptyId

/-- `none` without a map to create the strategy with. -/
def Page.saveRequest (page : Page Scalar) : Option (SaveRequest Scalar) :=
  let strategy := page.strategy
  match strategy.strategyId with
  | some id =>
      some (.update id strategy.name strategy.description strategy.visibility strategy.elements
        strategy.phases)
  | none =>
      (mapIdForCreate page.canvas.currentMap).map fun mapId =>
        .create strategy.name strategy.description mapId page.canvas.selectedSubMap
          strategy.visibility strategy.elements strategy.phases

namespace Session

variable (session : Session Scalar)

def save : Session Scalar :=
  match session.saving with
  | some _ => session
  | none =>
      match session.page.saveRequest with
      | none => session
      | some request => { session with saving := some ⟨session.page.strategy, request⟩ }

def saved [BEq Scalar] (id ownerId : Text) : Option (Session Scalar) :=
  session.saving.map fun flight =>
    ⟨session.page.changeStrategy fun strategy =>
      (strategy.markSaved flight.snapshot id ownerId).1, none⟩

def saveFailed : Option (Session Scalar) :=
  session.saving.map fun _ => { session with saving := none }

end Session

inductive Event (Scalar : Type)
  | edit (edit : Edit Scalar)
  | save
  | saved (id ownerId : Text)
  | saveFailed

def editing [BEq Scalar] : Machine (Session Scalar) (Event Scalar) where
  next session
    | .edit edit => some { session with page := session.page.perform edit }
    | .save => some session.save
    | .saved id ownerId => session.saved id ownerId
    | .saveFailed => session.saveFailed

end ScuffedCrew.Editor
