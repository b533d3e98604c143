import ScuffedCrew.Rust.Serde

/-!
# Patches on the wire

The patches of elements and phases, what applying one does, and what is left of
one that has been written and read as JSON.  Floats and ids are read and written
by other crates.
-/

namespace ScuffedCrew.Collab

open Rust

structure Position (F64 : Type) where
  x : F64
  y : F64

structure Color (F32 : Type) where
  r : UInt8
  g : UInt8
  b : UInt8
  a : F32

inductive IconType
  | skull
  | warning
  | star
  | flag
  | eye
  | shield
  | target
  | question

inductive ElementType (F32 F64 : Type)
  | playerMarker
  | route (points : List (Position F64))
  | area (points : List (Position F64))
  | ability (abilityId : Text)
  | text (content : Text) (fontSize : F32)
  | icon (iconType : IconType)
  | drawing (points : List (Position F64)) (strokeWidth : F32)
  | arrow (finish : Position F64)

structure StrategyElement (F32 F64 Uuid : Type) where
  id : Uuid
  elementType : ElementType F32 F64
  position : Position F64
  heroId : Option Text
  label : Option Text
  color : Color F32
  phaseId : Option Uuid
  zIndex : Int32

structure TimelinePhase (Uuid : Type) where
  id : Uuid
  name : Text
  order : UInt32
  timestamp : Option Text
  description : Option Text

structure ElementPatch (F32 F64 Uuid : Type) where
  position : Option (Position F64)
  heroId : Option (Option Text)
  label : Option (Option Text)
  color : Option (Color F32)
  phaseId : Option (Option Uuid)
  zIndex : Option Int32

structure PhasePatch where
  name : Option Text
  order : Option UInt32
  timestamp : Option (Option Text)
  description : Option (Option Text)

variable {φ F32 F64 Uuid : Type}

def StrategyElement.applyPatch (element : StrategyElement F32 F64 Uuid)
    (patch : ElementPatch F32 F64 Uuid) : StrategyElement F32 F64 Uuid :=
  { element with
    position := patch.position.getD element.position
    heroId := patch.heroId.getD element.heroId
    label := patch.label.getD element.label
    color := patch.color.getD element.color
    phaseId := patch.phaseId.getD element.phaseId
    zIndex := patch.zIndex.getD element.zIndex }

def TimelinePhase.applyPatch (phase : TimelinePhase Uuid) (patch : PhasePatch) :
    TimelinePhase Uuid :=
  { phase with
    name := patch.name.getD phase.name
    order := patch.order.getD phase.order
    timestamp := patch.timestamp.getD phase.timestamp
    description := patch.description.getD phase.description }

/-! ## The wire -/

/-- How the floats and ids are written. -/
structure Leaves (φ F32 F64 Uuid : Type) where
  f32 : Serde φ F32
  f64 : Serde φ F64
  uuid : Serde φ Uuid

section

variable (leaves : Leaves φ F32 F64 Uuid)

def Leaves.position : Serde φ (Position F64) where
  ser position :=
    .object [("x".toList, leaves.f64.ser position.x), ("y".toList, leaves.f64.ser position.y)]
  de value := do
    let x ← Serde.required "x".toList leaves.f64 value
    let y ← Serde.required "y".toList leaves.f64 value
    some ⟨x, y⟩

def Leaves.color : Serde φ (Color F32) where
  ser color :=
    .object [("r".toList, Serde.u8.ser color.r), ("g".toList, Serde.u8.ser color.g),
      ("b".toList, Serde.u8.ser color.b), ("a".toList, leaves.f32.ser color.a)]
  de value := do
    let r ← Serde.required "r".toList Serde.u8 value
    let g ← Serde.required "g".toList Serde.u8 value
    let b ← Serde.required "b".toList Serde.u8 value
    let a ← Serde.required "a".toList leaves.f32 value
    some ⟨r, g, b, a⟩

def Leaves.elementPatch : Serde φ (ElementPatch F32 F64 Uuid) where
  ser patch :=
    .object
      (Serde.skipNone "position".toList leaves.position patch.position ++
        Serde.skipNone "hero_id".toList Serde.text.option patch.heroId ++
        Serde.skipNone "label".toList Serde.text.option patch.label ++
        Serde.skipNone "color".toList leaves.color patch.color ++
        Serde.skipNone "phase_id".toList leaves.uuid.option patch.phaseId ++
        Serde.skipNone "z_index".toList Serde.i32 patch.zIndex)
  de value := do
    let position ← Serde.optional "position".toList leaves.position value
    let heroId ← Serde.optional "hero_id".toList Serde.text.option value
    let label ← Serde.optional "label".toList Serde.text.option value
    let color ← Serde.optional "color".toList leaves.color value
    let phaseId ← Serde.optional "phase_id".toList leaves.uuid.option value
    let zIndex ← Serde.optional "z_index".toList Serde.i32 value
    some ⟨position, heroId, label, color, phaseId, zIndex⟩

def phasePatch : Serde φ PhasePatch where
  ser patch :=
    .object
      (Serde.skipNone "name".toList Serde.text patch.name ++
        Serde.skipNone "order".toList Serde.u32 patch.order ++
        Serde.skipNone "timestamp".toList Serde.text.option patch.timestamp ++
        Serde.skipNone "description".toList Serde.text.option patch.description)
  de value := do
    let name ← Serde.optional "name".toList Serde.text value
    let order ← Serde.optional "order".toList Serde.u32 value
    let timestamp ← Serde.optional "timestamp".toList Serde.text.option value
    let description ← Serde.optional "description".toList Serde.text.option value
    some ⟨name, order, timestamp, description⟩

end

section

variable {leaves : Leaves φ F32 F64 Uuid}

theorem position_reads_iff (position : Position F64) :
    leaves.position.Reads position ↔
      leaves.f64.Reads position.x ∧ leaves.f64.Reads position.y := by
  have written : leaves.position.de (leaves.position.ser position) =
      (leaves.f64.de (leaves.f64.ser position.x)).bind fun x =>
        (leaves.f64.de (leaves.f64.ser position.y)).bind fun y => some ⟨x, y⟩ := by
    simp [Leaves.position, Serde.required, Json.get]
  rw [Serde.Reads, Serde.Reads, Serde.Reads, written]
  rcases position with ⟨x, y⟩
  cases leaves.f64.de (leaves.f64.ser x) with
  | none => simp
  | some x' => cases leaves.f64.de (leaves.f64.ser y) <;> simp

theorem color_reads_iff (color : Color F32) :
    leaves.color.Reads color ↔ leaves.f32.Reads color.a := by
  have written : leaves.color.de (leaves.color.ser color) =
      (leaves.f32.de (leaves.f32.ser color.a)).bind fun a =>
        some ⟨color.r, color.g, color.b, a⟩ := by
    have r : Serde.u8.de (Serde.u8.ser color.r : Json φ) = some color.r :=
      Serde.lossless_u8.reads color.r
    have g : Serde.u8.de (Serde.u8.ser color.g : Json φ) = some color.g :=
      Serde.lossless_u8.reads color.g
    have b : Serde.u8.de (Serde.u8.ser color.b : Json φ) = some color.b :=
      Serde.lossless_u8.reads color.b
    simp [Leaves.color, Serde.required, Json.get, r, g, b]
  rw [Serde.Reads, Serde.Reads, written]
  rcases color with ⟨r, g, b, a⟩
  cases leaves.f32.de (leaves.f32.ser a) <;> simp

theorem elementPatch_de_ser (uuid : leaves.uuid.Lossless) (patch : ElementPatch F32 F64 Uuid) :
    leaves.elementPatch.de (leaves.elementPatch.ser patch) =
      (leaves.position.readBack patch.position).bind fun position =>
        (leaves.color.readBack patch.color).bind fun color =>
          some ⟨position, Serde.collapsed patch.heroId, Serde.collapsed patch.label, color,
            Serde.collapsed patch.phaseId, patch.zIndex⟩ := by
  have position : Serde.optional "position".toList leaves.position
      (leaves.elementPatch.ser patch) = leaves.position.readBack patch.position :=
    Serde.optional_of_get (fun _ => nofun)
      (by simp [Leaves.elementPatch])
  have heroId : Serde.optional "hero_id".toList Serde.text.option
      (leaves.elementPatch.ser patch) = some (Serde.collapsed patch.heroId) :=
    Serde.optional_option_of_lossless Serde.lossless_text
      (by simp [Leaves.elementPatch])
  have label : Serde.optional "label".toList Serde.text.option
      (leaves.elementPatch.ser patch) = some (Serde.collapsed patch.label) :=
    Serde.optional_option_of_lossless Serde.lossless_text
      (by simp [Leaves.elementPatch])
  have color : Serde.optional "color".toList leaves.color
      (leaves.elementPatch.ser patch) = leaves.color.readBack patch.color :=
    Serde.optional_of_get (fun _ => nofun)
      (by simp [Leaves.elementPatch])
  have phaseId : Serde.optional "phase_id".toList leaves.uuid.option
      (leaves.elementPatch.ser patch) = some (Serde.collapsed patch.phaseId) :=
    Serde.optional_option_of_lossless uuid
      (by simp [Leaves.elementPatch])
  have zIndex : Serde.optional "z_index".toList Serde.i32
      (leaves.elementPatch.ser patch) = some patch.zIndex :=
    Serde.optional_of_lossless Serde.lossless_i32
      (by simp [Leaves.elementPatch])
  have read : leaves.elementPatch.de (leaves.elementPatch.ser patch) = (do
      let position ← leaves.position.readBack patch.position
      let heroId ← some (Serde.collapsed patch.heroId)
      let label ← some (Serde.collapsed patch.label)
      let color ← leaves.color.readBack patch.color
      let phaseId ← some (Serde.collapsed patch.phaseId)
      let zIndex ← some patch.zIndex
      some ⟨position, heroId, label, color, phaseId, zIndex⟩) := by
    rw [← position, ← heroId, ← label, ← color, ← phaseId, ← zIndex]
    rfl
  exact read

theorem phasePatch_de_ser (patch : PhasePatch) :
    (phasePatch : Serde φ PhasePatch).de (phasePatch.ser patch) =
      some ⟨patch.name, patch.order, Serde.collapsed patch.timestamp,
        Serde.collapsed patch.description⟩ := by
  have name : Serde.optional "name".toList Serde.text (phasePatch.ser patch : Json φ) =
      some patch.name :=
    Serde.optional_of_lossless Serde.lossless_text
      (by simp [phasePatch])
  have order : Serde.optional "order".toList Serde.u32 (phasePatch.ser patch : Json φ) =
      some patch.order :=
    Serde.optional_of_lossless Serde.lossless_u32
      (by simp [phasePatch])
  have timestamp : Serde.optional "timestamp".toList Serde.text.option
      (phasePatch.ser patch : Json φ) = some (Serde.collapsed patch.timestamp) :=
    Serde.optional_option_of_lossless Serde.lossless_text
      (by simp [phasePatch])
  have description : Serde.optional "description".toList Serde.text.option
      (phasePatch.ser patch : Json φ) = some (Serde.collapsed patch.description) :=
    Serde.optional_option_of_lossless Serde.lossless_text
      (by simp [phasePatch])
  have read : (phasePatch : Serde φ PhasePatch).de (phasePatch.ser patch) = (do
      let name ← some patch.name
      let order ← some patch.order
      let timestamp ← some (Serde.collapsed patch.timestamp)
      let description ← some (Serde.collapsed patch.description)
      some ⟨name, order, timestamp, description⟩) := by
    rw [← name, ← order, ← timestamp, ← description]
    rfl
  exact read

/-! ## What a receiver makes of a patch -/

theorem getD_collapsed_iff {α : Type} {patch : Option (Option α)} {old : Option α} :
    (Serde.collapsed patch).getD old = patch.getD old ↔ (patch = some none → old = none) := by
  match patch with
  | none => simp [Serde.collapsed]
  | some none => simp [Serde.collapsed]
  | some (some value) => simp [Serde.collapsed]

theorem getD_readBack_iff {α : Type} {codec : Serde φ α} {patch : Option α} {old : α} :
    (∃ read, codec.readBack patch = some read ∧ read.getD old = patch.getD old) ↔
      ∀ value ∈ patch, codec.Reads value := by
  cases patch with
  | none => simp [Serde.readBack]
  | some value => simp [Serde.readBack, Serde.Reads]

/-- Every field the patch clears is clear already, and every float it sets is read back. -/
structure ElementPatch.SurvivesFor (leaves : Leaves φ F32 F64 Uuid)
    (patch : ElementPatch F32 F64 Uuid) (element : StrategyElement F32 F64 Uuid) : Prop where
  heroId : patch.heroId = some none → element.heroId = none
  label : patch.label = some none → element.label = none
  phaseId : patch.phaseId = some none → element.phaseId = none
  position : ∀ position ∈ patch.position,
    leaves.f64.Reads position.x ∧ leaves.f64.Reads position.y
  color : ∀ color ∈ patch.color, leaves.f32.Reads color.a

/-- Every field the patch clears is clear already. -/
structure PhasePatch.SurvivesFor (patch : PhasePatch) (phase : TimelinePhase Uuid) : Prop where
  timestamp : patch.timestamp = some none → phase.timestamp = none
  description : patch.description = some none → phase.description = none

theorem element_received_iff (uuid : leaves.uuid.Lossless) (patch : ElementPatch F32 F64 Uuid)
    (element : StrategyElement F32 F64 Uuid) :
    (leaves.elementPatch.de (leaves.elementPatch.ser patch)).map element.applyPatch =
      some (element.applyPatch patch) ↔ patch.SurvivesFor leaves element := by
  rw [elementPatch_de_ser uuid]
  constructor
  · intro same
    rcases Option.map_eq_some_iff.mp same with ⟨received, read, same⟩
    rcases Option.bind_eq_some_iff.mp read with ⟨position, position_read, read⟩
    rcases Option.bind_eq_some_iff.mp read with ⟨color, color_read, read⟩
    rcases Option.some.inj read with rfl
    simp only [StrategyElement.applyPatch, StrategyElement.mk.injEq, true_and, and_true] at same
    rcases same with ⟨position_same, heroId, label, color_same, phaseId⟩
    have position_reads := getD_readBack_iff.mp ⟨position, position_read, position_same⟩
    have color_reads := getD_readBack_iff.mp ⟨color, color_read, color_same⟩
    exact ⟨getD_collapsed_iff.mp heroId, getD_collapsed_iff.mp label,
      getD_collapsed_iff.mp phaseId,
      fun one one_mem => (position_reads_iff one).mp (position_reads one one_mem),
      fun one one_mem => (color_reads_iff one).mp (color_reads one one_mem)⟩
  · rintro ⟨heroId, label, phaseId, position, color⟩
    have position_read : leaves.position.readBack patch.position = some patch.position :=
      Serde.readBack_of_reads fun one one_mem => (position_reads_iff one).mpr (position one one_mem)
    have color_read : leaves.color.readBack patch.color = some patch.color :=
      Serde.readBack_of_reads fun one one_mem => (color_reads_iff one).mpr (color one one_mem)
    rw [position_read, color_read]
    simp only [Option.bind_some, Option.map_some, StrategyElement.applyPatch,
      getD_collapsed_iff.mpr heroId, getD_collapsed_iff.mpr label, getD_collapsed_iff.mpr phaseId]

theorem phase_received_iff (patch : PhasePatch) (phase : TimelinePhase Uuid) :
    ((phasePatch : Serde φ PhasePatch).de (phasePatch.ser patch)).map phase.applyPatch =
      some (phase.applyPatch patch) ↔ patch.SurvivesFor phase := by
  rw [phasePatch_de_ser, Option.map_some, Option.some_inj]
  constructor
  · intro same
    simp only [TimelinePhase.applyPatch, TimelinePhase.mk.injEq, true_and] at same
    rcases same with ⟨timestamp, description⟩
    exact ⟨getD_collapsed_iff.mp timestamp, getD_collapsed_iff.mp description⟩
  · rintro ⟨timestamp, description⟩
    simp only [TimelinePhase.applyPatch, getD_collapsed_iff.mpr timestamp,
      getD_collapsed_iff.mpr description]

/-- A receiver of a patch reaches the sender's state exactly when the patch clears nothing
that is set, and its floats are read back. -/
theorem received_iff_survivesFor (leaves : Leaves φ F32 F64 Uuid) (uuid : leaves.uuid.Lossless) :
    (∀ (patch : ElementPatch F32 F64 Uuid) (element : StrategyElement F32 F64 Uuid),
      (leaves.elementPatch.de (leaves.elementPatch.ser patch)).map element.applyPatch =
        some (element.applyPatch patch) ↔ patch.SurvivesFor leaves element) ∧
    ∀ (patch : PhasePatch) (phase : TimelinePhase Uuid),
      ((phasePatch : Serde φ PhasePatch).de (phasePatch.ser patch)).map phase.applyPatch =
        some (phase.applyPatch patch) ↔ patch.SurvivesFor phase :=
  ⟨element_received_iff uuid, phase_received_iff⟩

end

/-! ## A label that is cleared -/

/-- A float is its literal, and `none` is not a number. -/
def literal : Serde Text (Option Text) where
  ser
    | none => .null
    | some digits => .float digits
  de
    | .float digits => some (some digits)
    | _ => none

def literals : Leaves Text (Option Text) (Option Text) Text := ⟨literal, literal, Serde.text⟩

def marker : StrategyElement (Option Text) (Option Text) Text where
  id := "6f1c1c53-6a3b-4a58-9f5e-7b1d1b1f0c11".toList
  elementType := .playerMarker
  position := ⟨some "1.0".toList, some "2.5".toList⟩
  heroId := none
  label := some "flank".toList
  color := ⟨66, 135, 245, some "1.0".toList⟩
  phaseId := none
  zIndex := 0

def untouched : ElementPatch (Option Text) (Option Text) Text :=
  ⟨none, none, none, none, none, none⟩

def move : ElementPatch (Option Text) (Option Text) Text :=
  { untouched with position := some ⟨some "3.0".toList, some "2.5".toList⟩, heroId := some none }

def clearLabel : ElementPatch (Option Text) (Option Text) Text :=
  { untouched with label := some none }

/-- A marker that is moved, and whose absent hero is cleared, arrives as it was sent. -/
theorem move_received : (literals.elementPatch.de (literals.elementPatch.ser move)).map
    marker.applyPatch = some (marker.applyPatch move) := by
  refine ((received_iff_survivesFor literals Serde.lossless_text).1 move marker).mpr ?_
  refine ⟨fun _ => rfl, nofun, nofun, ?_, nofun⟩
  intro position position_mem
  rcases Option.some.inj position_mem with rfl
  exact ⟨rfl, rfl⟩

/-- A label that is cleared stays on the receiver's board. -/
theorem clearLabel_lost : ¬(literals.elementPatch.de (literals.elementPatch.ser clearLabel)).map
    marker.applyPatch = some (marker.applyPatch clearLabel) := by
  intro same
  have labels := congrArg (Option.map StrategyElement.label) same
  have sent : (some (marker.applyPatch clearLabel)).map StrategyElement.label = some none := rfl
  have received : ((literals.elementPatch.de (literals.elementPatch.ser clearLabel)).map
      marker.applyPatch).map StrategyElement.label = some (some "flank".toList) := rfl
  rw [sent, received] at labels
  cases labels

end ScuffedCrew.Collab
