import ScuffedCrew.Rust.Json

/-!
# Derived serialization

What `serde`'s derives make of a type's fields, over JSON values.  A field of
type `Option` may be missing.  Both a missing field and a `null` are read as
`None`, so what a field that is itself an option writes for `Some(None)` is not
read back.
-/

namespace Rust

/-- A type's `Serialize` and `Deserialize`. -/
structure Serde (φ : Type) (α : Type) where
  ser : α → Json φ
  de : Json φ → Option α

namespace Serde

variable {φ α : Type}

/-- The value is read back from what is written of it. -/
def Reads (codec : Serde φ α) (value : α) : Prop := codec.de (codec.ser value) = some value

/-- Every value is read back, and none is written as `null`. -/
structure Lossless (codec : Serde φ α) : Prop where
  reads : ∀ value, codec.Reads value
  present : ∀ value, codec.ser value ≠ .null

def text : Serde φ Text := ⟨.string, Json.asStr⟩

def u8 : Serde φ UInt8 where
  ser value := .number value.toNat
  de
    | .number value => if 0 ≤ value ∧ value < 256 then some (.ofNat value.toNat) else none
    | _ => none

def u32 : Serde φ UInt32 where
  ser value := .number value.toNat
  de
    | .number value => if 0 ≤ value ∧ value < 4294967296 then some (.ofNat value.toNat) else none
    | _ => none

def i32 : Serde φ Int32 where
  ser value := .number value.toInt
  de
    | .number value =>
        if -2147483648 ≤ value ∧ value < 2147483648 then some (.ofInt value) else none
    | _ => none

def option (codec : Serde φ α) : Serde φ (Option α) where
  ser
    | none => .null
    | some value => codec.ser value
  de
    | .null => some none
    | value => (codec.de value).map some

theorem lossless_text : (text : Serde φ Text).Lossless := ⟨fun _ => rfl, fun _ => nofun⟩

theorem lossless_u8 : (u8 : Serde φ UInt8).Lossless := by
  refine ⟨?_, fun _ => nofun⟩
  intro value
  have inside := value.toNat_lt
  simp [Reads, u8]
  omega

theorem lossless_u32 : (u32 : Serde φ UInt32).Lossless := by
  refine ⟨?_, fun _ => nofun⟩
  intro value
  have inside := value.toNat_lt
  simp [Reads, u32]
  omega

theorem lossless_i32 : (i32 : Serde φ Int32).Lossless := by
  refine ⟨?_, fun _ => nofun⟩
  intro value
  have above := value.le_toInt
  have below := value.toInt_lt
  simp [Reads, i32]
  omega

/-! ## Fields -/

/-- `#[serde(skip_serializing_if = "Option::is_none")]`. -/
def skipNone (name : Text) (codec : Serde φ α) (value : Option α) : List (Text × Json φ) :=
  (value.map fun value => (name, codec.ser value)).toList

def required (name : Text) (codec : Serde φ α) (object : Json φ) : Option α :=
  (object.get name).bind codec.de

/-- A field of type `Option`, which may be missing. -/
def optional (name : Text) (codec : Serde φ α) (object : Json φ) : Option (Option α) :=
  match object.get name with
  | none => some none
  | some value => codec.option.de value

/-- What is read of an optional field that a value was written to. -/
def readBack (codec : Serde φ α) : Option α → Option (Option α)
  | none => some none
  | some value => (codec.de (codec.ser value)).map some

/-- What is left of a patch of an optional field: `Some(None)` is gone. -/
def collapsed : Option (Option α) → Option (Option α)
  | some none => none
  | value => value

@[simp]
theorem get_skipNone_append {name other : Text} {codec : Serde φ α} {value : Option α}
    {rest : List (Text × Json φ)} :
    (Json.object (skipNone other codec value ++ rest)).get name =
      if other = name then (value.map codec.ser).or ((Json.object rest).get name)
      else (Json.object rest).get name := by
  by_cases same : other = name
  · cases value <;> simp [Json.get, skipNone, same]
  · cases value <;> simp [Json.get, skipNone, same]

@[simp]
theorem get_skipNone {name other : Text} {codec : Serde φ α} {value : Option α} :
    (Json.object (skipNone other codec value)).get name =
      if other = name then value.map codec.ser else none := by
  have alone := @get_skipNone_append φ α name other codec value []
  simpa [Json.get] using alone

theorem option_de_ser {codec : Serde φ α} {value : α} (present : codec.ser value ≠ .null) :
    codec.option.de (codec.ser value) = (codec.de (codec.ser value)).map some := by
  cases written : codec.ser value with
  | null => exact absurd written present
  | _ => rfl

variable {name : Text} {codec : Serde φ α} {object : Json φ}

theorem optional_of_get {value : Option α} (present : ∀ value, codec.ser value ≠ .null)
    (found : object.get name = value.map codec.ser) :
    optional name codec object = codec.readBack value := by
  rw [optional, found]
  cases value with
  | none => rfl
  | some value => exact option_de_ser (present value)

theorem readBack_of_reads {value : Option α} (reads : ∀ one ∈ value, codec.Reads one) :
    codec.readBack value = some value := by
  cases value with
  | none => rfl
  | some value =>
      rw [readBack, show codec.de (codec.ser value) = some value from reads value rfl]
      rfl

theorem optional_of_lossless {value : Option α} (lossless : codec.Lossless)
    (found : object.get name = value.map codec.ser) : optional name codec object = some value := by
  rw [optional_of_get lossless.present found]
  exact readBack_of_reads fun one _ => lossless.reads one

/-- A field that is an option of an option reads back what it says, but not that it is cleared. -/
theorem optional_option_of_lossless {value : Option (Option α)} (lossless : codec.Lossless)
    (found : object.get name = value.map codec.option.ser) :
    optional name codec.option object = some (collapsed value) := by
  rw [optional, found]
  match value with
  | none => rfl
  | some none => rfl
  | some (some value) =>
      have read : codec.option.de (codec.ser value) = some (some value) := by
        rw [option_de_ser (lossless.present value),
          show codec.de (codec.ser value) = some value from lossless.reads value]
        rfl
      have present : codec.option.option.de (codec.ser value) =
          (codec.option.de (codec.ser value)).map some :=
        @option_de_ser φ (Option α) codec.option (some value) (lossless.present value)
      exact Eq.trans present (by rw [read]; rfl)

end Serde

end Rust
