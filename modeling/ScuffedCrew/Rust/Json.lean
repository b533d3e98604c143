import ScuffedCrew.Rust.Text

/-!
# JSON values

`serde_json::Value`, over the type of its floats.  An integer is the `u64` or
the negative `i64` it is read as.  The fields of an object stand in a list, the
reading of a text and the compact writing of a value are a parameter.
-/

namespace Rust

inductive Json (φ : Type) where
  | null
  | bool (value : Bool)
  | number (value : ℤ)
  | float (value : φ)
  | string (value : Text)
  | array (items : List (Json φ))
  | object (fields : List (Text × Json φ))

/-- `from_str` and `Value::to_string`. -/
structure JsonCodec (φ : Type) where
  fromStr : Text → Option (Json φ)
  toText : Json φ → Text

/-- What is written is read back, up to the precision of floats. -/
def JsonCodec.RoundTrips {φ : Type} (codec : JsonCodec φ) (value : Json φ) : Prop :=
  codec.fromStr (codec.toText value) = some value

namespace Json

variable {φ : Type}

def asStr : Json φ → Option Text
  | string value => some value
  | _ => none

def asArray : Json φ → Option (List (Json φ))
  | array items => some items
  | _ => none

def asU64 : Json φ → Option ℕ
  | number value => if 0 ≤ value then some value.toNat else none
  | _ => none

/-- `Value::get` with a field's name. -/
def get (value : Json φ) (name : Text) : Option (Json φ) :=
  match value with
  | object fields => (fields.find? fun field => field.1 == name).map Prod.snd
  | _ => none

/-- `value.as_array()?.get(place)`. -/
def item (value : Json φ) (place : ℕ) : Option (Json φ) :=
  value.asArray.bind fun items => items[place]?

end Json

end Rust
