import ScuffedCrew.Rust.Checked

/-!
# Pods of the screen-cast stream

The encoder that lays out SPA pods by hand, the properties that its callers
write, and the parser of a negotiated Format pod.
-/

namespace ScuffedCrew.ScreenCast

open Rust

def SPA_TYPE_ID : UInt32 := 3
def SPA_TYPE_INT : UInt32 := 4
def SPA_TYPE_RECTANGLE : UInt32 := 10
def SPA_TYPE_FRACTION : UInt32 := 11
def SPA_TYPE_OBJECT : UInt32 := 15
def SPA_TYPE_CHOICE : UInt32 := 19

def SPA_CHOICE_NONE : UInt32 := 0
def SPA_CHOICE_RANGE : UInt32 := 1

def SPA_PARAM_ENUM_FORMAT : UInt32 := 3
def SPA_PARAM_FORMAT : UInt32 := 4

def SPA_FORMAT_VIDEO_FORMAT : UInt32 := 0x20001
def SPA_FORMAT_VIDEO_SIZE : UInt32 := 0x20003
def SPA_FORMAT_VIDEO_FRAMERATE : UInt32 := 0x20004
def SPA_FORMAT_VIDEO_MAX_FRAMERATE : UInt32 := 0x20005

def SPA_TYPE_OBJECT_FORMAT : UInt32 := 0x40003

/-! ## Encoding -/

structure PodBuf where
  bytes : Bytes

namespace PodBuf

variable (pod : PodBuf)

def new : PodBuf := ⟨[]⟩

def u32 (v : UInt32) : PodBuf := ⟨pod.bytes ++ toLeBytes v⟩

def i32 (v : Int32) : PodBuf := ⟨pod.bytes ++ toLeBytes v.toUInt32⟩

def align (pod : PodBuf) : PodBuf :=
  if pod.bytes.length % 8 = 0 then pod else align ⟨pod.bytes ++ [0]⟩
termination_by (8 - pod.bytes.length % 8) % 8
decreasing_by
  simp only [List.length_append, List.length_singleton]
  omega

/-- The buffer and the position of the size that `finish` fills in. -/
def begin (ty : UInt32) : PodBuf × ℕ := ((pod.u32 0).u32 ty, pod.bytes.length)

/-- `end`. -/
def finish (start : ℕ) : PodBuf :=
  let body := UInt32.ofNat (pod.bytes.length - start - 8)
  align ⟨pod.bytes.take start ++ toLeBytes body ++ pod.bytes.drop (start + 4)⟩

def id (value : UInt32) : PodBuf :=
  let (pod, start) := pod.begin SPA_TYPE_ID
  (pod.u32 value).finish start

def int (value : Int32) : PodBuf :=
  let (pod, start) := pod.begin SPA_TYPE_INT
  (pod.i32 value).finish start

def fraction (num den : UInt32) : PodBuf :=
  let (pod, start) := pod.begin SPA_TYPE_FRACTION
  ((pod.u32 num).u32 den).finish start

/-- The rectangle that `fixed_format_pod` writes. -/
def rectangle (width height : UInt32) : PodBuf :=
  let (pod, start) := pod.begin SPA_TYPE_RECTANGLE
  ((pod.u32 width).u32 height).finish start

def propPod (key : UInt32) (write : PodBuf → PodBuf) : PodBuf := write ((pod.u32 key).u32 0)

def choice (kind childType childSize : UInt32) (words : List UInt32) : PodBuf :=
  let (pod, start) := pod.begin SPA_TYPE_CHOICE
  let pod := (((pod.u32 kind).u32 0).u32 childSize).u32 childType
  (words.foldl u32 pod).finish start

end PodBuf

/-- A value of a property. -/
inductive Value
  | id (value : UInt32)
  | int (value : Int32)
  | rectangle (width height : UInt32)
  | fraction (num den : UInt32)

namespace Value

def ty : Value → UInt32
  | id _ => SPA_TYPE_ID
  | int _ => SPA_TYPE_INT
  | rectangle _ _ => SPA_TYPE_RECTANGLE
  | fraction _ _ => SPA_TYPE_FRACTION

def words : Value → List UInt32
  | id value => [value]
  | int value => [value.toUInt32]
  | rectangle width height => [width, height]
  | fraction num den => [num, den]

def size : Value → UInt32
  | id _ => 4
  | int _ => 4
  | rectangle _ _ => 8
  | fraction _ _ => 8

def write : Value → PodBuf → PodBuf
  | id value, pod => pod.id value
  | int value, pod => pod.int value
  | rectangle width height, pod => pod.rectangle width height
  | fraction num den, pod => pod.fraction num den

end Value

/-- A value on its own, or as the first of a Choice. -/
inductive Wrapped
  | plain (value : Value)
  | choice (kind : UInt32) (value : Value) (more : List UInt32)

namespace Wrapped

def value : Wrapped → Value
  | plain value => value
  | choice _ value _ => value

def write : Wrapped → PodBuf → PodBuf
  | plain value, pod => value.write pod
  | choice kind value more, pod => pod.choice kind value.ty value.size (value.words ++ more)

end Wrapped

structure Property where
  key : UInt32
  wrapped : Wrapped

/-- An object pod with the header of a format. -/
def formatPod (param : UInt32) (properties : List Property) : Bytes :=
  let (pod, start) := PodBuf.new.begin SPA_TYPE_OBJECT
  let pod := (pod.u32 SPA_TYPE_OBJECT_FORMAT).u32 param
  let pod := properties.foldl (fun pod property => pod.propPod property.key property.wrapped.write)
    pod
  (pod.finish start).bytes

def kwinNegotiatedFormatPod (format width height maxFps : UInt32) : Bytes :=
  formatPod SPA_PARAM_FORMAT
    [⟨SPA_FORMAT_VIDEO_FORMAT, .choice SPA_CHOICE_NONE (.id format) []⟩,
      ⟨SPA_FORMAT_VIDEO_SIZE, .choice SPA_CHOICE_NONE (.rectangle width height) []⟩,
      ⟨SPA_FORMAT_VIDEO_FRAMERATE, .choice SPA_CHOICE_NONE (.fraction 0 1) []⟩,
      ⟨SPA_FORMAT_VIDEO_MAX_FRAMERATE,
        .choice SPA_CHOICE_RANGE (.fraction maxFps 1) [0, 1, 60, 1]⟩]

def fixedFormatPod (format width height : UInt32) : Bytes :=
  formatPod SPA_PARAM_FORMAT
    [⟨SPA_FORMAT_VIDEO_FORMAT, .plain (.id format)⟩,
      ⟨SPA_FORMAT_VIDEO_SIZE, .plain (.rectangle width height)⟩]

/-! ## Parsing -/

structure VideoInfo where
  format : UInt32
  width : UInt32
  height : UInt32
deriving DecidableEq

def align8 (n : ℕ) : ℕ := (n + 7) / 8 * 8

def readU32 (bytes : Bytes) (start : ℕ) : Except Fault (Option UInt32) :=
  match getRange bytes start (start + 4) with
  | none => .ok none
  | some b => do
      let first ← byteAt b 0
      let second ← byteAt b 1
      let third ← byteAt b 2
      let fourth ← byteAt b 3
      return some (fromLeBytes first second third fourth)

def propValue (bytes : Bytes) (body podSize : ℕ) (podTy : UInt32) :
    Except Fault (Option (UInt32 × ℕ)) := do
  if podTy ≠ SPA_TYPE_CHOICE then return some (podTy, body)
  if podSize < 16 then return none
  let some childSize ← readU32 bytes (body + 8) | return none
  let some childTy ← readU32 bytes (body + 12) | return none
  let valueAt := body + 16
  if childSize = 0 ∨ valueAt + childSize.toNat > bytes.length then return none
  return some (childTy, valueAt)

/-- What the loop has met: the `format`, the `width` and the `height`. -/
structure Found where
  format : Option UInt32 := none
  width : Option UInt32 := none
  height : Option UInt32 := none

def Found.noteFormat (found : Found) (bytes : Bytes) (key valueTy : UInt32) (valueAt : ℕ) :
    Except Fault Found := do
  if valueTy = SPA_TYPE_ID ∧ key = SPA_FORMAT_VIDEO_FORMAT then
    return { found with format := ← readU32 bytes valueAt }
  return found

def Found.noteSize (found : Found) (bytes : Bytes) (key valueTy : UInt32) (valueAt : ℕ) :
    Except Fault Found := do
  if valueTy = SPA_TYPE_RECTANGLE ∧ key = SPA_FORMAT_VIDEO_SIZE then
    return { found with width := ← readU32 bytes valueAt, height := ← readU32 bytes (valueAt + 4) }
  return found

/-- The loop; `none` is its early return. -/
def properties (bytes : Bytes) (stop : ℕ) : ℕ → ℕ → Found → Except Fault (Option Found)
  | 0, _, _ => .error .outOfFuel
  | fuel + 1, off, found =>
    if off + 8 ≤ stop then do
      let some key ← readU32 bytes off | return none
      let off := off + 8
      if off + 8 > stop then return some found
      let some podSize ← readU32 bytes off | return none
      let some podTy ← readU32 bytes (off + 4) | return none
      let body := off + 8
      let next := align8 (body + podSize.toNat)
      if next > bytes.length then return some found
      match ← propValue bytes body podSize.toNat podTy with
      | none => properties bytes stop fuel next found
      | some (valueTy, valueAt) =>
          let found ← found.noteFormat bytes key valueTy valueAt
          let found ← found.noteSize bytes key valueTy valueAt
          properties bytes stop fuel next found
    else return some found

def parseFormatPod (bytes : Bytes) : Except Fault (Option VideoInfo) := do
  if bytes.length < 16 then return none
  let some size ← readU32 bytes 0 | return none
  let some ty ← readU32 bytes 4 | return none
  if ty ≠ SPA_TYPE_OBJECT ∨ bytes.length < 8 + size.toNat then return none
  let some objTy ← readU32 bytes 8 | return none
  let some id ← readU32 bytes 12 | return none
  if objTy ≠ SPA_TYPE_OBJECT_FORMAT ∨ (id ≠ SPA_PARAM_FORMAT ∧ id ≠ SPA_PARAM_ENUM_FORMAT) then
    return none
  let some found ← properties bytes (8 + size.toNat) (bytes.length + 1) 16 {} | return none
  return found.format.map fun format => ⟨format, found.width.getD 0, found.height.getD 0⟩

end ScuffedCrew.ScreenCast
