import ScuffedCrew.Rust.Checked
import ScuffedCrew.Rust.Numeric

/-!
# Frames of the screen-cast stream

A buffer of the stream is copied as it is, with its row padding, and turned into
an RGB image row by row.  The image is the one whose samples are the channels of
the pixels in their order; a row is copied whole where its pixels are RGB.
-/

namespace ScuffedCrew.ScreenCast

open Rust Checked

def FMT_RGBX : ℕ := 7
def FMT_BGRX : ℕ := 8
def FMT_XRGB : ℕ := 9
def FMT_XBGR : ℕ := 10
def FMT_RGBA : ℕ := 11
def FMT_BGRA : ℕ := 12
def FMT_ARGB : ℕ := 13
def FMT_ABGR : ℕ := 14
def FMT_RGB : ℕ := 15
def FMT_BGR : ℕ := 16

/-- Where red, green and blue sit in a pixel, and how many bytes it has. -/
structure RgbOrder where
  r : ℕ
  g : ℕ
  b : ℕ
  bpp : ℕ
  r_lt : r < bpp
  g_lt : g < bpp
  b_lt : b < bpp
  bpp_le : 3 ≤ bpp

def rgbOrder (format : ℕ) : Option RgbOrder :=
  if format = FMT_RGB then some ⟨0, 1, 2, 3, by decide, by decide, by decide, by decide⟩
  else if format = FMT_BGR then some ⟨2, 1, 0, 3, by decide, by decide, by decide, by decide⟩
  else if format = FMT_RGBX ∨ format = FMT_RGBA then
    some ⟨0, 1, 2, 4, by decide, by decide, by decide, by decide⟩
  else if format = FMT_BGRX ∨ format = FMT_BGRA then
    some ⟨2, 1, 0, 4, by decide, by decide, by decide, by decide⟩
  else if format = FMT_XRGB ∨ format = FMT_ARGB then
    some ⟨1, 2, 3, 4, by decide, by decide, by decide, by decide⟩
  else if format = FMT_XBGR ∨ format = FMT_ABGR then
    some ⟨3, 2, 1, 4, by decide, by decide, by decide, by decide⟩
  else none

structure FrameClock where
  seq : ℕ
  pts : ℤ

structure PackedFrame where
  format : ℕ
  width : ℕ
  height : ℕ
  stride : ℕ
  bytes : Bytes
  clock : FrameClock
  arrivedMs : ℕ

/-- `RgbImage`: three samples for each pixel. -/
structure RgbImage where
  width : ℕ
  height : ℕ
  samples : Bytes
  sized : samples.length = width * height * 3

def bytesPerPixel (format : ℕ) : Option ℕ := (rgbOrder format).map RgbOrder.bpp

/-- The sizes are words of 32 bits, and `usize` has 64. -/
def pack (format width height stride : ℕ) (src : Bytes) (clock : FrameClock) :
    Option PackedFrame := do
  let bpp ← bytesPerPixel format
  if width = 0 ∨ height = 0 then none
  else
    let row ← checkedMul 32 width bpp
    let stride := if stride = 0 then row else stride
    if stride < row then none
    else
      let need ← checkedMul 64 stride height
      if src.length < need then none
      else some ⟨format, width, height, stride, src.take need, clock, 0⟩

namespace RgbOrder

variable (order : RgbOrder)

/-- The pixels are RGB already. -/
def tight : Bool := order.bpp == 3 && order.r == 0 && order.g == 1 && order.b == 2

/-- The three samples of a pixel. -/
def swizzle (chunk : Bytes) : Except Fault Bytes := do
  let red ← byteAt chunk order.r
  let green ← byteAt chunk order.g
  let blue ← byteAt chunk order.b
  return [red, green, blue]

/-- The chunks of a row go into the pixels of the destination, as far as there are both. -/
def swizzleRow : List Bytes → Bytes → Except Fault Bytes
  | chunk :: chunks, _ :: _ :: _ :: rest => do
      let pixel ← order.swizzle chunk
      let rest ← swizzleRow chunks rest
      return pixel ++ rest
  | _, rest => .ok rest

end RgbOrder

/-- `chunks_exact`. -/
def chunksExact (size : ℕ) (bytes : Bytes) : List Bytes :=
  (List.range (bytes.length / size)).map fun index => (bytes.drop (index * size)).take size

/-- `copy_from_slice` panics when the lengths differ. -/
def copyFromSlice (dst src : Bytes) : Except Fault Bytes :=
  if dst.length = src.length then .ok src else .error .outOfRange

/-- What one row of the destination becomes. -/
def RgbOrder.fillRow (order : RgbOrder) (rowSrc rowDst : Bytes) : Except Fault Bytes :=
  if order.tight then copyFromSlice rowDst rowSrc
  else order.swizzleRow (chunksExact order.bpp rowSrc) rowDst

/-- One row of `copy_rows`. -/
def copyRow (src : Bytes) (stride width : ℕ) (order : RgbOrder) (dst : Bytes) (y : ℕ) :
    Except Fault Bytes := do
  let rowSrc ← slice src (y * stride) (y * stride + width * order.bpp)
  let rowDst ← slice dst (y * width * 3) ((y + 1) * width * 3)
  let row ← order.fillRow rowSrc rowDst
  return dst.take (y * width * 3) ++ row ++ dst.drop ((y + 1) * width * 3)

def copyRows (src dst : Bytes) (height stride width : ℕ) (order : RgbOrder) : Except Fault Bytes :=
  (List.range height).foldlM (copyRow src stride width order) dst

/-- `RgbImage::from_raw`. -/
def fromRaw (width height : ℕ) (buf : Bytes) : Option RgbImage :=
  if sized : buf.length = width * height * 3 then some ⟨width, height, buf, sized⟩ else none

def toRgb (frame : PackedFrame) : Except Fault (Option RgbImage) :=
  match rgbOrder frame.format with
  | none => .ok none
  | some order =>
      let row := frame.width * order.bpp
      if frame.width = 0 ∨ frame.height = 0 ∨ frame.stride < row then .ok none
      else
        let buf := List.replicate (frame.width * frame.height * 3) 0
        if order.tight ∧ frame.stride = row then do
          let whole ← slice frame.bytes 0 (row * frame.height)
          let buf ← copyFromSlice buf whole
          return fromRaw frame.width frame.height buf
        else do
          let buf ← copyRows frame.bytes buf frame.height frame.stride frame.width order
          return fromRaw frame.width frame.height buf

def frameIsBlank (frame : PackedFrame) : Bool :=
  if frame.width = 0 ∨ frame.height = 0 ∨ frame.bytes.isEmpty then true
  else
    match rgbOrder frame.format with
    | none => true
    | some order =>
        (List.range frame.height).all fun y =>
          (List.range frame.width).all fun x =>
            let i := y * frame.stride + x * order.bpp
            [order.r, order.g, order.b].all fun channel =>
              (frame.bytes[i + channel]?).getD 1 == 0

/-- An RGB slice is blank when its samples are all zero, or when it has no area. -/
def isBlankOrEmpty (width height : ℕ) (rgb : Bytes) : Bool :=
  if width = 0 ∨ height = 0 then true
  else
    let samples := saturatingMul 64 (saturatingMul 64 width height) 3
    if samples = 0 ∨ rgb.length < samples then true else (rgb.take samples).all (· == 0)

/-! ## Rows -/

section rows

variable {order : RgbOrder} {src dst row : Bytes} {chunks : List Bytes}
  {size count stride width height : ℕ}

/-- The beginning of a list in pieces of one size. -/
theorem take_mul (bytes : Bytes) (size count : ℕ) : bytes.take (count * size) =
    (List.range count).flatMap fun index => (bytes.drop (index * size)).take size := by
  induction count with
  | zero => simp
  | succ count ih =>
      rw [List.range_succ, List.flatMap_append, ← ih, Nat.succ_mul, List.take_add]
      simp

/-- The three samples of a chunk. -/
def RgbOrder.samples (order : RgbOrder) (chunk : Bytes) : Bytes :=
  [order.r, order.g, order.b].map (chunk.getD · 0)

theorem swizzle_eq {chunk : Bytes} (long : chunk.length = order.bpp) :
    order.swizzle chunk = .ok (order.samples chunk) := by
  have at_index : ∀ index < order.bpp, byteAt chunk index = .ok (chunk.getD index 0) := by
    intro index inside
    rw [byteAt, List.getElem?_eq_getElem (long ▸ inside)]
    simp [List.getD, long ▸ inside]
  rw [RgbOrder.swizzle, at_index _ order.r_lt, at_index _ order.g_lt, at_index _ order.b_lt]
  rfl

theorem swizzleRow_eq (long : ∀ chunk ∈ chunks, chunk.length = order.bpp)
    (fits : dst.length = chunks.length * 3) :
    order.swizzleRow chunks dst = .ok (chunks.flatMap order.samples) := by
  induction chunks generalizing dst with
  | nil =>
      rcases List.eq_nil_of_length_eq_zero (by simpa using fits) with rfl
      rfl
  | cons chunk chunks ih =>
      rcases dst with _ | ⟨first, _ | ⟨second, _ | ⟨third, rest⟩⟩⟩
      · simp at fits
      · simp at fits
        omega
      · simp at fits
        omega
      · have fits' : rest.length = chunks.length * 3 := by
          simp only [List.length_cons] at fits
          omega
        have later :=
          ih (fun other other_mem => long other (List.mem_cons_of_mem _ other_mem)) fits'
        rw [RgbOrder.swizzleRow, swizzle_eq (long chunk List.mem_cons_self), later]
        rfl

theorem length_chunksExact (whole : row.length = count * size) (positive : 0 < size) :
    (chunksExact size row).length = count ∧
      ∀ chunk ∈ chunksExact size row, chunk.length = size := by
  have counted : row.length / size = count := by rw [whole, Nat.mul_div_cancel _ positive]
  constructor
  · simp [chunksExact, counted]
  · intro chunk chunk_mem
    rcases List.mem_map.mp chunk_mem with ⟨index, index_mem, rfl⟩
    have inside : index < count := by simpa [counted] using index_mem
    have room : (index + 1) * size ≤ count * size := Nat.mul_le_mul_right _ inside
    rw [Nat.succ_mul] at room
    rw [List.length_take, List.length_drop]
    omega

/-- A row whose pixels are RGB is the samples of its chunks. -/
theorem tight_row (tight : order.tight = true) (whole : row.length = count * order.bpp) :
    (chunksExact order.bpp row).flatMap order.samples = row := by
  simp only [RgbOrder.tight, Bool.and_eq_true, beq_iff_eq] at tight
  rcases tight with ⟨⟨⟨bpp, r⟩, g⟩, b⟩
  have all := (length_chunksExact whole (by omega)).2
  have same : ∀ chunk ∈ chunksExact order.bpp row, order.samples chunk = chunk := by
    intro chunk chunk_mem
    have three := all chunk chunk_mem
    rw [bpp] at three
    rcases List.length_eq_three.mp three with ⟨red, green, blue, rfl⟩
    simp [RgbOrder.samples, r, g, b]
  rw [List.flatMap_congr same, List.flatMap_id', chunksExact, ← List.flatMap_def, ← take_mul,
    whole, Nat.mul_div_cancel _ (by omega : 0 < order.bpp), ← whole, List.take_length]

/-- The samples of a row of the buffer. -/
def rowSamples (order : RgbOrder) (stride width : ℕ) (src : Bytes) (y : ℕ) : Bytes :=
  (chunksExact order.bpp ((src.drop (y * stride)).take (width * order.bpp))).flatMap order.samples

theorem length_rowSamples {y : ℕ} (inside : y * stride + width * order.bpp ≤ src.length) :
    (rowSamples order stride width src y).length = width * 3 := by
  have whole : ((src.drop (y * stride)).take (width * order.bpp)).length = width * order.bpp := by
    rw [List.length_take, List.length_drop]
    omega
  rw [rowSamples, List.length_flatMap]
  have three : ∀ chunk : Bytes, (order.samples chunk).length = 3 := fun _ => rfl
  simp only [three, List.map_const', List.sum_replicate_nat,
    (length_chunksExact whole (by have := order.r_lt; omega)).1]

/-- A row goes to its place, and leaves the others. -/
theorem copyRow_eq {y : ℕ} {done rest : Bytes}
    (inside : y * stride + width * order.bpp ≤ src.length)
    (before : done.length = y * width * 3) (after : width * 3 ≤ rest.length) :
    copyRow src stride width order (done ++ rest) y =
      .ok (done ++ rowSamples order stride width src y ++ rest.drop (width * 3)) := by
  have next : (y + 1) * width * 3 = y * width * 3 + width * 3 := by
    rw [Nat.succ_mul, Nat.add_mul]
  have whole : ((src.drop (y * stride)).take (width * order.bpp)).length = width * order.bpp := by
    rw [List.length_take, List.length_drop]
    omega
  have source : slice src (y * stride) (y * stride + width * order.bpp) =
      .ok ((src.drop (y * stride)).take (width * order.bpp)) := by
    rw [slice, if_pos ⟨Nat.le_add_right _ _, inside⟩, Nat.add_sub_cancel_left]
  have destination : slice (done ++ rest) (y * width * 3) ((y + 1) * width * 3) =
      .ok (rest.take (width * 3)) := by
    rw [slice, if_pos, next, Nat.add_sub_cancel_left, ← before, List.drop_left]
    rw [List.length_append, next]
    omega
  have room : (rest.take (width * 3)).length = width * 3 := by
    rw [List.length_take]
    omega
  have copied : order.fillRow ((src.drop (y * stride)).take (width * order.bpp))
      (rest.take (width * 3)) = .ok (rowSamples order stride width src y) := by
    have counted := length_chunksExact whole (by have := order.r_lt; omega)
    rw [RgbOrder.fillRow]
    split
    next tight =>
      have three : order.bpp = 3 := by
        simp only [RgbOrder.tight, Bool.and_eq_true, beq_iff_eq] at tight
        exact tight.1.1.1
      rw [copyFromSlice, if_pos (by rw [room, whole, three]), rowSamples, tight_row tight whole]
    next =>
      rw [swizzleRow_eq counted.2 (by rw [room, counted.1])]
      rfl
  rw [copyRow, source, Checked.ok_bind, destination, Checked.ok_bind, copied, Checked.ok_bind, next,
    ← before, List.take_left, List.drop_length_add_append]
  rfl

/-- After some rows, the destination holds their samples and is otherwise as it was. -/
theorem copyRows_prefix (count : ℕ) (fits : count ≤ height) (wide : width * order.bpp ≤ stride)
    (long : stride * height ≤ src.length) :
    (List.range count).foldlM (copyRow src stride width order)
        (List.replicate (width * height * 3) 0) =
      .ok ((List.range count).flatMap (rowSamples order stride width src) ++
        List.replicate ((height - count) * width * 3) 0) := by
  have inside : ∀ y < height, y * stride + width * order.bpp ≤ src.length := by
    intro y below
    have room : (y + 1) * stride ≤ height * stride := Nat.mul_le_mul_right _ below
    rw [Nat.succ_mul, Nat.mul_comm height] at room
    omega
  induction count with
  | zero =>
      simp only [List.range_zero, List.foldlM_nil, List.flatMap_nil, List.nil_append, Nat.sub_zero,
        Nat.mul_comm width]
      rfl
  | succ count ih =>
      have length : ((List.range count).flatMap (rowSamples order stride width src)).length =
          count * width * 3 := by
        rw [List.length_flatMap, List.map_congr_left (g := fun _ => width * 3)]
        · simp [Nat.mul_assoc]
        · intro y y_mem
          exact length_rowSamples (inside y (by have := List.mem_range.mp y_mem; omega))
      have left : (height - count) * width * 3 =
          width * 3 + (height - (count + 1)) * width * 3 := by
        have split : height - count = 1 + (height - (count + 1)) := by omega
        rw [split, Nat.add_mul, Nat.one_mul, Nat.add_mul]
      rw [List.range_succ, List.foldlM_append, ih (by omega), Checked.ok_bind, List.foldlM_cons,
        copyRow_eq (inside count (by omega)) length (by rw [List.length_replicate]; omega),
        Checked.ok_bind, List.foldlM_nil, List.flatMap_append, List.drop_replicate, left,
        Nat.add_sub_cancel_left]
      simp
      rfl

end rows

/-! ## Images -/

/-- The red, green and blue byte of a pixel, nothing where the buffer has ended. -/
def pixel (order : RgbOrder) (stride : ℕ) (src : Bytes) (x y : ℕ) : List (Option UInt8) :=
  [order.r, order.g, order.b].map fun channel => src[y * stride + x * order.bpp + channel]?

section images

variable {order : RgbOrder} {src : Bytes} {stride width height format : ℕ} {clock : FrameClock}
  {frame : PackedFrame} {image : RgbImage}

/-- A row is its pixels. -/
theorem map_rowSamples {y : ℕ} (inside : y * stride + width * order.bpp ≤ src.length) :
    (rowSamples order stride width src y).map some =
      (List.range width).flatMap fun x => pixel order stride src x y := by
  have whole : ((src.drop (y * stride)).take (width * order.bpp)).length = width * order.bpp := by
    rw [List.length_take, List.length_drop]
    omega
  have positive : 0 < order.bpp := by
    have := order.r_lt
    omega
  rw [rowSamples, chunksExact, whole, Nat.mul_div_cancel _ positive, List.map_flatMap,
    List.flatMap_map]
  apply List.flatMap_congr
  intro x x_mem
  have before : (x + 1) * order.bpp ≤ width * order.bpp :=
    Nat.mul_le_mul_right _ (List.mem_range.mp x_mem)
  rw [Nat.succ_mul] at before
  simp only [RgbOrder.samples, pixel, List.map_map]
  apply List.map_congr_left
  intro channel channel_mem
  have small : channel < order.bpp := by
    simp only [List.mem_cons, List.not_mem_nil, or_false] at channel_mem
    rcases channel_mem with rfl | rfl | rfl
    · exact order.r_lt
    · exact order.g_lt
    · exact order.b_lt
  have there : y * stride + x * order.bpp + channel < src.length := by omega
  simp only [Function.comp_apply, List.getD_eq_getElem?_getD, List.getElem?_take,
    List.getElem?_drop]
  rw [if_pos small, if_pos (by omega), ← Nat.add_assoc, List.getElem?_eq_getElem there]
  rfl

/-- What `pack` has checked. -/
structure Packed (format width height stride : ℕ) (src : Bytes) (frame : PackedFrame)
    (order : RgbOrder) (rowBytes : ℕ) : Prop where
  known : rgbOrder format = some order
  rowBytes_eq : rowBytes = if stride = 0 then width * order.bpp else stride
  width_pos : 0 < width
  height_pos : 0 < height
  wide : width * order.bpp ≤ rowBytes
  long : rowBytes * height ≤ src.length
  counted : rowBytes * height ≤ maxValue 64
  format_eq : frame.format = format
  width_eq : frame.width = width
  height_eq : frame.height = height
  stride_eq : frame.stride = rowBytes
  bytes_eq : frame.bytes = src.take (rowBytes * height)

theorem packed_of_pack (packed : pack format width height stride src clock = some frame) :
    ∃ order rowBytes, Packed format width height stride src frame order rowBytes := by
  simp only [pack, Option.bind_eq_bind, Option.bind_eq_some_iff, bytesPerPixel,
    Option.map_eq_some_iff] at packed
  rcases packed with ⟨bpp, ⟨order, known, rfl⟩, packed⟩
  split at packed
  next => cases packed
  next area =>
    rw [not_or] at area
    simp only [Option.bind_eq_some_iff, checkedMul, Option.ite_none_right_eq_some] at packed
    rcases packed with ⟨row, ⟨-, row_eq⟩, packed⟩
    rcases Option.some.inj row_eq with rfl
    generalize given : (if stride = 0 then width * order.bpp else stride) = rowBytes at packed
    split at packed
    next => cases packed
    next wide =>
      simp only [Option.bind_eq_some_iff, Option.ite_none_right_eq_some] at packed
      rcases packed with ⟨need, ⟨counted, need_eq⟩, packed⟩
      rcases Option.some.inj need_eq with rfl
      split at packed
      next => cases packed
      next long =>
        rcases Option.some.inj packed with rfl
        exact ⟨order, rowBytes, known, given.symm, Nat.pos_of_ne_zero area.1,
          Nat.pos_of_ne_zero area.2, Nat.le_of_not_lt wide, Nat.le_of_not_lt long, counted,
          rfl, rfl, rfl, rfl, rfl⟩

namespace Packed

variable {rowBytes : ℕ}

theorem inside {y : ℕ} (packed : Packed format width height stride src frame order rowBytes)
    (below : y < height) :
    y * rowBytes + width * order.bpp ≤ frame.bytes.length := by
  have room : (y + 1) * rowBytes ≤ height * rowBytes := Nat.mul_le_mul_right _ below
  rw [Nat.succ_mul, Nat.mul_comm height] at room
  have wide := packed.wide
  have long := packed.long
  rw [packed.bytes_eq, List.length_take]
  omega

theorem pixel_eq {x y : ℕ} (packed : Packed format width height stride src frame order rowBytes)
    (beside : x < width) (below : y < height) :
    pixel order rowBytes frame.bytes x y = pixel order rowBytes src x y := by
  have room := packed.inside below
  rw [packed.bytes_eq, List.length_take] at room
  have before : (x + 1) * order.bpp ≤ width * order.bpp := Nat.mul_le_mul_right _ beside
  rw [Nat.succ_mul] at before
  apply List.map_congr_left
  intro channel channel_mem
  have small : channel < order.bpp := by
    simp only [List.mem_cons, List.not_mem_nil, or_false] at channel_mem
    rcases channel_mem with rfl | rfl | rfl
    · exact order.r_lt
    · exact order.g_lt
    · exact order.b_lt
  rw [packed.bytes_eq, List.getElem?_take, if_pos (by omega)]

/-- The samples of a packed frame, however the rows are copied. -/
theorem toRgb_eq (packed : Packed format width height stride src frame order rowBytes) :
    ∃ image, toRgb frame = .ok (some image) ∧ image.width = width ∧
    image.height = height ∧
      image.samples =
        (List.range height).flatMap (rowSamples order rowBytes width frame.bytes) := by
  have long : rowBytes * height ≤ frame.bytes.length := by
    rw [packed.bytes_eq, List.length_take]
    have := packed.long
    omega
  have samples := copyRows_prefix height (Nat.le_refl _) packed.wide long
  rw [Nat.sub_self, Nat.zero_mul, Nat.zero_mul, List.replicate_zero, List.append_nil] at samples
  have sized : ((List.range height).flatMap (rowSamples order rowBytes width frame.bytes)).length =
      width * height * 3 := by
    rw [List.length_flatMap, List.map_congr_left (g := fun _ => width * 3)]
    · simp [Nat.mul_left_comm, Nat.mul_assoc]
    · intro y y_mem
      exact length_rowSamples (packed.inside (List.mem_range.mp y_mem))
  refine ⟨⟨width, height, _, sized⟩, ?_, rfl, rfl, rfl⟩
  have fits : ¬(width = 0 ∨ height = 0 ∨ rowBytes < width * order.bpp) := by
    have := packed.width_pos
    have := packed.height_pos
    have := packed.wide
    omega
  simp only [toRgb, packed.format_eq, packed.known, packed.width_eq, packed.height_eq,
    packed.stride_eq, if_neg fits]
  split
  next whole =>
    -- The rows without padding are the whole buffer.
    have three : order.bpp = 3 := by
      have tight := whole.1
      simp only [RgbOrder.tight, Bool.and_eq_true, beq_iff_eq] at tight
      exact tight.1.1.1
    have rows : frame.bytes.take (height * rowBytes) =
        (List.range height).flatMap (rowSamples order rowBytes width frame.bytes) := by
      rw [take_mul]
      apply List.flatMap_congr
      intro y y_mem
      have room := packed.inside (List.mem_range.mp y_mem)
      rw [rowSamples, ← whole.2, tight_row whole.1]
      rw [List.length_take, List.length_drop, ← whole.2]
      omega
    have source : slice frame.bytes 0 (width * order.bpp * height) =
        .ok (frame.bytes.take (height * rowBytes)) := by
      rw [slice, if_pos ⟨Nat.zero_le _, whole.2 ▸ long⟩, List.drop_zero, Nat.sub_zero, ← whole.2,
        Nat.mul_comm]
    rw [source, Checked.ok_bind, copyFromSlice, rows,
      if_pos (by rw [List.length_replicate, sized]), Checked.ok_bind]
    simp [fromRaw, sized]
    rfl
  next =>
    rw [copyRows, samples]
    simp [fromRaw, sized]

end Packed

theorem map_samples_eq (packed : pack format width height stride src clock = some frame) :
    ∃ order rowBytes image, Packed format width height stride src frame order rowBytes ∧
      toRgb frame = .ok (some image) ∧ image.width = width ∧ image.height = height ∧
        image.samples.map some = (List.range height).flatMap fun y =>
          (List.range width).flatMap fun x => pixel order rowBytes frame.bytes x y := by
  rcases packed_of_pack packed with ⟨order, rowBytes, packed⟩
  rcases packed.toRgb_eq with ⟨image, converts, width_eq, height_eq, samples⟩
  refine ⟨order, rowBytes, image, packed, converts, width_eq, height_eq, ?_⟩
  rw [samples, List.map_flatMap]
  apply List.flatMap_congr
  intro y y_mem
  exact map_rowSamples (packed.inside (List.mem_range.mp y_mem))

/-- Every frame that is packed becomes an image of its size, whose samples are the red, green and
blue bytes of the pixels of the source, whatever its stride and the bytes between and after. -/
theorem packed_frames_convert (packed : pack format width height stride src clock = some frame) :
    ∃ order image, rgbOrder format = some order ∧ toRgb frame = .ok (some image) ∧
      image.width = width ∧ image.height = height ∧
        image.samples.map some = (List.range height).flatMap fun y =>
          (List.range width).flatMap fun x =>
            pixel order (if stride = 0 then width * order.bpp else stride) src x y := by
  rcases map_samples_eq packed with
    ⟨order, rowBytes, image, packed, converts, width_eq, height_eq, samples⟩
  refine ⟨order, image, packed.known, converts, width_eq, height_eq, ?_⟩
  rw [samples, ← packed.rowBytes_eq]
  apply List.flatMap_congr
  intro y y_mem
  apply List.flatMap_congr
  intro x x_mem
  exact packed.pixel_eq (List.mem_range.mp x_mem) (List.mem_range.mp y_mem)

/-- A frame that is packed is blank exactly when its image is. -/
theorem blank_frames_are_black (packed : pack format width height stride src clock = some frame) :
    ∃ image, toRgb frame = .ok (some image) ∧
      (frameIsBlank frame = true ↔ ∀ sample ∈ image.samples, sample = 0) ∧
        frameIsBlank frame = isBlankOrEmpty width height image.samples := by
  rcases map_samples_eq packed with
    ⟨order, rowBytes, image, packed, converts, width_eq, height_eq, samples⟩
  have black : (∀ sample ∈ image.samples, sample = 0) ↔
      ∀ found ∈ image.samples.map some, found = some 0 := by
    simp
  have blank_iff : frameIsBlank frame = true ↔ ∀ sample ∈ image.samples, sample = 0 := by
    have some_bytes : frame.bytes.isEmpty = false := by
      have room := packed.inside packed.height_pos
      have positive := Nat.mul_pos packed.width_pos (by have := order.r_lt; omega : 0 < order.bpp)
      rw [List.isEmpty_eq_false_iff, ← List.length_pos_iff]
      omega
    have area : ¬(width = 0 ∨ height = 0 ∨ false = true) := by
      have := packed.width_pos
      have := packed.height_pos
      simp
      omega
    have zero : ∀ found : Option UInt8, (found.getD 1 == 0) = true ↔ found = some 0 := by
      intro found
      cases found <;> simp
    rw [black, samples, frameIsBlank, packed.width_eq, packed.height_eq, some_bytes, if_neg area,
      packed.format_eq, packed.known, packed.stride_eq]
    simp only [List.all_eq_true, zero, List.mem_flatMap, pixel, List.mem_map]
    constructor
    · rintro blank found ⟨y, y_mem, x, x_mem, channel, channel_mem, rfl⟩
      exact blank y y_mem x x_mem channel channel_mem
    · intro blank y y_mem x x_mem channel channel_mem
      exact blank _ ⟨y, y_mem, x, x_mem, channel, channel_mem, rfl⟩
  refine ⟨image, converts, blank_iff, Bool.eq_iff_iff.mpr (blank_iff.trans ?_)⟩
  have exact_size : saturatingMul 64 (saturatingMul 64 width height) 3 = width * height * 3 := by
    have bound : width * height * 3 ≤ maxValue 64 := by
      calc width * height * 3
          = width * 3 * height := Nat.mul_right_comm _ _ _
        _ ≤ width * order.bpp * height :=
            Nat.mul_le_mul_right _ (Nat.mul_le_mul_left _ order.bpp_le)
        _ ≤ rowBytes * height := Nat.mul_le_mul_right _ packed.wide
        _ ≤ maxValue 64 := packed.counted
    have inner : saturatingMul 64 width height = width * height := Nat.min_eq_left (by omega)
    rw [inner, saturatingMul, Nat.min_eq_left bound]
  have sized := image.sized
  rw [width_eq, height_eq] at sized
  rw [isBlankOrEmpty, if_neg (by have := packed.width_pos; have := packed.height_pos; omega),
    exact_size]
  dsimp only
  rw [if_neg, ← sized, List.take_length]
  · simp
  · have := Nat.mul_pos (Nat.mul_pos packed.width_pos packed.height_pos) (by decide : 0 < 3)
    omega

end images

/-- Two pixels of blue, green, red and padding in each row, and four bytes after each row. -/
def paddedFrame : Bytes :=
  [0, 0, 9, 1, 0, 8, 0, 1, 5, 5, 5, 5, 7, 0, 0, 1, 0, 0, 0, 1, 5, 5, 5, 5]

theorem a_padded_frame : ∃ frame image, pack FMT_BGRX 2 2 12 paddedFrame ⟨1, 1⟩ = some frame ∧
    toRgb frame = .ok (some image) ∧
      image.samples.map some = [9, 0, 0, 0, 8, 0, 0, 0, 7, 0, 0, 0].map some := by
  rcases packed_frames_convert (rfl : pack FMT_BGRX 2 2 12 paddedFrame ⟨1, 1⟩ = some _) with
    ⟨order, image, known, converts, -, -, samples⟩
  rcases Option.some.inj known with rfl
  exact ⟨_, image, rfl, converts, samples.trans (by decide)⟩

theorem a_padded_black_frame : ∃ frame image,
    pack FMT_XRGB 1 2 8 [255, 0, 0, 0, 3, 3, 3, 3, 255, 0, 0, 0, 3, 3, 3, 3] ⟨1, 1⟩ = some frame ∧
      toRgb frame = .ok (some image) ∧ ∀ sample ∈ image.samples, sample = 0 := by
  rcases blank_frames_are_black (rfl : pack FMT_XRGB 1 2 8
    [255, 0, 0, 0, 3, 3, 3, 3, 255, 0, 0, 0, 3, 3, 3, 3] ⟨1, 1⟩ = some _) with
    ⟨image, converts, blank, -⟩
  exact ⟨_, image, rfl, converts, blank.mp (by decide)⟩

end ScuffedCrew.ScreenCast
