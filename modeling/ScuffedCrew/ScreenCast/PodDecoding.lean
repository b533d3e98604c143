import ScuffedCrew.ScreenCast.PodLayout

/-!
# Decoding what was encoded

The parser takes from a format pod the last format and the last size that the
encoder wrote, as long as the size of the pod fits its field.
-/

namespace ScuffedCrew.ScreenCast

open Rust Checked

/-! ## What a pod says -/

namespace Property

variable (property : Property)

/-- The value of a format property. -/
def format? : Option UInt32 :=
  match property.wrapped.value with
  | .id value => if property.key = SPA_FORMAT_VIDEO_FORMAT then some value else none
  | _ => none

/-- The value of a size property. -/
def size? : Option (UInt32 × UInt32) :=
  match property.wrapped.value with
  | .rectangle width height =>
      if property.key = SPA_FORMAT_VIDEO_SIZE then some (width, height) else none
  | _ => none

end Property

def lastFormat (properties : List Property) : Option UInt32 :=
  (properties.filterMap Property.format?).getLast?

def lastSize (properties : List Property) : Option (UInt32 × UInt32) :=
  (properties.filterMap Property.size?).getLast?

/-- The last format and the last size of the properties. -/
def described (properties : List Property) : Option VideoInfo :=
  (lastFormat properties).map fun format =>
    ⟨format, ((lastSize properties).map Prod.fst).getD 0,
      ((lastSize properties).map Prod.snd).getD 0⟩

/-- What the loop makes of a property. -/
def Found.absorb (found : Found) (property : Property) : Found where
  format := property.format?.or found.format
  width := (property.size?.map Prod.fst).or found.width
  height := (property.size?.map Prod.snd).or found.height

theorem foldl_absorb (properties : List Property) (found : Found) :
    properties.foldl Found.absorb found =
      { format := (lastFormat properties).or found.format
        width := ((lastSize properties).map Prod.fst).or found.width
        height := ((lastSize properties).map Prod.snd).or found.height } := by
  induction properties generalizing found with
  | nil => rfl
  | cons property properties ih =>
      have formats : lastFormat (property :: properties) =
          (lastFormat properties).or property.format? := by
        cases h : property.format? with
        | none => simp [lastFormat, h]
        | some format => simp [lastFormat, h, List.getLast?_cons]
      have sizes : lastSize (property :: properties) =
          (lastSize properties).or property.size? := by
        cases h : property.size? with
        | none => simp [lastSize, h]
        | some size => simp [lastSize, h, List.getLast?_cons]
      rw [List.foldl_cons, ih, formats, sizes]
      simp only [Found.absorb, Option.or_assoc]
      cases lastSize properties <;> simp

/-! ## One property -/

theorem Value.ty_ne_choice (value : Value) : value.ty ≠ SPA_TYPE_CHOICE := by
  cases value <;>
    simp [ty, SPA_TYPE_ID, SPA_TYPE_INT, SPA_TYPE_RECTANGLE, SPA_TYPE_FRACTION, SPA_TYPE_CHOICE]

theorem Value.ty_eq_id (value : Value) (is_id : value.ty = SPA_TYPE_ID) :
    ∃ word, value = .id word := by
  cases value with
  | id word => exact ⟨word, rfl⟩
  | int _ | rectangle _ _ | fraction _ _ =>
      simp [ty, SPA_TYPE_ID, SPA_TYPE_INT, SPA_TYPE_RECTANGLE, SPA_TYPE_FRACTION] at is_id

theorem Value.ty_eq_rectangle (value : Value) (is_rectangle : value.ty = SPA_TYPE_RECTANGLE) :
    ∃ width height, value = .rectangle width height := by
  cases value with
  | rectangle width height => exact ⟨width, height, rfl⟩
  | int _ | id _ | fraction _ _ =>
      simp [ty, SPA_TYPE_ID, SPA_TYPE_INT, SPA_TYPE_RECTANGLE, SPA_TYPE_FRACTION] at is_rectangle

theorem Value.size_ne_zero (value : Value) : value.size ≠ 0 := by
  cases value <;> simp [size]

namespace Wrapped

/-- The word of a property pod at which its value starts. -/
def valueWord : Wrapped → ℕ
  | plain _ => 4
  | choice _ _ _ => 8

end Wrapped

namespace Property

variable (property : Property)

/-- The words of a property but for the padding. -/
def pieces : List UInt32 :=
  [property.key, 0, UInt32.ofNat (4 * property.wrapped.words.length), property.wrapped.ty] ++
    property.wrapped.words

theorem encode_eq : property.encode = wordBytes property.pieces ++
    List.replicate (padding (4 * property.wrapped.words.length)) 0 := by
  simp only [encode, frame, body, pieces, length_wordBytes]
  simp [wordBytes]

theorem pieces_value {index : ℕ} {word : UInt32}
    (at_index : property.wrapped.value.words[index]? = some word) :
    property.pieces[property.wrapped.valueWord + index]? = some word := by
  rcases property with ⟨key, wrapped⟩
  cases wrapped with
  | plain value =>
      have here : value.words[index]? = some word := at_index
      simpa [pieces, Wrapped.valueWord, Wrapped.words, Nat.add_comm 4 index] using here
  | choice kind value more =>
      have here : value.words[index]? = some word := at_index
      have first : (value.words ++ more)[index]? = some word := by
        rcases List.getElem?_eq_some_iff.mp here with ⟨inside, -⟩
        rw [List.getElem?_append_left inside, here]
      simpa [pieces, Wrapped.valueWord, Wrapped.words, Nat.add_comm 8 index] using first

end Property

section property

variable {bytes before after : Bytes} {property : Property}

theorem readU32_word {words : List UInt32} {index : ℕ} {word : UInt32}
    (split : bytes = before ++ (wordBytes words ++ after)) (at_index : words[index]? = some word) :
    readU32 bytes (before.length + 4 * index) = .ok (some word) := by
  rcases List.getElem?_eq_some_iff.mp at_index with ⟨inside, rfl⟩
  apply readU32_of_append (before ++ wordBytes (words.take index))
    (wordBytes (words.drop (index + 1)) ++ after)
  · have cut : wordBytes words = wordBytes (words.take index) ++
        (toLeBytes words[index] ++ wordBytes (words.drop (index + 1))) := by
      calc
        wordBytes words = wordBytes (words.take index ++ words[index] :: words.drop (index + 1)) := by
          rw [← List.drop_eq_getElem_cons inside, List.take_append_drop]
        _ = _ := by simp only [wordBytes, List.flatMap_append, List.flatMap_cons]
    rw [split, cut]
    simp
  · simp
    omega

variable (split : bytes = before ++ (property.encode ++ after))

include split

theorem readU32_piece {index : ℕ} {word : UInt32} (at_index : property.pieces[index]? = some word) :
    readU32 bytes (before.length + 4 * index) = .ok (some word) := by
  rw [property.encode_eq, List.append_assoc] at split
  exact readU32_word split at_index

theorem propValue_encode :
    propValue bytes (before.length + 16) (4 * property.wrapped.words.length) property.wrapped.ty =
      .ok (some (property.wrapped.value.ty, before.length + 4 * property.wrapped.valueWord)) := by
  rcases property with ⟨key, wrapped⟩
  cases wrapped with
  | plain value =>
      have not_choice := value.ty_ne_choice
      simp [propValue, Wrapped.ty, Wrapped.value, Wrapped.valueWord, not_choice]
      rfl
  | choice kind value more =>
      have size_read : readU32 bytes (before.length + 4 * 6) = .ok (some value.size) :=
        readU32_piece split rfl
      have ty_read : readU32 bytes (before.length + 4 * 7) = .ok (some value.ty) :=
        readU32_piece split rfl
      have long : ¬4 * (Wrapped.choice kind value more).words.length < 16 := by
        simp [Wrapped.words]
        omega
      have some_bytes := value.size_ne_zero
      have inside : ¬before.length + 16 + 16 + value.size.toNat > bytes.length := by
        have value_size : value.size.toNat = 4 * value.words.length := by
          cases value <;> rfl
        rw [split, value_size]
        simp [length_encode, Wrapped.words, align8]
        omega
      simp [propValue, Wrapped.ty, Wrapped.value, Wrapped.valueWord, long, size_read, ty_read,
        some_bytes, inside]
      rfl

/-- The value is read where it stands. -/
theorem readU32_value {index : ℕ} {word : UInt32}
    (at_index : property.wrapped.value.words[index]? = some word) :
    readU32 bytes (before.length + 4 * property.wrapped.valueWord + 4 * index) = .ok (some word) := by
  rw [Nat.add_assoc, ← Nat.mul_add]
  exact readU32_piece split (property.pieces_value at_index)

theorem noteFormat_encode (found : Found) :
    found.noteFormat bytes property.key property.wrapped.value.ty
      (before.length + 4 * property.wrapped.valueWord) =
        .ok { found with format := property.format?.or found.format } := by
  by_cases format : property.wrapped.value.ty = SPA_TYPE_ID ∧ property.key = SPA_FORMAT_VIDEO_FORMAT
  · rcases property.wrapped.value.ty_eq_id format.1 with ⟨value, value_eq⟩
    have read : readU32 bytes (before.length + 4 * property.wrapped.valueWord) = .ok (some value) :=
      @readU32_value _ _ _ _ split 0 value (by rw [value_eq]; rfl)
    rw [Found.noteFormat, if_pos format, Property.format?, value_eq]
    simp [read, format.2]
  · have no_format : property.format? = none := by
      cases value_eq : property.wrapped.value with
      | id value =>
          have other_key : property.key ≠ SPA_FORMAT_VIDEO_FORMAT := by
            intro same
            exact format ⟨by rw [value_eq]; rfl, same⟩
          simp [Property.format?, value_eq, other_key]
      | int value | rectangle width height | fraction num den =>
          simp [Property.format?, value_eq]
    rw [Found.noteFormat, if_neg format, no_format]
    rfl

theorem noteSize_encode (found : Found) :
    found.noteSize bytes property.key property.wrapped.value.ty
      (before.length + 4 * property.wrapped.valueWord) =
        .ok { found with
          width := (property.size?.map Prod.fst).or found.width
          height := (property.size?.map Prod.snd).or found.height } := by
  by_cases size : property.wrapped.value.ty = SPA_TYPE_RECTANGLE ∧
      property.key = SPA_FORMAT_VIDEO_SIZE
  · rcases property.wrapped.value.ty_eq_rectangle size.1 with ⟨width, height, value_eq⟩
    have width_read : readU32 bytes (before.length + 4 * property.wrapped.valueWord) =
        .ok (some width) :=
      @readU32_value _ _ _ _ split 0 width (by rw [value_eq]; rfl)
    have height_read := @readU32_value _ _ _ _ split 1 height (by rw [value_eq]; rfl)
    rw [Found.noteSize, if_pos size, Property.size?, value_eq]
    simp [width_read, height_read, size.2]
  · have no_size : property.size? = none := by
      cases value_eq : property.wrapped.value with
      | rectangle width height =>
          have other_key : property.key ≠ SPA_FORMAT_VIDEO_SIZE := by
            intro same
            exact size ⟨by rw [value_eq]; rfl, same⟩
          simp [Property.size?, value_eq, other_key]
      | int value | id value | fraction num den =>
          simp [Property.size?, value_eq]
    rw [Found.noteSize, if_neg size, no_size]
    rfl

theorem properties_encode (small : 4 * property.wrapped.words.length < 2 ^ 32)
    (aligned : 8 ∣ before.length) (fuel : ℕ) (found : Found) :
    properties bytes bytes.length (fuel + 1) before.length found =
      properties bytes bytes.length fuel (before ++ property.encode).length
        (found.absorb property) := by
  have long : before.length + 16 + align8 (4 * property.wrapped.words.length) ≤ bytes.length := by
    rw [split]
    simp [length_encode]
    omega
  have size : (UInt32.ofNat (4 * property.wrapped.words.length)).toNat =
      4 * property.wrapped.words.length := by
    simpa using small
  have key_read : readU32 bytes before.length = .ok (some property.key) :=
    @readU32_piece _ _ _ _ split 0 _ rfl
  have size_read : readU32 bytes (before.length + 8) =
      .ok (some (UInt32.ofNat (4 * property.wrapped.words.length))) :=
    @readU32_piece _ _ _ _ split 2 _ rfl
  have ty_read : readU32 bytes (before.length + 12) = .ok (some property.wrapped.ty) :=
    @readU32_piece _ _ _ _ split 3 _ rfl
  have next : align8 (before.length + 16 + 4 * property.wrapped.words.length) =
      before.length + 16 + align8 (4 * property.wrapped.words.length) := by
    rw [align8, align8]
    omega
  have before_stop : before.length + 8 ≤ bytes.length := by omega
  have pod_before_stop : ¬before.length + 8 + 8 > bytes.length := by omega
  have inside : ¬before.length + 16 + align8 (4 * property.wrapped.words.length) > bytes.length := by
    omega
  have value_read : propValue bytes (before.length + 8 + 8) (4 * property.wrapped.words.length)
      property.wrapped.ty =
        .ok (some (property.wrapped.value.ty, before.length + 4 * property.wrapped.valueWord)) :=
    propValue_encode split
  have off : (before ++ property.encode).length =
      before.length + 16 + align8 (4 * property.wrapped.words.length) := by
    rw [List.length_append, length_encode, Nat.add_assoc]
  rw [properties, if_pos before_stop, off]
  simp only [key_read, Checked.ok_bind, pod_before_stop, size_read, ty_read, size, next, inside,
    if_false, value_read, noteFormat_encode split, noteSize_encode split]
  rfl

end property

/-! ## A whole pod -/

theorem properties_flatMap {bytes before : Bytes} (rest : List Property)
    (split : bytes = before ++ rest.flatMap Property.encode) (aligned : 8 ∣ before.length)
    (small : bytes.length < 2 ^ 32 + 8) {fuel : ℕ} (enough : rest.length < fuel) (found : Found) :
    properties bytes bytes.length fuel before.length found =
      .ok (some (rest.foldl Found.absorb found)) := by
  induction rest generalizing before fuel found with
  | nil =>
      cases fuel with
      | zero => omega
      | succ fuel =>
          have at_stop : ¬before.length + 8 ≤ bytes.length := by
            rw [split]
            simp
          rw [properties, if_neg at_stop]
          rfl
  | cons property rest ih =>
      cases fuel with
      | zero => omega
      | succ fuel =>
          rw [List.flatMap_cons] at split
          have fits : 4 * property.wrapped.words.length < 2 ^ 32 := by
            have total : bytes.length = before.length + (property.encode.length +
                (rest.flatMap Property.encode).length) := by
              rw [split, List.length_append, List.length_append]
            rw [length_encode, align8] at total
            omega
          have still_aligned : 8 ∣ (before ++ property.encode).length := by
            rw [List.length_append]
            exact Nat.dvd_add aligned (dvd_length_encode property)
          rw [properties_encode split fits aligned, List.foldl_cons]
          apply ih (by rw [split, List.append_assoc]) still_aligned
          simpa using enough

theorem length_le_flatMap (properties : List Property) :
    properties.length ≤ (properties.flatMap Property.encode).length := by
  induction properties with
  | nil => simp
  | cons property properties ih =>
      rw [List.flatMap_cons, List.length_append, List.length_cons, length_encode]
      omega

section formats

variable {param : UInt32} (properties : List Property)

theorem length_formatPod :
    (formatPod param properties).length = 8 + (objectBody param properties).length := by
  simp only [formatPod_eq, List.length_append, length_toLeBytes]
  omega

theorem formatPod_words : formatPod param properties =
    wordBytes [UInt32.ofNat (objectBody param properties).length, SPA_TYPE_OBJECT,
      SPA_TYPE_OBJECT_FORMAT, param] ++ properties.flatMap Property.encode := by
  simp only [formatPod_eq, objectBody, wordBytes]
  simp

/-- The parser finds the header of a format pod and goes to its properties. -/
theorem parseFormatPod_header
    (header : param = SPA_PARAM_FORMAT ∨ param = SPA_PARAM_ENUM_FORMAT) {found : Found}
    (scanned : ScreenCast.properties (formatPod param properties)
      (8 + (objectBody param properties).length % 2 ^ 32) ((formatPod param properties).length + 1)
      16 {} = .ok (some found)) :
    parseFormatPod (formatPod param properties) =
      .ok (found.format.map fun format => ⟨format, found.width.getD 0, found.height.getD 0⟩) := by
  have from_start : formatPod param properties = [] ++ (wordBytes
      [UInt32.ofNat (objectBody param properties).length, SPA_TYPE_OBJECT, SPA_TYPE_OBJECT_FORMAT,
        param] ++ properties.flatMap Property.encode) :=
    formatPod_words properties
  have size_read : readU32 (formatPod param properties) 0 =
      .ok (some (UInt32.ofNat (objectBody param properties).length)) :=
    @readU32_word _ _ _ _ 0 _ from_start rfl
  have ty_read : readU32 (formatPod param properties) 4 = .ok (some SPA_TYPE_OBJECT) :=
    @readU32_word _ _ _ _ 1 _ from_start rfl
  have objTy_read : readU32 (formatPod param properties) 8 = .ok (some SPA_TYPE_OBJECT_FORMAT) :=
    @readU32_word _ _ _ _ 2 _ from_start rfl
  have id_read : readU32 (formatPod param properties) 12 = .ok (some param) :=
    @readU32_word _ _ _ _ 3 _ from_start rfl
  have size : (UInt32.ofNat (objectBody param properties).length).toNat =
      (objectBody param properties).length % 2 ^ 32 := by
    simp
  have length := @length_formatPod param properties
  have long : ¬(formatPod param properties).length < 16 := by
    rw [formatPod_words]
    simp
  have fits : ¬(formatPod param properties).length <
      8 + (objectBody param properties).length % 2 ^ 32 := by
    omega
  have known : ¬(param ≠ SPA_PARAM_FORMAT ∧ param ≠ SPA_PARAM_ENUM_FORMAT) := by
    rcases header with rfl | rfl <;> simp
  simp only [parseFormatPod, long, if_false, size_read, ty_read, objTy_read, id_read,
    Checked.ok_bind, size, scanned, known, fits, ne_eq, not_true_eq_false, or_self]
  rfl

/-- What the parser makes of a pod whose size fits. -/
theorem parseFormatPod_formatPod
    (header : param = SPA_PARAM_FORMAT ∨ param = SPA_PARAM_ENUM_FORMAT)
    (fits : (objectBody param properties).length < 2 ^ 32) :
    parseFormatPod (formatPod param properties) = .ok (described properties) := by
  have length := @length_formatPod param properties
  have scanned := @properties_flatMap _ _ properties (@formatPod_words param properties) (by simp)
    (by omega) ((formatPod param properties).length + 1) (by
      have := length_le_flatMap properties
      rw [formatPod_words, List.length_append]
      omega) {}
  rw [@parseFormatPod_header _ properties header (properties.foldl Found.absorb {})]
  · simp [foldl_absorb, described]
  · rw [Nat.mod_eq_of_lt fits, ← length]
    exact scanned

end formats

theorem kwinNegotiatedFormatPod_decoded (format width height maxFps : UInt32) :
    parseFormatPod (kwinNegotiatedFormatPod format width height maxFps) =
      .ok (some ⟨format, width, height⟩) :=
  parseFormatPod_formatPod _ (.inl rfl) (by
    simp [objectBody, length_encode, align8, Wrapped.words, Value.words])

theorem fixedFormatPod_decoded (format width height : UInt32) :
    parseFormatPod (fixedFormatPod format width height) = .ok (some ⟨format, width, height⟩) :=
  parseFormatPod_formatPod _ (.inl rfl) (by
    simp [objectBody, length_encode, align8, Wrapped.words, Value.words])

/-- A format pod is decoded as its properties say, and the parser ends on every input. -/
theorem formatPod_decoded (param : UInt32) (properties : List Property)
    (header : param = SPA_PARAM_FORMAT ∨ param = SPA_PARAM_ENUM_FORMAT)
    (fits : (objectBody param properties).length < 2 ^ 32) (bytes : Bytes) :
    parseFormatPod (formatPod param properties) = .ok (described properties) ∧
      Ends (parseFormatPod bytes) :=
  ⟨parseFormatPod_formatPod properties header fits, ends_parseFormatPod bytes⟩

/-- The second format is the one that counts, and the framerate does not. -/
theorem formatPod_decoded_twice :
    parseFormatPod (formatPod SPA_PARAM_ENUM_FORMAT
      [⟨SPA_FORMAT_VIDEO_FORMAT, .plain (.id 7)⟩,
        ⟨SPA_FORMAT_VIDEO_FRAMERATE, .choice SPA_CHOICE_RANGE (.fraction 0 1) [60, 1]⟩,
        ⟨SPA_FORMAT_VIDEO_FORMAT, .choice SPA_CHOICE_NONE (.id 8) []⟩]) =
      .ok (some ⟨8, 0, 0⟩) ∧ Ends (parseFormatPod [1, 2, 3]) :=
  formatPod_decoded SPA_PARAM_ENUM_FORMAT _ (.inr rfl) (by
    simp [objectBody, length_encode, align8, Wrapped.words, Value.words]) [1, 2, 3]

/-- A choice so long that the size of the pod comes out as that of one without properties. -/
theorem formatPod_overflow {more : List UInt32} (long : more.length = 2 ^ 30 - 9) :
    parseFormatPod (formatPod SPA_PARAM_FORMAT
      [⟨SPA_FORMAT_VIDEO_FORMAT, .choice SPA_CHOICE_NONE (.id 7) more⟩]) = .ok none := by
  have length : (objectBody SPA_PARAM_FORMAT
      [⟨SPA_FORMAT_VIDEO_FORMAT, .choice SPA_CHOICE_NONE (.id 7) more⟩]).length = 8 + 2 ^ 32 := by
    simp [objectBody, length_encode, align8, Wrapped.words, Value.words, long]
  apply @parseFormatPod_header _ _ (.inl rfl) {}
  rw [length, ScreenCast.properties, if_neg (by decide)]
  rfl

/-- A pod of four gigabytes whose format is not found. -/
theorem formatPod_too_long :
    parseFormatPod (formatPod SPA_PARAM_FORMAT [⟨SPA_FORMAT_VIDEO_FORMAT,
      .choice SPA_CHOICE_NONE (.id 7) (List.replicate (2 ^ 30 - 9) 7)⟩]) ≠
        .ok (described [⟨SPA_FORMAT_VIDEO_FORMAT,
          .choice SPA_CHOICE_NONE (.id 7) (List.replicate (2 ^ 30 - 9) 7)⟩]) := by
  rw [formatPod_overflow List.length_replicate]
  intro same
  cases same

end ScuffedCrew.ScreenCast
