import ScuffedCrew.ScreenCast.Pod

/-!
# The layout of a pod

Every pod that the encoder writes is a header, its body and the padding to eight
bytes.  The parser therefore meets the properties one after the other, and ends on
every input without leaving it.
-/

namespace ScuffedCrew.ScreenCast

open Rust Checked

/-! ## Encoding -/

def padding (length : ℕ) : ℕ := (8 - length % 8) % 8

/-- A pod as it stands in the buffer. -/
def frame (ty : UInt32) (body : Bytes) : Bytes :=
  toLeBytes (UInt32.ofNat body.length) ++
    (toLeBytes ty ++ (body ++ List.replicate (padding body.length) 0))

def wordBytes (words : List UInt32) : Bytes := words.flatMap toLeBytes

namespace Wrapped

def ty : Wrapped → UInt32
  | plain value => value.ty
  | choice _ _ _ => SPA_TYPE_CHOICE

def words : Wrapped → List UInt32
  | plain value => value.words
  | choice kind value more => [kind, 0, value.size, value.ty] ++ (value.words ++ more)

end Wrapped

namespace Property

variable (property : Property)

def body : Bytes := wordBytes property.wrapped.words

def encode : Bytes :=
  toLeBytes property.key ++ (toLeBytes 0 ++ frame property.wrapped.ty property.body)

end Property

def objectBody (param : UInt32) (properties : List Property) : Bytes :=
  toLeBytes SPA_TYPE_OBJECT_FORMAT ++ (toLeBytes param ++ properties.flatMap Property.encode)

theorem length_frame (ty : UInt32) (body : Bytes) :
    (frame ty body).length = 8 + align8 body.length := by
  simp only [frame, padding, align8, List.length_append, length_toLeBytes, List.length_replicate]
  omega

@[simp]
theorem length_wordBytes (words : List UInt32) : (wordBytes words).length = 4 * words.length := by
  simp [wordBytes, List.length_flatMap, Nat.mul_comm]

theorem length_encode (property : Property) :
    property.encode.length = 16 + align8 (4 * property.wrapped.words.length) := by
  simp only [Property.encode, List.length_append, length_toLeBytes, length_frame, Property.body,
    length_wordBytes]
  omega

theorem dvd_length_encode (property : Property) : 8 ∣ property.encode.length := by
  rw [length_encode, align8]
  omega

namespace PodBuf

variable {pod : PodBuf}

theorem align_bytes (pod : PodBuf) :
    pod.align.bytes = pod.bytes ++ List.replicate (padding pod.bytes.length) 0 := by
  induction pod using align.induct with
  | case1 pod whole =>
      rw [align, if_pos whole]
      simp [padding, whole]
  | case2 pod broken ih =>
      rw [align, if_neg broken, ih, List.append_assoc, List.singleton_append,
        ← List.replicate_succ]
      congr 2
      simp only [padding, List.length_append, List.length_singleton]
      omega

/-- Closing a pod that starts at a multiple of eight. -/
theorem finish_bytes {before body : Bytes} {ty : UInt32}
    (written : pod.bytes = before ++ (toLeBytes 0 ++ (toLeBytes ty ++ body)))
    (aligned : 8 ∣ before.length) :
    (pod.finish before.length).bytes = before ++ frame ty body := by
  have size : pod.bytes.length - before.length - 8 = body.length := by
    simp only [written, List.length_append, length_toLeBytes]
    omega
  have head : pod.bytes.take before.length = before := by simp [written]
  have tail : pod.bytes.drop (before.length + 4) = toLeBytes ty ++ body := by
    rw [written, List.drop_length_add_append]
    exact List.drop_left' rfl
  have padded : padding (before.length + (4 + (4 + body.length))) = padding body.length := by
    simp only [padding]
    omega
  simp only [finish, align_bytes, size, head, tail, List.length_append, length_toLeBytes,
    List.append_assoc, padded, frame]

theorem foldl_u32_bytes (pod : PodBuf) (words : List UInt32) :
    (words.foldl u32 pod).bytes = pod.bytes ++ wordBytes words := by
  induction words generalizing pod with
  | nil => simp [wordBytes]
  | cons word words ih => simp [ih, u32, wordBytes]

end PodBuf

section write

variable {pod : PodBuf}

theorem Value.write_bytes (value : Value) (aligned : 8 ∣ pod.bytes.length) :
    (value.write pod).bytes = pod.bytes ++ frame value.ty (wordBytes value.words) := by
  cases value with
  | id value | int value | rectangle width height | fraction num den =>
      apply PodBuf.finish_bytes _ aligned
      simp [PodBuf.u32, PodBuf.i32, wordBytes, ty, words]

theorem Wrapped.write_bytes (wrapped : Wrapped) (aligned : 8 ∣ pod.bytes.length) :
    (wrapped.write pod).bytes = pod.bytes ++ frame wrapped.ty (wordBytes wrapped.words) := by
  cases wrapped with
  | plain value => exact value.write_bytes aligned
  | choice kind value more =>
      apply PodBuf.finish_bytes _ aligned
      simp [PodBuf.foldl_u32_bytes, PodBuf.u32, wordBytes, ty, words]

theorem propPod_bytes (property : Property) (aligned : 8 ∣ pod.bytes.length) :
    (pod.propPod property.key property.wrapped.write).bytes = pod.bytes ++ property.encode := by
  rw [PodBuf.propPod, Wrapped.write_bytes]
  · simp [PodBuf.u32, Property.encode, Property.body]
  · simp only [PodBuf.u32, List.length_append, length_toLeBytes]
    omega

theorem foldl_propPod_bytes (properties : List Property) (aligned : 8 ∣ pod.bytes.length) :
    (properties.foldl (fun pod property => pod.propPod property.key property.wrapped.write)
      pod).bytes = pod.bytes ++ properties.flatMap Property.encode := by
  induction properties generalizing pod with
  | nil => simp
  | cons property properties ih =>
      have written := propPod_bytes property aligned
      have still_aligned : 8 ∣ (pod.propPod property.key property.wrapped.write).bytes.length := by
        rw [written, List.length_append]
        exact Nat.dvd_add aligned (dvd_length_encode property)
      rw [List.foldl_cons, ih still_aligned, written, List.flatMap_cons, List.append_assoc]

theorem dvd_length_objectBody (param : UInt32) (properties : List Property) :
    8 ∣ (objectBody param properties).length := by
  have whole : 8 ∣ (properties.flatMap Property.encode).length := by
    induction properties with
    | nil => simp
    | cons property properties ih =>
        rw [List.flatMap_cons, List.length_append]
        exact Nat.dvd_add (dvd_length_encode property) ih
  simp only [objectBody, List.length_append, length_toLeBytes]
  omega

theorem formatPod_eq (param : UInt32) (properties : List Property) :
    formatPod param properties = toLeBytes (UInt32.ofNat (objectBody param properties).length) ++
      (toLeBytes SPA_TYPE_OBJECT ++ objectBody param properties) := by
  have closed : formatPod param properties =
      PodBuf.new.bytes ++ frame SPA_TYPE_OBJECT (objectBody param properties) := by
    simp only [formatPod, PodBuf.begin]
    rw [PodBuf.finish_bytes]
    · rw [foldl_propPod_bytes]
      · simp [PodBuf.u32, objectBody]
      · simp [PodBuf.new, PodBuf.u32]
    · simp [PodBuf.new]
  have no_padding : padding (objectBody param properties).length = 0 := by
    have := dvd_length_objectBody param properties
    rw [padding]
    omega
  rw [closed, PodBuf.new, List.nil_append, frame, no_padding, List.replicate_zero, List.append_nil]

end write

/-! ## Reading -/

section reading

variable {bytes : Bytes}

theorem exists_readU32 (bytes : Bytes) (start : ℕ) : ∃ result, readU32 bytes start = .ok result ∧
    (start + 4 ≤ bytes.length → ∃ word, result = some word) := by
  by_cases inside : start + 4 ≤ bytes.length
  · have four : ((bytes.drop start).take 4).length = 4 := by
      rw [List.length_take, List.length_drop]
      omega
    rcases List.length_eq_four.mp four with ⟨first, second, third, fourth, taken⟩
    refine ⟨some (fromLeBytes first second third fourth), ?_, fun _ => ⟨_, rfl⟩⟩
    simp [readU32, getRange_of_le _ _ _ (Nat.le_add_right start 4) inside, taken, byteAt]
  · refine ⟨none, ?_, fun inside' => absurd inside' inside⟩
    rw [readU32, getRange_of_lt _ _ _ (by omega)]

theorem readU32_of_append (before after : Bytes) {start : ℕ} {word : UInt32}
    (split : bytes = before ++ (toLeBytes word ++ after)) (at_start : start = before.length) :
    readU32 bytes start = .ok (some word) := by
  subst split at_start
  rcases exists_toLeBytes word with ⟨first, second, third, fourth, laid, reads⟩
  have cut : getRange (before ++ (toLeBytes word ++ after)) before.length (before.length + 4) =
      some [first, second, third, fourth] := by
    rw [getRange_of_le _ _ _ (by omega) (by simp), Nat.add_sub_cancel_left, List.drop_left, laid]
    simp
  simp [readU32, cut, byteAt, reads]

theorem ends_readU32 (bytes : Bytes) (start : ℕ) : Ends (readU32 bytes start) := by
  rcases exists_readU32 bytes start with ⟨result, read, -⟩
  exact ⟨result, read⟩

theorem ends_propValue (bytes : Bytes) (body podSize : ℕ) (podTy : UInt32) :
    Ends (propValue bytes body podSize podTy) := by
  unfold propValue
  split
  next => apply ends_pure
  next =>
    split
    next => apply ends_pure
    next =>
      apply ends_bind (ends_readU32 _ _)
      intro childSize size_read
      cases childSize with
      | none => apply ends_pure
      | some childSize =>
          apply ends_bind (ends_readU32 _ _)
          intro childTy ty_read
          cases childTy with
          | none => apply ends_pure
          | some childTy =>
              dsimp only
              split
              next => apply ends_pure
              next => apply ends_pure

theorem ends_noteFormat (found : Found) (bytes : Bytes) (key valueTy : UInt32) (valueAt : ℕ) :
    Ends (found.noteFormat bytes key valueTy valueAt) := by
  unfold Found.noteFormat
  split
  next =>
    apply ends_bind (ends_readU32 _ _)
    intro format read
    apply ends_pure
  next => apply ends_pure

theorem ends_noteSize (found : Found) (bytes : Bytes) (key valueTy : UInt32) (valueAt : ℕ) :
    Ends (found.noteSize bytes key valueTy valueAt) := by
  unfold Found.noteSize
  split
  next =>
    apply ends_bind (ends_readU32 _ _)
    intro width width_read
    apply ends_bind (ends_readU32 _ _)
    intro height height_read
    apply ends_pure
  next => apply ends_pure

/-- Every turn of the loop moves the offset on by sixteen bytes at least. -/
theorem ends_properties (bytes : Bytes) (stop fuel off : ℕ) (found : Found) (some_fuel : 0 < fuel)
    (enough : stop < off + fuel) : Ends (properties bytes stop fuel off found) := by
  induction fuel generalizing off found with
  | zero => omega
  | succ fuel ih =>
      have further {next : ℕ} (later : off + 16 ≤ next) (before_stop : off + 8 ≤ stop)
          (found : Found) : Ends (properties bytes stop fuel next found) :=
        ih next found (by omega) (by omega)
      unfold properties
      split
      next before_stop =>
        apply ends_bind (ends_readU32 _ _)
        intro key key_read
        cases key with
        | none => apply ends_pure
        | some key =>
            dsimp only
            split
            next => apply ends_pure
            next =>
              apply ends_bind (ends_readU32 _ _)
              intro podSize size_read
              cases podSize with
              | none => apply ends_pure
              | some podSize =>
                  apply ends_bind (ends_readU32 _ _)
                  intro podTy ty_read
                  cases podTy with
                  | none => apply ends_pure
                  | some podTy =>
                      dsimp only
                      split
                      next => apply ends_pure
                      next =>
                        have later : off + 16 ≤ align8 (off + 8 + 8 + podSize.toNat) := by
                          rw [align8]
                          omega
                        apply ends_bind (ends_propValue _ _ _ _)
                        intro value value_read
                        cases value with
                        | none => exact further later before_stop found
                        | some value =>
                            apply ends_bind (ends_noteFormat _ _ _ _ _)
                            intro found' noted
                            apply ends_bind (ends_noteSize _ _ _ _ _)
                            intro found'' noted'
                            exact further later before_stop found''
      next => apply ends_pure

/-- The parser ends on every input, and every byte it reads is inside. -/
theorem ends_parseFormatPod (bytes : Bytes) : Ends (parseFormatPod bytes) := by
  unfold parseFormatPod
  split
  next => apply ends_pure
  next =>
    apply ends_bind (ends_readU32 _ _)
    intro size size_read
    cases size with
    | none => apply ends_pure
    | some size =>
        apply ends_bind (ends_readU32 _ _)
        intro ty ty_read
        cases ty with
        | none => apply ends_pure
        | some ty =>
            dsimp only
            split
            next => apply ends_pure
            next fits =>
              apply ends_bind (ends_readU32 _ _)
              intro objTy objTy_read
              cases objTy with
              | none => apply ends_pure
              | some objTy =>
                  apply ends_bind (ends_readU32 _ _)
                  intro id id_read
                  cases id with
                  | none => apply ends_pure
                  | some id =>
                      dsimp only
                      split
                      next => apply ends_pure
                      next =>
                        apply ends_bind
                        · apply ends_properties
                          · omega
                          · omega
                        · intro found scanned
                          cases found with
                          | none => apply ends_pure
                          | some found => apply ends_pure

end reading

end ScuffedCrew.ScreenCast
