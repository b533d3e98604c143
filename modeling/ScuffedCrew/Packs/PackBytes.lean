import ScuffedCrew.Packs.Archives

/-!
# Writing an archive

The headers that `ustar_header` makes, and the entries and packs of them.  Every
one of them describes its entry, with a checksum that `checksum_ok` accepts.
-/

namespace ScuffedCrew.Packs

open Rust

/-! ## Checksums -/

/-- The sum of bytes. -/
def byteSum (bytes : Bytes) : ℕ := (bytes.map UInt8.toNat).sum

/-- The addend of a byte in the checksum. -/
def summand (entry : UInt8 × ℕ) : ℕ :=
  if 148 ≤ entry.2 ∧ entry.2 < 156 then 32 else entry.1.toNat

theorem headerSum_eq_sum (header : Bytes) : headerSum header = (header.zipIdx.map summand).sum := by
  rw [List.sum_eq_foldl, List.foldl_map]
  rfl

theorem sum_outside {bytes : Bytes} {start : ℕ}
    (outside : start + bytes.length ≤ 148 ∨ 156 ≤ start) :
    ((bytes.zipIdx start).map summand).sum = byteSum bytes := by
  induction bytes generalizing start with
  | nil => rfl
  | cons byte rest ih =>
      rw [List.length_cons] at outside
      have first : summand (byte, start) = byte.toNat := if_neg (by simp only; omega)
      have others := @ih (start + 1) (by omega)
      simp [List.zipIdx_cons, first, others, byteSum]

theorem sum_inside {bytes : Bytes} {start : ℕ} (above : 148 ≤ start)
    (below : start + bytes.length ≤ 156) :
    ((bytes.zipIdx start).map summand).sum = 32 * bytes.length := by
  induction bytes generalizing start with
  | nil => rfl
  | cons byte rest ih =>
      rw [List.length_cons] at below
      have first : summand (byte, start) = 32 := if_pos (by simp only; omega)
      have others := @ih (start + 1) (by omega) (by omega)
      rw [List.zipIdx_cons, List.map_cons, List.sum_cons, first, others, List.length_cons]
      omega

/-- The checksum does not depend on what its own field holds. -/
theorem headerSum_split {before field after : Bytes} (starts : before.length = 148)
    (length : field.length = 8) :
    headerSum (before ++ (field ++ after)) = byteSum before + (256 + byteSum after) := by
  rw [headerSum_eq_sum, List.zipIdx_append, List.zipIdx_append, List.map_append, List.map_append,
    List.sum_append, List.sum_append, sum_outside (by omega), sum_inside (by omega) (by omega),
    sum_outside (by omega), length]

theorem byteSum_le (bytes : Bytes) : byteSum bytes ≤ 255 * bytes.length := by
  induction bytes with
  | nil => simp [byteSum]
  | cons byte rest ih =>
      have small := byte.toNat_lt
      simp only [byteSum, List.map_cons, List.sum_cons, List.length_cons] at ih ⊢
      omega

theorem byteSum_append (left right : Bytes) :
    byteSum (left ++ right) = byteSum left + byteSum right := by
  simp [byteSum]

/-! ## Octal digits -/

/-- A number in octal digits, with zeros before them. -/
def octal : ℕ → ℕ → Bytes
  | 0, _ => []
  | width + 1, value => octal width (value / 8) ++ [UInt8.ofNat (48 + value % 8)]

theorem length_octal (width value : ℕ) : (octal width value).length = width := by
  induction width generalizing value with
  | zero => rfl
  | succ width ih => simp [octal, ih]

theorem octal_digits (width value : ℕ) : ∀ byte ∈ octal width value, IsOctalDigit byte := by
  induction width generalizing value with
  | zero => simp [octal]
  | succ width ih =>
      intro byte byte_mem
      rcases List.mem_append.mp byte_mem with before | last
      · exact ih _ byte before
      · rcases List.mem_singleton.mp last with rfl
        have digit : (UInt8.ofNat (48 + value % 8)).toNat = 48 + value % 8 := by
          rw [UInt8.toNat_ofNat']
          omega
        constructor
        · apply UInt8.le_iff_toNat_le.mpr
          rw [digit]
          simp
        · apply UInt8.le_iff_toNat_le.mpr
          rw [digit]
          simp only [UInt8.reduceToNat]
          omega

theorem octalFrom_octal {width value : ℕ} (fits : value < 8 ^ width) (start : ℕ) :
    octalFrom start (octal width value) = start * 8 ^ width + value := by
  induction width generalizing value with
  | zero =>
      have zero : value = 0 := by simpa using fits
      simp [octal, octalFrom, zero]
  | succ width ih =>
      have smaller : value / 8 < 8 ^ width := by
        rw [pow_succ] at fits
        omega
      have digit : (UInt8.ofNat (48 + value % 8) - 48).toNat = value % 8 := by
        have wide : (UInt8.ofNat (48 + value % 8)).toNat = 48 + value % 8 := by
          rw [UInt8.toNat_ofNat']
          omega
        rw [UInt8.toNat_sub_of_le _ _ (by rw [UInt8.le_iff_toNat_le, wide]; simp), wide]
        simp
      rw [octal, octalFrom_append, ih smaller, octalFrom_cons, digit]
      change (start * 8 ^ width + value / 8) * 8 + value % 8 = _
      rw [Nat.add_mul, Nat.mul_assoc, ← pow_succ]
      omega

theorem isOctal_octal {width value : ℕ} (fits : value < 8 ^ width) (some_width : 0 < width)
    (tail : Bytes) (ends : ∀ byte ∈ tail.head?, isBlank byte = true) :
    IsOctal (octal width value ++ tail) value := by
  refine ⟨[], octal width value, tail, by simp, by simp, ?_, octal_digits width value, ends, ?_⟩
  · apply List.length_pos_iff.mp
    rwa [length_octal]
  · rw [octalFrom_octal fits, zero_mul, zero_add]

/-! ## `ustar_header` -/

/-- A text with NULs behind it. -/
def padded (width : ℕ) (text : Text) : Bytes := text.utf8 ++ List.replicate (width - text.byteLen) 0

/-- A text and a NUL. -/
def terminated (text : Text) : Bytes := text.utf8 ++ [0]

/-- The header before its checksum is filled in. -/
def blankHeader (name : Text) (size : ℕ) (typeflag : UInt8) : HeaderFields where
  name := padded 100 name
  owner := terminated "0000644".toList ++ (terminated "0000000".toList ++
    terminated "0000000".toList)
  size := octal 11 size ++ [0]
  time := terminated "00000000000".toList
  checksum := List.replicate 8 32
  typeflag := typeflag
  link := List.replicate 100 0 ++ (terminated "ustar".toList ++
    (Text.utf8 "00".toList ++ List.replicate 80 0))
  folder := List.replicate 155 0
  rest := List.replicate 12 0

/-- `ustar_header`. -/
def ustarHeader (name : Text) (size : ℕ) (typeflag : UInt8) : HeaderFields :=
  let blank := blankHeader name size typeflag
  { blank with checksum := octal 6 (byteSum blank.bytes) ++ [0, 32] }

section header

variable {name : Text} {size : ℕ}

theorem length_padded {width : ℕ} (fits : name.byteLen ≤ width) :
    (padded width name).length = width := by
  rw [padded, List.length_append, List.length_replicate]
  change name.byteLen + _ = _
  omega

theorem bytes_eq (fields : HeaderFields) : fields.bytes =
    fields.name ++ (fields.owner ++ (fields.size ++ fields.time)) ++ (fields.checksum ++
      (fields.typeflag :: (fields.link ++ (fields.folder ++ fields.rest)))) := by
  simp [HeaderFields.bytes]

/-- What stands before the checksum and behind it. -/
theorem bytes_blankHeader (name : Text) (size : ℕ) (typeflag : UInt8) : ∃ before after,
    (blankHeader name size typeflag).bytes = before ++ (List.replicate 8 32 ++ after) ∧
      (ustarHeader name size typeflag).bytes = before ++
        ((ustarHeader name size typeflag).checksum ++ after) ∧
      after.length = 356 ∧ (name.byteLen ≤ 100 → before.length = 148) := by
  let blank := blankHeader name size typeflag
  refine ⟨blank.name ++ (blank.owner ++ (blank.size ++ blank.time)),
    blank.typeflag :: (blank.link ++ (blank.folder ++ blank.rest)), bytes_eq blank,
    bytes_eq (ustarHeader name size typeflag), ?_, fun fits => ?_⟩
  · have link : blank.link.length = 188 := rfl
    have folder : blank.folder.length = 155 := List.length_replicate
    have rest : blank.rest.length = 12 := rfl
    rw [List.length_cons, List.length_append, List.length_append, link, folder, rest]
  · have owner : blank.owner.length = 24 := rfl
    have time : blank.time.length = 12 := rfl
    have named : blank.name.length = 100 := length_padded fits
    have sized : blank.size.length = 12 := by simp [blank, blankHeader, length_octal]
    rw [List.length_append, List.length_append, List.length_append, owner, time, named, sized]

theorem byteSum_blanks : byteSum (List.replicate 8 32) = 256 := rfl

theorem headerSum_ustarHeader (fits : name.byteLen ≤ 100) (typeflag : UInt8) :
    headerSum (ustarHeader name size typeflag).bytes =
      byteSum (blankHeader name size typeflag).bytes := by
  rcases bytes_blankHeader name size typeflag with ⟨before, after, blank, full, -, starts⟩
  have length : (ustarHeader name size typeflag).checksum.length = 8 := by
    simp [ustarHeader, length_octal]
  rw [full, headerSum_split (starts fits) length, blank, byteSum_append, byteSum_append,
    byteSum_blanks]

theorem byteSum_blankHeader_lt (fits : name.byteLen ≤ 100) (typeflag : UInt8) :
    byteSum (blankHeader name size typeflag).bytes < 8 ^ 6 := by
  rcases bytes_blankHeader name size typeflag with ⟨before, after, blank, -, ends, starts⟩
  have bound := byteSum_le (blankHeader name size typeflag).bytes
  rw [blank, List.length_append, List.length_append, List.length_replicate, starts fits,
    ends] at bound
  rw [blank]
  omega

/-- A header of `ustar_header` describes the entry it is made for. -/
theorem describes_ustarHeader (fits : name.byteLen ≤ 100) (unterminated : Char.ofNat 0 ∉ name)
    (small : size < 8 ^ 11) (typeflag : UInt8) :
    Describes (ustarHeader name size typeflag) [] name size where
  name := ⟨unterminated, fits, rfl⟩
  owner := rfl
  size_length := by simp [ustarHeader, blankHeader, length_octal]
  size := isOctal_octal small (by omega) [0] (by simp [isBlank])
  time := rfl
  checksum_length := by simp [ustarHeader, length_octal]
  checksum := by
    rw [headerSum_ustarHeader fits]
    exact isOctal_octal (byteSum_blankHeader_lt fits typeflag) (by omega) [0, 32]
      (by simp [isBlank])
  link := rfl
  folder := ⟨by simp, Nat.zero_le _, rfl⟩
  rest := rfl

theorem length_block (length : ℕ) :
    length + (List.replicate ((512 - length % 512) % 512) (0 : UInt8)).length =
      (length + 511) / 512 * 512 := by
  rw [List.length_replicate]
  omega

/-- `ustar_file`. -/
def ustarFile (name : Text) (data : Bytes) (fits : name.byteLen ≤ 100)
    (unterminated : Char.ofNat 0 ∉ name) (small : data.length < 8 ^ 11) : Member where
  fields := ustarHeader name data.length 48
  folder := []
  name := name
  data := data
  padding := List.replicate ((512 - data.length % 512) % 512) 0
  described := describes_ustarHeader fits unterminated small 48
  padded := length_block data.length

end header

/-- Zeros end an archive. -/
theorem isTrailer_replicate (count : ℕ) : IsTrailer (List.replicate count 0) :=
  .inr (by simp)

end ScuffedCrew.Packs
