import ScuffedCrew.Packs.Ustar

/-!
# Archives made of headers

What a ustar header says of its entry, and what `read_ustar` reads from an
archive of such entries: each file under the path of its name without the white
space around it.
-/

namespace ScuffedCrew.Packs

open Rust

/-! ## Octal fields -/

/-- The value of octal digits behind a value. -/
def octalFrom (value : ℕ) (digits : Bytes) : ℕ :=
  digits.foldl (fun value byte => value * 8 + (byte - 48).toNat) value

def IsOctalDigit (byte : UInt8) : Prop := 48 ≤ byte ∧ byte ≤ 55

/-- Blanks, digits, and a blank before anything else. -/
def IsOctal (field : Bytes) (value : ℕ) : Prop :=
  ∃ lead digits tail, field = lead ++ digits ++ tail ∧ (∀ byte ∈ lead, isBlank byte = true) ∧
    digits ≠ [] ∧ (∀ byte ∈ digits, IsOctalDigit byte) ∧
      (∀ byte ∈ tail.head?, isBlank byte = true) ∧ octalFrom 0 digits = value

variable {field digits tail : Bytes} {value : ℕ} {byte : UInt8}

theorem IsOctalDigit.not_blank (digit : IsOctalDigit byte) : isBlank byte = false := by
  have low : 48 ≤ byte.toNat := digit.1
  simp only [isBlank, Bool.or_eq_false_iff, beq_eq_false_iff_ne]
  constructor
  · rintro rfl
    simp at low
  · rintro rfl
    simp at low

theorem IsOctalDigit.digit_lt (digit : IsOctalDigit byte) : (byte - 48).toNat < 8 := by
  have low : 48 ≤ byte.toNat := digit.1
  have high : byte.toNat ≤ 55 := digit.2
  rw [UInt8.toNat_sub_of_le _ _ digit.1]
  simp only [UInt8.reduceToNat]
  omega

theorem octalFrom_cons : octalFrom value (byte :: digits) =
    octalFrom (value * 8 + (byte - 48).toNat) digits := rfl

theorem octalFrom_append (value : ℕ) (digits others : Bytes) :
    octalFrom value (digits ++ others) = octalFrom (octalFrom value digits) others :=
  List.foldl_append

theorem le_octalFrom (value : ℕ) (digits : Bytes) : value ≤ octalFrom value digits := by
  induction digits generalizing value with
  | nil => exact le_rfl
  | cons byte rest ih =>
      have := ih (value * 8 + (byte - 48).toNat)
      rw [octalFrom_cons]
      omega

theorem octalFrom_lt (all_digits : ∀ byte ∈ digits, IsOctalDigit byte) :
    octalFrom value digits < (value + 1) * 8 ^ digits.length := by
  induction digits generalizing value with
  | nil => simp [octalFrom]
  | cons byte rest ih =>
      have small := (all_digits byte List.mem_cons_self).digit_lt
      have bound := @ih (value * 8 + (byte - 48).toNat)
        fun other other_mem => all_digits other (List.mem_cons_of_mem _ other_mem)
      rw [octalFrom_cons, List.length_cons, pow_succ]
      calc octalFrom (value * 8 + (byte - 48).toNat) rest
          < (value * 8 + (byte - 48).toNat + 1) * 8 ^ rest.length := bound
        _ ≤ ((value + 1) * 8) * 8 ^ rest.length := Nat.mul_le_mul_right _ (by omega)
        _ = (value + 1) * (8 ^ rest.length * 8) := by
          rw [Nat.mul_assoc, Nat.mul_comm 8]

theorem parseOctalFrom_blanks {lead rest : Bytes} (blank : ∀ byte ∈ lead, isBlank byte = true) :
    parseOctalFrom value false (lead ++ rest) = parseOctalFrom value false rest := by
  induction lead with
  | nil => rfl
  | cons byte others ih =>
      have first := blank byte List.mem_cons_self
      simp only [List.cons_append, parseOctalFrom, first, if_true]
      exact ih fun other other_mem => blank other (List.mem_cons_of_mem _ other_mem)

theorem parseOctalFrom_digits (saw : Bool) (all_digits : ∀ byte ∈ digits, IsOctalDigit byte)
    (started : saw = true ∨ digits ≠ []) (ends : ∀ byte ∈ tail.head?, isBlank byte = true)
    (fits : octalFrom value digits ≤ maxValue 64) :
    parseOctalFrom value saw (digits ++ tail) = some (octalFrom value digits) := by
  induction digits generalizing value saw with
  | nil =>
      have saw_eq : saw = true := started.resolve_right (by simp)
      subst saw_eq
      cases tail with
      | nil => rfl
      | cons byte rest =>
          have blank := ends byte rfl
          simp [parseOctalFrom, blank, octalFrom]
  | cons byte rest ih =>
      have digit := all_digits byte List.mem_cons_self
      have low : 48 ≤ byte.toNat := digit.1
      have high : byte.toNat ≤ 55 := digit.2
      have is_digit : isAsciiDigit byte = true := by
        simp only [isAsciiDigit, decide_eq_true_eq]
        exact ⟨digit.1, UInt8.le_iff_toNat_le.mpr (by simp; omega)⟩
      have not_above : ¬55 < byte := UInt8.not_lt.mpr digit.2
      rw [octalFrom_cons] at fits ⊢
      have step := le_octalFrom (value * 8 + (byte - 48).toNat) rest
      have rest_ok := @ih (value * 8 + (byte - 48).toNat) true
        (fun other other_mem => all_digits other (List.mem_cons_of_mem _ other_mem)) (.inl rfl) fits
      have multiplied : checkedMul 64 value 8 = some (value * 8) := if_pos (by omega)
      have added : checkedAdd 64 (value * 8) (byte - 48).toNat =
          some (value * 8 + (byte - 48).toNat) := if_pos (by omega)
      simp [parseOctalFrom, digit.not_blank, is_digit, not_above, multiplied, added, rest_ok]

/-- `parse_octal` reads an octal field. -/
theorem parseOctal_of_isOctal (octal : IsOctal field value) (short : field.length ≤ 21) :
    parseOctal field = some value := by
  rcases octal with ⟨lead, digits, tail, rfl, blank, some_digit, all_digits, ends, rfl⟩
  have small : octalFrom 0 digits < 8 ^ 21 := by
    calc octalFrom 0 digits < (0 + 1) * 8 ^ digits.length := octalFrom_lt all_digits
      _ ≤ 8 ^ 21 := by
        rw [zero_add, one_mul]
        apply Nat.pow_le_pow_right (by omega)
        simp only [List.length_append] at short
        omega
  rw [parseOctal, List.append_assoc, parseOctalFrom_blanks blank]
  apply parseOctalFrom_digits false all_digits (.inr some_digit) ends
  unfold maxValue
  omega

/-! ## Headers -/

/-- The fields of a header that are read, and what is between them. -/
structure HeaderFields where
  name : Bytes
  owner : Bytes
  size : Bytes
  time : Bytes
  checksum : Bytes
  typeflag : UInt8
  link : Bytes
  folder : Bytes
  rest : Bytes

/-- The header as it is stored. -/
def HeaderFields.bytes (fields : HeaderFields) : Bytes :=
  fields.name ++ (fields.owner ++ (fields.size ++ (fields.time ++ (fields.checksum ++
    (fields.typeflag :: (fields.link ++ (fields.folder ++ fields.rest)))))))

/-- A text in a field with NULs behind it. -/
def IsPadded (field : Bytes) (width : ℕ) (text : Text) : Prop :=
  Char.ofNat 0 ∉ text ∧ text.byteLen ≤ width ∧
    field = text.utf8 ++ List.replicate (width - text.byteLen) 0

/-- A header for an entry of a name below a folder, with its size and a right checksum. -/
structure Describes (fields : HeaderFields) (folder name : Text) (size : ℕ) : Prop where
  name : IsPadded fields.name 100 name
  owner : fields.owner.length = 24
  size_length : fields.size.length = 12
  size : IsOctal fields.size size
  time : fields.time.length = 12
  checksum_length : fields.checksum.length = 8
  checksum : IsOctal fields.checksum (headerSum fields.bytes)
  link : fields.link.length = 188
  folder : IsPadded fields.folder 155 folder
  rest : fields.rest.length = 12

section headers

variable {fields : HeaderFields} {folder name text : Text} {size width : ℕ}

theorem byteAt_of_append {bytes : Bytes} {index : ℕ} (before after : Bytes)
    (split : bytes = before ++ byte :: after) (at_index : index = before.length) :
    byteAt bytes index = .ok byte := by
  subst split at_index
  simp [byteAt]

theorem IsPadded.length (padded : IsPadded field width text) : field.length = width := by
  rcases padded with ⟨-, fits, rfl⟩
  rw [List.length_append, List.length_replicate]
  change text.byteLen + _ = _
  omega

/-- A padded text is read without the white space around it. -/
theorem IsPadded.cString_eq (padded : IsPadded field width text) : cString field = text.trim := by
  rcases padded with ⟨unterminated, -, rfl⟩
  have all_taken : ∀ byte ∈ text.utf8, (byte != 0) = true := fun byte byte_mem => by
    simpa using utf8_ne_zero unterminated byte byte_mem
  have taken : (text.utf8 ++ List.replicate (width - text.byteLen) 0).takeWhile (· != 0) =
      text.utf8 := by
    rw [List.takeWhile_append_of_pos all_taken]
    simp
  rw [cString, taken, fromUtf8Lossy_utf8]

theorem Describes.length (described : Describes fields folder name size) :
    fields.bytes.length = 512 := by
  simp only [HeaderFields.bytes, List.length_append, List.length_cons, described.name.length,
    described.owner, described.size_length, described.time, described.checksum_length,
    described.link, described.folder.length, described.rest]

theorem Describes.slice_name (described : Describes fields folder name size) :
    slice fields.bytes 0 100 = .ok fields.name :=
  slice_of_append [] _ rfl rfl (by rw [described.name.length])

theorem Describes.slice_size (described : Describes fields folder name size) :
    slice fields.bytes 124 136 = .ok fields.size := by
  apply slice_of_append (fields.name ++ fields.owner)
    (fields.time ++ (fields.checksum ++
      (fields.typeflag :: (fields.link ++ (fields.folder ++ fields.rest)))))
  · simp [HeaderFields.bytes]
  · simp [described.name.length, described.owner]
  · rw [described.size_length]

theorem Describes.slice_checksum (described : Describes fields folder name size) :
    slice fields.bytes 148 156 = .ok fields.checksum := by
  apply slice_of_append (fields.name ++ (fields.owner ++ (fields.size ++ fields.time)))
    (fields.typeflag :: (fields.link ++ (fields.folder ++ fields.rest)))
  · simp [HeaderFields.bytes]
  · simp [described.name.length, described.owner, described.size_length, described.time]
  · rw [described.checksum_length]

theorem Describes.slice_folder (described : Describes fields folder name size) :
    slice fields.bytes 345 500 = .ok fields.folder := by
  apply slice_of_append (fields.name ++ (fields.owner ++ (fields.size ++ (fields.time ++
    (fields.checksum ++ (fields.typeflag :: fields.link)))))) fields.rest
  · simp [HeaderFields.bytes]
  · simp [described.name.length, described.owner, described.size_length, described.time,
      described.checksum_length, described.link]
  · rw [described.folder.length]

theorem Describes.byteAt_typeflag (described : Describes fields folder name size) :
    byteAt fields.bytes 156 = .ok fields.typeflag := by
  apply byteAt_of_append (fields.name ++ (fields.owner ++ (fields.size ++ (fields.time ++
    fields.checksum)))) (fields.link ++ (fields.folder ++ fields.rest))
  · simp [HeaderFields.bytes]
  · simp [described.name.length, described.owner, described.size_length, described.time,
      described.checksum_length]

theorem high_bit : ∀ code < 56, (UInt8.ofNat code &&& 0x80 == 0) = true := by decide

theorem high_bit_of_le (low : byte.toNat ≤ 55) : (byte &&& 0x80 == 0) = true := by
  have found := high_bit byte.toNat (by omega)
  rwa [UInt8.ofNat_toNat] at found

theorem first_of_isOctal (octal : IsOctal field value) :
    ∃ first others, field = first :: others ∧ (first &&& 0x80 == 0) = true := by
  rcases octal with ⟨lead, digits, tail, rfl, blank, some_digit, all_digits, -, -⟩
  cases lead with
  | nil =>
      rcases List.exists_cons_of_ne_nil some_digit with ⟨first, others, rfl⟩
      exact ⟨first, others ++ tail, rfl, high_bit_of_le (all_digits first List.mem_cons_self).2⟩
  | cons first others =>
      refine ⟨first, others ++ digits ++ tail, rfl, high_bit_of_le ?_⟩
      have is_blank := blank first List.mem_cons_self
      simp only [isBlank, Bool.or_eq_true, beq_iff_eq] at is_blank
      rcases is_blank with rfl | rfl <;> simp

theorem Describes.exists_byteAt (described : Describes fields folder name size) :
    ∃ first, byteAt fields.bytes 124 = .ok first ∧ (first &&& 0x80 == 0) = true := by
  rcases first_of_isOctal described.size with ⟨first, others, split, low⟩
  refine ⟨first, ?_, low⟩
  apply byteAt_of_append (fields.name ++ fields.owner)
    (others ++ (fields.time ++ (fields.checksum ++
      (fields.typeflag :: (fields.link ++ (fields.folder ++ fields.rest))))))
  · simp [HeaderFields.bytes, split]
  · simp [described.name.length, described.owner]

theorem Describes.checksumOk_eq (described : Describes fields folder name size) :
    checksumOk fields.bytes = .ok true := by
  have short : fields.checksum.length ≤ 21 := by rw [described.checksum_length]; omega
  have recorded := parseOctal_of_isOctal described.checksum short
  simp [checksumOk, described.slice_checksum, recorded]

theorem Describes.entryName_eq (described : Describes fields folder name size)
    (named : joinName folder.trim name.trim ≠ []) :
    entryName fields.bytes = .ok (some (joinName folder.trim name.trim)) := by
  simp [entryName, described.slice_name, described.slice_folder, described.name.cString_eq,
    described.folder.cString_eq, named]

/-- A header is not the end of an archive. -/
theorem Describes.not_zero (described : Describes fields folder name size) :
    fields.bytes.all (· == 0) = false := by
  rcases described.size with ⟨lead, digits, tail, split, -, some_digit, all_digits, -, -⟩
  rcases List.exists_cons_of_ne_nil some_digit with ⟨first, others, rfl⟩
  have low : 48 ≤ first.toNat := (all_digits first List.mem_cons_self).1
  rw [List.all_eq_false]
  refine ⟨first, by simp [HeaderFields.bytes, split], ?_⟩
  rw [beq_iff_eq]
  rintro rfl
  simp at low

end headers

/-! ## Archives -/

/-- An entry of an archive: a header for the data behind it, filled up to whole blocks. -/
structure Member where
  fields : HeaderFields
  folder : Text
  name : Text
  data : Bytes
  padding : Bytes
  described : Describes fields folder name data.length
  padded : data.length + padding.length = (data.length + 511) / 512 * 512

namespace Member

def bytes (member : Member) : Bytes := member.fields.bytes ++ (member.data ++ member.padding)

/-- The name that the header gives. -/
def path (member : Member) : Text := joinName member.folder member.name

/-- The name that is read. -/
def label (member : Member) : Text := joinName member.folder.trim member.name.trim

def IsFile (member : Member) : Prop := member.fields.typeflag = 48 ∨ member.fields.typeflag = 0

instance (member : Member) : Decidable member.IsFile := inferInstanceAs (Decidable (_ ∨ _))

def IsFolder (member : Member) : Prop := member.fields.typeflag = 53

/-- What is read from an entry that a layout allows. -/
inductive Reads (layout : PackLayout) (member : Member) : Option (Text × Bytes) → Prop
  | file {path : Text} (is_file : member.IsFile)
      (allowed : layout.filePath member.label = .ok path) :
      Reads layout member (some (path, member.data))
  | folder (is_folder : member.IsFolder) (allowed : layout.allowsDir member.label = true) :
      Reads layout member none

variable {member : Member} {layout : PackLayout} {bytes : Bytes} {file : Option (Text × Bytes)}

theorem length_bytes (member : Member) :
    member.bytes.length = 512 + (member.data.length + 511) / 512 * 512 := by
  rw [bytes, List.length_append, List.length_append, member.described.length, member.padded]

theorem filePath_nil (layout : PackLayout) : layout.filePath [] = reject packUnsafe := by
  cases layout <;> rfl

theorem allowsDir_nil (layout : PackLayout) : layout.allowsDir [] = false := by
  cases layout <;> rfl

theorem Reads.named (reads : member.Reads layout file) : member.label ≠ [] := by
  intro empty
  cases reads with
  | file is_file allowed =>
      rw [empty, filePath_nil] at allowed
      cases allowed
  | folder is_folder allowed =>
      rw [empty, allowsDir_nil] at allowed
      cases allowed

/-- A turn of the loop reads one entry, and goes on behind its padding. -/
theorem Reads.readEntry_eq (reads : member.Reads layout file) (before after : Bytes)
    (split : bytes = before ++ (member.bytes ++ after)) (fits : bytes.length < 2 ^ 63) :
    readEntry bytes layout before.length member.fields.bytes =
      .ok (file, before.length + member.bytes.length) := by
  have described := member.described
  have size_read := parseOctal_of_isOctal described.size (by rw [described.size_length]; omega)
  rcases described.exists_byteAt with ⟨first, first_read, low⟩
  have length_eq := congrArg List.length split
  rw [List.length_append, List.length_append, member.length_bytes] at length_eq
  have dataEnd : saturatingAdd 64 (before.length + 512) member.data.length =
      before.length + 512 + member.data.length := by
    unfold saturatingAdd maxValue
    omega
  have next : saturatingAdd 64 (before.length + 512) ((member.data.length + 511) / 512 * 512) =
      before.length + member.bytes.length := by
    unfold saturatingAdd maxValue
    rw [member.length_bytes]
    omega
  have inside : before.length + 512 + member.data.length ≤ bytes.length := by omega
  have data_read : slice bytes (before.length + 512)
      (before.length + 512 + member.data.length) = .ok member.data := by
    apply slice_of_append (before ++ member.fields.bytes) (member.padding ++ after)
    · simp [split, Member.bytes]
    · rw [List.length_append, described.length]
    · rfl
  simp only [readEntry, described.checksumOk_eq, described.byteAt_typeflag, first_read,
    described.slice_size, size_read, described.entryName_eq reads.named, Checked.ok_bind, ensure,
    okOr, low, dataEnd, inside, data_read, next, decide_true, if_true]
  cases reads with
  | file is_file allowed =>
      have regular : (member.fields.typeflag == 48 || member.fields.typeflag == 0) = true := by
        simpa [IsFile] using is_file
      rw [if_pos regular]
      change (layout.filePath member.label >>= _) = _
      rw [allowed]
      rfl
  | folder is_folder allowed =>
      have is_folder : member.fields.typeflag = 53 := is_folder
      change layout.allowsDir (joinName _ _) = true at allowed
      simp [is_folder, allowed]

end Member

/-- The archive's end: less than a block, or a block of zeros. -/
def IsTrailer (trailer : Bytes) : Prop :=
  trailer.length < 512 ∨ (trailer.take 512).all (· == 0) = true

/-- Entries one after the other. -/
def archive (members : List Member) (trailer : Bytes) : Bytes :=
  members.flatMap Member.bytes ++ trailer

section archives

variable {layout : PackLayout} {bytes trailer : Bytes} {members : List Member}
  {found : List (Option (Text × Bytes))}

theorem readFrom_archive (reads : List.Forall₂ (Member.Reads layout) members found)
    (ends : IsTrailer trailer) (fits : bytes.length < 2 ^ 63) (fuel : ℕ) (before : Bytes)
    (files : List (Text × Bytes)) (split : bytes = before ++ archive members trailer)
    (enough : members.length < fuel) :
    readFrom bytes layout fuel before.length files =
      .ok (files ++ found.flatMap Option.toList) := by
  induction reads generalizing fuel before files with
  | nil =>
      cases fuel with
      | zero => cases enough
      | succ fuel =>
          unfold readFrom
          split_ifs with inside
          · rcases ends with short | zeros
            · rw [split] at inside
              simp only [archive, List.flatMap_nil, List.nil_append, List.length_append] at inside
              omega
            · rw [slice_of_le _ _ _ (by omega) inside, Checked.ok_bind, split]
              simp [archive, zeros]
          · simp
  | @cons member file members found first rest ih =>
      cases fuel with
      | zero => cases enough
      | succ fuel =>
          have split_first : bytes = before ++ (member.bytes ++ archive members trailer) := by
            simp [split, archive]
          have length_eq := congrArg List.length split_first
          rw [List.length_append, List.length_append, member.length_bytes] at length_eq
          have header : slice bytes before.length (before.length + 512) =
              .ok member.fields.bytes := by
            apply slice_of_append before (member.data ++ member.padding ++ archive members trailer)
            · simp [split_first, Member.bytes]
            · rfl
            · rw [member.described.length]
          unfold readFrom
          rw [if_pos (by omega), header, Checked.ok_bind, member.described.not_zero,
            first.readEntry_eq before _ split_first fits]
          have rest_read := ih fuel (before ++ member.bytes) (files ++ file.toList)
            (by simp [split_first]) (by simpa using enough)
          rw [List.length_append] at rest_read
          simpa using rest_read

theorem length_le_archive (members : List Member) (trailer : Bytes) :
    members.length ≤ (archive members trailer).length := by
  induction members with
  | nil => simp
  | cons member rest ih =>
      have split : archive (member :: rest) trailer = member.bytes ++ archive rest trailer := by
        simp [archive]
      rw [split, List.length_append, member.length_bytes, List.length_cons]
      omega

/-- `read_ustar` reads every entry of an archive, in its order. -/
theorem readUstar_archive (reads : List.Forall₂ (Member.Reads layout) members found)
    (ends : IsTrailer trailer) (fits : (archive members trailer).length < 2 ^ 63)
    (some_file : found.flatMap Option.toList ≠ []) :
    readUstar (archive members trailer) layout = .ok (found.flatMap Option.toList) := by
  have enough := length_le_archive members trailer
  have walked := readFrom_archive reads ends fits ((archive members trailer).length + 1) [] []
    (by simp) (by omega)
  rw [List.length_nil, List.nil_append] at walked
  simp [readUstar, walked, ensure, some_file]

end archives

end ScuffedCrew.Packs
