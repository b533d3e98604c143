import Mathlib.Tactic.SplitIfs
import ScuffedCrew.Packs.Catalog
import ScuffedCrew.Rust.Folders

/-!
# The paths of a layout

Which names a pack of each layout may store, and the path a name is stored
under.  A stored path is one or two plain components, so it stays in the pack's
folder, and its components determine it.
-/

namespace ScuffedCrew.Packs

open Rust

/-- `PACK_MISMATCH`. -/
def packMismatch : String :=
  "The reader pack did not match the site. The installed pack was left in place."

/-- `PACK_UNSAFE`. -/
def packUnsafe : String :=
  "The reader pack was not safe to unpack. The installed pack was left in place."

/-- `PACK_FAILED`. -/
def packFailed : String :=
  "Could not download the reader pack. The installed pack was left in place."

def manifestName : Text := "manifest.json".toList

def specialFolder : Text := "special".toList

/-! ## Safe relative paths -/

/-- The components that count, nothing when one of them is refused. -/
def relParts : List Text → Option (List Text)
  | [] => some []
  | part :: rest =>
      if part.isEmpty || part == ['.'] then relParts rest
      else if part == Path.up || part.contains (Char.ofNat 0) then none
      else (relParts rest).map (part :: ·)

/-- `safe_rel_path`. -/
def safeRelPath (raw : Text) : Option Text :=
  if raw.isEmpty || raw.head? == some '/' || raw.head? == some '\\' then none
  -- a drive letter
  else if raw.utf8[1]? == some 58 then none
  else
    match relParts (raw.splitOnP fun letter => letter == '/' || letter == '\\') with
    | none => none
    | some [] => none
    | some parts => some (Path.text parts)

/-- `heroes_v1_file_path`. -/
def heroesV1FilePath (raw : Text) : Except Fault Text :=
  match safeRelPath raw with
  | none => reject packUnsafe
  | some path =>
      match path.splitOn '/' with
      | [_] => .ok path
      | [folder, file] =>
          if folder == specialFolder && !file.isEmpty then .ok path else reject packUnsafe
      | _ => reject packUnsafe

/-! ## The strict layouts -/

/-- `MAX_STEM`. -/
def maxStem : ℕ := 64

/-- `is_plain_name`. -/
def isPlainName (raw ext : Text) (allowed : UInt8 → Bool) : Bool :=
  (raw.stripEnd ext).any fun stem =>
    !stem.isEmpty && decide (stem.byteLen ≤ maxStem) && stem.utf8.all allowed

/-- `u8::is_ascii_digit`. -/
def isAsciiDigit (byte : UInt8) : Bool := decide (48 ≤ byte ∧ byte ≤ 57)

/-- `is_key_byte`. -/
def isKeyByte (byte : UInt8) : Bool :=
  isAsciiLowercase byte || isAsciiDigit byte || byte == 95 || byte == 45

/-- `is_word_byte`. -/
def isWordByte (byte : UInt8) : Bool := isAsciiLowercase byte || isAsciiDigit byte || byte == 95

/-- `is_names_v1_file`. -/
def isNamesV1File (raw : Text) : Bool :=
  raw == "glyphs.png".toList || raw == "glyphs.txt".toList || raw == "marks.png".toList ||
    raw == "marks.txt".toList || raw == "compose.txt".toList || raw == "whiten.f32".toList

/-- `is_glyph_name`. -/
def isGlyphName (raw : Text) : Bool :=
  ((raw.stripStart ['g']).bind (·.stripEnd ".png".toList)).any fun hex =>
    decide (hex.byteLen = 4) &&
      hex.utf8.all fun byte => isAsciiDigit byte || decide (97 ≤ byte ∧ byte ≤ 102)

namespace PackLayout

/-- The names a layout other than heroes-v1 allows beside its manifest. -/
def allows (layout : PackLayout) (raw : Text) : Bool :=
  match layout with
  | .heroesV1 => false
  | .portraits =>
      match raw.stripStart "special/".toList with
      | some file => isPlainName file ".png".toList isKeyByte
      | none => isPlainName raw ".png".toList isKeyByte
  | .banIcons => isPlainName raw ".png".toList isKeyByte
  | .mapGlyphs => raw == "atlas.json".toList || isGlyphName raw
  | .words =>
      isPlainName raw ".png".toList isWordByte || isPlainName raw ".json".toList isWordByte
  | .names => isNamesV1File raw

/-- `file_path`. -/
def filePath (layout : PackLayout) (raw : Text) : Except Fault Text :=
  if layout = .heroesV1 then heroesV1FilePath raw
  else if raw = manifestName then .ok raw
  else if layout.allows raw then .ok raw
  else reject packUnsafe

/-- `allows_dir`. -/
def allowsDir (layout : PackLayout) (raw : Text) : Bool :=
  match layout with
  | .heroesV1 | .portraits => safeRelPath raw == some specialFolder
  | .banIcons | .mapGlyphs | .words | .names => false

end PackLayout

/-! ## What a stored path is -/

/-- One plain name, or one in the folder `special`. -/
def IsStored (parts : Path) : Prop :=
  (∀ part ∈ parts, Path.Plain part) ∧
    ((∃ name, parts = [name]) ∨ ∃ name, parts = [specialFolder, name])

/-- A path that a layout stores. -/
def IsStoredPath (path : Text) : Prop := ∃ parts, path = Path.text parts ∧ IsStored parts

theorem IsStored.ne_nil {parts : Path} (stored : IsStored parts) : parts ≠ [] := by
  rcases stored.2 with ⟨name, rfl⟩ | ⟨name, rfl⟩ <;> simp

theorem plain_special : Path.Plain specialFolder :=
  ⟨by decide, by decide, by decide, by decide⟩

theorem plain_of_length {part : Text} (long : 3 ≤ part.length) (unsplit : '/' ∉ part) :
    Path.Plain part := by
  refine ⟨?_, ?_, ?_, unsplit⟩
  all_goals
    rintro rfl
    simp [Path.up] at long

theorem mem_of_splitOnP {separates : Char → Bool} {raw part : Text}
    (part_mem : part ∈ raw.splitOnP separates) :
    ∀ letter ∈ part, letter ∈ raw ∧ separates letter = false := by
  induction raw generalizing part with
  | nil =>
      rw [List.splitOnP_nil, List.mem_singleton] at part_mem
      simp [part_mem]
  | cons first rest ih =>
      rw [List.splitOnP_cons_eq_if_modifyHead] at part_mem
      split at part_mem
      case isTrue =>
        rcases List.mem_cons.mp part_mem with rfl | later
        · simp
        · intro letter letter_mem
          have found := ih later letter letter_mem
          exact ⟨List.mem_cons_of_mem _ found.1, found.2⟩
      case isFalse kept =>
        cases split : rest.splitOnP separates with
        | nil => simp [split] at part_mem
        | cons head tail =>
            rw [split] at part_mem ih
            simp only [List.modifyHead_cons, List.mem_cons] at part_mem
            intro letter letter_mem
            rcases part_mem with rfl | later
            · rcases List.mem_cons.mp letter_mem with rfl | deeper
              · exact ⟨List.mem_cons_self, by simpa using kept⟩
              · have found := ih List.mem_cons_self letter deeper
                exact ⟨List.mem_cons_of_mem _ found.1, found.2⟩
            · have found := ih (List.mem_cons_of_mem _ later) letter letter_mem
              exact ⟨List.mem_cons_of_mem _ found.1, found.2⟩

theorem plain_of_relParts {raw parts : List Text} (read : relParts raw = some parts)
    (unsplit : ∀ part ∈ raw, '/' ∉ part) : ∀ part ∈ parts, Path.Plain part := by
  induction raw generalizing parts with
  | nil =>
      cases read
      simp
  | cons first rest ih =>
      have others := fun part part_mem => unsplit part (List.mem_cons_of_mem _ part_mem)
      unfold relParts at read
      split_ifs at read with skipped refused
      · exact ih read others
      · rcases Option.map_eq_some_iff.mp read with ⟨tail, read_tail, rfl⟩
        intro part part_mem
        rcases List.mem_cons.mp part_mem with rfl | later
        · simp only [Bool.or_eq_true, List.isEmpty_iff, beq_iff_eq, not_or] at skipped refused
          exact ⟨skipped.1, skipped.2, refused.1, unsplit part List.mem_cons_self⟩
        · exact ih read_tail others part later

theorem plain_of_safeRelPath {raw path : Text} (safe : safeRelPath raw = some path) :
    ∃ parts, parts ≠ [] ∧ path = Path.text parts ∧ ∀ part ∈ parts, Path.Plain part := by
  unfold safeRelPath at safe
  split_ifs at safe
  split at safe
  · cases safe
  · cases safe
  · rename_i parts nonempty read
    cases safe
    refine ⟨parts, nonempty, rfl, plain_of_relParts read ?_⟩
    intro part part_mem slash
    have := (mem_of_splitOnP part_mem '/' slash).2
    simp at this

theorem isStored_of_heroesV1 {raw path : Text} (allowed : heroesV1FilePath raw = .ok path) :
    IsStoredPath path := by
  unfold heroesV1FilePath at allowed
  split at allowed
  · cases allowed
  · rename_i found safe
    rcases plain_of_safeRelPath safe with ⟨parts, nonempty, rfl, plain⟩
    have split : (Path.text parts).splitOn '/' = parts :=
      List.splitOn_intercalate _ (fun part part_mem => (plain part part_mem).2.2.2) nonempty
    rw [split] at allowed
    split at allowed
    · rename_i name
      cases allowed
      exact ⟨[name], rfl, plain, .inl ⟨name, rfl⟩⟩
    · rename_i folder file
      split_ifs at allowed with special
      · cases allowed
        simp only [Bool.and_eq_true, beq_iff_eq] at special
        exact ⟨[folder, file], rfl, plain, .inr ⟨file, by rw [special.1]⟩⟩
      · cases allowed
    · cases allowed

theorem stripEnd_eq_some {text ext stem : Text} (stripped : text.stripEnd ext = some stem) :
    text = stem ++ ext := by
  unfold Text.stripEnd at stripped
  split_ifs at stripped with ends
  cases stripped
  rcases List.isSuffixOf_iff_suffix.mp ends with ⟨start, rfl⟩
  simp

theorem stripStart_eq_some {text start rest : Text} (stripped : text.stripStart start = some rest) :
    text = start ++ rest := by
  unfold Text.stripStart at stripped
  split_ifs at stripped with starts
  cases stripped
  rcases List.isPrefixOf_iff_prefix.mp starts with ⟨rest, rfl⟩
  simp

theorem slash_of_mem {text : Text} (slash : '/' ∈ text) : 47 ∈ text.utf8 :=
  List.mem_flatMap.mpr ⟨'/', slash, by decide⟩

theorem plain_of_isPlainName {raw ext : Text} {allowed : UInt8 → Bool}
    (named : isPlainName raw ext allowed = true) (refused : allowed 47 = false)
    (long : 2 ≤ ext.length) (unsplit : '/' ∉ ext) : Path.Plain raw := by
  rcases (Option.any_eq_true _ _).mp named with ⟨stem, stripped, good⟩
  rcases stripEnd_eq_some stripped with rfl
  simp only [Bool.and_eq_true, Bool.not_eq_true', decide_eq_true_eq, List.all_eq_true,
    List.isEmpty_eq_false_iff] at good
  apply plain_of_length
  · have := List.length_pos_iff.mpr good.1.1
    rw [List.length_append]
    omega
  · intro slash
    rcases List.mem_append.mp slash with within | within
    · have := good.2 47 (slash_of_mem within)
      simp [refused] at this
    · exact unsplit within

theorem plain_of_isGlyphName {raw : Text} (named : isGlyphName raw = true) : Path.Plain raw := by
  rcases (Option.any_eq_true _ _).mp named with ⟨hex, stripped, good⟩
  rcases Option.bind_eq_some_iff.mp stripped with ⟨rest, started, ended⟩
  rcases stripStart_eq_some started with rfl
  rcases stripEnd_eq_some ended with rfl
  simp only [Bool.and_eq_true, decide_eq_true_eq, List.all_eq_true] at good
  apply plain_of_length
  · simp
  · intro slash
    rcases List.mem_append.mp slash with within | within
    · exact absurd within (by decide)
    · rcases List.mem_append.mp within with within | within
      · have := good.2 47 (slash_of_mem within)
        revert this
        decide
      · exact absurd within (by decide)

theorem isStored_of_plain {name : Text} (plain : Path.Plain name) : IsStored [name] :=
  ⟨by simpa using plain, .inl ⟨name, rfl⟩⟩

theorem isStored_of_allows {layout : PackLayout} {raw : Text} (allowed : layout.allows raw = true) :
    IsStoredPath raw := by
  have single : Path.Plain raw → IsStoredPath raw := by
    intro plain
    exact ⟨[raw], by simp, isStored_of_plain plain⟩
  cases layout with
  | heroesV1 => cases allowed
  | portraits =>
      rw [PackLayout.allows] at allowed
      split at allowed
      · rename_i file stripped
        have plain := plain_of_isPlainName allowed (by decide) (by decide) (by decide)
        refine ⟨[specialFolder, file], ?_, ?_, .inr ⟨file, rfl⟩⟩
        · rw [stripStart_eq_some stripped, Path.text_pair]
          rfl
        · simp [plain, plain_special]
      · exact single (plain_of_isPlainName allowed (by decide) (by decide) (by decide))
  | banIcons => exact single (plain_of_isPlainName allowed (by decide) (by decide) (by decide))
  | mapGlyphs =>
      rcases Bool.or_eq_true_iff.mp allowed with atlas | glyph
      · exact single (beq_iff_eq.mp atlas ▸ plain_of_length (by decide) (by decide))
      · exact single (plain_of_isGlyphName glyph)
  | words =>
      rcases Bool.or_eq_true_iff.mp allowed with named | named
      · exact single (plain_of_isPlainName named (by decide) (by decide) (by decide))
      · exact single (plain_of_isPlainName named (by decide) (by decide) (by decide))
  | names =>
      simp only [PackLayout.allows, isNamesV1File, Bool.or_eq_true, beq_iff_eq] at allowed
      rcases allowed with ((((rfl | rfl) | rfl) | rfl) | rfl) | rfl
      all_goals exact single (plain_of_length (by decide) (by decide))

/-- A stored path stays in the pack's folder. -/
theorem isStored_of_filePath {layout : PackLayout} {raw path : Text}
    (allowed : layout.filePath raw = .ok path) : IsStoredPath path := by
  unfold PackLayout.filePath at allowed
  split_ifs at allowed with heroes manifest listed
  · exact isStored_of_heroesV1 allowed
  · cases allowed
    refine ⟨[manifestName], by simp [manifest], isStored_of_plain ?_⟩
    exact plain_of_length (by decide) (by decide)
  · cases allowed
    exact isStored_of_allows listed
  · cases allowed

end ScuffedCrew.Packs
