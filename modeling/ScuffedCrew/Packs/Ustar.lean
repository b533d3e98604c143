import ScuffedCrew.Packs.Layouts
import ScuffedCrew.Rust.Lossy
import ScuffedCrew.Rust.Numeric

/-!
# Reading an archive

`read_ustar` walks over headers of 512 bytes and the data behind each of them.
It ends for every byte string, without an index past the end of it.
-/

namespace ScuffedCrew.Packs

open Rust

/-! ## Header fields -/

def isBlank (byte : UInt8) : Bool := byte == 0 || byte == 32

/-- `parse_octal` from a value and whether a digit was seen. -/
def parseOctalFrom (value : ℕ) (saw : Bool) : Bytes → Option ℕ
  | [] => some value
  | byte :: rest =>
      if isBlank byte then if saw then some value else parseOctalFrom value saw rest
      else if !isAsciiDigit byte || decide (55 < byte) then none
      else
        ((checkedMul 64 value 8).bind fun shifted =>
          checkedAdd 64 shifted (byte - 48).toNat).bind fun value => parseOctalFrom value true rest

/-- `parse_octal`. -/
def parseOctal (field : Bytes) : Option ℕ := parseOctalFrom 0 false field

/-- The sum of the bytes, the eight of the checksum as blanks. -/
def headerSum (header : Bytes) : ℕ :=
  header.zipIdx.foldl
    (fun sum (byte, index) => sum + if 148 ≤ index ∧ index < 156 then 32 else byte.toNat) 0

/-- `checksum_ok`. -/
def checksumOk (header : Bytes) : Except Fault Bool := do
  let field ← slice header 148 156
  match parseOctal field with
  | none => .ok false
  | some recorded => .ok (headerSum header == recorded)

/-- `c_string`: up to the first NUL, and trimmed. -/
def cString (bytes : Bytes) : Text := (fromUtf8Lossy (bytes.takeWhile (· != 0))).trim

/-- A name below a folder. -/
def joinName (folder name : Text) : Text := if folder.isEmpty then name else folder ++ '/' :: name

/-- `entry_name`. -/
def entryName (header : Bytes) : Except Fault (Option Text) := do
  let nameField ← slice header 0 100
  let prefixField ← slice header 345 500
  let joined := joinName (cString prefixField) (cString nameField)
  .ok (if joined.isEmpty then none else some joined)

/-! ## Entries -/

/-- One turn of the loop: the file of the entry, and where the next one starts. -/
def readEntry (bytes : Bytes) (layout : PackLayout) (offset : ℕ) (header : Bytes) :
    Except Fault (Option (Text × Bytes) × ℕ) := do
  let sound ← checksumOk header
  ensure sound packUnsafe
  let typeflag ← byteAt header 156
  let first ← byteAt header 124
  -- a size that is not octal
  ensure (first &&& 0x80 == 0) packUnsafe
  let sizeField ← slice header 124 136
  let size ← okOr (parseOctal sizeField) packUnsafe
  let named ← entryName header
  let name ← okOr named packUnsafe
  let start := offset + 512
  let dataEnd := saturatingAdd 64 start size
  ensure (decide (dataEnd ≤ bytes.length)) packUnsafe
  let data ← slice bytes start dataEnd
  let padded := (size + 511) / 512 * 512
  let next := saturatingAdd 64 start padded
  if typeflag == 48 || typeflag == 0 then
    let path ← layout.filePath name
    .ok (some (path, data), next)
  else if typeflag == 53 then
    ensure (layout.allowsDir name) packUnsafe
    .ok (none, next)
  else reject packUnsafe

/-- The loop, with fuel. -/
def readFrom (bytes : Bytes) (layout : PackLayout) :
    ℕ → ℕ → List (Text × Bytes) → Except Fault (List (Text × Bytes))
  | 0, _, _ => .error .outOfFuel
  | fuel + 1, offset, files =>
      if offset + 512 ≤ bytes.length then do
        let header ← slice bytes offset (offset + 512)
        if header.all (· == 0) then .ok files
        else
          let (file, next) ← readEntry bytes layout offset header
          readFrom bytes layout fuel next (files ++ file.toList)
      else .ok files

/-- `read_ustar`. -/
def readUstar (bytes : Bytes) (layout : PackLayout) : Except Fault (List (Text × Bytes)) := do
  let files ← readFrom bytes layout (bytes.length + 1) 0 []
  ensure (!files.isEmpty) packMismatch
  .ok files

/-! ## Every walk ends -/

variable {bytes header : Bytes} {layout : PackLayout} {offset : ℕ}

theorem exists_slice (bytes : Bytes) (low high : ℕ) (ordered : low ≤ high)
    (inside : high ≤ bytes.length) :
    ∃ part, slice bytes low high = .ok part ∧ part.length = high - low := by
  refine ⟨_, slice_of_le bytes low high ordered inside, ?_⟩
  rw [List.length_take, List.length_drop]
  omega

theorem exists_byteAt (bytes : Bytes) (index : ℕ) (inside : index < bytes.length) :
    ∃ byte, byteAt bytes index = .ok byte :=
  ⟨_, byteAt_of_lt bytes index inside⟩

theorem onlyRejects_heroesV1 (raw : Text) : Checked.OnlyRejects (heroesV1FilePath raw) := by
  unfold heroesV1FilePath
  split
  · simp
  · split
    · simp
    · simp
    · simp

theorem onlyRejects_filePath (layout : PackLayout) (raw : Text) :
    Checked.OnlyRejects (layout.filePath raw) := by
  unfold PackLayout.filePath
  split_ifs
  · exact onlyRejects_heroesV1 raw
  all_goals simp

theorem exists_checksumOk (full : header.length = 512) :
    ∃ sound, checksumOk header = .ok sound := by
  rcases exists_slice header 148 156 (by omega) (by omega) with ⟨field, sliced, -⟩
  unfold checksumOk
  rw [sliced, Checked.ok_bind]
  split
  · exact ⟨_, rfl⟩
  · exact ⟨_, rfl⟩

theorem exists_entryName (full : header.length = 512) : ∃ named, entryName header = .ok named := by
  rcases exists_slice header 0 100 (by omega) (by omega) with ⟨name, name_sliced, -⟩
  rcases exists_slice header 345 500 (by omega) (by omega) with ⟨folder, folder_sliced, -⟩
  exact ⟨_, by rw [entryName, name_sliced, folder_sliced]; rfl⟩

/-- A turn reads inside the header and the archive. -/
theorem onlyRejects_readEntry (full : header.length = 512) (inside : offset + 512 ≤ bytes.length)
    (fits : bytes.length < 2 ^ 63) :
    Checked.OnlyRejects (readEntry bytes layout offset header) := by
  rcases exists_checksumOk full with ⟨sound, summed⟩
  rcases exists_byteAt header 156 (by omega) with ⟨typeflag, flagged⟩
  rcases exists_byteAt header 124 (by omega) with ⟨first, started⟩
  rcases exists_slice header 124 136 (by omega) (by omega) with ⟨sizeField, sized, -⟩
  rcases exists_entryName full with ⟨named, name_read⟩
  unfold readEntry
  simp only [summed, flagged, started, sized, name_read, Checked.ok_bind]
  refine Checked.onlyRejects_bind (by simp) fun _ _ => ?_
  refine Checked.onlyRejects_bind (by simp) fun _ _ => ?_
  refine Checked.onlyRejects_bind (by simp) fun size _ => ?_
  refine Checked.onlyRejects_bind (by simp) fun name _ => ?_
  refine Checked.onlyRejects_bind (by simp) fun _ ends => ?_
  have dataEnd_le : saturatingAdd 64 (offset + 512) size ≤ bytes.length := by simpa using ends
  have start_le : offset + 512 ≤ saturatingAdd 64 (offset + 512) size := by
    unfold saturatingAdd maxValue
    omega
  rw [slice_of_le _ _ _ start_le dataEnd_le, Checked.ok_bind]
  split_ifs
  · exact Checked.onlyRejects_bind (onlyRejects_filePath layout name) fun _ _ => by simp
  · exact Checked.onlyRejects_bind (by simp) fun _ _ => by simp
  · simp

/-- A turn goes on behind the header, with a file that the layout allows or none. -/
theorem readEntry_ok {file : Option (Text × Bytes)} {next : ℕ}
    (read : readEntry bytes layout offset header = .ok (file, next)) :
    min (offset + 512) (maxValue 64) ≤ next ∧
      ∀ path data, file = some (path, data) → ∃ name, layout.filePath name = .ok path := by
  unfold readEntry at read
  simp only [Checked.bind_eq_ok] at read
  rcases read with
    ⟨_, -, _, -, _, -, _, -, _, -, _, -, size, -, _, -, name, -, _, -, data, -, ended⟩
  have behind : min (offset + 512) (maxValue 64) ≤
      saturatingAdd 64 (offset + 512) ((size + 511) / 512 * 512) := by
    unfold saturatingAdd
    omega
  split_ifs at ended
  · rcases Checked.bind_eq_ok.mp ended with ⟨path, allowed, same⟩
    cases same
    refine ⟨behind, ?_⟩
    intro other _ same
    cases same
    exact ⟨name, allowed⟩
  · rcases Checked.bind_eq_ok.mp ended with ⟨_, -, same⟩
    cases same
    exact ⟨behind, by simp⟩
  · cases ended

/-- Each turn goes on behind its header, so the fuel lasts. -/
theorem onlyRejects_readFrom (fits : bytes.length < 2 ^ 63) (fuel : ℕ) (files : List (Text × Bytes))
    (fueled : 0 < fuel) (enough : bytes.length < offset + fuel) :
    Checked.OnlyRejects (readFrom bytes layout fuel offset files) := by
  induction fuel generalizing offset files with
  | zero => omega
  | succ fuel ih =>
      unfold readFrom
      split_ifs with inside
      · rcases exists_slice bytes offset (offset + 512) (by omega) inside with
          ⟨header, sliced, length⟩
        rw [sliced, Checked.ok_bind]
        split_ifs
        · simp
        · have full : header.length = 512 := by omega
          refine Checked.onlyRejects_bind (onlyRejects_readEntry full inside fits) ?_
          rintro ⟨file, next⟩ read
          have behind := (readEntry_ok read).1
          rw [Nat.min_eq_left (by unfold maxValue; omega)] at behind
          exact ih _ (by omega) (by omega)
      · simp

/-- `read_ustar` ends for every slice, and never reads past its end. -/
theorem onlyRejects_readUstar (fits : bytes.length < 2 ^ 63) (layout : PackLayout) :
    Checked.OnlyRejects (readUstar bytes layout) := by
  have walked : Checked.OnlyRejects (readFrom bytes layout (bytes.length + 1) 0 []) :=
    onlyRejects_readFrom fits _ _ (by omega) (by omega)
  refine Checked.onlyRejects_bind walked fun files _ => ?_
  exact Checked.onlyRejects_bind (by simp) fun _ _ => by simp

/-! ## What is read -/

theorem allowed_of_readFrom {fuel : ℕ} {files found : List (Text × Bytes)}
    (read : readFrom bytes layout fuel offset files = .ok found)
    (allowed : ∀ file ∈ files, ∃ name, layout.filePath name = .ok file.1) :
    ∀ file ∈ found, ∃ name, layout.filePath name = .ok file.1 := by
  induction fuel generalizing offset files with
  | zero => cases read
  | succ fuel ih =>
      unfold readFrom at read
      split_ifs at read with inside
      · rcases Checked.bind_eq_ok.mp read with ⟨header, -, rest⟩
        split_ifs at rest
        · cases rest
          exact allowed
        · rcases Checked.bind_eq_ok.mp rest with ⟨⟨file, next⟩, entry, rest⟩
          apply ih rest
          intro other other_mem
          rcases List.mem_append.mp other_mem with before | last
          · exact allowed other before
          · exact (readEntry_ok entry).2 other.1 other.2 (Option.mem_toList.mp last)
      · cases read
        exact allowed

/-- Every file that is read has a path of its layout. -/
theorem allowed_of_readUstar {files : List (Text × Bytes)}
    (read : readUstar bytes layout = .ok files) :
    ∀ file ∈ files, ∃ name, layout.filePath name = .ok file.1 := by
  rcases Checked.bind_eq_ok.mp read with ⟨found, walked, rest⟩
  rcases Checked.bind_eq_ok.mp rest with ⟨_, -, same⟩
  cases same
  exact allowed_of_readFrom walked (by simp)

end ScuffedCrew.Packs
