import ScuffedCrew.Packs.Accepted
import ScuffedCrew.Packs.PackBytes

/-!
# Exact unpacking

An unpacking ends, stays in the staging folder and leaves there what its manifest
lists.  An archive of a well-formed manifest and its files is unpacked, but for
names with white space at their ends: `read_ustar` trims the names of headers, and
the manifest's paths keep theirs.
-/

namespace ScuffedCrew.Packs

open Rust

/-- The bytes that a manifest lists for a file. -/
def IsContent (tools : Tools) (file : InnerFile) (content : Text × Bytes) : Prop :=
  content.1 = file.path ∧ content.2.length = file.size ∧ tools.sha256Hex content.2 = file.sha256

/-- The entries are the manifest and its files in any order, and folders of the layout. -/
structure IsPack (tools : Tools) (layout : PackLayout) (manifest : InnerManifest)
    (manifestBytes : Bytes) (members : List Member) : Prop where
  kinds : ∀ member ∈ members,
    member.IsFile ∨ member.IsFolder ∧ layout.allowsDir member.path = true
  contents : ∃ contents, List.Forall₂ (IsContent tools) manifest.files contents ∧
    ((members.filter fun member => member.IsFile).map fun member =>
      (member.path, member.data)).Perm ((manifestName, manifestBytes) :: contents)

/-- The header's name and folder have no white space at their ends. -/
def Member.IsTrimmed (member : Member) : Prop :=
  member.name.trim = member.name ∧ member.folder.trim = member.folder

theorem Member.IsTrimmed.label_eq {member : Member} (trimmed : member.IsTrimmed) :
    member.label = member.path := by
  rw [Member.label, Member.path, trimmed.1, trimmed.2]

section accepted

variable {tools : Tools} {layout : PackLayout} {name version : Text} {manifest : InnerManifest}
  {manifestBytes : Bytes} {members : List Member}

/-- The path a name is stored under. -/
def storedAs (layout : PackLayout) (raw : Text) : Text := (layout.filePath raw).toOption.getD []

theorem storedAs_eq {raw path : Text} (allowed : layout.filePath raw = .ok path) :
    storedAs layout raw = path := by
  simp [storedAs, allowed, Except.toOption]

theorem filePath_manifest (layout : PackLayout) :
    layout.filePath manifestName = .ok manifestName := by
  cases layout <;> rfl

/-- What is read from an entry of a pack. -/
def entryOf (layout : PackLayout) (member : Member) : Option (Text × Bytes) :=
  if member.IsFile then some (storedAs layout member.path, member.data) else none

theorem flatMap_entryOf (members : List Member) :
    (members.map (entryOf layout)).flatMap Option.toList =
      ((members.filter fun member => member.IsFile).map fun member =>
        (member.path, member.data)).map fun file => (storedAs layout file.1, file.2) := by
  induction members with
  | nil => rfl
  | cons member rest ih =>
      rw [List.map_cons, List.flatMap_cons, ih]
      by_cases is_file : member.IsFile <;> simp [entryOf, is_file]

theorem delivers_of_contents {listed : List InnerFile} {contents : List (Text × Bytes)}
    (given : List.Forall₂ (IsContent tools) listed contents)
    (allowed : ∀ file ∈ listed, ∃ path, layout.filePath file.path = .ok path) :
    List.Forall₂ (Delivers tools layout) listed
      (contents.map fun file => (storedAs layout file.1, file.2)) := by
  induction given with
  | nil => exact .nil
  | @cons file content listed contents first rest ih =>
      refine .cons ?_ (ih fun file later => allowed file (List.mem_cons_of_mem _ later))
      rcases allowed file List.mem_cons_self with ⟨path, path_eq⟩
      refine ⟨?_, first.2⟩
      simp only [first.1]
      rw [storedAs_eq path_eq, path_eq]

/-- Each entry of a pack is read, under the path of its name. -/
theorem reads_of_isPack (formed : WellFormed layout name version manifest)
    (pack : IsPack tools layout manifest manifestBytes members)
    (trimmed : ∀ member ∈ members, member.label = member.path) :
    List.Forall₂ (Member.Reads layout) members (members.map (entryOf layout)) := by
  rw [List.forall₂_map_right_iff, List.forall₂_same]
  intro member member_mem
  rcases pack.contents with ⟨contents, given, perm⟩
  by_cases is_file : member.IsFile
  · have packed_mem : (member.path, member.data) ∈ (manifestName, manifestBytes) :: contents := by
      apply perm.mem_iff.mp
      exact List.mem_map.mpr ⟨member, List.mem_filter.mpr ⟨member_mem, by simpa using is_file⟩, rfl⟩
    have allowed : ∃ path, layout.filePath member.path = .ok path := by
      rcases List.mem_cons.mp packed_mem with same | listed
      · rw [(Prod.mk.inj same).1]
        exact ⟨manifestName, filePath_manifest layout⟩
      · rcases (mem_of_forall₂ given).1 _ listed with ⟨file, file_mem, content⟩
        rcases formed.listing.allowed file file_mem with ⟨path, path_eq, -⟩
        exact ⟨path, by rw [← path_eq, ← content.1]⟩
    rcases allowed with ⟨path, allowed⟩
    rw [entryOf, if_pos is_file, storedAs_eq allowed]
    exact .file is_file (by rwa [trimmed member member_mem])
  · rcases pack.kinds member member_mem with file | ⟨is_folder, allowed⟩
    · exact absurd file is_file
    · rw [entryOf, if_neg is_file]
      exact .folder is_folder (by rwa [trimmed member member_mem])

/-- A pack is unpacked into an empty folder, whatever the order of its entries is. -/
theorem accepts_isPack {trailer : Bytes} {staging : Path} {tree : Tree}
    (parsed : tools.parseManifest manifestBytes = some manifest)
    (formed : WellFormed layout name version manifest)
    (pack : IsPack tools layout manifest manifestBytes members)
    (trimmed : ∀ member ∈ members, member.label = member.path) (ends : IsTrailer trailer)
    (fits : (archive members trailer).length < 2 ^ 63) (folder : Job.IsFolder tree staging.locate)
    (empty : ∀ parts, parts ≠ [] → tree (staging.locate ++ parts) = none) :
    ∃ after, unpackPack Device.reliable staging tools (archive members trailer) layout name version
      tree = (.ok (tools.sha256Hex manifestBytes), after) := by
  rcases pack.contents with ⟨contents, given, perm⟩
  have delivers := delivers_of_contents given fun file file_mem =>
    (formed.listing.allowed file file_mem).imp fun _ => And.left
  have stored_perm := perm.map fun file => (storedAs layout file.1, file.2)
  rw [← flatMap_entryOf, List.map_cons, storedAs_eq (filePath_manifest layout)] at stored_perm
  have some_file : (members.map (entryOf layout)).flatMap Option.toList ≠ [] := by
    intro none
    rw [none] at stored_perm
    exact absurd stored_perm.symm.eq_nil (List.cons_ne_nil _ _)
  have read := readUstar_archive (reads_of_isPack formed pack trimmed) ends fits some_file
  exact unpackPack_of_perm read parsed formed delivers stored_perm folder empty

end accepted

/-! ## Packs of one file -/

/-- A parser and a hash that answer for the inputs given. -/
def toolsFor (manifestBytes : Bytes) (manifest : InnerManifest) (digests : List (Bytes × Bytes)) :
    Tools where
  digest bytes := (digests.lookup bytes).getD (List.replicate 32 0)
  parseManifest bytes := if bytes = manifestBytes then some manifest else none

theorem toolsFor_parse (manifestBytes : Bytes) (manifest : InnerManifest)
    (digests : List (Bytes × Bytes)) :
    (toolsFor manifestBytes manifest digests).parseManifest manifestBytes = some manifest :=
  if_pos rfl

/-- An empty folder at the root. -/
def freshTree (folder : Text) : Tree := fun path =>
  if path <+: [folder] then some .folder else none

theorem isFolder_freshTree (folder : Text) : Job.IsFolder (freshTree folder) [folder] :=
  fun _ above => if_pos above

theorem empty_freshTree (folder : Text) (parts : Path) (named : parts ≠ []) :
    freshTree folder ([folder] ++ parts) = none := by
  refine if_neg fun above => ?_
  have shorter := above.length_le
  have := List.length_pos_iff.mpr named
  simp only [List.length_append, List.length_singleton] at shorter
  omega

theorem length_archive_pair {first second : Member} (small : first.data.length < 8 ^ 11)
    (small' : second.data.length < 8 ^ 11) {trailer : Bytes} (short : trailer.length ≤ 1024) :
    (archive [first, second] trailer).length < 2 ^ 63 := by
  simp only [archive, List.flatMap_cons, List.flatMap_nil, List.append_nil, List.length_append,
    Member.length_bytes]
  omega

theorem apart_self {path : Text} (a_path : IsStoredPath path) : Apart path path := by
  intro above
  have shorter := above.length_le
  have := List.length_pos_iff.mpr a_path.components_eq.2.ne_nil
  rw [List.length_dropLast] at shorter
  omega

theorem wellFormed_single {layout : PackLayout} {name version : Text} {file : InnerFile}
    (allowed : layout.filePath file.path = .ok file.path) (other : file.path ≠ manifestName)
    (hashed : isSha256 file.sha256 = true) :
    WellFormed layout name version ⟨name, version, [file]⟩ where
  named := rfl
  versioned := rfl
  nonempty := by simp
  listing := ⟨by simpa using ⟨file.path, allowed, other⟩, by simpa using hashed, by simp⟩
  apart := by
    intro one one_mem two two_mem path otherPath path_eq other_eq
    rcases List.mem_singleton.mp one_mem with rfl
    rcases List.mem_singleton.mp two_mem with rfl
    rw [path_eq] at other_eq
    cases other_eq
    exact apart_self (isStored_of_filePath path_eq)

/-- The order of the entries does not matter. -/
theorem IsPack.perm {tools : Tools} {layout : PackLayout} {manifest : InnerManifest}
    {manifestBytes : Bytes} {members others : List Member}
    (pack : IsPack tools layout manifest manifestBytes members) (same : members.Perm others) :
    IsPack tools layout manifest manifestBytes others where
  kinds member member_mem := pack.kinds member (same.mem_iff.mpr member_mem)
  contents := by
    rcases pack.contents with ⟨contents, given, perm⟩
    exact ⟨contents, given, ((same.filter _).map _).symm.trans perm⟩

section single

variable {tools : Tools} {layout : PackLayout} {name version path : Text} {file : InnerFile}
  {manifestBytes data : Bytes} {staging : Path} {tree : Tree}

/-- The pack of a manifest with one file. -/
def singlePack (path : Text) (manifestBytes data : Bytes) (small : manifestBytes.length < 8 ^ 11)
    (fits : path.byteLen ≤ 100) (unterminated : Char.ofNat 0 ∉ path)
    (small' : data.length < 8 ^ 11) : List Member :=
  [ustarFile manifestName manifestBytes (by decide) (by decide) small,
    ustarFile path data fits unterminated small']

variable {small : manifestBytes.length < 8 ^ 11} {fits : file.path.byteLen ≤ 100}
  {unterminated : Char.ofNat 0 ∉ file.path} {small' : data.length < 8 ^ 11}

theorem isPack_single (given : IsContent tools file (file.path, data)) :
    IsPack tools layout ⟨name, version, [file]⟩ manifestBytes
      (singlePack file.path manifestBytes data small fits unterminated small') where
  kinds := by
    intro member member_mem
    rcases List.mem_pair.mp member_mem with rfl | rfl
    · exact .inl (.inl rfl)
    · exact .inl (.inl rfl)
  contents := ⟨[(file.path, data)], .cons given .nil, List.Perm.refl _⟩

theorem isTrimmed_single (trimmed : file.path.trim = file.path) :
    ∀ member ∈ singlePack file.path manifestBytes data small fits unterminated small',
      member.IsTrimmed := by
  intro member member_mem
  rcases List.mem_pair.mp member_mem with rfl | rfl
  · exact ⟨rfl, rfl⟩
  · exact ⟨trimmed, rfl⟩

theorem length_reverse {trailer : Bytes} (short : trailer.length ≤ 1024) :
    (archive (singlePack file.path manifestBytes data small fits unterminated small').reverse
      trailer).length < 2 ^ 63 :=
  length_archive_pair small' small short

theorem readUstar_single (read : layout.filePath file.path.trim = .ok path) :
    readUstar (archive (singlePack file.path manifestBytes data small fits unterminated small') [])
      layout = .ok [(manifestName, manifestBytes), (path, data)] := by
  have first : (ustarFile manifestName manifestBytes (by decide) (by decide) small).Reads layout
      (some (manifestName, manifestBytes)) := .file (.inl rfl) (filePath_manifest layout)
  have second : (ustarFile file.path data fits unterminated small').Reads layout
      (some (path, data)) := .file (.inl rfl) read
  exact readUstar_archive (.cons first (.cons second .nil)) (.inl (by simp))
    (length_archive_pair small small' (by simp)) (List.cons_ne_nil _ _)

/-- A pack is refused when its file's name is read as another path than the manifest's. -/
theorem refuses_single (parsed : tools.parseManifest manifestBytes = some ⟨name, version, [file]⟩)
    (formed : WellFormed layout name version ⟨name, version, [file]⟩)
    (read : layout.filePath file.path.trim = .ok path) (named : path ≠ manifestName)
    (other : layout.filePath file.path ≠ .ok path) :
    unpackPack Device.reliable staging tools
      (archive (singlePack file.path manifestBytes data small fits unterminated small') []) layout
      name version tree = (reject packMismatch, tree) := by
  have single : [(manifestName, manifestBytes), (path, data)].filter
      (fun file => file.1 == manifestName) = [(manifestName, manifestBytes)] := by
    simp [named]
  have none_listed : ∀ one ∈ [file], ∀ path ∈ (∅ : Finset Text),
      layout.filePath one.path ≠ .ok path := by simp
  rcases listedPaths_of_listing formed.listing none_listed with ⟨listed, lists⟩
  have unlisted : checkFile tools layout ⟨name, version, [file]⟩ path data =
      reject packMismatch := by
    have missed : ((layout.filePath file.path).toOption == some path) = false := by
      simpa [toOption_eq_some] using other
    simp [checkFile, missed, okOr, reject]
  have stops : storeFiles Device.reliable staging tools layout ⟨name, version, [file]⟩
      [(manifestName, manifestBytes), (path, data)] ∅ tree = (reject packMismatch, tree) := by
    simp only [storeFiles, if_true, if_neg named]
    have unseen : ensure (decide (path ∉ (∅ : Finset Text))) packUnsafe = .ok () := by simp
    apply (Job.lift_bind_of_ok _ unseen).trans
    rw [unlisted]
    rfl
  apply (Job.lift_bind_of_ok _ (readUstar_single read)).trans
  apply (Job.lift_bind_of_ok _ (readManifest_of_perm parsed formed single)).trans
  apply (Job.lift_bind_of_ok _ lists).trans
  exact Job.bind_of_error _ stops

end single

/-- For every archive the walk and the unpacking end without reading past the input.  Nothing is
written but below the staging folder, which a success leaves with what the manifest lists.
Every pack of trimmed names is unpacked. -/
theorem unpacking_is_exact (tools : Tools) (layout : PackLayout) (name version : Text) :
    (∀ bytes : Bytes, bytes.length < 2 ^ 63 → Checked.OnlyRejects (readUstar bytes layout) ∧
      ∀ device staging, (unpackPack device staging tools bytes layout name version).Settles) ∧
    (∀ bytes device staging, Job.Confined (Path.locate staging)
      (unpackPack device staging tools bytes layout name version)) ∧
    (∀ bytes device staging tree hash after,
      (∀ parts, parts ≠ [] → tree (Path.locate staging ++ parts) = none) →
      unpackPack device staging tools bytes layout name version tree = (.ok hash, after) →
      ∃ files manifestBytes manifest, readUstar bytes layout = .ok files ∧
        hash = tools.sha256Hex manifestBytes ∧
        Unpacked tools layout files name version (Path.locate staging) after manifestBytes
          manifest) ∧
    ∀ manifest manifestBytes members trailer staging tree,
      tools.parseManifest manifestBytes = some manifest →
      WellFormed layout name version manifest →
      IsPack tools layout manifest manifestBytes members →
      (∀ member ∈ members, member.IsTrimmed) → IsTrailer trailer →
      (archive members trailer).length < 2 ^ 63 → Job.IsFolder tree (Path.locate staging) →
      (∀ parts, parts ≠ [] → tree (Path.locate staging ++ parts) = none) →
      ∃ after, unpackPack Device.reliable staging tools (archive members trailer) layout name
        version tree = (.ok (tools.sha256Hex manifestBytes), after) := by
  refine ⟨?_, ?_, ?_, ?_⟩
  · intro bytes fits
    exact ⟨onlyRejects_readUstar fits layout, fun device staging =>
      settles_unpackPack fits name version⟩
  · intro bytes device staging
    exact confined_unpackPack bytes name version
  · intro bytes device staging tree hash after empty ran
    exact unpacked_of_ok empty ran
  · intro manifest manifestBytes members trailer staging tree parsed formed pack trimmed ends fits
      folder empty
    exact accepts_isPack parsed formed pack
      (fun member member_mem => (trimmed member member_mem).label_eq) ends fits folder empty

def wordsText : Text :=
  "\x7b\"name\":\"words-v1.tar\",\"version\":\"1\",\"files\":[".toList ++
    "\x7b\"path\":\"win.png\",\"sha256\":\"039058c6f2c0cb492c533b0a4d14ef77".toList ++
      "cc0f78abccced5287d84a1a2011cfb81\",\"size\":3\x7d]\x7d".toList

def wordsBytes : Bytes := wordsText.utf8

def wordsFile : InnerFile where
  path := "win.png".toList
  sha256 := "039058c6f2c0cb492c533b0a4d14ef77cc0f78abccced5287d84a1a2011cfb81".toList
  size := 3

def wordsTools : Tools :=
  toolsFor wordsBytes ⟨"words-v1.tar".toList, "1".toList, [wordsFile]⟩
    [([1, 2, 3], [3, 144, 88, 198, 242, 192, 203, 73, 44, 83, 59, 10, 77, 20, 239, 119, 204, 15,
        120, 171, 204, 206, 213, 40, 125, 132, 161, 162, 1, 28, 251, 129]),
      (wordsBytes, [164, 152, 46, 220, 153, 194, 11, 78, 210, 109, 94, 110, 95, 194, 104, 78, 93,
        47, 49, 100, 213, 192, 84, 51, 106, 103, 12, 184, 56, 17, 48, 201])]

theorem words_fits : wordsBytes.length < 8 ^ 11 :=
  (byteLen_le wordsText).trans_lt (by decide +kernel)

theorem isContent_words : IsContent wordsTools wordsFile (wordsFile.path, [1, 2, 3]) :=
  ⟨rfl, rfl, by decide +kernel⟩

theorem wellFormed_words : WellFormed .words "words-v1.tar".toList "1".toList
    ⟨"words-v1.tar".toList, "1".toList, [wordsFile]⟩ :=
  wellFormed_single rfl (by decide) (by decide)

/-- The file comes before the manifest. -/
def wordsMembers : List Member :=
  (singlePack wordsFile.path wordsBytes [1, 2, 3] words_fits (by decide) (by decide)
    (by decide)).reverse

theorem isPack_words : IsPack wordsTools .words ⟨"words-v1.tar".toList, "1".toList, [wordsFile]⟩
    wordsBytes wordsMembers :=
  (isPack_single isContent_words).perm (List.reverse_perm _).symm

theorem words_pack_is_unpacked : ∃ hash after files manifestBytes manifest,
    unpackPack Device.reliable ["next".toList] wordsTools
      (archive wordsMembers (List.replicate 1024 0)) .words "words-v1.tar".toList "1".toList
      (freshTree "next".toList) = (.ok hash, after) ∧
    readUstar (archive wordsMembers (List.replicate 1024 0)) .words = .ok files ∧
    Unpacked wordsTools .words files "words-v1.tar".toList "1".toList ["next".toList] after
      manifestBytes manifest := by
  have exact_words := unpacking_is_exact wordsTools .words "words-v1.tar".toList "1".toList
  have trimmed : ∀ member ∈ wordsMembers, member.IsTrimmed := fun member member_mem =>
    isTrimmed_single rfl member (List.mem_reverse.mp member_mem)
  have fits : (archive wordsMembers (List.replicate 1024 0)).length < 2 ^ 63 :=
    length_reverse List.length_replicate.le
  rcases exact_words.2.2.2 _ wordsBytes wordsMembers (List.replicate 1024 0) ["next".toList]
    (freshTree "next".toList) (toolsFor_parse _ _ _) wellFormed_words isPack_words trimmed
    (isTrailer_replicate 1024) fits (isFolder_freshTree _) (empty_freshTree _) with ⟨after, ran⟩
  rcases exact_words.2.2.1 _ _ _ _ _ _ (empty_freshTree _) ran with
    ⟨files, manifestBytes, manifest, read, -, unpacked⟩
  exact ⟨_, after, files, manifestBytes, manifest, ran, read, unpacked⟩

/-! ## A name with white space -/

def spacedText : Text :=
  "\x7b\"name\":\"heroes-v1.tar\",\"version\":\"1\",\"files\":[".toList ++
    "\x7b\"path\":\" a.png\",\"sha256\":\"e3b0c44298fc1c149afbf4c8996fb924".toList ++
      "27ae41e4649b934ca495991b7852b855\",\"size\":0\x7d]\x7d".toList

def spacedBytes : Bytes := spacedText.utf8

/-- An empty file whose name starts with a blank. -/
def spacedFile : InnerFile where
  path := " a.png".toList
  sha256 := "e3b0c44298fc1c149afbf4c8996fb92427ae41e4649b934ca495991b7852b855".toList
  size := 0

def spacedManifest : InnerManifest where
  name := "heroes-v1.tar".toList
  version := "1".toList
  files := [spacedFile]

def spacedTools : Tools :=
  toolsFor spacedBytes spacedManifest
    [([], [227, 176, 196, 66, 152, 252, 28, 20, 154, 251, 244, 200, 153, 111, 185, 36, 39, 174,
      65, 228, 100, 155, 147, 76, 164, 149, 153, 27, 120, 82, 184, 85])]

theorem spaced_fits : spacedBytes.length < 8 ^ 11 :=
  (byteLen_le spacedText).trans_lt (by decide +kernel)

def spacedMembers : List Member :=
  singlePack spacedFile.path spacedBytes [] spaced_fits (by decide) (by decide) (by decide)

theorem filePath_spaced : PackLayout.heroesV1.filePath " a.png".toList = .ok " a.png".toList := rfl

theorem wellFormed_spaced :
    WellFormed .heroesV1 "heroes-v1.tar".toList "1".toList spacedManifest :=
  wellFormed_single filePath_spaced (by decide) (by decide)

theorem isContent_spaced : IsContent spacedTools spacedFile (" a.png".toList, []) :=
  ⟨rfl, rfl, by decide +kernel⟩

theorem isPack_spaced : IsPack spacedTools .heroesV1 spacedManifest spacedBytes spacedMembers :=
  isPack_single isContent_spaced

theorem filePath_trimmed :
    PackLayout.heroesV1.filePath spacedFile.path.trim = .ok "a.png".toList := rfl

theorem filePath_other : PackLayout.heroesV1.filePath spacedFile.path ≠ .ok "a.png".toList := by
  intro same
  exact absurd (Except.ok.inj (filePath_spaced.symm.trans same)) (by decide)

theorem spaced_name_is_refused :
    spacedTools.parseManifest spacedBytes = some spacedManifest ∧
    WellFormed .heroesV1 "heroes-v1.tar".toList "1".toList spacedManifest ∧
    IsPack spacedTools .heroesV1 spacedManifest spacedBytes spacedMembers ∧
    IsTrailer [] ∧ Job.IsFolder (freshTree "next".toList) (Path.locate ["next".toList]) ∧
    (∀ parts, parts ≠ [] →
      freshTree "next".toList (Path.locate ["next".toList] ++ parts) = none) ∧
    unpackPack Device.reliable ["next".toList] spacedTools (archive spacedMembers []) .heroesV1
      "heroes-v1.tar".toList "1".toList (freshTree "next".toList) =
        (reject packMismatch, freshTree "next".toList) := by
  refine ⟨toolsFor_parse _ _ _, wellFormed_spaced, isPack_spaced, .inl (by simp), ?_, ?_, ?_⟩
  · exact isFolder_freshTree _
  · exact empty_freshTree _
  · exact refuses_single (toolsFor_parse _ _ _) wellFormed_spaced filePath_trimmed (by decide)
      filePath_other

end ScuffedCrew.Packs
