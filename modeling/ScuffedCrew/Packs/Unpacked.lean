import ScuffedCrew.Packs.Unpack

/-!
# What an unpacking leaves

After an unpacking that succeeds, the staging folder holds the files that the
manifest lists and no other ones.  The loop over the archive keeps the tree
below the folder equal to the files stored so far.
-/

namespace ScuffedCrew.Packs

open Rust

variable {tools : Tools} {layout : PackLayout} {manifest : InnerManifest} {device : Device}
  {staging base : Path} {path : Text} {data : Bytes} {stored files : List (Text × Bytes)}
  {tree after : Tree}

theorem IsStoredPath.components_eq (a_path : IsStoredPath path) :
    Path.text (Path.components path) = path ∧ IsStored (Path.components path) := by
  rcases a_path with ⟨parts, rfl, is_stored⟩
  rw [Path.components_text is_stored.1]
  exact ⟨rfl, is_stored⟩

theorem components_injective {other : Text} (a_path : IsStoredPath path)
    (a_path' : IsStoredPath other) (same : Path.components path = Path.components other) :
    path = other := by
  rw [← a_path.components_eq.1, same, a_path'.components_eq.1]

/-! ## The tree below a folder -/

/-- Below the folder are the stored files, and the folders they are in. -/
structure Holds (base : Path) (stored : List (Text × Bytes)) (tree : Tree) : Prop where
  file : ∀ file ∈ stored, tree (base ++ Path.components file.1) = some (.file file.2)
  only : ∀ parts node, parts ≠ [] → tree (base ++ parts) = some node →
    (∃ file ∈ stored, parts = Path.components file.1 ∧ node = .file file.2) ∨
      (node = .folder ∧ ∃ file ∈ stored, parts <+: (Path.components file.1).dropLast)

theorem holds_nil (empty : ∀ parts, parts ≠ [] → tree (base ++ parts) = none) :
    Holds base [] tree := by
  refine ⟨by simp, fun parts node named found => ?_⟩
  rw [empty parts named] at found
  cases found

/-- A new file, and folders above it. -/
theorem Holds.append (holds : Holds base stored tree) {middle : Tree}
    (a_path : IsStoredPath path) (fresh : ∀ file ∈ stored, file.1 ≠ path)
    (all_stored : ∀ file ∈ stored, IsStoredPath file.1)
    (made : ∀ other, middle other = tree other ∨
      middle other = some .folder ∧ tree other = none ∧
        other <+: base ++ (Path.components path).dropLast) :
    Holds base (stored ++ [(path, data)])
      (Function.update middle (base ++ Path.components path) (some (.file data))) := by
  refine ⟨fun file file_mem => ?_, fun parts node named found => ?_⟩
  · rcases List.mem_append.mp file_mem with before | last
    · have apart : base ++ Path.components file.1 ≠ base ++ Path.components path := by
        intro same
        have same := List.append_cancel_left same
        exact fresh file before (components_injective (all_stored file before) a_path same)
      rw [Function.update_of_ne apart]
      have held := holds.file file before
      rcases made (base ++ Path.components file.1) with kept | ⟨-, missing, -⟩
      · rw [kept, held]
      · rw [missing] at held
        cases held
    · rcases List.mem_singleton.mp last with rfl
      simp
  · by_cases here : parts = Path.components path
    · subst here
      rw [Function.update_self] at found
      cases found
      exact .inl ⟨(path, data), by simp, rfl, rfl⟩
    · have apart : base ++ parts ≠ base ++ Path.components path := fun same =>
        here (List.append_cancel_left same)
      rw [Function.update_of_ne apart] at found
      rcases made (base ++ parts) with kept | ⟨folder, -, above⟩
      · rw [kept] at found
        rcases holds.only parts node named found with
          ⟨file, file_mem, held⟩ | ⟨is_folder, file, file_mem, above⟩
        · exact .inl ⟨file, by simp [file_mem], held⟩
        · exact .inr ⟨is_folder, file, by simp [file_mem], above⟩
      · rw [folder] at found
        cases found
        exact .inr ⟨rfl, _, List.mem_append_right _ List.mem_cons_self,
          (List.prefix_append_right_inj base).mp above⟩

/-! ## Storing one file -/

theorem locate_path (a_path : IsStoredPath path) :
    (staging.join path).locate = staging.locate ++ Path.components path := by
  rcases a_path with ⟨parts, rfl, is_stored⟩
  rw [locate_join is_stored, Path.components_text is_stored.1]

theorem locate_parent (a_path : IsStoredPath path) {folder : Path}
    (parent : (staging.join path).parent = some folder) :
    folder.locate = staging.locate ++ (Path.components path).dropLast := by
  rcases a_path with ⟨parts, rfl, is_stored⟩
  unfold Path.parent at parent
  split_ifs at parent
  cases parent
  rw [locate_dropLast is_stored, Path.components_text is_stored.1]

theorem makeParent_ok (a_path : IsStoredPath path) {value : Unit}
    (ran : makeParent device (staging.join path) tree = (.ok value, after)) (other : Path) :
    after other = tree other ∨ after other = some .folder ∧ tree other = none ∧
      other <+: staging.locate ++ (Path.components path).dropLast := by
  cases parent : (staging.join path).parent with
  | none =>
      simp only [makeParent, parent] at ran
      cases ran
      exact .inl rfl
  | some folder =>
      simp only [makeParent, parent] at ran
      rcases (Tree.createDirAll_ok (Job.attempt_ok ran)).2 other with kept | ⟨missing, above, made⟩
      · exact .inl kept
      · rw [locate_parent a_path parent] at above
        exact .inr ⟨made, missing, above⟩

/-- A file that is stored is new, and it is all that changes but for folders above it. -/
theorem Holds.storeFile (holds : Holds staging.locate stored tree) (a_path : IsStoredPath path)
    (fresh : ∀ file ∈ stored, file.1 ≠ path) (all_stored : ∀ file ∈ stored, IsStoredPath file.1)
    {value : Unit} (ran : storeFile device staging path data tree = (.ok value, after)) :
    Holds staging.locate (stored ++ [(path, data)]) after := by
  rcases Job.lift_bind_ok ran with ⟨_, -, ran⟩
  rcases Job.bind_ok ran with ⟨_, middle, parent, ran⟩
  rcases Job.attempt_bind_ok ran with ⟨_, free, ran⟩
  rw [← (Prod.mk.inj free).2] at ran
  rcases Job.attempt_bind_ok ran with ⟨created, create, ran⟩
  rcases Job.attempt_bind_ok ran with ⟨wrote, write, sync⟩
  have wrote_eq := Tree.writeAll_ok write
  rw [(Tree.create_ok create).2, locate_path a_path, Function.update_idem] at wrote_eq
  rw [← (Prod.mk.inj (Job.attempt_ok sync)).2]
  rw [wrote_eq]
  exact holds.append a_path fresh all_stored (makeParent_ok a_path parent)

/-! ## Storing the files of an archive -/

/-- The files of an archive beside its manifest. -/
def packed (files : List (Text × Bytes)) : List (Text × Bytes) :=
  files.filter fun file => file.1 != manifestName

theorem isStored_append (all_stored : ∀ file ∈ stored, IsStoredPath file.1)
    (a_path : IsStoredPath path) : ∀ file ∈ stored ++ [(path, data)], IsStoredPath file.1 := by
  intro file file_mem
  rcases List.mem_append.mp file_mem with before | last
  · exact all_stored file before
  · rcases List.mem_singleton.mp last with rfl
    exact a_path

theorem known_insert {seen : Finset Text}
    (known : ∀ path, path ∈ seen ↔ ∃ file ∈ stored, file.1 = path) (path : Text) (data : Bytes) :
    ∀ other, other ∈ insert path seen ↔ ∃ file ∈ stored ++ [(path, data)], file.1 = other := by
  intro other
  rw [Finset.mem_insert, known other]
  constructor
  · rintro (rfl | ⟨file, file_mem, same⟩)
    · exact ⟨(other, data), by simp, rfl⟩
    · exact ⟨file, by simp [file_mem], same⟩
  · rintro ⟨file, file_mem, same⟩
    rcases List.mem_append.mp file_mem with before | last
    · exact .inr ⟨file, before, same⟩
    · rcases List.mem_singleton.mp last with rfl
      exact .inl same.symm

theorem storeFiles_ok {seen found : Finset Text}
    (ran : storeFiles device staging tools layout manifest files seen tree = (.ok found, after))
    (allowed : ∀ file ∈ files, IsStoredPath file.1) (holds : Holds staging.locate stored tree)
    (all_stored : ∀ file ∈ stored, IsStoredPath file.1)
    (known : ∀ path, path ∈ seen ↔ ∃ file ∈ stored, file.1 = path) :
    Holds staging.locate (stored ++ packed files) after ∧
      (∀ path, path ∈ found ↔ ∃ file ∈ stored ++ packed files, file.1 = path) ∧
      ∀ file ∈ packed files, checkFile tools layout manifest file.1 file.2 = .ok () := by
  induction files generalizing stored seen tree with
  | nil =>
      cases ran
      refine ⟨by simpa [packed] using holds, by simpa [packed] using known, by simp [packed]⟩
  | cons file rest ih =>
      rcases file with ⟨path, data⟩
      have others := fun file file_mem => allowed file (List.mem_cons_of_mem _ file_mem)
      unfold storeFiles at ran
      split_ifs at ran with is_manifest
      · have skipped : packed ((path, data) :: rest) = packed rest := by simp [packed, is_manifest]
        rw [skipped]
        exact ih ran others holds all_stored known
      · have a_path := allowed (path, data) List.mem_cons_self
        have taken : packed ((path, data) :: rest) = (path, data) :: packed rest := by
          simp [packed, is_manifest]
        rcases Job.lift_bind_ok ran with ⟨_, unseen, ran⟩
        rcases Job.lift_bind_ok ran with ⟨_, checked, ran⟩
        rcases Job.bind_ok ran with ⟨_, middle, placed, ran⟩
        have unseen : path ∉ seen := by simpa using unseen
        have fresh : ∀ file ∈ stored, file.1 ≠ path := fun file file_mem same =>
          unseen ((known path).mpr ⟨file, file_mem, same⟩)
        have holds := holds.storeFile a_path fresh all_stored placed
        have rest_ok := ih ran others holds (isStored_append all_stored a_path)
          (known_insert known path data)
        rw [taken, List.append_cons]
        refine ⟨rest_ok.1, rest_ok.2.1, ?_⟩
        intro file file_mem
        rcases List.mem_cons.mp file_mem with rfl | later
        · exact checked
        · exact rest_ok.2.2 file later

/-! ## The listing -/

/-- The manifest's entries have distinct allowed paths, none of them the manifest's own. -/
structure IsListing (layout : PackLayout) (files : List InnerFile) : Prop where
  allowed : ∀ file ∈ files, ∃ path, layout.filePath file.path = .ok path ∧ path ≠ manifestName
  hashed : ∀ file ∈ files, isSha256 file.sha256 = true
  distinct : (files.map fun file => layout.filePath file.path).Nodup

theorem listedPaths_ok {files : List InnerFile} {listed found : Finset Text}
    (read : listedPaths layout files listed = .ok found) :
    IsListing layout files ∧
      (∀ file ∈ files, ∀ path ∈ listed, layout.filePath file.path ≠ .ok path) ∧
      ∀ path, path ∈ found ↔
        path ∈ listed ∨ ∃ file ∈ files, layout.filePath file.path = .ok path := by
  induction files generalizing listed with
  | nil =>
      cases read
      exact ⟨⟨by simp, by simp, by simp⟩, by simp, by simp⟩
  | cons file rest ih =>
      rcases Checked.bind_eq_ok.mp read with ⟨path, allowed, read⟩
      rcases Checked.bind_eq_ok.mp read with ⟨_, fresh, read⟩
      rcases Checked.bind_eq_ok.mp read with ⟨_, hashed, read⟩
      simp only [Checked.ensure_eq_ok, Bool.and_eq_true, bne_iff_ne,
        decide_eq_true_eq] at fresh hashed
      rcases ih read with ⟨listing, apart, known⟩
      refine ⟨⟨?_, ?_, ?_⟩, ?_, ?_⟩
      · intro other other_mem
        rcases List.mem_cons.mp other_mem with rfl | later
        · exact ⟨path, allowed, fresh.1⟩
        · exact listing.allowed other later
      · intro other other_mem
        rcases List.mem_cons.mp other_mem with rfl | later
        · exact hashed
        · exact listing.hashed other later
      · rw [List.map_cons, List.nodup_cons]
        refine ⟨fun listed_later => ?_, listing.distinct⟩
        rcases List.mem_map.mp listed_later with ⟨other, later, same⟩
        exact apart other later path (Finset.mem_insert_self _ _) (same.trans allowed)
      · intro other other_mem before before_mem same
        rcases List.mem_cons.mp other_mem with rfl | later
        · rw [allowed] at same
          cases same
          exact fresh.2 before_mem
        · exact apart other later before (Finset.mem_insert_of_mem before_mem) same
      · intro other
        rw [known other, Finset.mem_insert]
        constructor
        · rintro ((rfl | before) | ⟨file', later, same⟩)
          · exact .inr ⟨file, List.mem_cons_self, allowed⟩
          · exact .inl before
          · exact .inr ⟨file', List.mem_cons_of_mem _ later, same⟩
        · rintro (before | ⟨file', file_mem, same⟩)
          · exact .inl (.inr before)
          · rcases List.mem_cons.mp file_mem with rfl | later
            · rw [allowed] at same
              cases same
              exact .inl (.inl rfl)
            · exact .inr ⟨file', later, same⟩

theorem IsListing.eq_of_same {files : List InnerFile} (listing : IsListing layout files)
    {file other : InnerFile} (file_mem : file ∈ files) (other_mem : other ∈ files)
    (same : layout.filePath file.path = layout.filePath other.path) : file = other :=
  List.inj_on_of_nodup_map listing.distinct file_mem other_mem same

theorem toOption_eq_some {α : Type} {result : Except Fault α} {value : α} :
    result.toOption = some value ↔ result = .ok value := by
  cases result <;> simp [Except.toOption]

theorem readManifest_ok {name version : Text} {manifestBytes : Bytes}
    (read : readManifest tools name version files = .ok (manifestBytes, manifest)) :
    files.filter (fun file => file.1 == manifestName) = [(manifestName, manifestBytes)] ∧
      tools.parseManifest manifestBytes = some manifest ∧ manifest.name = name ∧
      manifest.version = version ∧ manifest.files ≠ [] := by
  rcases Checked.bind_eq_ok.mp read with ⟨_, single, read⟩
  rcases Checked.bind_eq_ok.mp read with ⟨⟨path, bytes⟩, found, read⟩
  rcases Checked.bind_eq_ok.mp read with ⟨parsed, parses, read⟩
  rcases Checked.bind_eq_ok.mp read with ⟨_, named, read⟩
  rcases Checked.bind_eq_ok.mp read with ⟨_, nonempty, read⟩
  cases read
  simp only [Checked.ensure_eq_ok, Checked.okOr_eq_ok, beq_iff_eq, Bool.and_eq_true,
    Bool.not_eq_true', List.isEmpty_eq_false_iff] at single found parses named nonempty
  refine ⟨?_, parses, named.1, named.2, nonempty⟩
  rcases List.length_eq_one_iff.mp single with ⟨file, only⟩
  have is_manifest : path = manifestName := by simpa using List.find?_some found
  have kept : (path, manifestBytes) ∈ files.filter fun file => file.1 == manifestName :=
    List.mem_filter.mpr ⟨List.mem_of_find?_eq_some found, by simp [is_manifest]⟩
  rw [only, List.mem_singleton] at kept
  rw [only, ← kept, is_manifest]

theorem checkFile_ok (listing : IsListing layout manifest.files) {file : InnerFile}
    (file_mem : file ∈ manifest.files) (allowed : layout.filePath file.path = .ok path)
    {value : Unit} (checked : checkFile tools layout manifest path data = .ok value) :
    data.length = file.size ∧ tools.sha256Hex data = file.sha256 := by
  rcases Checked.bind_eq_ok.mp checked with ⟨listed, found, checked⟩
  simp only [Checked.ensure_eq_ok, Checked.okOr_eq_ok, Bool.and_eq_true,
    beq_iff_eq] at found checked
  have same : layout.filePath listed.path = .ok path := by
    simpa [toOption_eq_some] using List.find?_some found
  have is_file : listed = file :=
    listing.eq_of_same (List.mem_of_find?_eq_some found) file_mem (same.trans allowed.symm)
  rwa [is_file] at checked

/-! ## The staging folder -/

/-- The folder holds the files that the manifest of an archive lists, and the manifest itself
just when the layout keeps it. -/
structure Unpacked (tools : Tools) (layout : PackLayout) (files : List (Text × Bytes))
    (name version : Text) (base : Path) (after : Tree) (manifestBytes : Bytes)
    (manifest : InnerManifest) : Prop where
  single : files.filter (fun file => file.1 == manifestName) = [(manifestName, manifestBytes)]
  parsed : tools.parseManifest manifestBytes = some manifest
  named : manifest.name = name ∧ manifest.version = version ∧ manifest.files ≠ []
  listing : IsListing layout manifest.files
  /-- Each listed file is at its path. -/
  listed : ∀ file ∈ manifest.files, ∃ path data, layout.filePath file.path = .ok path ∧
    (path, data) ∈ files ∧ after (base ++ Path.components path) = some (.file data) ∧
      data.length = file.size ∧ tools.sha256Hex data = file.sha256
  /-- Every file is a listed one or the manifest. -/
  only : ∀ parts data, parts ≠ [] → after (base ++ parts) = some (.file data) →
    (∃ file ∈ manifest.files, ∃ path, layout.filePath file.path = .ok path ∧
      parts = Path.components path) ∨
    layout = .names ∧ parts = [manifestName] ∧ data = manifestBytes
  kept : after (base ++ [manifestName]) =
    if layout = .names then some (.file manifestBytes) else none
  folders : ∀ parts, parts ≠ [] → after (base ++ parts) = some .folder → parts = [specialFolder]

theorem special_of_above {parts : Path} (is_stored : IsStored (Path.components path))
    (named : parts ≠ []) (above : parts <+: (Path.components path).dropLast) :
    parts = [specialFolder] := by
  rcases is_stored.2 with ⟨name, same⟩ | ⟨name, same⟩
  · rw [same] at above
    exact absurd (List.prefix_nil.mp above) named
  · rw [same] at above
    rcases List.prefix_cons_iff.mp above with empty | ⟨rest, rfl, empty⟩
    · exact absurd empty named
    · rw [List.prefix_nil.mp empty]

theorem components_manifest : Path.components manifestName = [manifestName] := by decide

theorem keepsManifest_iff : layout.keepsManifest = true ↔ layout = .names := by
  cases layout <;> simp [PackLayout.keepsManifest]

theorem isStoredPath_manifest : IsStoredPath manifestName :=
  ⟨[manifestName], by simp, isStored_manifest⟩

/-- The manifest is one more file in the folder of the names layout. -/
theorem keepManifest_ok {manifestBytes : Bytes} (holds : Holds staging.locate stored tree)
    (all_stored : ∀ file ∈ stored, IsStoredPath file.1)
    (fresh : ∀ file ∈ stored, file.1 ≠ manifestName) {value : Unit}
    (ran : keepManifest device staging layout manifestBytes tree = (.ok value, after)) :
    ∃ held, Holds staging.locate held after ∧ ∀ file, file ∈ held ↔
      file ∈ stored ∨ layout = .names ∧ file = (manifestName, manifestBytes) := by
  unfold keepManifest at ran
  split_ifs at ran with keeps
  · rcases Job.attempt_bind_ok ran with ⟨created, create, ran⟩
    rcases Job.attempt_bind_ok ran with ⟨wrote, write, sync⟩
    have wrote_eq := Tree.writeAll_ok write
    rw [(Tree.createNew_ok create).2, locate_path isStoredPath_manifest,
      Function.update_idem] at wrote_eq
    refine ⟨stored ++ [(manifestName, manifestBytes)], ?_, ?_⟩
    · rw [← (Prod.mk.inj (Job.attempt_ok sync)).2, wrote_eq]
      exact holds.append isStoredPath_manifest fresh all_stored fun other => .inl rfl
    · simp [keepsManifest_iff.mp keeps]
  · cases ran
    have other : layout ≠ .names := fun same => keeps (keepsManifest_iff.mpr same)
    exact ⟨stored, holds, by simp [other]⟩

theorem mem_packed {file : Text × Bytes} :
    file ∈ packed files ↔ file ∈ files ∧ file.1 ≠ manifestName := by
  simp [packed]

section folder

variable {held : List (Text × Bytes)} {manifestBytes : Bytes}

/-- The manifest's place is free while no stored file is called like it. -/
theorem manifest_free (holds : Holds base stored tree)
    (all_stored : ∀ file ∈ stored, IsStoredPath file.1)
    (fresh : ∀ file ∈ stored, file.1 ≠ manifestName) : tree (base ++ [manifestName]) = none := by
  cases found : tree (base ++ [manifestName]) with
  | none => rfl
  | some node =>
      rcases holds.only _ node (by simp) found with
        ⟨file, file_mem, same, -⟩ | ⟨-, file, file_mem, above⟩
      · have is_manifest := components_injective isStoredPath_manifest (all_stored file file_mem)
          (components_manifest.trans same)
        exact absurd is_manifest.symm (fresh file file_mem)
      · have a_path := (all_stored file file_mem).components_eq.2
        exact absurd (special_of_above a_path (by simp) above) (by decide)

theorem kept_of_holds (holds : Holds base held after)
    (all_stored : ∀ file ∈ packed files, IsStoredPath file.1)
    (held_iff : ∀ file, file ∈ held ↔
      file ∈ packed files ∨ layout = .names ∧ file = (manifestName, manifestBytes)) :
    after (base ++ [manifestName]) =
      if layout = .names then some (.file manifestBytes) else none := by
  split_ifs with keeps
  · have found := holds.file (manifestName, manifestBytes) ((held_iff _).mpr (.inr ⟨keeps, rfl⟩))
    rwa [components_manifest] at found
  · have in_pack : ∀ file ∈ held, file ∈ packed files := fun file file_mem =>
      ((held_iff file).mp file_mem).resolve_right fun kept => keeps kept.1
    exact manifest_free holds (fun file file_mem => all_stored file (in_pack file file_mem))
      fun file file_mem => (mem_packed.mp (in_pack file file_mem)).2

theorem folders_of_holds (holds : Holds base held after)
    (all_stored : ∀ file ∈ held, IsStoredPath file.1) {parts : Path} (named : parts ≠ [])
    (found : after (base ++ parts) = some .folder) : parts = [specialFolder] := by
  rcases holds.only parts _ named found with ⟨file, file_mem, -, same⟩ | ⟨-, file, file_mem, above⟩
  · cases same
  · exact special_of_above (all_stored file file_mem).components_eq.2 named above

end folder

/-- An unpacking that succeeds leaves what the manifest lists. -/
theorem unpacked_of_ok {bytes : Bytes} {name version hash : Text}
    (empty : ∀ parts, parts ≠ [] → tree (staging.locate ++ parts) = none)
    (ran : unpackPack device staging tools bytes layout name version tree = (.ok hash, after)) :
    ∃ files manifestBytes manifest, readUstar bytes layout = .ok files ∧
      hash = tools.sha256Hex manifestBytes ∧
        Unpacked tools layout files name version staging.locate after manifestBytes manifest := by
  rcases Job.lift_bind_ok ran with ⟨files, read, ran⟩
  rcases Job.lift_bind_ok ran with ⟨⟨manifestBytes, manifest⟩, found, ran⟩
  rcases Job.lift_bind_ok ran with ⟨listed, lists, ran⟩
  rcases Job.bind_ok ran with ⟨seen, middle, placed, ran⟩
  rcases Job.lift_bind_ok ran with ⟨_, all_seen, ran⟩
  rcases Job.bind_ok ran with ⟨_, last, keeping, ran⟩
  cases ran
  rcases readManifest_ok found with ⟨single, parsed, named⟩
  rcases listedPaths_ok lists with ⟨listing, -, known⟩
  have allowed : ∀ file ∈ files, IsStoredPath file.1 := fun file file_mem =>
    Exists.elim (allowed_of_readUstar read file file_mem) fun _ => isStored_of_filePath
  rcases storeFiles_ok placed allowed (holds_nil empty) (by simp) (by simp) with
    ⟨holds, seen_iff, checked⟩
  rw [List.nil_append] at holds seen_iff
  have same : seen = listed := by simpa using all_seen
  subst same
  have all_stored : ∀ file ∈ packed files, IsStoredPath file.1 := fun file file_mem =>
    allowed file (mem_packed.mp file_mem).1
  rcases keepManifest_ok holds all_stored (fun file file_mem => (mem_packed.mp file_mem).2)
    keeping with ⟨held, holds, held_iff⟩
  refine ⟨files, manifestBytes, manifest, read, rfl, single, parsed, named, listing, ?_, ?_,
    kept_of_holds holds all_stored held_iff, ?_⟩
  · intro file file_mem
    rcases listing.allowed file file_mem with ⟨path, path_eq, -⟩
    rcases (seen_iff path).mp ((known path).mpr (.inr ⟨file, file_mem, path_eq⟩)) with
      ⟨entry, entry_mem, rfl⟩
    exact ⟨entry.1, entry.2, path_eq, (mem_packed.mp entry_mem).1,
      holds.file entry ((held_iff entry).mpr (.inl entry_mem)),
      checkFile_ok listing file_mem path_eq (checked entry entry_mem)⟩
  · intro parts data named found
    rcases holds.only parts _ named found with ⟨entry, entry_mem, rfl, same⟩ | ⟨same, -⟩
    · cases same
      rcases (held_iff entry).mp entry_mem with in_pack | ⟨names, rfl⟩
      · rcases (known entry.1).mp ((seen_iff entry.1).mpr ⟨entry, in_pack, rfl⟩) with
          none | ⟨file, file_mem, path_eq⟩
        · exact absurd none (Finset.notMem_empty _)
        · exact .inl ⟨file, file_mem, entry.1, path_eq, rfl⟩
      · exact .inr ⟨names, components_manifest, rfl⟩
    · cases same
  · intro parts named found
    refine folders_of_holds holds (fun file file_mem => ?_) named found
    rcases (held_iff file).mp file_mem with in_pack | ⟨-, rfl⟩
    · exact all_stored file in_pack
    · exact isStoredPath_manifest

end ScuffedCrew.Packs
