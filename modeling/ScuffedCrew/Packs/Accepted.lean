import Mathlib.Data.List.Perm.Basic
import ScuffedCrew.Packs.Archives
import ScuffedCrew.Packs.Unpacked

/-!
# What is accepted

An archive of a well-formed manifest and its files is unpacked, in whatever
order its entries come, when the file system refuses nothing.  No file may be the
folder of another one, and no name may have white space at its ends, which
reading the name would drop.
-/

namespace ScuffedCrew.Packs

open Rust

variable {tools : Tools} {layout : PackLayout} {manifest : InnerManifest} {staging : Path}
  {path : Text} {data : Bytes} {stored files : List (Text × Bytes)} {tree : Tree}

/-! ## Storing without refusals -/

/-- A file and a folder of one name cannot both be stored. -/
def Apart (path other : Text) : Prop :=
  ¬Path.components path <+: (Path.components other).dropLast

theorem isPrefixOf_join (a_path : IsStoredPath path) :
    staging.isPrefixOf (staging.join path) = true := by
  rcases a_path with ⟨parts, rfl, is_stored⟩
  rw [Path.join_text is_stored.1]
  simp

theorem parent_join (a_path : IsStoredPath path) :
    ∃ folder, (staging.join path).parent = some folder := by
  rcases a_path with ⟨parts, rfl, is_stored⟩
  rw [Path.join_text is_stored.1]
  refine ⟨_, if_neg ?_⟩
  simp [is_stored.ne_nil]

/-- The folders above a file that is apart from the stored ones can be made. -/
theorem makeParent_of_apart (holds : Holds staging.locate stored tree)
    (folder : Job.IsFolder tree staging.locate) (a_path : IsStoredPath path)
    (clear : ∀ file ∈ stored, Apart file.1 path) :
    ∃ after, makeParent Device.reliable (staging.join path) tree = (.ok (), after) ∧
      after (staging.locate ++ (Path.components path).dropLast) = some .folder := by
  rcases @parent_join staging path a_path with ⟨above, parent⟩
  have located := locate_parent a_path parent
  have unblocked : ∀ other, other <+: above.locate →
      tree other = none ∨ tree other = some .folder := by
    intro other other_above
    rw [located] at other_above
    rcases List.prefix_or_prefix_of_prefix other_above (List.prefix_append _ _) with short | long
    · exact .inr (folder other short)
    · rcases long with ⟨parts, rfl⟩
      have below := (List.prefix_append_right_inj staging.locate).mp other_above
      cases found : tree (staging.locate ++ parts) with
      | none => exact .inl rfl
      | some node =>
          by_cases named : parts = []
          · subst named
            have is_folder := folder staging.locate List.prefix_rfl
            simp only [List.append_nil] at found
            rw [found] at is_folder
            exact .inr is_folder
          · rcases holds.only parts node named found with
              ⟨file, file_mem, same, -⟩ | ⟨is_folder, -⟩
            · exact absurd (same ▸ below) (clear file file_mem)
            · exact .inr (by rw [is_folder])
  rcases Tree.createDirAll_of_clear unblocked with ⟨after, made⟩
  refine ⟨after, ?_, ?_⟩
  · simp only [makeParent, parent, Device.reliable]
    exact Job.attempt_of_done _ made
  · rw [← located]
    exact (Tree.createDirAll_ok made).1 _ List.prefix_rfl

theorem storeFile_of_apart (data : Bytes) (holds : Holds staging.locate stored tree)
    (folder : Job.IsFolder tree staging.locate) (a_path : IsStoredPath path)
    (all_stored : ∀ file ∈ stored, IsStoredPath file.1)
    (fresh : ∀ file ∈ stored, file.1 ≠ path) (clear : ∀ file ∈ stored, Apart file.1 path)
    (clear' : ∀ file ∈ stored, Apart path file.1) :
    ∃ after, storeFile Device.reliable staging path data tree = (.ok (), after) := by
  rcases makeParent_of_apart holds folder a_path clear with ⟨middle, made, parent⟩
  have named : Path.components path ≠ [] := a_path.components_eq.2.ne_nil
  have untaken : tree (staging.locate ++ Path.components path) = none := by
    cases found : tree (staging.locate ++ Path.components path) with
    | none => rfl
    | some node =>
        rcases holds.only _ node named found with
          ⟨file, file_mem, same, -⟩ | ⟨-, file, file_mem, above⟩
        · exact absurd (components_injective (all_stored file file_mem) a_path same.symm)
            (fresh file file_mem)
        · exact absurd above (clear' file file_mem)
  have untaken' : middle (staging.locate ++ Path.components path) = none := by
    rcases makeParent_ok a_path made (staging.locate ++ Path.components path) with
      kept | ⟨-, -, above⟩
    · rw [kept, untaken]
    · have shorter := ((List.prefix_append_right_inj staging.locate).mp above).length_le
      have := List.length_pos_iff.mpr named
      rw [List.length_dropLast] at shorter
      omega
  have free : (fun tree : Tree => (!tree.holds (Device.reliable.finds (staging.join path))
      (staging.join path), tree)) middle = (true, middle) := by
    simp [Tree.holds, locate_path a_path, untaken']
  have parent_folder : middle (staging.join path).locate.dropLast = some .folder := by
    rw [locate_path a_path, List.dropLast_append_of_ne_nil named, parent]
  have untaken_place : middle (staging.join path).locate = none := by
    rw [locate_path a_path, untaken']
  rcases Tree.create_of_free parent_folder untaken_place with ⟨created, create⟩
  refine ⟨Function.update created (staging.join path).locate (some (.file data)), ?_⟩
  have inside : ensure (staging.isPrefixOf (staging.join path)) packUnsafe = .ok () :=
    Checked.ensure_eq_ok.mpr (isPrefixOf_join a_path)
  apply (Job.lift_bind_of_ok _ inside).trans
  apply (Job.bind_of_ok _ made).trans
  apply (Job.attempt_bind_of_done _ _ free).trans
  exact Job.attempt_bind_of_done _ _ create

theorem isFolder_of_storeFile {after : Tree} (folder : Job.IsFolder tree staging.locate)
    (a_path : IsStoredPath path)
    (ran : storeFile Device.reliable staging path data tree = (.ok (), after)) :
    Job.IsFolder after staging.locate := by
  rcases a_path with ⟨parts, rfl, is_stored⟩
  apply folder.of_same
  intro other outside
  have kept := @confined_storeFile Device.reliable _ _ is_stored data tree folder other outside
  rwa [ran] at kept

/-- Two files that can be stored beside each other. -/
def CanShare (file other : Text × Bytes) : Prop :=
  file.1 ≠ other.1 ∧ Apart file.1 other.1 ∧ Apart other.1 file.1

theorem CanShare.symm {file other : Text × Bytes} (share : CanShare file other) :
    CanShare other file :=
  ⟨share.1.symm, share.2.2, share.2.1⟩

theorem storeFiles_of_apart {seen : Finset Text} (allowed : ∀ file ∈ files, IsStoredPath file.1)
    (holds : Holds staging.locate stored tree) (folder : Job.IsFolder tree staging.locate)
    (all_stored : ∀ file ∈ stored, IsStoredPath file.1)
    (known : ∀ path, path ∈ seen ↔ ∃ file ∈ stored, file.1 = path)
    (checked : ∀ file ∈ packed files, checkFile tools layout manifest file.1 file.2 = .ok ())
    (share : (stored ++ packed files).Pairwise CanShare) :
    ∃ found after, storeFiles Device.reliable staging tools layout manifest files seen tree =
      (.ok found, after) := by
  induction files generalizing stored seen tree with
  | nil => exact ⟨seen, tree, rfl⟩
  | cons file rest ih =>
      rcases file with ⟨path, data⟩
      have others := fun file file_mem => allowed file (List.mem_cons_of_mem _ file_mem)
      unfold storeFiles
      split_ifs with is_manifest
      · have skipped : packed ((path, data) :: rest) = packed rest := by simp [packed, is_manifest]
        rw [skipped] at checked share
        exact ih others holds folder all_stored known checked share
      · have taken : packed ((path, data) :: rest) = (path, data) :: packed rest := by
          simp [packed, is_manifest]
        rw [taken] at checked share
        have a_path := allowed (path, data) List.mem_cons_self
        have beside : ∀ file ∈ stored, CanShare file (path, data) := fun file file_mem =>
          (List.pairwise_append.mp share).2.2 file file_mem _ List.mem_cons_self
        have unseen : path ∉ seen := fun before =>
          Exists.elim ((known path).mp before) fun file found => (beside file found.1).1 found.2
        have fresh := fun file file_mem => (beside file file_mem).1
        rcases storeFile_of_apart data holds folder a_path all_stored fresh
          (fun file file_mem => (beside file file_mem).2.1)
          (fun file file_mem => (beside file file_mem).2.2) with ⟨middle, placed⟩
        have rest_stored : ∃ found after, storeFiles Device.reliable staging tools layout manifest
            rest (insert path seen) middle = (.ok found, after) := by
          have folder := isFolder_of_storeFile folder a_path placed
          apply ih others (holds.storeFile a_path fresh all_stored placed) folder
            (isStored_append all_stored a_path) (known_insert known path data)
            (fun file later => checked file (List.mem_cons_of_mem _ later))
          rwa [← List.append_cons]
        rcases rest_stored with ⟨found, after, rest_stored⟩
        refine ⟨found, after, ?_⟩
        have not_seen : ensure (decide (path ∉ seen)) packUnsafe = .ok () := by
          simpa using unseen
        apply (Job.lift_bind_of_ok _ not_seen).trans
        apply (Job.lift_bind_of_ok _ (checked (path, data) List.mem_cons_self)).trans
        exact (Job.bind_of_ok _ placed).trans rest_stored

/-! ## The checks -/

theorem checkFile_of_listed (listing : IsListing layout manifest.files) {file : InnerFile}
    (file_mem : file ∈ manifest.files) (allowed : layout.filePath file.path = .ok path)
    (sized : data.length = file.size) (hashed : tools.sha256Hex data = file.sha256) :
    checkFile tools layout manifest path data = .ok () := by
  have found : manifest.files.find?
      (fun file => (layout.filePath file.path).toOption == some path) = some file := by
    cases first : manifest.files.find?
        (fun file => (layout.filePath file.path).toOption == some path) with
    | none =>
        have missed := List.find?_eq_none.mp first file file_mem
        simp [toOption_eq_some, allowed] at missed
    | some other =>
        have same : layout.filePath other.path = .ok path := by
          simpa [toOption_eq_some] using List.find?_some first
        rw [listing.eq_of_same (List.mem_of_find?_eq_some first) file_mem
          (same.trans allowed.symm)]
  simp [checkFile, found, okOr, ensure, sized, hashed]

theorem listedPaths_of_listing {files : List InnerFile} (listing : IsListing layout files)
    {listed : Finset Text}
    (apart : ∀ file ∈ files, ∀ path ∈ listed, layout.filePath file.path ≠ .ok path) :
    ∃ found, listedPaths layout files listed = .ok found := by
  induction files generalizing listed with
  | nil => exact ⟨listed, rfl⟩
  | cons file rest ih =>
      rcases listing.allowed file List.mem_cons_self with ⟨path, allowed, other⟩
      have unlisted : path ∉ listed := fun before =>
        apart file List.mem_cons_self path before allowed
      have distinct := listing.distinct
      rw [List.map_cons, List.nodup_cons] at distinct
      have rest_listing : IsListing layout rest :=
        ⟨fun file later => listing.allowed file (List.mem_cons_of_mem _ later),
          fun file later => listing.hashed file (List.mem_cons_of_mem _ later), distinct.2⟩
      have rest_read : ∃ found, listedPaths layout rest (insert path listed) = .ok found := by
        apply ih rest_listing
        intro other_file later before before_mem same
        rcases Finset.mem_insert.mp before_mem with rfl | earlier
        · exact distinct.1 (List.mem_map.mpr ⟨other_file, later, same.trans allowed.symm⟩)
        · exact apart other_file (List.mem_cons_of_mem _ later) before earlier same
      rcases rest_read with ⟨found, read⟩
      refine ⟨found, ?_⟩
      simp [listedPaths, allowed, ensure, other, unlisted,
        listing.hashed file List.mem_cons_self, read]

/-! ## Packs -/

structure WellFormed (layout : PackLayout) (name version : Text) (manifest : InnerManifest) :
    Prop where
  named : manifest.name = name
  versioned : manifest.version = version
  nonempty : manifest.files ≠ []
  listing : IsListing layout manifest.files
  /-- No file is the folder of another one. -/
  apart : ∀ file ∈ manifest.files, ∀ other ∈ manifest.files, ∀ path otherPath,
    layout.filePath file.path = .ok path → layout.filePath other.path = .ok otherPath →
      Apart path otherPath

/-- A listed file, under its path of the layout. -/
def Delivers (tools : Tools) (layout : PackLayout) (file : InnerFile) (entry : Text × Bytes) :
    Prop :=
  layout.filePath file.path = .ok entry.1 ∧ entry.2.length = file.size ∧
    tools.sha256Hex entry.2 = file.sha256

/-- Every element of either list has its partner. -/
theorem mem_of_forall₂ {α β : Type} {related : α → β → Prop} {left : List α} {right : List β}
    (paired : List.Forall₂ related left right) :
    (∀ other ∈ right, ∃ one ∈ left, related one other) ∧
      ∀ one ∈ left, ∃ other ∈ right, related one other := by
  induction paired with
  | nil => simp
  | cons first rest ih =>
      constructor
      · intro other other_mem
        rcases List.mem_cons.mp other_mem with rfl | later
        · exact ⟨_, List.mem_cons_self, first⟩
        · rcases ih.1 other later with ⟨one, one_mem, found⟩
          exact ⟨one, List.mem_cons_of_mem _ one_mem, found⟩
      · intro one one_mem
        rcases List.mem_cons.mp one_mem with rfl | later
        · exact ⟨_, List.mem_cons_self, first⟩
        · rcases ih.2 one later with ⟨other, other_mem, found⟩
          exact ⟨other, List.mem_cons_of_mem _ other_mem, found⟩

section entries

variable {name version : Text} {entries : List (Text × Bytes)} {manifestBytes : Bytes}

theorem nodup_of_delivers {listed : List InnerFile}
    (delivers : List.Forall₂ (Delivers tools layout) listed entries)
    (distinct : (listed.map fun file => layout.filePath file.path).Nodup) :
    (entries.map Prod.fst).Nodup := by
  induction delivers with
  | nil => simp
  | @cons file entry listed entries first rest ih =>
      rw [List.map_cons, List.nodup_cons] at distinct ⊢
      refine ⟨fun again => ?_, ih distinct.2⟩
      rcases List.mem_map.mp again with ⟨other, other_mem, same⟩
      rcases (mem_of_forall₂ rest).1 other other_mem with ⟨file', file_mem, delivered⟩
      apply distinct.1
      refine List.mem_map.mpr ⟨file', file_mem, ?_⟩
      rw [delivered.1, first.1, same]

theorem canShare_of_delivers (formed : WellFormed layout name version manifest)
    (delivers : List.Forall₂ (Delivers tools layout) manifest.files entries) :
    entries.Pairwise CanShare := by
  have distinct := List.pairwise_map.mp (nodup_of_delivers delivers formed.listing.distinct)
  refine distinct.imp_of_mem fun {entry other} entry_mem other_mem differ => ⟨differ, ?_⟩
  rcases (mem_of_forall₂ delivers).1 entry entry_mem with ⟨file, file_mem, delivered⟩
  rcases (mem_of_forall₂ delivers).1 other other_mem with ⟨file', file_mem', delivered'⟩
  exact ⟨formed.apart file file_mem file' file_mem' _ _ delivered.1 delivered'.1,
    formed.apart file' file_mem' file file_mem _ _ delivered'.1 delivered.1⟩

/-- No listed file is called like the manifest. -/
theorem ne_manifest_of_delivers (formed : WellFormed layout name version manifest)
    (delivers : List.Forall₂ (Delivers tools layout) manifest.files entries) :
    ∀ entry ∈ entries, entry.1 ≠ manifestName := by
  intro entry entry_mem
  rcases (mem_of_forall₂ delivers).1 entry entry_mem with ⟨file, file_mem, delivered⟩
  rcases formed.listing.allowed file file_mem with ⟨path, allowed, other⟩
  rw [delivered.1] at allowed
  cases allowed
  exact other

theorem filter_of_perm (others : ∀ entry ∈ entries, entry.1 ≠ manifestName)
    (perm : files.Perm ((manifestName, manifestBytes) :: entries)) :
    files.filter (fun file => file.1 == manifestName) = [(manifestName, manifestBytes)] := by
  have filtered := perm.filter fun file => file.1 == manifestName
  have none_else : entries.filter (fun file => file.1 == manifestName) = [] := by
    simpa using others
  rw [List.filter_cons_of_pos (by simp), none_else] at filtered
  exact List.perm_singleton.mp filtered

theorem packed_of_perm (others : ∀ entry ∈ entries, entry.1 ≠ manifestName)
    (perm : files.Perm ((manifestName, manifestBytes) :: entries)) :
    (packed files).Perm entries := by
  have filtered := perm.filter fun file => file.1 != manifestName
  have all_else : entries.filter (fun file => file.1 != manifestName) = entries := by
    simpa using others
  rwa [List.filter_cons_of_neg (by simp), all_else] at filtered

theorem readManifest_of_perm (parsed : tools.parseManifest manifestBytes = some manifest)
    (formed : WellFormed layout name version manifest)
    (single : files.filter (fun file => file.1 == manifestName) = [(manifestName, manifestBytes)]) :
    readManifest tools name version files = .ok (manifestBytes, manifest) := by
  have first : files.find? (fun file => file.1 == manifestName) =
      some (manifestName, manifestBytes) := by
    rw [← List.head?_filter, single]
    rfl
  simp [readManifest, single, first, ensure, okOr, parsed, formed.named, formed.versioned,
    formed.nonempty]

theorem keepManifest_of_free (holds : Holds staging.locate stored tree)
    (all_stored : ∀ file ∈ stored, IsStoredPath file.1)
    (fresh : ∀ file ∈ stored, file.1 ≠ manifestName)
    (folder : Job.IsFolder tree staging.locate) :
    ∃ after, keepManifest Device.reliable staging layout manifestBytes tree = (.ok (), after) := by
  unfold keepManifest
  split_ifs
  · have placed := @locate_path staging _ isStoredPath_manifest
    rw [components_manifest] at placed
    have parent : tree (staging.join manifestName).locate.dropLast = some .folder := by
      rw [placed, List.dropLast_concat]
      exact folder _ List.prefix_rfl
    have free : tree (staging.join manifestName).locate = none := by
      rw [placed]
      exact manifest_free holds all_stored fresh
    rcases Tree.createNew_of_free parent free with ⟨created, create⟩
    refine ⟨Function.update created (staging.join manifestName).locate
      (some (.file manifestBytes)), ?_⟩
    exact Job.attempt_bind_of_done _ _ create
  · exact ⟨tree, rfl⟩

/-- The files of a well-formed manifest are unpacked. -/
theorem unpackPack_of_perm {bytes : Bytes} (read : readUstar bytes layout = .ok files)
    (parsed : tools.parseManifest manifestBytes = some manifest)
    (formed : WellFormed layout name version manifest)
    (delivers : List.Forall₂ (Delivers tools layout) manifest.files entries)
    (perm : files.Perm ((manifestName, manifestBytes) :: entries))
    (folder : Job.IsFolder tree staging.locate)
    (empty : ∀ parts, parts ≠ [] → tree (staging.locate ++ parts) = none) :
    ∃ after, unpackPack Device.reliable staging tools bytes layout name version tree =
      (.ok (tools.sha256Hex manifestBytes), after) := by
  have others := ne_manifest_of_delivers formed delivers
  have in_pack := packed_of_perm others perm
  have manifest_read := readManifest_of_perm parsed formed (filter_of_perm others perm)
  have none_listed : ∀ file ∈ manifest.files, ∀ path ∈ (∅ : Finset Text),
      layout.filePath file.path ≠ .ok path := by simp
  rcases listedPaths_of_listing formed.listing none_listed with ⟨listed, lists⟩
  have allowed : ∀ file ∈ files, IsStoredPath file.1 := fun file file_mem =>
    Exists.elim (allowed_of_readUstar read file file_mem) fun _ => isStored_of_filePath
  have checked : ∀ file ∈ packed files, checkFile tools layout manifest file.1 file.2 = .ok () := by
    intro file file_mem
    rcases (mem_of_forall₂ delivers).1 file (in_pack.mem_iff.mp file_mem) with
      ⟨listed_file, listed_mem, delivered⟩
    exact checkFile_of_listed formed.listing listed_mem delivered.1 delivered.2.1 delivered.2.2
  have share : (packed files).Pairwise CanShare :=
    (in_pack.pairwise_iff fun share => share.symm).mpr (canShare_of_delivers formed delivers)
  have known : ∀ path, path ∈ (∅ : Finset Text) ↔
      ∃ file ∈ ([] : List (Text × Bytes)), file.1 = path := by simp
  rcases storeFiles_of_apart allowed (holds_nil empty) folder (by simp) known checked share with
    ⟨seen, middle, placed⟩
  rcases storeFiles_ok placed allowed (holds_nil empty) (by simp) known with ⟨holds, seen_iff, -⟩
  rw [List.nil_append] at holds seen_iff
  have same : seen = listed := by
    ext path
    rw [seen_iff path, (listedPaths_ok lists).2.2 path]
    constructor
    · rintro ⟨file, file_mem, rfl⟩
      rcases (mem_of_forall₂ delivers).1 file (in_pack.mem_iff.mp file_mem) with
        ⟨listed_file, listed_mem, delivered⟩
      exact .inr ⟨listed_file, listed_mem, delivered.1⟩
    · rintro (none | ⟨file, file_mem, allowed⟩)
      · exact absurd none (Finset.notMem_empty _)
      · rcases (mem_of_forall₂ delivers).2 file file_mem with ⟨entry, entry_mem, delivered⟩
        exact ⟨entry, in_pack.mem_iff.mpr entry_mem,
          Except.ok.inj (delivered.1.symm.trans allowed)⟩
  have folder' : Job.IsFolder middle staging.locate := by
    apply folder.of_same
    intro other outside
    have kept := @confined_storeFiles tools layout Device.reliable staging manifest files ∅ allowed
      tree folder other outside
    rwa [placed] at kept
  have all_stored : ∀ file ∈ packed files, IsStoredPath file.1 := fun file file_mem =>
    allowed file (mem_packed.mp file_mem).1
  rcases @keepManifest_of_free layout _ _ _ manifestBytes holds all_stored
    (fun file file_mem => (mem_packed.mp file_mem).2) folder' with ⟨after, kept⟩
  refine ⟨after, ?_⟩
  have all_seen : ensure (decide (seen = listed)) packMismatch = .ok () := by simp [same]
  apply (Job.lift_bind_of_ok _ read).trans
  apply (Job.lift_bind_of_ok _ manifest_read).trans
  apply (Job.lift_bind_of_ok _ lists).trans
  apply (Job.bind_of_ok _ placed).trans
  apply (Job.lift_bind_of_ok _ all_seen).trans
  exact Job.bind_of_ok _ kept

end entries

end ScuffedCrew.Packs
