import Mathlib.Data.Finset.Insert
import ScuffedCrew.Packs.Ustar

/-!
# Unpacking

`unpack_pack` checks the inner manifest, and then every file right before it
writes it.  Parsing the manifest and hashing are parameters, and a device
answers for the operating system at each path.  Nothing outside the staging
folder is written, however an unpacking ends.
-/

namespace ScuffedCrew.Packs

open Rust

structure InnerFile where
  path : Text
  sha256 : Text
  size : ℕ
  deriving DecidableEq

structure InnerManifest where
  name : Text
  version : Text
  files : List InnerFile
  deriving DecidableEq

structure Tools where
  /-- `Sha256::digest`. -/
  digest : Bytes → Bytes
  /-- `serde_json::from_slice`. -/
  parseManifest : Bytes → Option InnerManifest

/-- `sha256_hex`. -/
def Tools.sha256Hex (tools : Tools) (data : Bytes) : Text := hexEncode (tools.digest data)

/-- What the operating system lets through at each path. -/
structure Device where
  makesFolder : Path → Bool
  finds : Path → Bool
  creates : Path → Bool
  /-- Where a write stops. -/
  stops : Path → Option ℕ
  syncs : Path → Bool

/-- A device that refuses nothing. -/
def Device.reliable : Device where
  makesFolder _ := true
  finds _ := true
  creates _ := true
  stops _ := none
  syncs _ := true

/-! ## The manifest -/

section checks

variable (tools : Tools) (layout : PackLayout)

/-- The manifest of the archive and its bytes. -/
def readManifest (name version : Text) (files : List (Text × Bytes)) :
    Except Fault (Bytes × InnerManifest) := do
  let manifests := files.filter fun file => file.1 == manifestName
  ensure (manifests.length == 1) packMismatch
  let (_, bytes) ← okOr (files.find? fun file => file.1 == manifestName) packMismatch
  let manifest ← okOr (tools.parseManifest bytes) packMismatch
  ensure (manifest.name == name && manifest.version == version) packMismatch
  ensure (!manifest.files.isEmpty) packMismatch
  .ok (bytes, manifest)

/-- The paths of the listed files. -/
def listedPaths : List InnerFile → Finset Text → Except Fault (Finset Text)
  | [], listed => .ok listed
  | file :: rest, listed => do
      let path ← layout.filePath file.path
      ensure (path != manifestName && decide (path ∉ listed)) packUnsafe
      ensure (isSha256 file.sha256) packMismatch
      listedPaths rest (insert path listed)

/-- A file of the archive against the first entry that lists its path. -/
def checkFile (manifest : InnerManifest) (path : Text) (data : Bytes) : Except Fault Unit := do
  let listed ← okOr (manifest.files.find? fun file =>
    (layout.filePath file.path).toOption == some path) packMismatch
  ensure (data.length == listed.size && tools.sha256Hex data == listed.sha256) packMismatch

end checks

/-! ## Writing -/

section writing

variable (device : Device) (staging : Path)

/-- The folder that a file goes into. -/
def makeParent (dest : Path) : Job Unit :=
  match dest.parent with
  | some folder => Job.attempt (Tree.createDirAll (device.makesFolder dest) folder) packFailed
  | none => pure ()

/-- The file is created where nothing is yet, and written. -/
def storeFile (path : Text) (data : Bytes) : Job Unit := do
  let dest := staging.join path
  Job.lift (ensure (staging.isPrefixOf dest) packUnsafe)
  makeParent device dest
  Job.attempt (fun tree => (!tree.holds (device.finds dest) dest, tree)) packUnsafe
  Job.attempt (Tree.create (device.creates dest) dest) packFailed
  Job.attempt (Tree.writeAll (device.stops dest) dest data) packFailed
  Job.attempt (Tree.syncAll (device.syncs dest)) packFailed

/-- The loop over the files of the archive. -/
def storeFiles (tools : Tools) (layout : PackLayout) (manifest : InnerManifest) :
    List (Text × Bytes) → Finset Text → Job (Finset Text)
  | [], seen => pure seen
  | (path, data) :: rest, seen =>
      if path = manifestName then storeFiles tools layout manifest rest seen
      else do
        Job.lift (ensure (decide (path ∉ seen)) packUnsafe)
        Job.lift (checkFile tools layout manifest path data)
        storeFile device staging path data
        storeFiles tools layout manifest rest (insert path seen)

/-- The manifest's bytes in the folder of a layout that keeps them. -/
def keepManifest (layout : PackLayout) (bytes : Bytes) : Job Unit :=
  if layout.keepsManifest then do
    let dest := staging.join manifestName
    Job.attempt (Tree.createNew (device.creates dest) dest) packFailed
    Job.attempt (Tree.writeAll (device.stops dest) dest bytes) packFailed
    Job.attempt (Tree.syncAll (device.syncs dest)) packFailed
  else pure ()

/-- `unpack_pack`. -/
def unpackPack (tools : Tools) (bytes : Bytes) (layout : PackLayout) (name version : Text) :
    Job Text := do
  let files ← Job.lift (readUstar bytes layout)
  let (manifestBytes, manifest) ← Job.lift (readManifest tools name version files)
  let listed ← Job.lift (listedPaths layout manifest.files ∅)
  let seen ← storeFiles device staging tools layout manifest files ∅
  Job.lift (ensure (decide (seen = listed)) packMismatch)
  keepManifest device staging layout manifestBytes
  pure (tools.sha256Hex manifestBytes)

end writing

/-! ## Every unpacking ends -/

section ends

variable {tools : Tools} {layout : PackLayout} {device : Device} {staging : Path}

theorem onlyRejects_readManifest (name version : Text) (files : List (Text × Bytes)) :
    Checked.OnlyRejects (readManifest tools name version files) := by
  refine Checked.onlyRejects_bind (by simp) fun _ _ => ?_
  refine Checked.onlyRejects_bind (by simp) fun found _ => ?_
  refine Checked.onlyRejects_bind (by simp) fun manifest _ => ?_
  refine Checked.onlyRejects_bind (by simp) fun _ _ => ?_
  exact Checked.onlyRejects_bind (by simp) fun _ _ => by simp

theorem onlyRejects_listedPaths (files : List InnerFile) (listed : Finset Text) :
    Checked.OnlyRejects (listedPaths layout files listed) := by
  induction files generalizing listed with
  | nil => simp [listedPaths]
  | cons file rest ih =>
      refine Checked.onlyRejects_bind (onlyRejects_filePath layout file.path) fun path _ => ?_
      refine Checked.onlyRejects_bind (by simp) fun _ _ => ?_
      exact Checked.onlyRejects_bind (by simp) fun _ _ => ih _

theorem onlyRejects_checkFile (manifest : InnerManifest) (path : Text) (data : Bytes) :
    Checked.OnlyRejects (checkFile tools layout manifest path data) :=
  Checked.onlyRejects_bind (by simp) fun _ _ => by simp

theorem settles_pure {α : Type} (value : α) : Job.Settles (pure value) :=
  Job.settles_lift (by simp)

theorem settles_storeFile (path : Text) (data : Bytes) :
    Job.Settles (storeFile device staging path data) := by
  refine Job.Settles.bind (Job.settles_lift (by simp)) fun _ => ?_
  refine Job.Settles.bind ?_ fun _ => ?_
  · unfold makeParent
    split
    · exact Job.settles_attempt _ _
    · exact settles_pure ()
  refine Job.Settles.bind (Job.settles_attempt _ _) fun _ => ?_
  refine Job.Settles.bind (Job.settles_attempt _ _) fun _ => ?_
  exact Job.Settles.bind (Job.settles_attempt _ _) fun _ => Job.settles_attempt _ _

theorem settles_storeFiles (manifest : InnerManifest) (files : List (Text × Bytes))
    (seen : Finset Text) :
    Job.Settles (storeFiles device staging tools layout manifest files seen) := by
  induction files generalizing seen with
  | nil => exact settles_pure seen
  | cons file rest ih =>
      rcases file with ⟨path, data⟩
      unfold storeFiles
      split_ifs
      · exact ih seen
      · refine Job.Settles.bind (Job.settles_lift (by simp)) fun _ => ?_
        refine Job.Settles.bind (Job.settles_lift (onlyRejects_checkFile _ _ _)) fun _ => ?_
        exact Job.Settles.bind (settles_storeFile path data) fun _ => ih _

theorem settles_keepManifest (bytes : Bytes) :
    Job.Settles (keepManifest device staging layout bytes) := by
  unfold keepManifest
  split_ifs
  · refine Job.Settles.bind (Job.settles_attempt _ _) fun _ => ?_
    exact Job.Settles.bind (Job.settles_attempt _ _) fun _ => Job.settles_attempt _ _
  · exact settles_pure ()

/-- `unpack_pack` ends with a result or a message, and reads no index past the end. -/
theorem settles_unpackPack {bytes : Bytes} (fits : bytes.length < 2 ^ 63) (name version : Text) :
    Job.Settles (unpackPack device staging tools bytes layout name version) := by
  refine Job.Settles.bind (Job.settles_lift (onlyRejects_readUstar fits layout)) fun files => ?_
  refine Job.Settles.bind (Job.settles_lift (onlyRejects_readManifest _ _ _)) ?_
  rintro ⟨manifestBytes, manifest⟩
  refine Job.Settles.bind (Job.settles_lift (onlyRejects_listedPaths _ _)) fun listed => ?_
  refine Job.Settles.bind (settles_storeFiles _ _ _) fun seen => ?_
  refine Job.Settles.bind (Job.settles_lift (by simp)) fun _ => ?_
  exact Job.Settles.bind (settles_keepManifest _) fun _ => settles_pure _

end ends

/-! ## Nothing outside the staging folder -/

section confined

variable {tools : Tools} {layout : PackLayout} {device : Device} {staging : Path} {parts : Path}

/-- Where a stored path goes. -/
theorem locate_join (stored : IsStored parts) :
    (staging.join (Path.text parts)).locate = staging.locate ++ parts := by
  rw [Path.join_text stored.1, Path.locate_append stored.1]

theorem locate_dropLast (stored : IsStored parts) :
    Path.locate (staging.join (Path.text parts)).dropLast = staging.locate ++ parts.dropLast := by
  rw [Path.join_text stored.1, List.dropLast_append_of_ne_nil stored.ne_nil,
    Path.locate_append fun part part_mem => stored.1 part (List.mem_of_mem_dropLast part_mem)]

theorem below_of_stored (stored : IsStored parts) :
    Job.Below staging.locate (staging.locate ++ parts) :=
  ⟨List.prefix_append _ _, by simpa using stored.ne_nil⟩

theorem ne_of_outside {base other place : Path} (outside : ¬Job.Below base other)
    (below : Job.Below base place) : other ≠ place := by
  rintro rfl
  exact outside below

theorem confined_pure {α : Type} (base : Path) (value : α) : Job.Confined base (pure value) :=
  Job.confined_lift _

theorem confined_makeParent (stored : IsStored parts) :
    Job.Confined staging.locate (makeParent device (staging.join (Path.text parts))) := by
  unfold makeParent Path.parent
  split
  · rename_i folder parent
    split_ifs at parent
    cases parent
    refine Job.confined_attempt _ fun tree folder path outside => ?_
    apply Tree.createDirAll_outside folder outside
    rw [locate_dropLast stored]
    exact List.prefix_append _ _
  · exact confined_pure _ ()

theorem confined_storeFile (stored : IsStored parts) (data : Bytes) :
    Job.Confined staging.locate (storeFile device staging (Path.text parts) data) := by
  have apart : ∀ other, ¬Job.Below staging.locate other →
      other ≠ (staging.join (Path.text parts)).locate := by
    intro other outside
    rw [locate_join stored]
    exact ne_of_outside outside (below_of_stored stored)
  refine (Job.confined_lift _).bind fun _ => ?_
  refine (confined_makeParent stored).bind fun _ => ?_
  refine (Job.confined_attempt _ fun _ _ _ _ => rfl).bind fun _ => ?_
  refine (Job.confined_attempt _ fun _ _ other outside => ?_).bind fun _ => ?_
  · exact Tree.create_other (apart other outside)
  refine (Job.confined_attempt _ fun _ _ other outside => ?_).bind fun _ => ?_
  · exact Tree.writeAll_other (apart other outside)
  exact Job.confined_attempt _ fun _ _ _ _ => rfl

theorem confined_storeFiles (manifest : InnerManifest) (files : List (Text × Bytes))
    (seen : Finset Text)
    (all_stored : ∀ file ∈ files, IsStoredPath file.1) :
    Job.Confined staging.locate
      (storeFiles device staging tools layout manifest files seen) := by
  induction files generalizing seen with
  | nil => exact confined_pure _ seen
  | cons file rest ih =>
      rcases file with ⟨path, data⟩
      have others := fun seen => ih seen fun file file_mem =>
        all_stored file (List.mem_cons_of_mem _ file_mem)
      unfold storeFiles
      split_ifs
      · exact others seen
      · rcases all_stored (path, data) List.mem_cons_self with ⟨parts, rfl, stored⟩
        refine (Job.confined_lift _).bind fun _ => ?_
        refine (Job.confined_lift _).bind fun _ => ?_
        exact (confined_storeFile stored data).bind fun _ => others _

theorem isStored_manifest : IsStored [manifestName] :=
  isStored_of_plain (plain_of_length (by decide) (by decide))

theorem confined_keepManifest (bytes : Bytes) :
    Job.Confined staging.locate (keepManifest device staging layout bytes) := by
  have apart : ∀ other, ¬Job.Below staging.locate other →
      other ≠ (staging.join manifestName).locate := by
    intro other outside
    have placed := @locate_join staging _ isStored_manifest
    rw [Path.text_singleton] at placed
    rw [placed]
    exact ne_of_outside outside (below_of_stored isStored_manifest)
  unfold keepManifest
  split_ifs
  · refine (Job.confined_attempt _ fun _ _ other outside => ?_).bind fun _ => ?_
    · exact Tree.createNew_other (apart other outside)
    refine (Job.confined_attempt _ fun _ _ other outside => ?_).bind fun _ => ?_
    · exact Tree.writeAll_other (apart other outside)
    exact Job.confined_attempt _ fun _ _ _ _ => rfl
  · exact confined_pure _ ()

/-- However it ends, an unpacking writes below the staging folder only. -/
theorem confined_unpackPack (bytes : Bytes) (name version : Text) :
    Job.Confined staging.locate
      (unpackPack device staging tools bytes layout name version) := by
  refine Job.Confined.lift_bind fun files read => ?_
  refine (Job.confined_lift _).bind ?_
  rintro ⟨manifestBytes, manifest⟩
  refine (Job.confined_lift _).bind fun listed => ?_
  refine (confined_storeFiles _ _ _ fun file file_mem => ?_).bind fun seen => ?_
  · rcases allowed_of_readUstar read file file_mem with ⟨name, allowed⟩
    exact isStored_of_filePath allowed
  refine (Job.confined_lift _).bind fun _ => ?_
  exact (confined_keepManifest _).bind fun _ => confined_pure _ _

end confined

end ScuffedCrew.Packs
