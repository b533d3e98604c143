import ScuffedCrew.Packs.Sync
import ScuffedCrew.Rust.Killable

/-!
# The pack store

The folders under `templates` and the two record files, and a sync as the steps
it makes on them.  Each step is answered by the system, and the process may be
killed before any of them.  Hashing and unpacking are parameters, and an unpacking
or a removal that is cut short leaves anything in its folder.
-/

namespace ScuffedCrew.Packs

open Rust

variable {Contents : Type}

/-- The hash, and `unpack_pack` into an empty folder: the manifest's hash and what the folder then
holds, or a refusal. -/
structure Archives (Contents : Type) where
  sha256Hex : List UInt8 → Text
  unpackPack : List UInt8 → PackLayout → Text → Text → Except FixedRefusal (Text × Contents)
  empty : Contents
  isEmpty : Contents → Bool
  /-- There is a `manifest.json`. -/
  holdsManifest : Contents → Bool

structure Store (Contents : Type) where
  /-- By their names under `templates`. -/
  folders : HashMap Text Contents
  /-- `pack-versions.json`. -/
  versions : HashMap Text Text
  /-- `pack-manifests.json`. -/
  manifests : HashMap Text Text

/-- What the system answers to a step, of which a step reads what it needs. -/
structure Answer (Contents : Type) where
  ok : Bool
  /-- What a folder holds that is being filled or removed. -/
  leftover : Contents
  /-- The folder is older than `STALE_STAGING`. -/
  old : Bool
  /-- The names `read_dir` gives. -/
  names : List Text
  /-- `unique_suffix`. -/
  suffix : Text

abbrev StoreJob (Contents α : Type) := Killable (Answer Contents) (Store Contents) α

/-! ## Names -/

/-- The folder of each pack. -/
def packDirs : List (Text × Text) :=
  [("heroes-v1.tar".toList, "heroes".toList), ("heroes-v2.tar".toList, "heroes-v2".toList),
    ("heroes-v2-1080.tar".toList, "heroes-v2-1080".toList),
    ("bans-v1.tar".toList, "bans-v1".toList), ("maps-v1.tar".toList, "maps-v1".toList),
    ("words-v1.tar".toList, "words-v1".toList), ("names-v1.tar".toList, "names-v1".toList)]

namespace PackSpec

/-- `dir_label`. -/
def dirLabel (spec : PackSpec) : Text := (packDirs.lookup spec.name).getD spec.name

def staging (spec : PackSpec) (suffix : Text) : Text :=
  '.' :: (spec.dirLabel ++ "-next-".toList ++ suffix)

def backup (spec : PackSpec) (suffix : Text) : Text :=
  '.' :: (spec.dirLabel ++ "-prev-".toList ++ suffix)

end PackSpec

/-- The pack a staging or backup folder belongs to, and whether it is a backup. -/
def owner : Text → Option (PackSpec × Bool)
  | '.' :: rest => packs.findSome? fun spec =>
      if (spec.dirLabel ++ "-next-".toList).isPrefixOf rest then some (spec, false)
      else if (spec.dirLabel ++ "-prev-".toList).isPrefixOf rest then some (spec, true)
      else none
  | _ => none

/-! ## Steps -/

namespace Store

def folder? (store : Store Contents) (name : Text) : Option Contents := store.folders.lookup name

def put (store : Store Contents) (name : Text) (contents : Contents) : Store Contents :=
  { store with folders := store.folders.insert name contents }

def drop (store : Store Contents) (name : Text) : Store Contents :=
  { store with folders := store.folders.erase name }

variable (folder source target : Text)

def readVersions : StoreJob Contents (HashMap Text Text) :=
  .ask fun store answer => (if answer.ok then store.versions else ∅, store)

def readManifests : StoreJob Contents (HashMap Text Text) :=
  .ask fun store answer => (if answer.ok then store.manifests else ∅, store)

def writeVersions (versions : HashMap Text Text) : StoreJob Contents Bool :=
  .ask fun store answer => (answer.ok, if answer.ok then { store with versions } else store)

def writeManifests (manifests : HashMap Text Text) : StoreJob Contents Bool :=
  .ask fun store answer => (answer.ok, if answer.ok then { store with manifests } else store)

def readDir : StoreJob Contents (List Text) := .ask fun store answer => (answer.names, store)

def uniqueSuffix : StoreJob Contents Text := .ask fun store answer => (answer.suffix, store)

/-- A step on something else than the folders. -/
def attempt : StoreJob Contents Bool := .ask fun store answer => (answer.ok, store)

def folderExists : StoreJob Contents Bool :=
  .ask fun store answer => (answer.ok && (store.folder? folder).isSome, store)

def isStale : StoreJob Contents Bool :=
  .ask fun store answer => (answer.old && (store.folder? folder).isSome, store)

/-- `create_dir`. -/
def createDir (archives : Archives Contents) : StoreJob Contents Bool :=
  .ask fun store answer =>
    if answer.ok && (store.folder? folder).isNone then (true, store.put folder archives.empty)
    else (false, store)

/-- Some of the files of a folder are written or removed. -/
def scribble : StoreJob Contents Unit :=
  .ask fun store answer => ((),
    if (store.folder? folder).isSome then store.put folder answer.leftover else store)

/-- The last file of an unpacking is written. -/
def fill (contents : Contents) : StoreJob Contents Bool :=
  .ask fun store answer =>
    if answer.ok && (store.folder? folder).isSome then (true, store.put folder contents)
    else (false, store)

/-- `remove_dir_all`. -/
def removeDirAll : StoreJob Contents Unit := do
  scribble folder
  .ask fun store answer => ((), if answer.ok then store.drop folder else store)

/-- `rename` of a folder, which replaces none but an empty one. -/
def rename (archives : Archives Contents) : StoreJob Contents Bool :=
  .ask fun store answer =>
    match store.folder? source with
    | some contents =>
        if answer.ok && (store.folder? target).all archives.isEmpty then
          (true, (store.drop source).put target contents)
        else (false, store)
    | none => (false, store)

/-- `exchange_paths`. -/
def exchangePaths : StoreJob Contents Bool :=
  .ask fun store answer =>
    match store.folder? source, store.folder? target with
    | some contents, some contents' =>
        if answer.ok then (true, (store.put source contents').put target contents)
        else (false, store)
    | _, _ => (false, store)

/-- `in_place`. -/
def inPlace (archives : Archives Contents) (spec : PackSpec) : StoreJob Contents Bool :=
  .ask fun store answer =>
    (answer.ok && (store.folder? spec.dirLabel).any fun contents =>
      !spec.layout.keepsManifest || archives.holdsManifest contents, store)

/-- `installed_record`: the version, and the manifest's hash if one is recorded. -/
def installedRecord (store : Store Contents) (name : Text) : Option (Text × Option Text) :=
  (store.versions.lookup name).map fun version =>
    (version, (store.manifests.lookup name).filter isSha256)

/-! ## The sync -/

section sync

variable (archives : Archives Contents)

/-- A backup is kept while the live folder is missing: it is the only copy. -/
def isSpare (spec : PackSpec) (isBackup : Bool) : StoreJob Contents Bool :=
  if isBackup then folderExists spec.dirLabel else pure true

/-- The body of the loop of `sweep_stale_staging` over the names. -/
def sweepFolder (name : Text) : StoreJob Contents Unit :=
  match owner name with
  | none => pure ()
  | some (spec, isBackup) => do
      let spare ← isSpare spec isBackup
      if spare then
        let stale ← isStale name
        if stale then removeDirAll name else pure ()
      else pure ()

def sweepStaleStaging : StoreJob Contents Unit := do
  let names ← readDir
  .loop (fun _ name => sweepFolder name) () names

/-- The fallback of `swap_dir`: the live folder is moved away before the new one comes. -/
def swapByRenames (spec : PackSpec) (staging : Text) : StoreJob Contents Bool := do
  let suffix ← uniqueSuffix
  let moved ← rename spec.dirLabel (spec.backup suffix) archives
  if moved then
    let arrived ← rename staging spec.dirLabel archives
    if arrived then
      removeDirAll (spec.backup suffix)
      pure true
    else
      let _ ← rename (spec.backup suffix) spec.dirLabel archives
      pure false
  else pure false

def swapDir (spec : PackSpec) (staging : Text) : StoreJob Contents Bool := do
  let exists_live ← folderExists spec.dirLabel
  if exists_live then
    let exchanged ← exchangePaths staging spec.dirLabel
    if exchanged then
      removeDirAll staging
      pure true
    else swapByRenames archives spec staging
  else rename staging spec.dirLabel archives

/-- What is unpacked is swapped in, or removed. -/
def bringIn (spec : PackSpec) (staging hash : Text) (contents : Contents) :
    StoreJob Contents (Except Failure Text) := do
  let filled ← fill staging contents
  if filled then
    let swapped ← swapDir archives spec staging
    if swapped then pure (.ok hash)
    else
      removeDirAll staging
      pure (.error .download)
  else
    removeDirAll staging
    pure (.error .download)

/-- `install_pack`. -/
def installPack (spec : PackSpec) (entry : PackListEntry) (bytes : List UInt8) :
    StoreJob Contents (Except Failure Text) :=
  if bytes.length ≠ entry.size ∨ archives.sha256Hex bytes ≠ entry.sha256 then
    pure (.error (.fixed .mismatch))
  else do
    let suffix ← uniqueSuffix
    let created ← createDir (spec.staging suffix) archives
    if created then
      scribble (spec.staging suffix)
      match archives.unpackPack bytes spec.layout entry.name entry.version with
      | .ok (hash, contents) => bringIn archives spec (spec.staging suffix) hash contents
      | .error refusal =>
          removeDirAll (spec.staging suffix)
          pure (.error (.fixed refusal))
    else pure (.error .download)

/-- `sync_one`. -/
def syncOne (server : Server) (spec : PackSpec) (entry : PackListEntry) : StoreJob Contents Step := do
  let parent ← attempt
  if parent then
    match server.pack spec.name with
    | .unavailable => pure (.stop .unavailable)
    | .unsupported => pure .gone
    | .auth => pure (.stop (.failed .auth))
    | .forbidden => pure (.stop (.failed .forbidden))
    | .limited seconds => pure (.stop (.failed (.limited (clampRetryAfter seconds))))
    | .failed failure => pure (.done failure)
    | .ok bytes =>
        let result ← installPack archives spec entry bytes
        match result with
        | .ok hash => pure (.installed hash)
        | .error failure => pure (.done failure)
  else pure (.done .download)

/-- What a run has read and done so far. -/
structure RunState where
  versions : HashMap Text Text
  manifests : HashMap Text Text
  requestsLeft : Option ℕ
  stopped : Option PackSync
  stale : Bool
  heldBack : ℕ
  refused : List (PackListEntry × FixedRefusal)
  installed : List InstalledPack
  report : PackReport
  /-- The packs whose records were not stored. -/
  unstored : List Text

namespace RunState

def status (state : RunState) (spec : PackSpec) (outcome : PackSync) : RunState :=
  { state with report := state.report ++ [⟨spec.name, outcome⟩] }

/-- The records with the pack that has just been installed. -/
def record (state : RunState) (spec : PackSpec) (version hash : Text) : RunState :=
  { state with
    versions := state.versions.insert spec.name version
    manifests :=
      if spec.layout.keepsManifest then state.manifests.insert spec.name hash else state.manifests
    installed := state.installed ++ [⟨spec.name, version, hash⟩] }

end RunState

/-- The record files, the versions first. -/
def writeRecords (spec : PackSpec) (state : RunState) : StoreJob Contents Bool := do
  let written ← writeVersions state.versions
  if written && spec.layout.keepsManifest then writeManifests state.manifests else pure written

/-- What a download came to, in the record files and in the state of the run. -/
def settle (spec : PackSpec) (entry : PackListEntry) (state : RunState) :
    Step → StoreJob Contents RunState
  | .installed hash => do
      let recorded := state.record spec entry.version hash
      let written ← writeRecords spec recorded
      let noted := if written then recorded
        else { recorded with unstored := recorded.unstored ++ [spec.name] }
      pure (noted.status spec .installed)
  | .done (.fixed refusal) => pure (RunState.status { state with
        stale := state.stale || decide (refusal = .mismatch)
        refused := state.refused ++ [(entry, refusal)] } spec (.failed (.fixed refusal)))
  | .done failure => pure (state.status spec (.failed failure))
  | .gone => pure (RunState.status { state with stale := true } spec (.failed .download))
  | .stop outcome => pure (RunState.status { state with stopped := some outcome } spec outcome)

def isCurrent (spec : PackSpec) (entry : PackListEntry) (versions : HashMap Text Text) :
    StoreJob Contents Bool :=
  if versions.lookup spec.name = some entry.version then inPlace archives spec else pure false

/-- A listed pack that is not current. -/
def visitMissing (server : Server) (refused : Refused) (state : RunState) (spec : PackSpec)
    (entry : PackListEntry) : StoreJob Contents RunState :=
  match knownRefusal refused entry with
  | some refusal => pure (state.status spec (.failed (.fixed refusal)))
  | none =>
      match state.stopped with
      | some stop => pure (state.status spec stop)
      | none =>
          match takeRequest state.requestsLeft with
          | none => pure { state with heldBack := state.heldBack + 1 }
          | some left => do
              let came ← syncOne archives server spec entry
              settle spec entry { state with requestsLeft := left } came

/-- One pack of a run. -/
def visit (server : Server) (entries : List PackListEntry) (refused : Refused) (state : RunState)
    (spec : PackSpec) : StoreJob Contents RunState :=
  match selectPack entries spec with
  | .error outcome => pure (state.status spec outcome)
  | .ok entry => do
      let current ← isCurrent archives spec entry state.versions
      if current then pure (state.status spec .current)
      else visitMissing archives server refused state spec entry

/-- The packs of a run, in turn. -/
def runPacks (server : Server) (specs : List PackSpec) (entries : List PackListEntry)
    (requestsLeft : Option ℕ) (refused : Refused) : StoreJob Contents RunState := do
  let versions ← readVersions
  let manifests ← readManifests
  .loop (visit archives server entries refused)
    ⟨versions, manifests, requestsLeft, none, false, 0, [], [], [], []⟩ specs

/-- The list of a run, whether it was read now, and the requests that are left. -/
def listing (server : Server) (plan : RunPlan) :
    Except PackSync (List PackListEntry × Bool × Option ℕ) :=
  match plan.listed with
  | some entries => .ok (entries, false, plan.maxRequests)
  | none =>
      match server.list with
      | .ok entries => .ok (entries, true, (takeRequest plan.maxRequests).getD plan.maxRequests)
      | .error outcome => .error outcome

/-- One run over a scope, and the packs whose records were not stored. -/
def runSync (access : Access) (server : Server) (scope : Scope) (plan : RunPlan) :
    StoreJob Contents (SyncRun × List Text) :=
  match Access.refusal { access with client := true } with
  | some outcome => pure (.early scope outcome plan.listed, [])
  | none => do
      sweepStaleStaging
      if access.client then
        match listing server plan with
        | .error outcome => pure (.early scope outcome none, [])
        | .ok (entries, readList, requestsLeft) =>
            let state ← runPacks archives server scope.specs entries requestsLeft plan.refused
            pure ({
              report := state.report
              entries := some entries
              readList
              stopped := state.stopped.isSome
              stale := state.stale
              heldBack := state.heldBack
              refused := state.refused
              installed := state.installed }, state.unstored)
      else pure (.early scope (.failed .download) plan.listed, [])

end sync

end Store

end ScuffedCrew.Packs
