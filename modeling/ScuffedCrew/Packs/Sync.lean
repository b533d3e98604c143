import ScuffedCrew.Packs.Catalog
import ScuffedCrew.Rust.HashMap

/-!
# One pack sync

`runSync` takes the list, and downloads the packs that are not current as far
as its plan allows.  The disk is the record files and the packs whose folder is
in place, and it takes every write.  Hashing and unpacking are parameters: what
a run does next depends on them only through what they return.
-/

namespace ScuffedCrew.Packs

open Rust

/-- The hash, and `unpack_pack` into a fresh staging folder: the manifest's hash, or a refusal. -/
structure Unpacking where
  sha256Hex : List UInt8 → Text
  unpackPack : List UInt8 → PackLayout → Text → Text → Except FixedRefusal Text

structure Disk where
  /-- `pack-versions.json`. -/
  versions : HashMap Text Text
  /-- `pack-manifests.json`. -/
  manifests : HashMap Text Text
  inPlace : Text → Bool

/-- What the request for a pack came to. -/
inductive Get
  | ok (body : List UInt8)
  | unavailable
  | unsupported
  | auth
  | forbidden
  | limited (seconds : ℕ)
  | failed (failure : Failure)
  deriving DecidableEq, Repr

/-- The site during one try. -/
structure Server where
  /-- `fetch_list`. -/
  list : Except PackSync (List PackListEntry)
  pack : Text → Get

/-- What is checked before a run sends a request. -/
structure Access where
  signedIn : Bool
  validUrl : Bool
  /-- Taken, held by another sync, or an error. -/
  lock : Option Bool
  client : Bool
  deriving DecidableEq, Repr

namespace Access

def granted : Access := ⟨true, true, some true, true⟩

def refusal (access : Access) : Option PackSync :=
  if !access.signedIn then some (.failed .signIn)
  else if !access.validUrl then some (.failed .download)
  else match access.lock with
    | none => some (.failed .download)
    | some false => some .busy
    | some true => if !access.client then some (.failed .download) else none

end Access

/-- Downloads refused for a fixed reason, with the entry that was refused. -/
abbrev Refused := HashMap Text (PackListEntry × FixedRefusal)

def knownRefusal (refused : Refused) (entry : PackListEntry) : Option FixedRefusal :=
  (refused.lookup entry.name).bind fun (was, refusal) =>
    if was = entry then some refusal else none

structure RunPlan where
  /-- A list read earlier. -/
  listed : Option (List PackListEntry)
  maxRequests : Option ℕ
  refused : Refused

structure InstalledPack where
  name : Text
  version : Text
  manifestSha256 : Text
  deriving DecidableEq, Repr

structure SyncRun where
  report : PackReport
  entries : Option (List PackListEntry)
  readList : Bool
  /-- A download hit a stop. -/
  stopped : Bool
  /-- A download showed the list is out of date. -/
  stale : Bool
  /-- Packs left for a later run. -/
  heldBack : ℕ
  refused : List (PackListEntry × FixedRefusal)
  installed : List InstalledPack

inductive Scope
  | all
  | heroesOnly
  | extrasOnly
  deriving DecidableEq, Repr

namespace Scope

def specs : Scope → List PackSpec
  | .all => packs
  | .heroesOnly => packs.filter fun spec => spec.name = "heroes-v1.tar".toList
  | .extrasOnly => packs.filter fun spec => spec.name ≠ "heroes-v1.tar".toList

end Scope

def SyncRun.early (scope : Scope) (outcome : PackSync) (listed : Option (List PackListEntry)) :
    SyncRun where
  report := scope.specs.map fun spec => ⟨spec.name, outcome⟩
  entries := listed
  readList := false
  stopped := false
  stale := false
  heldBack := 0
  refused := []
  installed := []

/-- A wait the site asks for, kept between a second and an hour. -/
def clampRetryAfter (seconds : ℕ) : ℕ := max 1 (min seconds 3600)

/-- Take one request off a budget. -/
def takeRequest : Option ℕ → Option (Option ℕ)
  | none => some none
  | some 0 => none
  | some (left + 1) => some (some left)

def isCurrent (disk : Disk) (spec : PackSpec) (entry : PackListEntry) : Bool :=
  (disk.versions.lookup spec.name == some entry.version) && disk.inPlace spec.name

inductive Step
  | installed (manifestSha256 : Text)
  | done (failure : Failure)
  /-- Listed, and then a 404. -/
  | gone
  /-- Ends the downloads of the run. -/
  | stop (outcome : PackSync)
  deriving DecidableEq, Repr

namespace Unpacking

variable (unpacking : Unpacking)

/-- `install_pack`. -/
def installPack (spec : PackSpec) (entry : PackListEntry) (bytes : List UInt8) :
    Except FixedRefusal Text :=
  if bytes.length ≠ entry.size ∨ unpacking.sha256Hex bytes ≠ entry.sha256 then .error .mismatch
  else unpacking.unpackPack bytes spec.layout entry.name entry.version

def syncOne (server : Server) (spec : PackSpec) (entry : PackListEntry) : Step :=
  match server.pack spec.name with
  | .unavailable => .stop .unavailable
  | .unsupported => .gone
  | .auth => .stop (.failed .auth)
  | .forbidden => .stop (.failed .forbidden)
  | .limited seconds => .stop (.failed (.limited (clampRetryAfter seconds)))
  | .failed failure => .done failure
  | .ok body =>
      match unpacking.installPack spec entry body with
      | .ok manifestSha256 => .installed manifestSha256
      | .error refusal => .done (.fixed refusal)

end Unpacking

/-! ## The loop over the packs -/

/-- A folder in place, with its version, and its manifest's hash if the layout keeps one. -/
def Disk.install (disk : Disk) (spec : PackSpec) (version manifestSha256 : Text) : Disk where
  versions := disk.versions.insert spec.name version
  manifests :=
    if spec.layout.keepsManifest then disk.manifests.insert spec.name manifestSha256
    else disk.manifests
  inPlace := Function.update disk.inPlace spec.name true

structure Loop where
  disk : Disk
  requestsLeft : Option ℕ
  stopped : Option PackSync
  stale : Bool
  heldBack : ℕ
  refused : List (PackListEntry × FixedRefusal)
  installed : List InstalledPack
  report : PackReport

namespace Loop

def status (loop : Loop) (spec : PackSpec) (outcome : PackSync) : Loop :=
  { loop with report := loop.report ++ [⟨spec.name, outcome⟩] }

/-- What a download came to, on the disk and in what the run remembers. -/
def take (loop : Loop) (spec : PackSpec) (entry : PackListEntry) : Step → Loop
  | .installed manifestSha256 =>
      status { loop with
        disk := loop.disk.install spec entry.version manifestSha256
        installed := loop.installed ++ [⟨spec.name, entry.version, manifestSha256⟩] }
        spec .installed
  | .done (.fixed refusal) =>
      status { loop with
        stale := loop.stale || decide (refusal = .mismatch)
        refused := loop.refused ++ [(entry, refusal)] } spec (.failed (.fixed refusal))
  | .done failure => loop.status spec (.failed failure)
  | .gone => status { loop with stale := true } spec (.failed .download)
  | .stop outcome => status { loop with stopped := some outcome } spec outcome

def visit (unpacking : Unpacking) (server : Server) (entries : List PackListEntry)
    (refused : Refused) (loop : Loop) (spec : PackSpec) : Loop :=
  match selectPack entries spec with
  | .error outcome => loop.status spec outcome
  | .ok entry =>
      if isCurrent loop.disk spec entry then loop.status spec .current
      else match knownRefusal refused entry with
        | some refusal => loop.status spec (.failed (.fixed refusal))
        | none =>
            match loop.stopped with
            | some stop => loop.status spec stop
            | none =>
                match takeRequest loop.requestsLeft with
                | none => { loop with heldBack := loop.heldBack + 1 }
                | some left =>
                    take { loop with requestsLeft := left } spec entry
                      (unpacking.syncOne server spec entry)

def begin (disk : Disk) (requestsLeft : Option ℕ) : Loop where
  disk := disk
  requestsLeft := requestsLeft
  stopped := none
  stale := false
  heldBack := 0
  refused := []
  installed := []
  report := []

end Loop

def runLoop (unpacking : Unpacking) (server : Server) (disk : Disk) (specs : List PackSpec)
    (entries : List PackListEntry) (requestsLeft : Option ℕ) (refused : Refused) : Loop :=
  specs.foldl (Loop.visit unpacking server entries refused) (.begin disk requestsLeft)

/-- One run over a scope. -/
def runSync (unpacking : Unpacking) (access : Access) (server : Server) (disk : Disk)
    (scope : Scope) (plan : RunPlan) : SyncRun × Disk :=
  match access.refusal with
  | some outcome => (.early scope outcome plan.listed, disk)
  | none =>
      let listed : Except PackSync (List PackListEntry × Bool × Option ℕ) :=
        match plan.listed with
        | some entries => .ok (entries, false, plan.maxRequests)
        | none =>
            match server.list with
            | .ok entries =>
                .ok (entries, true, (takeRequest plan.maxRequests).getD plan.maxRequests)
            | .error outcome => .error outcome
      match listed with
      | .error outcome => (.early scope outcome none, disk)
      | .ok (entries, readList, requestsLeft) =>
          let loop := runLoop unpacking server disk scope.specs entries requestsLeft plan.refused
          ({ report := loop.report
             entries := some entries
             readList := readList
             stopped := loop.stopped.isSome
             stale := loop.stale
             heldBack := loop.heldBack
             refused := loop.refused
             installed := loop.installed }, loop.disk)

end ScuffedCrew.Packs
