import ScuffedCrew.Packs.Crashes
import ScuffedCrew.Packs.Unpacked

/-!
# A sync that nothing stops

On a system that refuses nothing, and gives folder names that are not taken, the
steps of a sync come to the plain sync of the records and the packs in place.
-/

namespace ScuffedCrew.Packs

open Rust

variable {Contents : Type} {archives : Archives Contents} {server : Server} {spec other : PackSpec}
  {entry : PackListEntry} {store after : Store Contents}

/-! ## The plain sync -/

/-- The hash and the refusals, without what is unpacked. -/
def Archives.unpacking (archives : Archives Contents) : Unpacking where
  sha256Hex := archives.sha256Hex
  unpackPack bytes layout name version :=
    (archives.unpackPack bytes layout name version).map Prod.fst

/-- An unpacked folder holds its manifest when the layout keeps it. -/
def Archives.KeepsManifests (archives : Archives Contents) : Prop :=
  ∀ bytes layout name version hash contents, layout.keepsManifest →
    archives.unpackPack bytes layout name version = .ok (hash, contents) →
      archives.holdsManifest contents

section extracts

variable {archives : Archives Tree} {tools : Tools}

/-- What is unpacked is what `unpack_pack` leaves in an empty folder. -/
def Archives.Extracts (archives : Archives Tree) (tools : Tools) : Prop :=
  ∀ bytes layout name version hash contents,
    archives.unpackPack bytes layout name version = .ok (hash, contents) →
      ∃ device staging tree after, (∀ parts, parts ≠ [] → tree (Path.locate staging ++ parts) = none) ∧
        Packs.unpackPack device staging tools bytes layout name version tree = (.ok hash, after) ∧
          contents = fun parts => after (Path.locate staging ++ parts)

/-- A whole folder holds what the manifest of an archive lists. -/
theorem IsWhole.unpacked (extracts : archives.Extracts tools) {contents : Tree}
    (whole : IsWhole archives spec contents) : ∃ version files manifestBytes manifest,
      Unpacked tools spec.layout files spec.name version [] contents manifestBytes manifest := by
  rcases whole with ⟨version, hash, bytes, unpacked⟩
  rcases extracts _ _ _ _ _ _ unpacked with ⟨device, staging, tree, after, empty, ran, rfl⟩
  rcases unpacked_of_ok empty ran with ⟨files, manifestBytes, manifest, -, -, unpacked⟩
  exact ⟨version, files, manifestBytes, manifest, unpacked.single, unpacked.parsed, unpacked.named,
    unpacked.listing, unpacked.listed, unpacked.only, unpacked.kept, unpacked.folders⟩

theorem Archives.Extracts.keepsManifests (extracts : archives.Extracts tools)
    (holds : ∀ contents bytes, contents [manifestName] = some (.file bytes) →
      archives.holdsManifest contents) : archives.KeepsManifests := by
  intro bytes layout name version hash contents keeps unpacked
  rcases extracts _ _ _ _ _ _ unpacked with ⟨device, staging, tree, after, empty, ran, rfl⟩
  rcases unpacked_of_ok empty ran with ⟨files, manifestBytes, manifest, -, -, unpacked⟩
  apply holds _ manifestBytes
  have kept := unpacked.kept
  rwa [if_pos (keepsManifest_iff.mp keeps)] at kept

end extracts

namespace Store

variable (archives) (store : Store Contents)

def isPlaced (spec : PackSpec) : Bool :=
  (store.folder? spec.dirLabel).any fun contents =>
    !spec.layout.keepsManifest || archives.holdsManifest contents

/-- The records, and the packs that are in place. -/
def disk : Disk where
  versions := store.versions
  manifests := store.manifests
  inPlace name := (packs.find? fun spec => spec.name = name).any fun spec =>
    store.isPlaced archives spec

def RunState.loop (state : RunState) : Loop where
  disk := store.disk archives
  requestsLeft := state.requestsLeft
  stopped := state.stopped
  stale := state.stale
  heldBack := state.heldBack
  refused := state.refused
  installed := state.installed
  report := state.report

end Store

theorem inPlace_disk (spec_mem : spec ∈ packs) :
    (store.disk archives).inPlace spec.name = store.isPlaced archives spec := by
  have found : packs.find? (fun other => other.name = spec.name) = some spec := by
    revert spec
    decide
  simp [Store.disk, found]

theorem isPlaced_of_live (live : after.folder? spec.dirLabel = store.folder? spec.dirLabel) :
    after.isPlaced archives spec = store.isPlaced archives spec := by
  rw [Store.isPlaced, live, Store.isPlaced]

theorem Same.disk_eq (same : Same store after) : after.disk archives = store.disk archives := by
  have placed : (after.disk archives).inPlace = (store.disk archives).inPlace := by
    funext name
    simp only [Store.disk]
    cases found : packs.find? fun spec => spec.name = name with
    | none => rfl
    | some spec => exact isPlaced_of_live (same.live spec (List.mem_of_find?_eq_some found) id)
  rw [Store.disk, same.versions, same.manifests]
  exact congrArg (Disk.mk store.versions store.manifests) placed

/-- A pack swapped in, and recorded. -/
theorem Swapped.disk_eq {contents : Contents} {hash version : Text} {middle : Store Contents}
    (swapped : Swapped spec contents store middle) (spec_mem : spec ∈ packs)
    (holds : spec.layout.keepsManifest → archives.holdsManifest contents)
    (folders : after.folders = middle.folders)
    (versions : after.versions = store.versions.insert spec.name version)
    (manifests : after.manifests =
      if spec.layout.keepsManifest then store.manifests.insert spec.name hash
      else store.manifests) :
    after.disk archives = (store.disk archives).install spec version hash := by
  have files : ∀ name, after.folder? name = middle.folder? name := fun name => by
    rw [Store.folder?, folders, Store.folder?]
  have placed : (after.disk archives).inPlace =
      Function.update (store.disk archives).inPlace spec.name true := by
    funext name
    by_cases same : name = spec.name
    · rcases same with rfl
      rw [inPlace_disk spec_mem, Function.update_self, Store.isPlaced, files, swapped.live]
      cases layout : spec.layout.keepsManifest with
      | true => simpa using holds layout
      | false => simp
    · rw [Function.update_of_ne same]
      simp only [Store.disk]
      cases found : packs.find? fun spec => spec.name = name with
      | none => rfl
      | some other =>
          have named : other.name = name := by simpa using List.find?_some found
          refine isPlaced_of_live ((files _).trans
            (swapped.others.live other (List.mem_of_find?_eq_some found) ?_))
          rintro rfl
          exact same named.symm
  rw [Store.disk, versions, manifests, Disk.install]
  exact congrArg (Disk.mk _ _) placed

/-! ## Steps that are not refused -/

/-- The system refuses nothing, and gives names that are not taken. -/
def Reliable (store : Store Contents) (answer : Answer Contents) : Prop :=
  answer.ok = true ∧ ∀ spec ∈ packs, store.folder? (spec.staging answer.suffix) = none

instance decidableReliable (store : Store Contents) (answer : Answer Contents) :
    Decidable (Reliable store answer) :=
  inferInstanceAs (Decidable (_ ∧ ∀ spec ∈ packs, _ = none))

abbrev Works {α : Type} (post : α → Store Contents → Prop) (program : StoreJob Contents α)
    (store : Store Contents) : Prop :=
  Killable.Safe Reliable (fun _ => True) post program store

section steps

variable {name staging : Text} {isBackup : Bool} {contents : Contents}

theorem works_scribble (owned : owner name = some (spec, isBackup)) :
    Works (fun _ after => Same store after ∧
      ((store.folder? name).isSome → (after.folder? name).isSome))
      (Store.scribble name) store := by
  rw [Store.scribble, Works, Killable.safe_ask]
  refine ⟨trivial, fun answer _ => ⟨trivial, ?_⟩⟩
  split
  · exact ⟨same_put owned, fun _ => by simp⟩
  · exact ⟨.refl, id⟩

theorem works_removeDirAll (owned : owner name = some (spec, isBackup)) :
    Works (fun _ after => Same store after) (Store.removeDirAll name) store := by
  apply Killable.Safe.bind
  apply (works_scribble owned).mono
  rintro - after - ⟨same, -⟩
  rw [Killable.safe_ask]
  refine ⟨trivial, fun answer _ => ⟨trivial, ?_⟩⟩
  split
  · exact same.trans (same_drop owned)
  · exact same

theorem works_sweepFolder (name : Text) :
    Works (fun _ after => Same store after) (Store.sweepFolder name) store := by
  unfold Store.sweepFolder
  split
  next => exact ⟨trivial, .refl⟩
  next spec isBackup owned =>
    apply Killable.Safe.bind
    have spare : Works (fun _ after => after = store) (Store.isSpare spec isBackup) store := by
      unfold Store.isSpare
      split
      · exact ⟨trivial, fun _ _ => ⟨trivial, rfl⟩⟩
      · exact ⟨trivial, rfl⟩
    apply spare.mono
    rintro isSpare after - rfl
    split
    · apply Killable.Safe.bind
      rw [Store.isStale, Killable.safe_ask]
      refine ⟨trivial, fun answer _ => ⟨trivial, ?_⟩⟩
      split
      · exact works_removeDirAll owned
      · exact ⟨trivial, .refl⟩
    · exact ⟨trivial, .refl⟩

theorem works_sweepStaleStaging :
    Works (fun _ after => Same store after) Store.sweepStaleStaging store := by
  apply Killable.Safe.bind
  rw [Store.readDir, Killable.safe_ask]
  refine ⟨trivial, fun answer _ => ⟨trivial, ?_⟩⟩
  refine Killable.safe_loop (fun _ _ after => Same store after) ?_ trivial .refl
  rintro - name - - - middle same
  apply (works_sweepFolder name).mono
  exact fun _ after _ same' => same.trans same'

theorem works_swapDir (spec_mem : spec ∈ packs) (owned : owner staging = some (spec, false))
    (found : store.folder? staging = some contents) :
    Works (fun done after => done = true ∧ Swapped spec contents store after)
      (Store.swapDir archives spec staging) store := by
  have apart := dirLabel_ne spec_mem owned
  apply Killable.Safe.bind
  rw [Store.folderExists, Killable.safe_ask]
  refine ⟨trivial, fun answer fits => ⟨trivial, ?_⟩⟩
  cases live : store.folder? spec.dirLabel with
  | none =>
      rw [Option.isSome_none, Bool.and_false]
      have moved : Works (fun done after => done = true ∧
          after = (store.drop staging).put spec.dirLabel contents)
          (Store.rename staging spec.dirLabel archives) store := by
        rw [Store.rename, Works, Killable.safe_ask]
        refine ⟨trivial, fun answer' fits' => ⟨trivial, ?_⟩⟩
        simp [found, live, fits'.1]
      apply moved.mono
      rintro done after - ⟨is_done, rfl⟩
      refine ⟨is_done, ?_, by simp⟩
      exact ((same_drop owned).mono fun _ => False.elim).trans (sameBut_arrive spec_mem)
  | some old =>
      rw [fits.1, Option.isSome_some, Bool.and_self]
      apply Killable.Safe.bind
      rw [Store.exchangePaths, Killable.safe_ask]
      refine ⟨trivial, fun answer' fits' => ⟨trivial, ?_⟩⟩
      rw [found, live, fits'.1]
      apply Killable.Safe.bind
      apply (works_removeDirAll owned).mono
      rintro - after - same
      refine ⟨trivial, rfl, .trans_same spec_mem ⟨?_, by simp⟩ same⟩
      exact ((same_put owned).mono fun _ => False.elim).trans (sameBut_arrive spec_mem)

end steps

section download

variable {bytes : List UInt8} {staging : Text}

/-- What was downloaded is in place, or nothing has changed. -/
def Brings (archives : Archives Contents) (spec : PackSpec) (store : Store Contents) :
    Step → Store Contents → Prop
  | .installed _, after => ∃ contents, Swapped spec contents store after ∧
      (spec.layout.keepsManifest → archives.holdsManifest contents)
  | _, after => Same store after

def Step.ofResult : Except Failure Text → Step
  | .ok hash => .installed hash
  | .error failure => .done failure

theorem works_installPack (keeps : archives.KeepsManifests) (spec_mem : spec ∈ packs) :
    Works (fun result after =>
      result = (archives.unpacking.installPack spec entry bytes).mapError .fixed ∧
      Brings archives spec store (.ofResult result) after)
      (Store.installPack archives spec entry bytes) store := by
  unfold Store.installPack Unpacking.installPack
  have hashes : archives.unpacking.sha256Hex = archives.sha256Hex := rfl
  rw [hashes]
  split
  · exact ⟨trivial, rfl, .refl⟩
  · apply Killable.Safe.bind
    rw [Store.uniqueSuffix, Killable.safe_ask]
    refine ⟨trivial, fun answer fits => ⟨trivial, ?_⟩⟩
    have owned := owner_staging spec_mem answer.suffix
    have free := fits.2 spec spec_mem
    generalize spec.staging answer.suffix = staging at owned free
    apply Killable.Safe.bind
    rw [Store.createDir, Killable.safe_ask]
    refine ⟨trivial, fun answer' fits' => ⟨trivial, ?_⟩⟩
    rw [fits'.1, free]
    have created : Same store (store.put staging archives.empty) := same_put owned
    apply Killable.Safe.bind
    apply (works_scribble owned).mono
    rintro - middle - ⟨same, there⟩
    have same := created.trans same
    have there := there (by simp)
    have unpacking : archives.unpacking.unpackPack bytes spec.layout entry.name entry.version =
        (archives.unpackPack bytes spec.layout entry.name entry.version).map Prod.fst := rfl
    rw [unpacking]
    cases unpacked : archives.unpackPack bytes spec.layout entry.name entry.version with
    | error refusal =>
        apply Killable.Safe.bind
        apply (works_removeDirAll owned).mono
        exact fun _ after _ same' => ⟨trivial, rfl, same.trans same'⟩
    | ok result =>
        apply Killable.Safe.bind
        rw [Store.fill, Killable.safe_ask]
        refine ⟨trivial, fun answer'' fits'' => ⟨trivial, ?_⟩⟩
        rw [fits''.1, there]
        have filled : Same store (middle.put staging result.2) := same.trans (same_put owned)
        have found : (middle.put staging result.2).folder? staging = some result.2 := by simp
        apply Killable.Safe.bind
        apply (works_swapDir spec_mem owned found).mono
        rintro done after - ⟨rfl, swapped⟩
        refine ⟨trivial, rfl, result.2, .after_same filled swapped, fun layout => ?_⟩
        exact keeps bytes _ _ _ result.1 result.2 layout unpacked

theorem works_syncOne (keeps : archives.KeepsManifests) (spec_mem : spec ∈ packs) :
    Works (fun came after => came = archives.unpacking.syncOne server spec entry ∧
      Brings archives spec store came after) (Store.syncOne archives server spec entry) store := by
  apply Killable.Safe.bind
  rw [Store.attempt, Killable.safe_ask]
  refine ⟨trivial, fun answer fits => ⟨trivial, ?_⟩⟩
  rw [fits.1]
  unfold Unpacking.syncOne
  cases answered : server.pack spec.name with
  | ok body =>
      apply Killable.Safe.bind
      apply (works_installPack keeps spec_mem).mono
      rintro result after - ⟨rfl, brings⟩
      cases installed : archives.unpacking.installPack spec entry body with
      | ok hash =>
          rw [installed] at brings
          exact ⟨trivial, by simp only [installed], brings⟩
      | error refusal =>
          rw [installed] at brings
          exact ⟨trivial, by simp only [installed], brings⟩
  | unavailable => exact ⟨trivial, rfl, .refl⟩
  | unsupported => exact ⟨trivial, rfl, .refl⟩
  | auth => exact ⟨trivial, rfl, .refl⟩
  | forbidden => exact ⟨trivial, rfl, .refl⟩
  | limited seconds => exact ⟨trivial, rfl, .refl⟩
  | failed failure => exact ⟨trivial, rfl, .refl⟩

end download

/-! ## Whole runs -/

/-- The run has read what the record files hold, and no record was lost. -/
structure Stored (state : Store.RunState) (store : Store Contents) : Prop where
  versions : state.versions = store.versions
  manifests : state.manifests = store.manifests
  unstored : state.unstored = []

theorem Stored.of_same {state : Store.RunState} (stored : Stored state store)
    (same : Same store after) : Stored state after :=
  ⟨stored.versions.trans same.versions.symm, stored.manifests.trans same.manifests.symm,
    stored.unstored⟩

/-- The plain run is at the same point. -/
def Matches (archives : Archives Contents) (loop : Loop) (state : Store.RunState)
    (store : Store Contents) : Prop :=
  Stored state store ∧ state.loop archives store = loop

section run

variable {state : Store.RunState} {entries : List PackListEntry} {refused : Refused}
  {middle : Store Contents}

theorem works_writeRecords {recorded : Store.RunState} :
    Works (fun written after => written = true ∧ after.folders = store.folders ∧
      after.versions = recorded.versions ∧ after.manifests =
        if spec.layout.keepsManifest then recorded.manifests else store.manifests)
      (Store.writeRecords spec recorded) store := by
  apply Killable.Safe.bind
  rw [Store.writeVersions, Killable.safe_ask]
  refine ⟨trivial, fun answer fits => ⟨trivial, ?_⟩⟩
  rw [fits.1]
  cases spec.layout.keepsManifest with
  | false => exact ⟨trivial, rfl, rfl, rfl, rfl⟩
  | true =>
      have second : Works (fun written after => written = true ∧ after.folders = store.folders ∧
          after.versions = recorded.versions ∧ after.manifests = recorded.manifests)
          (Store.writeManifests recorded.manifests)
          { store with versions := recorded.versions } := by
        rw [Store.writeManifests, Works, Killable.safe_ask]
        refine ⟨trivial, fun answer' fits' => ⟨trivial, ?_⟩⟩
        rw [fits'.1]
        exact ⟨rfl, rfl, rfl, rfl⟩
      exact second

theorem works_settle (stored : Stored state store) (spec_mem : spec ∈ packs) {came : Step}
    (brings : Brings archives spec store came middle) :
    Works (Matches archives ((state.loop archives store).take spec entry came))
      (Store.settle spec entry state came) middle := by
  have left : ∀ {state' : Store.RunState} {loop : Loop}, Same store middle →
      Stored state' store → state'.loop archives store = loop →
      Matches archives loop state' middle := by
    intro state' loop same stored' at_loop
    refine ⟨stored'.of_same same, ?_⟩
    rw [← at_loop, Store.RunState.loop, same.disk_eq, Store.RunState.loop]
  cases came with
  | installed hash =>
      rcases brings with ⟨contents, swapped, holds⟩
      apply Killable.Safe.bind
      apply works_writeRecords.mono
      rintro written after - ⟨rfl, folders, versions, manifests⟩
      have manifests' : after.manifests =
          if spec.layout.keepsManifest then state.manifests.insert spec.name hash
          else state.manifests := by
        rw [manifests, swapped.others.manifests, ← stored.manifests]
        cases layout : spec.layout.keepsManifest <;> simp [Store.RunState.record, layout]
      have at_disk : after.disk archives = (store.disk archives).install spec entry.version hash := by
        apply swapped.disk_eq spec_mem holds folders
        · rw [versions, ← stored.versions]
          rfl
        · rw [manifests', stored.manifests]
      refine ⟨trivial, ⟨versions.symm, manifests'.symm, stored.unstored⟩, ?_⟩
      rw [Store.RunState.loop, at_disk]
      rfl
  | done failure => cases failure <;> exact ⟨trivial, left brings ⟨stored.1, stored.2, stored.3⟩ rfl⟩
  | gone => exact ⟨trivial, left brings ⟨stored.1, stored.2, stored.3⟩ rfl⟩
  | stop outcome => exact ⟨trivial, left brings ⟨stored.1, stored.2, stored.3⟩ rfl⟩

theorem works_visit (keeps : archives.KeepsManifests) (stored : Stored state store)
    (spec_mem : spec ∈ packs) :
    Works (Matches archives
        ((state.loop archives store).visit archives.unpacking server entries refused spec))
      (Store.visit archives server entries refused state spec) store := by
  unfold Store.visit Loop.visit
  cases selectPack entries spec with
  | error outcome => exact ⟨trivial, ⟨stored.1, stored.2, stored.3⟩, rfl⟩
  | ok entry =>
      have current : Works (fun current after => after = store ∧
          current = isCurrent (store.disk archives) spec entry)
          (Store.isCurrent archives spec entry state.versions) store := by
        unfold Store.isCurrent isCurrent
        rw [inPlace_disk spec_mem, stored.versions]
        split
        next recorded =>
          rw [Store.inPlace, Works, Killable.safe_ask]
          refine ⟨trivial, fun answer fits => ⟨trivial, rfl, ?_⟩⟩
          rw [fits.1]
          simp [Store.disk, recorded, Store.isPlaced]
        next unrecorded => exact ⟨trivial, rfl, by simp [Store.disk, unrecorded]⟩
      apply Killable.Safe.bind
      apply current.mono
      rintro is_current after - ⟨rfl, rfl⟩
      have at_disk : (state.loop archives after).disk = after.disk archives := rfl
      simp only [at_disk]
      split
      · exact ⟨trivial, ⟨stored.1, stored.2, stored.3⟩, rfl⟩
      · unfold Store.visitMissing
        cases knownRefusal refused entry with
        | some refusal => exact ⟨trivial, ⟨stored.1, stored.2, stored.3⟩, rfl⟩
        | none =>
            have stopped : (state.loop archives after).stopped = state.stopped := rfl
            rw [stopped]
            cases state.stopped with
            | some stop => exact ⟨trivial, ⟨stored.1, stored.2, stored.3⟩, rfl⟩
            | none =>
                have budget : (state.loop archives after).requestsLeft = state.requestsLeft := rfl
                rw [budget]
                cases takeRequest state.requestsLeft with
                | none => exact ⟨trivial, ⟨stored.1, stored.2, stored.3⟩, rfl⟩
                | some left =>
                    apply Killable.Safe.bind
                    apply (works_syncOne keeps spec_mem).mono
                    rintro came middle - ⟨rfl, brings⟩
                    have stored' : Stored { state with requestsLeft := left, stopped := none } after :=
                      ⟨stored.1, stored.2, stored.3⟩
                    exact works_settle stored' spec_mem brings

theorem works_runPacks (keeps : archives.KeepsManifests) {scope : Scope}
    (requestsLeft : Option ℕ) :
    Works (Matches archives (runLoop archives.unpacking server (store.disk archives) scope.specs
        entries requestsLeft refused))
      (Store.runPacks archives server scope.specs entries requestsLeft refused) store := by
  apply Killable.Safe.bind
  rw [Store.readVersions, Killable.safe_ask]
  refine ⟨trivial, fun answer fits => ⟨trivial, ?_⟩⟩
  apply Killable.Safe.bind
  rw [Store.readManifests, Killable.safe_ask]
  refine ⟨trivial, fun answer' fits' => ⟨trivial, ?_⟩⟩
  rw [if_pos fits.1, if_pos fits'.1]
  refine (Killable.safe_loop (fun seen state middle => Matches archives
    (seen.foldl (Loop.visit archives.unpacking server entries refused)
      (.begin (store.disk archives) requestsLeft)) state middle) ?_ trivial ?_).mono ?_
  · rintro seen spec rest splits state middle ⟨stored, at_loop⟩
    have spec_mem : spec ∈ scope.specs := by simp [← splits]
    rw [List.foldl_append, ← at_loop]
    exact works_visit keeps stored ((scope_sublist scope).mem spec_mem)
  · exact ⟨⟨rfl, rfl, rfl⟩, rfl⟩
  · exact fun _ _ _ same => same

end run

theorem refusal_without_client {access : Access} (client : access.client = true) :
    Access.refusal { access with client := true } = access.refusal := by
  rcases access with ⟨signedIn, validUrl, lock, client'⟩
  rcases client with rfl
  rfl

theorem refusal_of_no_client {access : Access} (no_client : access.client = false) :
    access.refusal =
      some ((Access.refusal { access with client := true }).getD (.failed .download)) := by
  rcases access with ⟨signedIn, validUrl, lock, client'⟩
  rcases no_client with rfl
  cases signedIn <;> cases validUrl <;> rcases lock with _ | _ | _ <;> rfl

/-- The plain sync runs over the same list. -/
theorem listing_cases {access : Access} (granted : access.refusal = none) (unpacking : Unpacking)
    (server : Server) (disk : Disk) (scope : Scope) (plan : RunPlan) :
    (∃ outcome, Store.listing server plan = .error outcome ∧
      runSync unpacking access server disk scope plan = (.early scope outcome none, disk)) ∨
    ∃ entries readList left, Store.listing server plan = .ok (entries, readList, left) ∧
      runSync unpacking access server disk scope plan =
        ({ report := (runLoop unpacking server disk scope.specs entries left plan.refused).report
           entries := some entries
           readList := readList
           stopped := (runLoop unpacking server disk scope.specs entries left
             plan.refused).stopped.isSome
           stale := (runLoop unpacking server disk scope.specs entries left plan.refused).stale
           heldBack := (runLoop unpacking server disk scope.specs entries left plan.refused).heldBack
           refused := (runLoop unpacking server disk scope.specs entries left plan.refused).refused
           installed := (runLoop unpacking server disk scope.specs entries left
             plan.refused).installed },
          (runLoop unpacking server disk scope.specs entries left plan.refused).disk) := by
  cases listed : plan.listed with
  | some entries =>
      right
      refine ⟨entries, false, plan.maxRequests, ?_, ?_⟩
      · simp only [Store.listing, listed]
      · simp only [runSync, granted, listed]
  | none =>
      cases list : server.list with
      | error outcome =>
          left
          refine ⟨outcome, ?_, ?_⟩
          · simp only [Store.listing, listed, list]
          · simp only [runSync, granted, listed, list]
      | ok entries =>
          right
          refine ⟨entries, true, (takeRequest plan.maxRequests).getD plan.maxRequests, ?_, ?_⟩
          · simp only [Store.listing, listed, list]
          · simp only [runSync, granted, listed, list]

theorem works_runSync (keeps : archives.KeepsManifests) (access : Access) (scope : Scope)
    (plan : RunPlan) :
    Works (fun run after => run.2 = [] ∧ (run.1, after.disk archives) =
        runSync archives.unpacking access server (store.disk archives) scope plan)
      (Store.runSync archives access server scope plan) store := by
  unfold Store.runSync
  cases refused : Access.refusal { access with client := true } with
  | some outcome =>
      have same : access.refusal = some outcome := by
        cases client : access.client with
        | true => rw [← refusal_without_client client, refused]
        | false => rw [refusal_of_no_client client, refused, Option.getD_some]
      refine ⟨trivial, rfl, ?_⟩
      rw [runSync, same]
  | none =>
      apply Killable.Safe.bind
      apply works_sweepStaleStaging.mono
      rintro - middle - same
      cases client : access.client with
      | false =>
          have refusal : access.refusal = some (.failed .download) := by
            rw [refusal_of_no_client client, refused, Option.getD_none]
          refine ⟨trivial, rfl, ?_⟩
          rw [runSync, refusal, same.disk_eq]
      | true =>
          have granted : access.refusal = none := by
            rw [← refusal_without_client client, refused]
          rcases listing_cases granted archives.unpacking server (store.disk archives) scope plan
            with ⟨outcome, failed, plain⟩ | ⟨entries, readList, left, found, plain⟩
          · simp only [failed, if_true, Killable.safe_pure]
            refine ⟨trivial, trivial, ?_⟩
            rw [plain, same.disk_eq]
          · simp only [found, if_true]
            apply Killable.Safe.bind
            apply (works_runPacks keeps left).mono
            rintro state after - ⟨stored, at_loop⟩
            rw [same.disk_eq] at at_loop
            refine ⟨trivial, stored.unstored, ?_⟩
            rw [plain, ← at_loop]
            rfl

/-- Step by step on a reliable system, a sync returns what the plain one does, leaves the records
and the packs in place that it does, and loses no record. -/
theorem reliable_sync_is_plain (keeps : archives.KeepsManifests) (access : Access) (server : Server)
    (scope : Scope) (plan : RunPlan) (store : Store Contents) (answers : List (Answer Contents))
    (reliable : Killable.Allows Reliable
      (Store.runSync archives access server scope plan) store answers)
    {run : SyncRun} {unstored : List Text} {rest : List (Answer Contents)}
    (ended : ((Store.runSync archives access server scope plan).run store answers).2 =
      some ((run, unstored), rest)) :
    unstored = [] ∧
      (run, ((Store.runSync archives access server scope plan).run store answers).1.disk archives) =
        runSync archives.unpacking access server (store.disk archives) scope plan :=
  ((works_runSync keeps access scope plan).run reliable).2 _ rest ended

/-- Answers with a new name each time. -/
def counted (count : ℕ) : List (Answer (List UInt8)) :=
  (List.range count).map fun number => ⟨true, [], false, [], List.replicate number 'x'⟩

/-- A first installation of the heroes pack. -/
theorem a_reliable_install_is_plain :
    (runSync plain.unpacking .granted (offer ['1'] [1] []).server
      (Store.fresh.disk plain) .heroesOnly ⟨none, none, ∅⟩).1.report =
        [⟨heroes.name, .installed⟩] := by
  have ran : (((offer ['1'] [1] []).job plain).run .fresh (counted 12)).2.map
      (fun result => result.1.1.report) = some [⟨heroes.name, .installed⟩] := by decide
  rcases Option.map_eq_some_iff.mp ran with ⟨⟨⟨run, unstored⟩, rest⟩, ended, report⟩
  have same := reliable_sync_is_plain (fun _ _ _ _ _ _ _ _ => rfl) .granted
    (offer ['1'] [1] []).server .heroesOnly ⟨none, none, ∅⟩ .fresh (counted 12)
    (by decide) ended
  rw [← same.2]
  exact report

end ScuffedCrew.Packs
