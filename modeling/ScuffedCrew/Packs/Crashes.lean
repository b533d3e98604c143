import ScuffedCrew.Packs.Swaps

/-!
# Killed pack syncs

A pack that is in its place is whole, and one that has been there has a whole copy
on the disk, after any number of syncs that are killed anywhere.  What the syncs
that end report of a pack is what is in its folder, as long as its records are
stored.
-/

namespace ScuffedCrew.Packs

open Rust

variable {Contents : Type} {archives : Archives Contents} {kept : PackSpec → Prop}
  {server : Server} {spec other : PackSpec} {entry : PackListEntry}
  {store middle after : Store Contents}

/-! ## One download -/

section download

variable {staging hash : Text} {contents : Contents} {bytes : List UInt8}

/-- What an archive of the listed version unpacks to is in place. -/
def Arrived (archives : Archives Contents) (spec : PackSpec) (entry : PackListEntry)
    (hash : Text) (store after : Store Contents) : Prop :=
  ∃ contents, Unpacks archives spec entry.version hash contents ∧ Swapped spec contents store after

/-- What an installation comes to. -/
def Installs (archives : Archives Contents) (spec : PackSpec) (entry : PackListEntry)
    (store : Store Contents) : Except Failure Text → Store Contents → Prop
  | .ok hash, after => Arrived archives spec entry hash store after
  | .error _, after => Left spec store after

theorem survives_bringIn (intact : Intact archives kept store) (spec_mem : spec ∈ packs)
    (owned : owner staging = some (spec, false))
    (unpacks : Unpacks archives spec entry.version hash contents) :
    Survives archives kept (Installs archives spec entry store)
      (Store.bringIn archives spec staging hash contents) store := by
  have removes : ∀ {middle : Store Contents}, Intact archives kept middle →
      Left spec store middle → Survives archives kept (Installs archives spec entry store)
        (do
          Store.removeDirAll staging
          pure (.error .download)) middle := by
    intro middle intact' left
    apply Killable.Safe.bind
    apply (survives_removeDirAll intact' owned (by simp) spec_mem).mono
    rintro - after - ⟨intact'', same⟩
    exact ⟨intact'', left.trans_same spec_mem same⟩
  apply Killable.Safe.bind
  rw [Store.fill, Killable.safe_ask]
  refine ⟨intact, fun answer _ => ?_⟩
  split
  next =>
    have filled : Intact archives kept (store.put staging contents) := intact.put owned (by simp)
    have same : Same store (store.put staging contents) := same_put owned
    refine ⟨filled, ?_⟩
    apply Killable.Safe.bind
    apply (survives_swapDir filled spec_mem owned (by simp) ⟨_, _, unpacks⟩).mono
    intro swapped after intact' swap
    cases swapped with
    | true => exact ⟨intact', contents, unpacks, .after_same same swap⟩
    | false => exact removes intact' (.after_same spec_mem same swap)
  next => exact ⟨intact, removes intact (.of_same spec_mem .refl)⟩

theorem survives_installPack (intact : Intact archives kept store) (spec_mem : spec ∈ packs)
    (named : entry.name = spec.name) :
    Survives archives kept (Installs archives spec entry store)
      (Store.installPack archives spec entry bytes) store := by
  unfold Store.installPack
  split
  · exact ⟨intact, .of_same spec_mem .refl⟩
  · apply Killable.Safe.bind
    rw [Store.uniqueSuffix, Killable.safe_ask]
    refine ⟨intact, fun answer _ => ⟨intact, ?_⟩⟩
    have owned := owner_staging spec_mem answer.suffix
    generalize spec.staging answer.suffix = staging at owned
    apply Killable.Safe.bind
    rw [Store.createDir, Killable.safe_ask]
    refine ⟨intact, fun answer' _ => ?_⟩
    split
    next =>
      have created : Intact archives kept (store.put staging archives.empty) :=
        intact.put owned (by simp)
      have same : Same store (store.put staging archives.empty) := same_put owned
      refine ⟨created, ?_⟩
      apply Killable.Safe.bind
      apply (survives_scribble created owned (by simp)).mono
      rintro - middle - ⟨intact', same'⟩
      have same := same.trans same'
      cases unpacked : archives.unpackPack bytes spec.layout entry.name entry.version with
      | ok result =>
          have unpacks : Unpacks archives spec entry.version result.1 result.2 :=
            ⟨bytes, named ▸ unpacked⟩
          apply (survives_bringIn intact' spec_mem owned unpacks).mono
          intro result after intact'' installs
          cases result with
          | ok hash =>
              rcases installs with ⟨contents, unpacks', swapped⟩
              exact ⟨contents, unpacks', .after_same same swapped⟩
          | error failure => exact .after_same spec_mem same installs
      | error refusal =>
          apply Killable.Safe.bind
          apply (survives_removeDirAll intact' owned (by simp) spec_mem).mono
          rintro - after - ⟨intact'', same''⟩
          exact ⟨intact'', .of_same spec_mem (same.trans same'')⟩
    next => exact ⟨intact, intact, .of_same spec_mem .refl⟩

/-- What a download comes to. -/
def Downloads (archives : Archives Contents) (spec : PackSpec) (entry : PackListEntry)
    (store : Store Contents) : Step → Store Contents → Prop
  | .installed hash, after => Arrived archives spec entry hash store after
  | .stop outcome, after => outcome ≠ .installed ∧ outcome ≠ .current ∧ Left spec store after
  | _, after => Left spec store after

theorem survives_syncOne (intact : Intact archives kept store) (spec_mem : spec ∈ packs)
    (named : entry.name = spec.name) :
    Survives archives kept (Downloads archives spec entry store)
      (Store.syncOne archives server spec entry) store := by
  have stays : Left spec store store := .of_same spec_mem .refl
  apply Killable.Safe.bind
  rw [Store.attempt, Killable.safe_ask]
  refine ⟨intact, fun answer _ => ⟨intact, ?_⟩⟩
  split
  · split
    case h_7 =>
      apply Killable.Safe.bind
      apply (survives_installPack intact spec_mem named).mono
      intro result after intact' installs
      cases result with
      | ok hash => exact ⟨intact', installs⟩
      | error failure => exact ⟨intact', installs⟩
    all_goals first | exact ⟨intact, stays⟩ | exact ⟨intact, by simp, by simp, stays⟩
  · exact ⟨intact, stays⟩

end download

/-! ## The records -/

/-- What is recorded of the pack in place is the version and the manifest it was unpacked from. -/
def Paired (archives : Archives Contents) (spec : PackSpec) (store : Store Contents) : Prop :=
  ∀ version contents, store.versions.lookup spec.name = some version →
    store.folder? spec.dirLabel = some contents → ∃ hash,
      Unpacks archives spec version hash contents ∧ (spec.layout.keepsManifest →
        ∀ recorded, store.manifests.lookup spec.name = some recorded → recorded = hash)

/-- What one map says of a pack, another one says too. -/
def Tells (spec : PackSpec) (map map' : HashMap Text Text) : Prop :=
  ∀ recorded, map.lookup spec.name = some recorded → map'.lookup spec.name = some recorded

/-- The listed version of the pack is in place. -/
def UpToDate (archives : Archives Contents) (entries : List PackListEntry) (spec : PackSpec)
    (store : Store Contents) : Prop :=
  ∃ entry hash contents, selectPack entries spec = .ok entry ∧
    store.folder? spec.dirLabel = some contents ∧ Unpacks archives spec entry.version hash contents

theorem Paired.mono (paired : Paired archives spec store)
    (live : ∀ contents, after.folder? spec.dirLabel = some contents →
      store.folder? spec.dirLabel = some contents)
    (versions : Tells spec after.versions store.versions)
    (manifests : Tells spec after.manifests store.manifests) : Paired archives spec after := by
  intro version contents recorded found
  rcases paired version contents (versions version recorded) (live contents found)
    with ⟨hash, unpacks, agrees⟩
  exact ⟨hash, unpacks, fun keeps recorded' found' => agrees keeps recorded' (manifests _ found')⟩

/-- An outcome that tells of no pack in place.  A required pack is current for an empty list. -/
def Unclaimed (entries : List PackListEntry) (outcome : PackSync) : Prop :=
  outcome ≠ .installed ∧ (outcome = .current → entries = [])

theorem unclaimed_failed {entries : List PackListEntry} {failure : Failure} :
    Unclaimed entries (.failed failure) := ⟨by simp, by simp⟩

/-- What a run knows of a pack, and has told of it. -/
structure Told (archives : Archives Contents) (entries : List PackListEntry)
    (start : Store Contents) (seen : List PackSpec) (spec : PackSpec) (state : Store.RunState)
    (disk : Store Contents) : Prop where
  ahead : spec ∉ seen → spec.name ∉ state.unstored ∧ ∀ outcome, ⟨spec.name, outcome⟩ ∉ state.report
  linked : spec.name ∉ state.unstored →
    Tells spec state.versions disk.versions ∧ Tells spec state.manifests disk.manifests
  paired : spec.name ∉ state.unstored →
    Paired archives spec start ∨ ⟨spec.name, .installed⟩ ∈ state.report → Paired archives spec disk
  truthful : ⟨spec.name, .installed⟩ ∈ state.report ∨
    ⟨spec.name, .current⟩ ∈ state.report ∧ entries ≠ [] ∧ Paired archives spec start →
    UpToDate archives entries spec disk
  unmoved : ⟨spec.name, .installed⟩ ∉ state.report → ∀ contents,
    disk.folder? spec.dirLabel = some contents → start.folder? spec.dirLabel = some contents

/-- Of a pack that is not the one of a step, nothing is changed but what the files lost. -/
structure Beside (spec : PackSpec) (state : Store.RunState) (disk : Store Contents)
    (state' : Store.RunState) (disk' : Store Contents) : Prop where
  live : disk'.folder? spec.dirLabel = disk.folder? spec.dirLabel
  versions : state'.versions.lookup spec.name = state.versions.lookup spec.name
  manifests : state'.manifests.lookup spec.name = state.manifests.lookup spec.name
  versionsFile : disk'.versions = disk.versions ∨ disk'.versions = state'.versions
  manifestsFile : disk'.manifests = disk.manifests ∨ disk'.manifests = state'.manifests
  unstored : spec.name ∈ state'.unstored ↔ spec.name ∈ state.unstored
  report : ∀ outcome, ⟨spec.name, outcome⟩ ∈ state'.report ↔ ⟨spec.name, outcome⟩ ∈ state.report

section told

variable {entries : List PackListEntry} {start disk disk' : Store Contents}
  {seen : List PackSpec} {state state' : Store.RunState}

theorem Beside.tells {map map' file file' : HashMap Text Text} (linked : Tells spec map file)
    (kept : map'.lookup spec.name = map.lookup spec.name) (files : file' = file ∨ file' = map') :
    Tells spec map' file' ∧ Tells spec file' file := by
  have inner : Tells spec map' file := fun recorded found => linked recorded (kept ▸ found)
  rcases files with rfl | rfl
  · exact ⟨inner, fun _ found => found⟩
  · exact ⟨fun _ found => found, inner⟩

theorem Told.beside (told : Told archives entries start seen spec state disk)
    (beside : Beside spec state disk state' disk') (visited : PackSpec) :
    Told archives entries start (seen ++ [visited]) spec state' disk' := by
  have not_unstored : spec.name ∉ state'.unstored → spec.name ∉ state.unstored := fun stored =>
    mt beside.unstored.mpr stored
  have maps : spec.name ∉ state'.unstored →
      (Tells spec state'.versions disk'.versions ∧ Tells spec disk'.versions disk.versions) ∧
        Tells spec state'.manifests disk'.manifests ∧ Tells spec disk'.manifests disk.manifests := by
    intro stored
    rcases told.linked (not_unstored stored) with ⟨versions, manifests⟩
    exact ⟨Beside.tells versions beside.versions beside.versionsFile,
      Beside.tells manifests beside.manifests beside.manifestsFile⟩
  refine ⟨fun unseen => ?_, fun stored => ?_, fun stored => ?_, fun said => ?_, fun unsaid => ?_⟩
  · rcases told.ahead fun seen_before => unseen (List.mem_append_left _ seen_before)
      with ⟨stored, unsaid⟩
    exact ⟨mt beside.unstored.mp stored, fun outcome => mt (beside.report outcome).mp (unsaid _)⟩
  · exact ⟨(maps stored).1.1, (maps stored).2.1⟩
  · rw [beside.report]
    intro known
    apply (told.paired (not_unstored stored) known).mono
    · intro contents found
      exact beside.live ▸ found
    · exact (maps stored).1.2
    · exact (maps stored).2.2
  · rw [beside.report, beside.report] at said
    rcases told.truthful said with ⟨entry, hash, contents, selected, found, unpacks⟩
    exact ⟨entry, hash, contents, selected, beside.live.trans found, unpacks⟩
  · rw [beside.report] at unsaid
    rw [beside.live]
    exact told.unmoved unsaid

/-- The pack of the step was left as it is. -/
theorem Told.left (told : Told archives entries start seen spec state disk)
    (left : Left spec disk disk') (versions : state'.versions = state.versions)
    (manifests : state'.manifests = state.manifests) (unstored : state'.unstored = state.unstored)
    (report : ∀ outcome, ⟨spec.name, outcome⟩ ∈ state'.report →
      ⟨spec.name, outcome⟩ ∈ state.report ∨ Unclaimed entries outcome)
    (unseen : spec ∉ seen) : Told archives entries start (seen ++ [spec]) spec state' disk' := by
  have unsaid := (told.ahead unseen).2
  have stays : ∀ contents, disk'.folder? spec.dirLabel = some contents →
      disk.folder? spec.dirLabel = some contents := by
    intro contents found
    rcases left.live with same | gone
    · rwa [same] at found
    · cases gone.symm.trans found
  have not_installed : ⟨spec.name, .installed⟩ ∉ state'.report := fun said =>
    (report _ said).elim (unsaid _) fun other => other.1 rfl
  have no_list : ⟨spec.name, .current⟩ ∈ state'.report → entries = [] := fun said =>
    (report _ said).elim (absurd · (unsaid _)) fun other => other.2 rfl
  refine ⟨fun unseen' => absurd (by simp) unseen', fun stored => ?_, fun stored known => ?_,
    fun said => ?_, fun _ contents found => ?_⟩
  · rw [versions, manifests, left.others.versions, left.others.manifests]
    exact told.linked (unstored ▸ stored)
  · have paired := told.paired (unstored ▸ stored)
      (known.imp_right fun said => absurd said not_installed)
    apply paired.mono stays
    · rw [left.others.versions]
      exact fun _ found => found
    · rw [left.others.manifests]
      exact fun _ found => found
  · rcases said with said | ⟨said, listed, -⟩
    · exact absurd said not_installed
    · exact absurd (no_list said) listed
  · exact told.unmoved (unsaid _) contents (stays contents found)

/-- The pack of the step is in place at the listed version. -/
theorem Told.current (told : Told archives entries start seen spec state disk)
    (unseen : spec ∉ seen) (selected : selectPack entries spec = .ok entry)
    (recorded : state.versions.lookup spec.name = some entry.version)
    (live : (disk.folder? spec.dirLabel).isSome) :
    Told archives entries start (seen ++ [spec]) spec (state.status spec .current) disk := by
  rcases told.ahead unseen with ⟨stored, unsaid⟩
  rcases Option.isSome_iff_exists.mp live with ⟨contents, found⟩
  have not_installed : ⟨spec.name, .installed⟩ ∉ (state.status spec .current).report := by
    simp [Store.RunState.status, unsaid]
  refine ⟨fun unseen' => absurd (by simp) unseen', fun _ => told.linked stored,
    fun _ known => ?_, fun said => ?_, fun _ => told.unmoved (unsaid _)⟩
  · exact told.paired stored (known.imp_right fun said => absurd said not_installed)
  · rcases said with said | ⟨-, -, paired⟩
    · exact absurd said not_installed
    · have recorded' := (told.linked stored).1 _ recorded
      rcases told.paired stored (.inl paired) _ _ recorded' found with ⟨hash, unpacks, -⟩
      exact ⟨entry, hash, contents, selected, found, unpacks⟩

/-- The pack of the step has been installed, and its records are stored or lost. -/
theorem Told.installed {hash : Text} (selected : selectPack entries spec = .ok entry)
    (arrived : Arrived archives spec entry hash disk middle)
    (live : disk'.folder? spec.dirLabel = middle.folder? spec.dirLabel)
    (said : ⟨spec.name, .installed⟩ ∈ state'.report)
    (version : state'.versions.lookup spec.name = some entry.version)
    (manifest : spec.layout.keepsManifest → state'.manifests.lookup spec.name = some hash)
    (linked : spec.name ∉ state'.unstored → disk'.versions = state'.versions ∧
      (Tells spec state'.manifests disk'.manifests) ∧
      (spec.layout.keepsManifest → disk'.manifests = state'.manifests)) :
    Told archives entries start (seen ++ [spec]) spec state' disk' := by
  rcases arrived with ⟨contents, unpacks, swapped⟩
  have found : disk'.folder? spec.dirLabel = some contents := live.trans swapped.live
  refine ⟨fun unseen' => absurd (by simp) unseen', fun stored => ?_, fun stored _ => ?_,
    fun _ => ⟨entry, hash, contents, selected, found, unpacks⟩, fun unsaid => absurd said unsaid⟩
  · rcases linked stored with ⟨versions, manifests, -⟩
    exact ⟨versions ▸ fun _ found => found, manifests⟩
  · rcases linked stored with ⟨versions, -, manifests⟩
    intro version' contents' recorded found'
    rcases Option.some.inj (found.symm.trans found') with rfl
    rw [versions, version] at recorded
    rcases Option.some.inj recorded with rfl
    refine ⟨hash, unpacks, fun keeps recorded' found'' => ?_⟩
    rw [manifests keeps, manifest keeps] at found''
    exact (Option.some.inj found'').symm

end told

/-! ## Whole runs -/

section run

variable {entries : List PackListEntry} {refused : Refused} {start disk : Store Contents}
  {seen : List PackSpec} {state recorded : Store.RunState}

/-- The folders stay, and a record file is as it was or as the run has it. -/
structure Recorded (spec : PackSpec) (recorded : Store.RunState) (store : Store Contents)
    (written : Bool) (after : Store Contents) : Prop where
  folders : after.folders = store.folders
  versions : after.versions = store.versions ∨ after.versions = recorded.versions
  manifests : after.manifests = store.manifests ∨ after.manifests = recorded.manifests
  all : written → after.versions = recorded.versions ∧
    (spec.layout.keepsManifest → after.manifests = recorded.manifests) ∧
    (¬spec.layout.keepsManifest → after.manifests = store.manifests)

theorem Intact.congr (intact : Intact archives kept store) (same : after.folders = store.folders) :
    Intact archives kept after := by
  have lookups : ∀ name, after.folder? name = store.folder? name := fun name => by
    rw [Store.folder?, same, Store.folder?]
  refine ⟨fun spec spec_mem contents found => ?_, fun spec spec_mem is_kept => ?_⟩
  · exact intact.live spec spec_mem contents ((lookups _).symm.trans found)
  · rcases intact.copy spec spec_mem is_kept with here | ⟨name, contents, backs, found, whole⟩
    · exact .inl ((lookups _).symm ▸ here)
    · exact .inr ⟨name, contents, backs, (lookups _).trans found, whole⟩

theorem survives_writeRecords (intact : Intact archives kept store) :
    Survives archives kept (Recorded spec recorded store)
      (Store.writeRecords spec recorded) store := by
  apply Killable.Safe.bind
  rw [Store.writeVersions, Killable.safe_ask]
  refine ⟨intact, fun answer _ => ?_⟩
  cases answer.ok with
  | false => exact ⟨intact, intact, ⟨rfl, .inl rfl, .inl rfl, by simp⟩⟩
  | true =>
      have written : Intact archives kept { store with versions := recorded.versions } :=
        intact.congr rfl
      cases keeps : spec.layout.keepsManifest with
      | false => exact ⟨written, written, ⟨rfl, .inr rfl, .inl rfl, by simp [keeps]⟩⟩
      | true =>
          have second : Survives archives kept (Recorded spec recorded store)
              (Store.writeManifests recorded.manifests)
              { store with versions := recorded.versions } := by
            rw [Store.writeManifests, Survives, Killable.safe_ask]
            refine ⟨written, fun answer' _ => ?_⟩
            cases answer'.ok with
            | false => exact ⟨written, ⟨rfl, .inr rfl, .inl rfl, by simp⟩⟩
            | true => exact ⟨written.congr rfl, ⟨rfl, .inr rfl, .inr rfl, by simp [keeps]⟩⟩
          exact ⟨written, second⟩

theorem name_inj (spec_mem : spec ∈ packs) (other_mem : other ∈ packs)
    (same : spec.name = other.name) : spec = other :=
  List.inj_on_of_nodup_map nodup_packs spec_mem other_mem same

/-- What a run knows and has told of every pack, and what has stopped it. -/
structure AllTold (archives : Archives Contents) (entries : List PackListEntry)
    (start : Store Contents) (seen : List PackSpec) (state : Store.RunState)
    (disk : Store Contents) : Prop where
  told : ∀ spec ∈ packs, Told archives entries start seen spec state disk
  stops : ∀ stop, state.stopped = some stop → Unclaimed entries stop

variable (told : AllTold archives entries start seen state disk) (spec_mem : spec ∈ packs)
  (unseen : spec ∉ seen)

include told spec_mem unseen

/-- The pack was left as it is, and reported at most as that. -/
theorem AllTold.left {state' : Store.RunState} {disk' : Store Contents}
    (left : Left spec disk disk') (versions : state'.versions = state.versions)
    (manifests : state'.manifests = state.manifests) (unstored : state'.unstored = state.unstored)
    (stops : ∀ stop, state'.stopped = some stop → Unclaimed entries stop)
    (report : state'.report = state.report ∨ ∃ outcome, Unclaimed entries outcome ∧
      state'.report = state.report ++ [⟨spec.name, outcome⟩]) :
    AllTold archives entries start (seen ++ [spec]) state' disk' := by
  refine ⟨fun other other_mem => ?_, stops⟩
  by_cases same : other = spec
  · rcases same with rfl
    apply (told.told other other_mem).left left versions manifests unstored ?_ unseen
    intro outcome said
    rcases report with quiet | ⟨outcome', unclaimed, reported⟩
    · exact .inl (quiet ▸ said)
    · rw [reported, List.mem_append, List.mem_singleton] at said
      rcases said with said | same
      · exact .inl said
      · rcases PackStatus.mk.inj same with ⟨-, rfl⟩
        exact .inr unclaimed
  · refine (told.told other other_mem).beside ⟨left.others.live other other_mem same,
      by rw [versions], by rw [manifests], .inl left.others.versions, .inl left.others.manifests,
      by rw [unstored], fun outcome => ?_⟩ spec
    rcases report with quiet | ⟨outcome', -, reported⟩
    · rw [quiet]
    · have names : other.name ≠ spec.name := fun equal => same (name_inj other_mem spec_mem equal)
      simp [reported, names]

theorem AllTold.failed {failure : Failure} {stale : Bool}
    {refused : List (PackListEntry × FixedRefusal)} {disk' : Store Contents}
    (left : Left spec disk disk') :
    AllTold archives entries start (seen ++ [spec])
      (Store.RunState.status { state with stale, refused } spec (.failed failure)) disk' :=
  told.left spec_mem unseen left rfl rfl rfl told.stops (.inr ⟨_, unclaimed_failed, rfl⟩)

theorem AllTold.current (selected : selectPack entries spec = .ok entry)
    (recorded : state.versions.lookup spec.name = some entry.version)
    (live : (disk.folder? spec.dirLabel).isSome) :
    AllTold archives entries start (seen ++ [spec]) (state.status spec .current) disk := by
  refine ⟨fun other other_mem => ?_, told.stops⟩
  by_cases same : other = spec
  · rcases same with rfl
    exact (told.told other other_mem).current unseen selected recorded live
  · have names : other.name ≠ spec.name := fun equal => same (name_inj other_mem spec_mem equal)
    have beside : Beside other state disk (state.status spec .current) disk :=
      ⟨rfl, rfl, rfl, .inl rfl, .inl rfl, .rfl, fun outcome => by
        simp [Store.RunState.status, names]⟩
    exact (told.told other other_mem).beside beside spec

theorem AllTold.installed {hash : Text} (selected : selectPack entries spec = .ok entry)
    (arrived : Arrived archives spec entry hash disk middle) {written : Bool}
    (stored : Recorded spec (state.record spec entry.version hash) middle written after) :
    AllTold archives entries start (seen ++ [spec])
      ((if written then state.record spec entry.version hash
        else { state.record spec entry.version hash with
          unstored := state.unstored ++ [spec.name] }).status spec .installed) after := by
  have swapped := arrived.choose_spec.2
  have files : ∀ name, after.folder? name = middle.folder? name := fun name => by
    rw [Store.folder?, stored.folders, Store.folder?]
  refine ⟨fun other other_mem => ?_, ?_⟩
  · by_cases same : other = spec
    · rcases same with rfl
      apply Told.installed selected arrived (files _)
      · simp [Store.RunState.status]
      · cases written <;> simp [Store.RunState.status, Store.RunState.record]
      · intro keeps
        cases written <;> simp [Store.RunState.status, Store.RunState.record, keeps]
      · cases written with
        | false => simp [Store.RunState.status]
        | true =>
            intro _
            rcases stored.all rfl with ⟨versions, keeps, drops⟩
            refine ⟨versions, ?_, keeps⟩
            cases layout : other.layout.keepsManifest with
            | true =>
                rw [keeps layout]
                exact fun _ found => found
            | false =>
                rw [drops (by simp [layout]), swapped.others.manifests]
                have linked := (told.told other other_mem).linked
                  ((told.told other other_mem).ahead unseen).1
                simpa [Store.RunState.status, Store.RunState.record, layout] using linked.2
    · have names : other.name ≠ spec.name := fun equal => same (name_inj other_mem spec_mem equal)
      have versions : (state.record spec entry.version hash).versions.lookup other.name =
          state.versions.lookup other.name := by
        simp [Store.RunState.record, names]
      have manifests : (state.record spec entry.version hash).manifests.lookup other.name =
          state.manifests.lookup other.name := by
        cases layout : spec.layout.keepsManifest <;> simp [Store.RunState.record, names, layout]
      refine (told.told other other_mem).beside ⟨?_, ?_, ?_, ?_, ?_, ?_, fun outcome => ?_⟩ spec
      · exact (files _).trans (swapped.others.live other other_mem same)
      · cases written <;> exact versions
      · cases written <;> exact manifests
      · have file := stored.versions
        rw [swapped.others.versions] at file
        cases written <;> exact file
      · have file := stored.manifests
        rw [swapped.others.manifests] at file
        cases written <;> exact file
      · cases written <;> simp [Store.RunState.status, Store.RunState.record, names]
      · cases written <;> simp [Store.RunState.status, Store.RunState.record, names]
  · cases written <;> exact told.stops

theorem survives_settle (intact : Intact archives kept middle)
    (selected : selectPack entries spec = .ok entry) {came : Step}
    (comes : Downloads archives spec entry disk came middle) :
    Survives archives kept (AllTold archives entries start (seen ++ [spec]))
      (Store.settle spec entry state came) middle := by
  cases came with
  | installed hash =>
      apply Killable.Safe.bind
      apply (survives_writeRecords intact).mono
      intro written after intact' stored
      exact ⟨intact', told.installed spec_mem unseen selected comes stored⟩
  | done failure => cases failure <;> exact ⟨intact, told.failed spec_mem unseen comes⟩
  | gone => exact ⟨intact, told.failed spec_mem unseen comes⟩
  | stop outcome =>
      rcases comes with ⟨not_installed, not_current, left⟩
      have unclaimed : Unclaimed entries outcome :=
        ⟨not_installed, fun current => absurd current not_current⟩
      refine ⟨intact, told.left spec_mem unseen left rfl rfl rfl ?_ (.inr ⟨outcome, unclaimed, rfl⟩)⟩
      intro stop stopped
      exact Option.some.inj stopped ▸ unclaimed

theorem survives_visitMissing (intact : Intact archives kept disk)
    (selected : selectPack entries spec = .ok entry) :
    Survives archives kept (AllTold archives entries start (seen ++ [spec]))
      (Store.visitMissing archives server refused state spec entry) disk := by
  have stays : Left spec disk disk := .of_same spec_mem .refl
  unfold Store.visitMissing
  split
  next => exact ⟨intact, told.failed spec_mem unseen stays⟩
  next =>
    split
    next stop stopped =>
      exact ⟨intact, told.left spec_mem unseen stays rfl rfl rfl told.stops
        (.inr ⟨stop, told.stops stop stopped, rfl⟩)⟩
    next =>
      split
      next => exact ⟨intact, told.left spec_mem unseen stays rfl rfl rfl told.stops (.inl rfl)⟩
      next left _ =>
        have told' : AllTold archives entries start seen { state with requestsLeft := left } disk :=
          ⟨fun other other_mem =>
            ⟨(told.told other other_mem).ahead, (told.told other other_mem).linked,
              (told.told other other_mem).paired, (told.told other other_mem).truthful,
              (told.told other other_mem).unmoved⟩, told.stops⟩
        apply Killable.Safe.bind
        apply (survives_syncOne intact spec_mem (name_of_selectPack selected)).mono
        intro came after intact' comes
        exact survives_settle told' spec_mem unseen intact' selected comes

omit told spec_mem unseen in
theorem unclaimed_of_selectPack {outcome : PackSync}
    (unlisted : selectPack entries spec = .error outcome) : Unclaimed entries outcome := by
  unfold selectPack at unlisted
  split at unlisted
  · split_ifs at unlisted with _ empty <;> cases unlisted
    · exact ⟨by simp, by simp⟩
    · exact ⟨by simp, fun _ => List.isEmpty_iff.mp empty⟩
    · exact unclaimed_failed
  · split_ifs at unlisted
    cases unlisted
    exact unclaimed_failed

theorem survives_visit (intact : Intact archives kept disk) :
    Survives archives kept (AllTold archives entries start (seen ++ [spec]))
      (Store.visit archives server entries refused state spec) disk := by
  unfold Store.visit
  cases selected : selectPack entries spec with
  | error outcome =>
      exact ⟨intact, told.left spec_mem unseen (.of_same spec_mem .refl) rfl rfl rfl told.stops
        (.inr ⟨outcome, unclaimed_of_selectPack selected, rfl⟩)⟩
  | ok entry =>
      have missing : Survives archives kept (AllTold archives entries start (seen ++ [spec]))
          (Store.visitMissing archives server refused state spec entry) disk :=
        survives_visitMissing told spec_mem unseen intact selected
      apply Killable.Safe.bind
      unfold Store.isCurrent
      by_cases recorded : state.versions.lookup spec.name = some entry.version
      · rw [if_pos recorded, Store.inPlace, Killable.safe_ask]
        refine ⟨intact, fun answer _ => ⟨intact, ?_⟩⟩
        cases here : answer.ok && (disk.folder? spec.dirLabel).any fun contents =>
            !spec.layout.keepsManifest || archives.holdsManifest contents with
        | true =>
            have live : (disk.folder? spec.dirLabel).isSome := by
              have found := ((Bool.and_eq_true _ _).mp here).2
              rcases (Option.any_eq_true _ _).mp found with ⟨contents, found, -⟩
              simp [found]
            exact ⟨intact, told.current spec_mem unseen selected recorded live⟩
        | false => exact missing
      · rw [if_neg recorded]
        exact ⟨intact, missing⟩

end run

section sync

variable {entries : List PackListEntry} {refused : Refused} {start : Store Contents}
  {scope : Scope} {plan : RunPlan} {access : Access}

theorem scope_sublist (scope : Scope) : scope.specs.Sublist packs := by
  cases scope with
  | all => exact .refl _
  | heroesOnly => exact List.filter_sublist
  | extrasOnly => exact List.filter_sublist

theorem survives_runPacks (intact : Intact archives kept start) (requestsLeft : Option ℕ) :
    Survives archives kept (AllTold archives entries start scope.specs)
      (Store.runPacks archives server scope.specs entries requestsLeft refused) start := by
  apply Killable.Safe.bind
  rw [Store.readVersions, Killable.safe_ask]
  refine ⟨intact, fun answer _ => ⟨intact, ?_⟩⟩
  apply Killable.Safe.bind
  rw [Store.readManifests, Killable.safe_ask]
  refine ⟨intact, fun answer' _ => ⟨intact, ?_⟩⟩
  have tells : ∀ (spec : PackSpec) (ok : Bool) (file : HashMap Text Text),
      Tells spec (if ok then file else ∅) file := by
    intro spec ok file recorded found
    cases ok with
    | true => exact found
    | false => simp at found
  apply (Killable.safe_loop (fun seen state disk => Intact archives kept disk ∧
    AllTold archives entries start seen state disk) ?_ intact ?_).mono
  · exact fun state after _ holds => holds.2
  · rintro seen spec rest splits state disk ⟨intact', told⟩
    have spec_mem : spec ∈ scope.specs := by simp [← splits]
    have unseen : spec ∉ seen := by
      have distinct : scope.specs.Nodup := (scope_sublist scope).nodup (.of_map _ nodup_packs)
      rw [← splits] at distinct
      exact fun seen_before =>
        (List.nodup_append.mp distinct).2.2 spec seen_before spec List.mem_cons_self rfl
    apply (survives_visit told ((scope_sublist scope).mem spec_mem) unseen intact').mono
    exact fun _ _ intact'' told' => ⟨intact'', told'⟩
  · refine ⟨intact, fun spec _ => ?_, by simp⟩
    exact ⟨by simp, fun _ => ⟨tells spec _ _, tells spec _ _⟩,
      fun _ known => known.elim id (by simp), by simp, fun _ _ found => found⟩

/-- What a run that has ended tells of a pack. -/
structure Sync (archives : Archives Contents) (start : Store Contents) (spec : PackSpec)
    (run : SyncRun × List Text) (after : Store Contents) : Prop where
  paired : spec.name ∉ run.2 → Paired archives spec start ∨
    run.1.entries.isSome ∧ ⟨spec.name, .installed⟩ ∈ run.1.report → Paired archives spec after
  truthful : ∀ entries, run.1.entries = some entries → ⟨spec.name, .installed⟩ ∈ run.1.report ∨
    ⟨spec.name, .current⟩ ∈ run.1.report ∧ entries ≠ [] ∧ Paired archives spec start →
    UpToDate archives entries spec after
  unmoved : ⟨spec.name, .installed⟩ ∉ run.1.report → ∀ contents,
    after.folder? spec.dirLabel = some contents → start.folder? spec.dirLabel = some contents

theorem Paired.of_same (paired : Paired archives spec store) (spec_mem : spec ∈ packs)
    (same : Same store after) : Paired archives spec after := by
  apply paired.mono
  · intro contents found
    rwa [same.live spec spec_mem id] at found
  · rw [same.versions]
    exact fun _ found => found
  · rw [same.manifests]
    exact fun _ found => found

/-- A run that reports one outcome for all packs has left them alone. -/
theorem sync_early {outcome : PackSync} {listed : Option (List PackListEntry)}
    (same : Same start after) (spec_mem : spec ∈ packs)
    (unclaimed : listed.isSome → outcome ≠ .installed ∧ outcome ≠ .current) :
    Sync archives start spec (.early scope outcome listed, []) after := by
  have reported : ∀ {told : PackSync}, ⟨spec.name, told⟩ ∈ (SyncRun.early scope outcome listed).report →
      told = outcome := by
    intro told said
    rcases List.mem_map.mp said with ⟨other, -, same⟩
    exact (PackStatus.mk.inj same).2.symm
  refine ⟨fun _ known => ?_, fun entries found said => ?_, fun _ contents found => ?_⟩
  · rcases known with paired | ⟨is_listed, said⟩
    · exact paired.of_same spec_mem same
    · exact absurd (reported said).symm (unclaimed is_listed).1
  · have is_listed : listed.isSome := Option.isSome_iff_exists.mpr ⟨entries, found⟩
    rcases said with said | ⟨said, -⟩
    · exact absurd (reported said).symm (unclaimed is_listed).1
    · exact absurd (reported said).symm (unclaimed is_listed).2
  · rwa [same.live spec spec_mem id] at found

theorem Told.sync {state : Store.RunState} {run : SyncRun} {seen : List PackSpec}
    (told : Told archives entries middle seen spec state after) (same : Same start middle)
    (spec_mem : spec ∈ packs) (report : run.report = state.report)
    (listed : run.entries = some entries) :
    Sync archives start spec (run, state.unstored) after := by
  refine ⟨fun stored known => ?_, fun entries' listed' said => ?_, fun unsaid contents found => ?_⟩
  · apply told.paired stored
    rcases known with paired | ⟨-, said⟩
    · exact .inl (paired.of_same spec_mem same)
    · exact .inr (report ▸ said)
  · rcases Option.some.inj (listed.symm.trans listed') with rfl
    rw [report] at said
    apply told.truthful
    rcases said with said | ⟨said, listed, paired⟩
    · exact .inl said
    · exact .inr ⟨said, listed, paired.of_same spec_mem same⟩
  · rw [report] at unsaid
    have found' := told.unmoved unsaid contents found
    rwa [same.live spec spec_mem id] at found'

theorem refusal_unclaimed {outcome : PackSync} (refused : access.refusal = some outcome) :
    outcome ≠ .installed ∧ outcome ≠ .current := by
  unfold Access.refusal at refused
  split_ifs at refused
  · simp [← Option.some.inj refused]
  · simp [← Option.some.inj refused]
  · split at refused <;> simp [← Option.some.inj refused]
  · split at refused
    next => simp [← Option.some.inj refused]
    next => simp [← Option.some.inj refused]
    next => cases refused

theorem survives_runSync (intact : Intact archives kept start) :
    Survives archives kept (fun run after => ∀ spec ∈ packs, Sync archives start spec run after)
      (Store.runSync archives access server scope plan) start := by
  unfold Store.runSync
  split
  next outcome refused =>
    exact ⟨intact, fun spec spec_mem =>
      sync_early .refl spec_mem fun _ => refusal_unclaimed refused⟩
  next =>
    apply Killable.Safe.bind
    apply (survives_sweepStaleStaging intact).mono
    rintro - middle - ⟨intact', same⟩
    split
    · split
      next outcome _ =>
        exact ⟨intact', fun spec spec_mem => sync_early same spec_mem (by simp)⟩
      next entries readList requestsLeft _ =>
        apply Killable.Safe.bind
        apply (survives_runPacks intact' requestsLeft).mono
        intro state after intact'' told
        exact ⟨intact'', fun spec spec_mem =>
          (told.told spec spec_mem).sync same spec_mem rfl rfl⟩
    · exact ⟨intact', fun spec spec_mem => sync_early same spec_mem fun _ => by simp⟩

end sync

/-! ## Histories -/

/-- One sync, with what the system answers to it. -/
structure Round (Contents : Type) where
  access : Access
  server : Server
  scope : Scope
  plan : RunPlan
  answers : List (Answer Contents)

namespace Round

variable (archives) (round : Round Contents)

def job : StoreJob Contents (SyncRun × List Text) :=
  Store.runSync archives round.access round.server round.scope round.plan

/-- The store a sync leaves, ended or killed. -/
def leaves (store : Store Contents) : Store Contents :=
  ((round.job archives).run store round.answers).1

/-- What a sync returns, unless it is killed. -/
def returns (store : Store Contents) : Option (SyncRun × List Text) :=
  ((round.job archives).run store round.answers).2.map Prod.fst

end Round

namespace Store

def fresh : Store Contents := ⟨∅, ∅, ∅⟩

/-- The store after some syncs. -/
def history (archives : Archives Contents) (rounds : List (Round Contents)) (store : Store Contents) :
    Store Contents :=
  rounds.foldl (fun store round => round.leaves archives store) store

end Store

section histories

variable {rounds earlier later : List (Round Contents)}

theorem Intact.history (intact : Intact archives kept store) (rounds : List (Round Contents)) :
    Intact archives kept (Store.history archives rounds store) := by
  induction rounds generalizing store with
  | nil => exact intact
  | cons round rounds ih =>
      exact ih ((survives_runSync intact).run (Killable.allows_any _ _ _)).1

theorem intact_fresh : Intact archives (fun _ => False) (Store.fresh : Store Contents) :=
  ⟨fun _ _ _ found => by simp [Store.fresh, Store.folder?] at found, fun _ _ => False.elim⟩

section plain

/-- Archives that hold their own bytes. -/
def plain : Archives (List UInt8) where
  sha256Hex bytes := List.replicate 64 (if bytes = [1] then 'a' else 'b')
  unpackPack bytes _ _ _ := if bytes = [] then .error .mismatch else .ok (['h'], bytes)
  empty := []
  isEmpty := List.isEmpty
  holdsManifest _ := true

def heroes : PackSpec := packs.head (by decide)

def answer (ok : Bool) : Answer (List UInt8) := ⟨ok, [], false, [], ['7']⟩

/-- A sync of the heroes pack in a version. -/
def offer (version : Text) (bytes : List UInt8) (answers : List (Answer (List UInt8))) :
    Round (List UInt8) where
  access := .granted
  server := ⟨.ok [⟨heroes.name, version, plain.sha256Hex bytes, bytes.length⟩], fun _ => .ok bytes⟩
  scope := .heroesOnly
  plan := ⟨none, none, ∅⟩
  answers := answers

def installed : Round (List UInt8) := offer ['1'] [1] (.replicate 12 (answer true))

end plain

/-- Wherever syncs are killed, a pack in its place is whole, and one that was there has a copy. -/
theorem kills_keep_packs_whole (archives : Archives Contents) (earlier later : List (Round Contents))
    (spec : PackSpec) (spec_mem : spec ∈ packs) :
    (∀ contents, (Store.history archives (earlier ++ later) .fresh).folder? spec.dirLabel =
        some contents → IsWhole archives spec contents) ∧
      (((Store.history archives earlier .fresh).folder? spec.dirLabel).isSome →
        HasCopy archives spec (Store.history archives (earlier ++ later) .fresh)) := by
  have before : Intact archives (fun _ => False) (Store.history archives earlier .fresh) :=
    intact_fresh.history earlier
  have present : Intact archives
      (fun spec => ((Store.history archives earlier .fresh).folder? spec.dirLabel).isSome)
      (Store.history archives earlier .fresh) :=
    ⟨before.live, fun _ _ here => .inl here⟩
  have after := present.history later
  rw [Store.history, List.foldl_append]
  exact ⟨after.live spec spec_mem, after.copy spec spec_mem⟩

/-- Killed in the fallback of the swap, a sync leaves the backup and no pack in place. -/
theorem a_killed_swap_keeps_a_copy :
    (Store.history plain ([installed] ++
        [offer ['2'] [2] (.replicate 9 (answer true) ++ [answer false, answer true, answer true])])
      .fresh).folder? heroes.dirLabel = none ∧
    HasCopy plain heroes (Store.history plain ([installed] ++
      [offer ['2'] [2] (.replicate 9 (answer true) ++ [answer false, answer true, answer true])])
      .fresh) :=
  ⟨by decide, (kills_keep_packs_whole plain _ _ heroes (by decide)).2 (by decide)⟩

/-- A sync ends with the records of the pack stored, or leaves its folder and records alone. -/
def Round.Keeps (archives : Archives Contents) (spec : PackSpec) (round : Round Contents)
    (store : Store Contents) : Prop :=
  (∃ run, round.returns archives store = some run ∧ spec.name ∉ run.2) ∨
    (round.leaves archives store).folder? spec.dirLabel = store.folder? spec.dirLabel ∧
      (round.leaves archives store).versions.lookup spec.name = store.versions.lookup spec.name ∧
      (round.leaves archives store).manifests.lookup spec.name = store.manifests.lookup spec.name

def KeepsAll (archives : Archives Contents) (spec : PackSpec) :
    List (Round Contents) → Store Contents → Prop
  | [], _ => True
  | round :: rounds, store => round.Keeps archives spec store ∧
      KeepsAll archives spec rounds (round.leaves archives store)

theorem sync_of_returns {round : Round Contents} {run : SyncRun × List Text}
    (intact : Intact archives kept store) (returned : round.returns archives store = some run)
    (spec_mem : spec ∈ packs) : Sync archives store spec run (round.leaves archives store) := by
  rcases Option.map_eq_some_iff.mp returned with ⟨⟨run', rest⟩, ended, rfl⟩
  have safe := (survives_runSync intact).run
    (Killable.allows_any (round.job archives) store round.answers)
  exact safe.2 run' rest ended spec spec_mem

theorem Paired.keeps {round : Round Contents} (paired : Paired archives spec store)
    (intact : Intact archives kept store) (spec_mem : spec ∈ packs)
    (keeps : round.Keeps archives spec store) :
    Paired archives spec (round.leaves archives store) := by
  rcases keeps with ⟨run, returned, stored⟩ | ⟨live, versions, manifests⟩
  · exact (sync_of_returns intact returned spec_mem).paired stored (.inl paired)
  · apply paired.mono
    · exact fun contents found => live ▸ found
    · exact fun recorded found => versions ▸ found
    · exact fun recorded found => manifests ▸ found

theorem Paired.history (paired : Paired archives spec store) (intact : Intact archives kept store)
    (spec_mem : spec ∈ packs) (keeps : KeepsAll archives spec rounds store) :
    Paired archives spec (Store.history archives rounds store) := by
  induction rounds generalizing store with
  | nil => exact paired
  | cons round rounds ih =>
      exact ih (paired.keeps intact spec_mem keeps.1) (intact.history [round]) keeps.2

/-- While the records of a pack are stored, what a sync reports of it is in its folder, a sync that
does not report it installed brings nothing new there, and the record names what is there. -/
theorem reports_are_true (archives : Archives Contents) (rounds : List (Round Contents))
    (last : Round Contents) (spec : PackSpec) (spec_mem : spec ∈ packs)
    (keeps : KeepsAll archives spec rounds .fresh) {run : SyncRun} {unstored : List Text}
    {before : Store Contents} (reaches : Store.history archives rounds .fresh = before)
    (returned : last.returns archives before = some (run, unstored)) :
    (∀ entries, run.entries = some entries →
      ⟨spec.name, .installed⟩ ∈ run.report ∨ ⟨spec.name, .current⟩ ∈ run.report ∧ entries ≠ [] →
        UpToDate archives entries spec (last.leaves archives before)) ∧
      (⟨spec.name, .installed⟩ ∉ run.report → ∀ contents,
        (last.leaves archives before).folder? spec.dirLabel = some contents →
          before.folder? spec.dirLabel = some contents) ∧
      (spec.name ∉ unstored → ∀ version recorded contents,
        (last.leaves archives before).installedRecord spec.name = some (version, recorded) →
          (last.leaves archives before).folder? spec.dirLabel = some contents →
            ∃ hash, Unpacks archives spec version hash contents ∧
              (spec.layout.keepsManifest → ∀ found ∈ recorded, found = hash)) := by
  rcases reaches with rfl
  have start : Paired archives spec (Store.fresh : Store Contents) := by
    intro version contents recorded
    simp [Store.fresh] at recorded
  have paired := start.history intact_fresh spec_mem keeps
  have sync := sync_of_returns (intact_fresh.history rounds) returned spec_mem
  refine ⟨fun entries listed said => ?_, sync.unmoved, fun stored version recorded contents => ?_⟩
  · apply sync.truthful entries listed
    rcases said with said | ⟨said, listed⟩
    · exact .inl said
    · exact .inr ⟨said, listed, paired⟩
  · intro record found
    rcases Option.map_eq_some_iff.mp record with ⟨version', stored_version, same⟩
    rcases Prod.mk.inj same with ⟨rfl, rfl⟩
    rcases sync.paired stored (.inl paired) version' contents stored_version found
      with ⟨hash, unpacks, agrees⟩
    refine ⟨hash, unpacks, fun keeps found' found'_mem => ?_⟩
    exact agrees keeps found' (Option.mem_filter_iff.mp found'_mem).1

/-- Listed again, the pack is current, and it is the first version that is in its place. -/
theorem a_current_pack_is_in_place : ∃ entries,
    UpToDate plain entries heroes (Store.history plain [installed, installed] .fresh) := by
  have first : (installed.returns plain .fresh).map Prod.snd = some [] := by decide
  have again : (installed.returns plain (Store.history plain [installed] .fresh)).map
      (fun run => (run.1.report, run.1.entries.map List.length)) =
        some ([⟨heroes.name, .current⟩], some 1) := by decide
  rcases Option.map_eq_some_iff.mp first with ⟨⟨run, unstored⟩, returned, rfl⟩
  rcases Option.map_eq_some_iff.mp again with ⟨⟨run', unstored'⟩, returned', told⟩
  rcases Prod.mk.inj told with ⟨report, listed⟩
  rcases Option.map_eq_some_iff.mp listed with ⟨entries, found, count⟩
  refine ⟨entries, ?_⟩
  apply (reports_are_true plain [installed] installed heroes (by decide)
    ⟨.inl ⟨_, returned, by simp⟩, trivial⟩ rfl returned').1 entries found
  have same : run'.report = [⟨heroes.name, .current⟩] := report
  have said : ⟨heroes.name, .current⟩ ∈ run'.report := same ▸ List.mem_singleton_self _
  refine .inr ⟨said, ?_⟩
  rintro rfl
  cases count

/-- After a kill between the swap and the records, a list that goes back is told it is current. -/
example :
    let killed := offer ['2'] [2] (.replicate 10 (answer true))
    let store := Store.history plain [installed, killed] .fresh
    (installed.returns plain store).map (fun run => run.1.report) =
      some [⟨heroes.name, .current⟩] ∧ store.folder? heroes.dirLabel = some [2] := by
  decide

end histories

end ScuffedCrew.Packs
