import ScuffedCrew.Packs.Store

/-!
# Packs are swapped in as a whole

What every kill leaves of the packs' folders, and the steps that remove a folder
or swap one in: none of them takes the only copy of a pack away, wherever it is
killed and whatever the system refuses.
-/

namespace ScuffedCrew.Packs

open Rust

variable {Contents : Type} {archives : Archives Contents}

/-! ## Whose folder a name is -/

section names

variable {spec other : PackSpec}

theorem owner_staging (spec_mem : spec ∈ packs) (suffix : Text) :
    owner (spec.staging suffix) = some (spec, false) := by
  simp only [packs, List.mem_cons, List.not_mem_nil, or_false] at spec_mem
  rcases spec_mem with rfl | rfl | rfl | rfl | rfl | rfl | rfl <;> rfl

theorem owner_backup (spec_mem : spec ∈ packs) (suffix : Text) :
    owner (spec.backup suffix) = some (spec, true) := by
  simp only [packs, List.mem_cons, List.not_mem_nil, or_false] at spec_mem
  rcases spec_mem with rfl | rfl | rfl | rfl | rfl | rfl | rfl <;> rfl

theorem owner_dirLabel (spec_mem : spec ∈ packs) : owner spec.dirLabel = none := by
  revert spec
  decide

theorem dirLabel_inj (spec_mem : spec ∈ packs) (other_mem : other ∈ packs)
    (same : spec.dirLabel = other.dirLabel) : spec = other := by
  have distinct : (packs.map PackSpec.dirLabel).Nodup := by decide
  exact List.inj_on_of_nodup_map distinct spec_mem other_mem same

end names

namespace Store

variable {store after : Store Contents} {name other : Text} {contents : Contents}

@[simp]
theorem folder?_put : (store.put name contents).folder? other =
    if other = name then some contents else store.folder? other := HashMap.lookup_insert'

@[simp]
theorem folder?_drop :
    (store.drop name).folder? other = if other = name then none else store.folder? other :=
  HashMap.lookup_erase'

end Store

/-! ## What every kill leaves -/

/-- What an archive of a version of the pack unpacks to. -/
def Unpacks (archives : Archives Contents) (spec : PackSpec) (version hash : Text)
    (contents : Contents) : Prop :=
  ∃ bytes, archives.unpackPack bytes spec.layout spec.name version = .ok (hash, contents)

def IsWhole (archives : Archives Contents) (spec : PackSpec) (contents : Contents) : Prop :=
  ∃ version hash, Unpacks archives spec version hash contents

/-- The pack is in its place, or a whole copy is beside it. -/
def HasCopy (archives : Archives Contents) (spec : PackSpec) (store : Store Contents) : Prop :=
  (store.folder? spec.dirLabel).isSome ∨ ∃ name contents, owner name = some (spec, true) ∧
    store.folder? name = some contents ∧ IsWhole archives spec contents

/-- The folders in place are whole, and the packs that have been installed have a copy. -/
structure Intact (archives : Archives Contents) (kept : PackSpec → Prop)
    (store : Store Contents) : Prop where
  live : ∀ spec ∈ packs, ∀ contents, store.folder? spec.dirLabel = some contents →
    IsWhole archives spec contents
  copy : ∀ spec ∈ packs, kept spec → HasCopy archives spec store

/-- The folders in place, but for those of one pack, and the records. -/
structure SameBut (changed : PackSpec → Prop) (store after : Store Contents) : Prop where
  live : ∀ spec ∈ packs, ¬changed spec →
    after.folder? spec.dirLabel = store.folder? spec.dirLabel
  versions : after.versions = store.versions
  manifests : after.manifests = store.manifests

abbrev Same (store after : Store Contents) : Prop := SameBut (fun _ => False) store after

namespace SameBut

variable {changed more : PackSpec → Prop} {store middle after : Store Contents}

theorem refl : SameBut changed store store := ⟨fun _ _ _ => rfl, rfl, rfl⟩

theorem mono (same : SameBut changed store after) (weaker : ∀ spec, changed spec → more spec) :
    SameBut more store after :=
  ⟨fun spec spec_mem kept => same.live spec spec_mem fun moved => kept (weaker spec moved),
    same.versions, same.manifests⟩

theorem trans (first : SameBut changed store middle) (second : SameBut changed middle after) :
    SameBut changed store after :=
  ⟨fun spec spec_mem kept =>
    (second.live spec spec_mem kept).trans (first.live spec spec_mem kept),
    second.versions.trans first.versions, second.manifests.trans first.manifests⟩

end SameBut

section owned

variable {store : Store Contents} {kept : PackSpec → Prop} {spec other : PackSpec}
  {name : Text} {isBackup : Bool} {contents : Contents}

theorem dirLabel_ne (other_mem : other ∈ packs) (owned : owner name = some (spec, isBackup)) :
    other.dirLabel ≠ name := by
  rintro rfl
  cases (owner_dirLabel other_mem).symm.trans owned

/-- A folder beside the live ones may be dropped where it is not the only copy. -/
theorem Intact.drop (intact : Intact archives kept store)
    (owned : owner name = some (spec, isBackup))
    (spare : isBackup → (store.folder? spec.dirLabel).isSome) :
    Intact archives kept (store.drop name) := by
  refine ⟨fun other other_mem contents found => ?_, fun other other_mem is_kept => ?_⟩
  · rw [Store.folder?_drop, if_neg (dirLabel_ne other_mem owned)] at found
    exact intact.live other other_mem contents found
  · rcases intact.copy other other_mem is_kept with here | ⟨copy, contents, backs, found, whole⟩
    · left
      rwa [Store.folder?_drop, if_neg (dirLabel_ne other_mem owned)]
    · by_cases same : copy = name
      · rcases same with rfl
        rcases Option.some.inj (backs.symm.trans owned) with ⟨rfl, rfl⟩
        left
        rw [Store.folder?_drop, if_neg (dirLabel_ne other_mem owned)]
        exact spare rfl
      · exact .inr ⟨copy, contents, backs, by rwa [Store.folder?_drop, if_neg same], whole⟩

theorem Intact.put (intact : Intact archives kept store)
    (owned : owner name = some (spec, isBackup))
    (spare : isBackup → (store.folder? spec.dirLabel).isSome) :
    Intact archives kept (store.put name contents) := by
  refine ⟨fun other other_mem contents' found => ?_, fun other other_mem is_kept => ?_⟩
  · rw [Store.folder?_put, if_neg (dirLabel_ne other_mem owned)] at found
    exact intact.live other other_mem contents' found
  · rcases intact.copy other other_mem is_kept with here | ⟨copy, contents', backs, found, whole⟩
    · left
      rwa [Store.folder?_put, if_neg (dirLabel_ne other_mem owned)]
    · by_cases same : copy = name
      · rcases same with rfl
        rcases Option.some.inj (backs.symm.trans owned) with ⟨rfl, rfl⟩
        left
        rw [Store.folder?_put, if_neg (dirLabel_ne other_mem owned)]
        exact spare rfl
      · exact .inr ⟨copy, contents', backs, by rwa [Store.folder?_put, if_neg same], whole⟩

theorem same_drop (owned : owner name = some (spec, isBackup)) : Same store (store.drop name) :=
  ⟨fun other other_mem _ => by rw [Store.folder?_drop, if_neg (dirLabel_ne other_mem owned)],
    rfl, rfl⟩

theorem same_put (owned : owner name = some (spec, isBackup)) :
    Same store (store.put name contents) :=
  ⟨fun other other_mem _ => by rw [Store.folder?_put, if_neg (dirLabel_ne other_mem owned)],
    rfl, rfl⟩

/-- A whole folder takes the place of the live one. -/
theorem Intact.arrive (intact : Intact archives kept store) (spec_mem : spec ∈ packs)
    (whole : IsWhole archives spec contents) :
    Intact archives kept (store.put spec.dirLabel contents) := by
  refine ⟨fun other other_mem contents' found => ?_, fun other other_mem is_kept => ?_⟩
  · rw [Store.folder?_put] at found
    split at found
    next same =>
      rcases dirLabel_inj other_mem spec_mem same with rfl
      rcases Option.some.inj found with rfl
      exact whole
    next => exact intact.live other other_mem contents' found
  · rcases intact.copy other other_mem is_kept with here | ⟨copy, contents', backs, found, whole'⟩
    · left
      rw [Store.folder?_put]
      split
      · rfl
      · exact here
    · refine .inr ⟨copy, contents', backs, ?_, whole'⟩
      rwa [Store.folder?_put, if_neg (dirLabel_ne spec_mem backs).symm]

theorem sameBut_arrive (spec_mem : spec ∈ packs) :
    SameBut (fun other => other = spec) store (store.put spec.dirLabel contents) := by
  refine ⟨fun other other_mem differs => ?_, rfl, rfl⟩
  rw [Store.folder?_put, if_neg fun same => differs (dirLabel_inj other_mem spec_mem same)]

/-- A whole folder from beside the live one takes its place. -/
theorem Intact.swapIn (intact : Intact archives kept store) (spec_mem : spec ∈ packs)
    (owned : owner name = some (spec, isBackup)) (whole : IsWhole archives spec contents) :
    Intact archives kept ((store.drop name).put spec.dirLabel contents) := by
  have arrived := intact.arrive spec_mem whole
  have apart : ∀ {other : PackSpec}, other ∈ packs →
      ((store.drop name).put spec.dirLabel contents).folder? other.dirLabel =
        (store.put spec.dirLabel contents).folder? other.dirLabel := by
    intro other other_mem
    simp [dirLabel_ne other_mem owned]
  refine ⟨fun other other_mem contents' found => ?_, fun other other_mem is_kept => ?_⟩
  · rw [apart other_mem] at found
    exact arrived.live other other_mem contents' found
  · rcases arrived.copy other other_mem is_kept with here | ⟨copy, contents', backs, found, whole'⟩
    · left
      rwa [apart other_mem]
    · by_cases same : other = spec
      · rcases same with rfl
        left
        simp
      · have copy_ne : copy ≠ name := by
          rintro rfl
          rcases Option.some.inj (backs.symm.trans owned) with ⟨rfl, -⟩
          exact same rfl
        refine .inr ⟨copy, contents', backs, ?_, whole'⟩
        simpa [copy_ne] using found

/-- The live folder is moved to a backup. -/
theorem Intact.back (intact : Intact archives kept store) (spec_mem : spec ∈ packs)
    (owned : owner name = some (spec, true))
    (found : store.folder? spec.dirLabel = some contents) :
    Intact archives kept ((store.drop spec.dirLabel).put name contents) := by
  have whole := intact.live spec spec_mem contents found
  refine ⟨fun other other_mem contents' found' => ?_, fun other other_mem is_kept => ?_⟩
  · rw [Store.folder?_put, if_neg (dirLabel_ne other_mem owned), Store.folder?_drop] at found'
    split at found'
    next => cases found'
    next => exact intact.live other other_mem contents' found'
  · by_cases same : other = spec
    · rcases same with rfl
      exact .inr ⟨name, contents, owned, by simp, whole⟩
    · have apart : other.dirLabel ≠ spec.dirLabel := fun equal =>
        same (dirLabel_inj other_mem spec_mem equal)
      rcases intact.copy other other_mem is_kept with here | ⟨copy, contents', backs, found', whole'⟩
      · left
        rwa [Store.folder?_put, if_neg (dirLabel_ne other_mem owned), Store.folder?_drop,
          if_neg apart]
      · have copy_ne : copy ≠ name := by
          rintro rfl
          rcases Option.some.inj (backs.symm.trans owned) with ⟨rfl, -⟩
          exact same rfl
        refine .inr ⟨copy, contents', backs, ?_, whole'⟩
        rwa [Store.folder?_put, if_neg copy_ne, Store.folder?_drop,
          if_neg (dirLabel_ne spec_mem backs).symm]

end owned

/-! ## The programs -/

/-- Wherever the program is killed the packs are intact, and its end meets a condition. -/
abbrev Survives (archives : Archives Contents) (kept : PackSpec → Prop) {α : Type}
    (post : α → Store Contents → Prop) (program : StoreJob Contents α) (store : Store Contents) :
    Prop :=
  Killable.Safe (fun _ _ => True) (Intact archives kept) post program store

section programs

variable {kept : PackSpec → Prop} {spec : PackSpec} {store : Store Contents}
  {name source target : Text} {isBackup : Bool} {contents : Contents}
  {post : Bool → Store Contents → Prop}

theorem survives_scribble (intact : Intact archives kept store)
    (owned : owner name = some (spec, isBackup))
    (spare : isBackup → (store.folder? spec.dirLabel).isSome) :
    Survives archives kept (fun _ after => Intact archives kept after ∧ Same store after)
      (Store.scribble name) store := by
  rw [Store.scribble, Survives, Killable.safe_ask]
  refine ⟨intact, fun answer _ => ?_⟩
  split
  · have put : Intact archives kept (store.put name answer.leftover) := intact.put owned spare
    exact ⟨put, put, same_put owned⟩
  · exact ⟨intact, intact, .refl⟩

theorem survives_removeDirAll (intact : Intact archives kept store)
    (owned : owner name = some (spec, isBackup))
    (spare : isBackup → (store.folder? spec.dirLabel).isSome) (spec_mem : spec ∈ packs) :
    Survives archives kept (fun _ after => Intact archives kept after ∧ Same store after)
      (Store.removeDirAll name) store := by
  apply Killable.Safe.bind
  apply (survives_scribble intact owned spare).mono
  rintro - after - ⟨intact', same⟩
  rw [Killable.safe_ask]
  refine ⟨intact', fun answer _ => ?_⟩
  have spare' : isBackup → (after.folder? spec.dirLabel).isSome := by
    intro backs
    rw [same.live spec spec_mem id]
    exact spare backs
  split
  · have dropped := intact'.drop owned spare'
    exact ⟨dropped, dropped, same.trans (same_drop owned)⟩
  · exact ⟨intact', intact', same⟩

theorem survives_rename (intact : Intact archives kept store) (stays : post false store)
    (moves : ∀ contents, store.folder? source = some contents →
      Intact archives kept ((store.drop source).put target contents) ∧
        post true ((store.drop source).put target contents)) :
    Survives archives kept post (Store.rename source target archives) store := by
  rw [Store.rename, Survives, Killable.safe_ask]
  refine ⟨intact, fun answer _ => ?_⟩
  split
  next contents found =>
    split
    · exact moves contents found
    · exact ⟨intact, stays⟩
  next => exact ⟨intact, stays⟩

theorem survives_folderExists (intact : Intact archives kept store)
    (absent : post false store) (present : (store.folder? name).isSome → post true store) :
    Survives archives kept post (Store.folderExists name) store := by
  rw [Store.folderExists, Survives, Killable.safe_ask]
  refine ⟨intact, fun answer _ => ⟨intact, ?_⟩⟩
  cases answers : answer.ok && (store.folder? name).isSome with
  | false => exact absent
  | true => exact present ((Bool.and_eq_true _ _).mp answers).2

theorem spec_mem_of_owner (owned : owner name = some (spec, isBackup)) : spec ∈ packs := by
  unfold owner at owned
  split at owned
  · rcases List.exists_of_findSome?_eq_some owned with ⟨other, other_mem, found⟩
    split at found
    · rcases Option.some.inj found with ⟨rfl, -⟩
      exact other_mem
    · split at found
      · rcases Option.some.inj found with ⟨rfl, -⟩
        exact other_mem
      · cases found
  · cases owned

/-- The sweep removes no backup that is the only copy. -/
theorem survives_sweepFolder (intact : Intact archives kept store) (name : Text) :
    Survives archives kept (fun _ after => Intact archives kept after ∧ Same store after)
      (Store.sweepFolder name) store := by
  unfold Store.sweepFolder
  split
  next => exact ⟨intact, intact, .refl⟩
  next spec isBackup owned =>
    have removes : (isBackup → (store.folder? spec.dirLabel).isSome) →
        Survives archives kept (fun _ after => Intact archives kept after ∧ Same store after)
          (do
            let stale ← Store.isStale name
            if stale then Store.removeDirAll name else pure ()) store := by
      intro spare
      apply Killable.Safe.bind
      rw [Store.isStale, Killable.safe_ask]
      refine ⟨intact, fun answer _ => ⟨intact, ?_⟩⟩
      split
      · exact survives_removeDirAll intact owned spare (spec_mem_of_owner owned)
      · exact ⟨intact, intact, .refl⟩
    apply Killable.Safe.bind
    unfold Store.isSpare
    cases isBackup with
    | false => exact ⟨intact, removes (by simp)⟩
    | true =>
        apply survives_folderExists intact
        · exact ⟨intact, intact, .refl⟩
        · exact fun here => removes fun _ => here

theorem survives_sweepStaleStaging (intact : Intact archives kept store) :
    Survives archives kept (fun _ after => Intact archives kept after ∧ Same store after)
      Store.sweepStaleStaging store := by
  apply Killable.Safe.bind
  rw [Store.readDir, Killable.safe_ask]
  refine ⟨intact, fun answer _ => ⟨intact, ?_⟩⟩
  refine Killable.safe_loop (fun _ _ after => Intact archives kept after ∧ Same store after) ?_
    intact ⟨intact, .refl⟩
  rintro - name - - - middle ⟨intact', same⟩
  apply (survives_sweepFolder intact' name).mono
  rintro - after - ⟨intact'', same'⟩
  exact ⟨intact'', same.trans same'⟩

/-- The pack's live folder was replaced. -/
structure Swapped (spec : PackSpec) (contents : Contents) (store after : Store Contents) : Prop where
  others : SameBut (fun other => other = spec) store after
  live : after.folder? spec.dirLabel = some contents

/-- The pack's live folder was left in place, or is moved away. -/
structure Left (spec : PackSpec) (store after : Store Contents) : Prop where
  others : SameBut (fun other => other = spec) store after
  live : after.folder? spec.dirLabel = store.folder? spec.dirLabel ∨
    after.folder? spec.dirLabel = none

theorem Swapped.trans_same {middle after : Store Contents} (spec_mem : spec ∈ packs)
    (swapped : Swapped spec contents store middle) (same : Same middle after) :
    Swapped spec contents store after :=
  ⟨swapped.others.trans (same.mono fun _ => False.elim),
    (same.live spec spec_mem id).trans swapped.live⟩

theorem Swapped.after_same {middle after : Store Contents} (same : Same store middle)
    (swapped : Swapped spec contents middle after) : Swapped spec contents store after :=
  ⟨(same.mono fun _ => False.elim).trans swapped.others, swapped.live⟩

theorem Left.after_same {middle after : Store Contents} (spec_mem : spec ∈ packs)
    (same : Same store middle) (left : Left spec middle after) : Left spec store after := by
  refine ⟨(same.mono fun _ => False.elim).trans left.others, ?_⟩
  rw [← same.live spec spec_mem id]
  exact left.live

theorem Left.trans_same {middle after : Store Contents} (spec_mem : spec ∈ packs)
    (left : Left spec store middle) (same : Same middle after) : Left spec store after := by
  refine ⟨left.others.trans (same.mono fun _ => False.elim), ?_⟩
  rw [same.live spec spec_mem id]
  exact left.live

theorem Left.of_same {after : Store Contents} (spec_mem : spec ∈ packs) (same : Same store after) :
    Left spec store after :=
  ⟨same.mono fun _ => False.elim, .inl (same.live spec spec_mem id)⟩

/-- What a swap comes to. -/
def Swap (spec : PackSpec) (contents : Contents) (store : Store Contents) (done : Bool)
    (after : Store Contents) : Prop :=
  if done then Swapped spec contents store after else Left spec store after

section swap

variable {staging : Text} (intact : Intact archives kept store) (spec_mem : spec ∈ packs)
  (owned : owner staging = some (spec, false)) (found : store.folder? staging = some contents)
  (whole : IsWhole archives spec contents)

include intact spec_mem owned found whole

theorem survives_swapByRenames :
    Survives archives kept (Swap spec contents store)
      (Store.swapByRenames archives spec staging) store := by
  apply Killable.Safe.bind
  rw [Store.uniqueSuffix, Killable.safe_ask]
  refine ⟨intact, fun answer _ => ⟨intact, ?_⟩⟩
  have backs := owner_backup spec_mem answer.suffix
  generalize spec.backup answer.suffix = backup at backs
  have apart : staging ≠ backup := by
    rintro rfl
    cases owned.symm.trans backs
  have staging_ne := dirLabel_ne spec_mem owned
  have backup_ne := dirLabel_ne spec_mem backs
  apply Killable.Safe.bind
  apply survives_rename intact
  · exact ⟨intact, .of_same spec_mem .refl⟩
  · intro old at_live
    have away := intact.back spec_mem backs at_live
    refine ⟨away, ?_⟩
    have moved : SameBut (fun other => other = spec) store
        ((store.drop spec.dirLabel).put backup old) := by
      refine ⟨fun other other_mem differs => ?_, rfl, rfl⟩
      have labels : other.dirLabel ≠ spec.dirLabel := fun equal =>
        differs (dirLabel_inj other_mem spec_mem equal)
      simp [dirLabel_ne other_mem backs, labels]
    apply Killable.Safe.bind
    apply survives_rename away
    · -- The new folder did not come, and the old one goes back.
      apply Killable.Safe.bind
      apply survives_rename away
      · exact ⟨away, moved, .inr (by simp [backup_ne])⟩
      · intro contents' at_backup
        have same : old = contents' := by simpa using at_backup
        rcases same with rfl
        have back := away.swapIn spec_mem backs (intact.live spec spec_mem _ at_live)
        refine ⟨back, back, ?_, .inl (by simp [at_live])⟩
        refine ⟨fun other other_mem differs => ?_, rfl, rfl⟩
        have labels : other.dirLabel ≠ spec.dirLabel := fun equal =>
          differs (dirLabel_inj other_mem spec_mem equal)
        simp [dirLabel_ne other_mem backs, labels]
    · intro contents' at_staging
      have same : contents' = contents := by
        have there : store.folder? staging = some contents' := by
          simpa [apart, staging_ne.symm] using at_staging
        exact Option.some.inj (there.symm.trans found)
      rcases same with rfl
      have arrived := away.swapIn spec_mem owned whole
      refine ⟨arrived, ?_⟩
      apply Killable.Safe.bind
      apply (survives_removeDirAll arrived backs (fun _ => by simp) spec_mem).mono
      rintro - after - ⟨intact', same⟩
      refine ⟨intact', .trans_same spec_mem ⟨?_, by simp⟩ same⟩
      refine moved.trans ⟨fun other other_mem differs => ?_, rfl, rfl⟩
      have labels : other.dirLabel ≠ spec.dirLabel := fun equal =>
        differs (dirLabel_inj other_mem spec_mem equal)
      simp [dirLabel_ne other_mem owned, labels]

theorem survives_swapDir :
    Survives archives kept (Swap spec contents store)
      (Store.swapDir archives spec staging) store := by
  have moves : ∀ contents', store.folder? staging = some contents' →
      Intact archives kept ((store.drop staging).put spec.dirLabel contents') ∧
        Swap spec contents store true ((store.drop staging).put spec.dirLabel contents') := by
    intro contents' at_staging
    rcases Option.some.inj (at_staging.symm.trans found) with rfl
    refine ⟨intact.swapIn spec_mem owned whole, ?_, by simp⟩
    exact ((same_drop owned).mono fun _ => False.elim).trans (sameBut_arrive spec_mem)
  apply Killable.Safe.bind
  apply survives_folderExists intact
  · exact survives_rename intact (.of_same spec_mem .refl) moves
  · intro here
    apply Killable.Safe.bind
    rw [Store.exchangePaths, Killable.safe_ask]
    refine ⟨intact, fun answer _ => ?_⟩
    split
    next contents' old at_staging at_live =>
      rcases Option.some.inj (at_staging.symm.trans found) with rfl
      split
      next =>
        have put : Intact archives kept (store.put staging old) := intact.put owned (by simp)
        have arrived := put.arrive spec_mem whole
        refine ⟨arrived, ?_⟩
        apply Killable.Safe.bind
        apply (survives_removeDirAll arrived owned (by simp) spec_mem).mono
        rintro - after - ⟨intact', same⟩
        refine ⟨intact', .trans_same spec_mem ⟨?_, by simp⟩ same⟩
        exact ((same_put owned).mono fun _ => False.elim).trans (sameBut_arrive spec_mem)
      next => exact ⟨intact, survives_swapByRenames intact spec_mem owned found whole⟩
    next => exact ⟨intact, survives_swapByRenames intact spec_mem owned found whole⟩

end swap

end programs

end ScuffedCrew.Packs
