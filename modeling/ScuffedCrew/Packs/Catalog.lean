import ScuffedCrew.Rust.Text

/-!
# Reader packs and the site's list

The packs the tracker installs, the entry the site lists for each of them, and
what one sync can come to for a pack.  The folder a pack is unpacked into is
left to the store.
-/

namespace ScuffedCrew.Packs

open Rust

inductive PackLayout
  | heroesV1
  | portraits
  | banIcons
  | mapGlyphs
  | words
  | names
  deriving DecidableEq, Repr

namespace PackLayout

/-- The layout keeps the inner `manifest.json` in the pack's folder. -/
def keepsManifest : PackLayout → Bool
  | .names => true
  | _ => false

end PackLayout

structure PackSpec where
  name : Text
  layout : PackLayout
  /-- A list that leaves the pack out is a mismatch. -/
  required : Bool
  deriving DecidableEq, Repr

/-- `PACKS`, in download order. -/
def packs : List PackSpec :=
  [⟨"heroes-v1.tar".toList, .heroesV1, true⟩, ⟨"heroes-v2.tar".toList, .portraits, false⟩,
    ⟨"heroes-v2-1080.tar".toList, .portraits, false⟩, ⟨"bans-v1.tar".toList, .banIcons, false⟩,
    ⟨"maps-v1.tar".toList, .mapGlyphs, false⟩, ⟨"words-v1.tar".toList, .words, false⟩,
    ⟨"names-v1.tar".toList, .names, false⟩]

theorem nodup_packs : (packs.map PackSpec.name).Nodup := by decide

/-- A refusal the same bytes would get again: `is_fixed_refusal`. -/
inductive FixedRefusal
  | «mismatch»
  | unsafePack
  | tooBig
  deriving DecidableEq, Repr

/-- The messages of `PackSync::Failed`. -/
inductive Failure
  | fixed (refusal : FixedRefusal)
  | download
  | auth
  | forbidden
  | signIn
  /-- A 429, with the wait it asks for. -/
  | limited (seconds : ℕ)
  deriving DecidableEq, Repr

inductive PackSync
  | installed
  | current
  /-- The site has packs switched off. -/
  | unavailable
  /-- The site has no pack list. -/
  | unsupported
  /-- The list does not name the pack. -/
  | missing
  | busy
  | failed (failure : Failure)
  deriving DecidableEq, Repr

namespace PackSync

/-- Nothing a later try would change. -/
def isSettled : PackSync → Bool
  | .installed | .current | .missing | .unsupported => true
  | .unavailable | .busy | .failed _ => false

end PackSync

structure PackStatus where
  name : Text
  outcome : PackSync
  deriving DecidableEq, Repr

abbrev PackReport := List PackStatus

/-! ## The list -/

structure PackListEntry where
  name : Text
  version : Text
  sha256 : Text
  size : ℕ
  deriving DecidableEq, Repr

def isSha256 (value : Text) : Bool :=
  decide (value.length = 64) && value.all fun letter =>
    letter.isDigit || (decide ('a' ≤ letter) && decide (letter ≤ 'f'))

def isVersion (value : Text) : Bool :=
  !value.isEmpty && decide (value.length ≤ 32) && value.all fun letter =>
    letter.isAlphanum || ['.', '_', '-'].contains letter

/-- The entry of the list for a pack.  An empty list has nothing to install. -/
def selectPack (entries : List PackListEntry) (spec : PackSpec) : Except PackSync PackListEntry :=
  match entries.find? fun entry => entry.name = spec.name with
  | none =>
      if !spec.required then .error .missing
      else if entries.isEmpty then .error .current
      else .error (.failed (.fixed .mismatch))
  | some entry =>
      if !isSha256 entry.sha256 || !isVersion entry.version then
        .error (.failed (.fixed .mismatch))
      else .ok entry

variable {entries : List PackListEntry} {spec : PackSpec} {entry : PackListEntry}
  {outcome : PackSync}

theorem name_of_selectPack (selected : selectPack entries spec = .ok entry) :
    entry.name = spec.name := by
  unfold selectPack at selected
  split at selected
  · split_ifs at selected
  · rename_i found named
    split_ifs at selected
    rcases Except.ok.inj selected with rfl
    simpa using List.find?_some named

/-- A pack the list has no entry for is settled, or refused for a fixed reason. -/
theorem selectPack_error (unlisted : selectPack entries spec = .error outcome) :
    outcome.isSettled = true ∨ outcome = .failed (.fixed .mismatch) := by
  unfold selectPack at unlisted
  split at unlisted
  · split_ifs at unlisted <;> cases unlisted <;> simp [PackSync.isSettled]
  · split_ifs at unlisted
    cases unlisted
    exact .inr rfl

end ScuffedCrew.Packs
