import Mathlib.Data.Finset.Insert
import ScuffedCrew.Rust.HashMap
import ScuffedCrew.Rust.Text

/-!
# The read directory

The members the gate serves and the groups it knows, as a refresh loads them.
A reader is filed under its own key, and that key is 64 lower case hex digits.
-/

namespace ScuffedCrew.RelayPolicy

open Rust

structure MemberAcl where
  pubkey : Text
  memberId : Text
  officer : Bool
  teams : Finset Text
  deriving DecidableEq

structure GroupAcl where
  teamId : Text
  officerOnly : Bool
  deriving DecidableEq

/-- `trim().to_ascii_lowercase()`. -/
def normalised (pubkey : Text) : Text := pubkey.trim.toAsciiLowercase

def isPubkey (pubkey : Text) : Bool := pubkey.length == 64 && pubkey.all isAsciiHexdigit

@[simp]
theorem normalised_normalised (pubkey : Text) :
    normalised (normalised pubkey) = normalised pubkey := by
  simp only [normalised, ← Text.toAsciiLowercase_trim, Text.trim_trim, Text.toAsciiLowercase_idem]

structure ReadDirectory where
  readers : HashMap Text MemberAcl
  groups : HashMap Text GroupAcl
  keyed : ∀ pubkey member, readers.lookup pubkey = some member →
    member.pubkey = pubkey ∧ isPubkey pubkey = true

namespace ReadDirectory

variable {members : List MemberAcl} {pubkey : Text}

def insertReader (readers : HashMap Text MemberAcl) (member : MemberAcl) :
    HashMap Text MemberAcl :=
  let member := { member with pubkey := normalised member.pubkey }
  if isPubkey member.pubkey then readers.insert member.pubkey member else readers

def insertGroup (groups : HashMap Text GroupAcl) (entry : Text × GroupAcl) :
    HashMap Text GroupAcl :=
  let id := entry.1.trim
  if !id.isEmpty && !entry.2.teamId.isEmpty then groups.insert id entry.2 else groups

theorem lookup_insertReader {readers : HashMap Text MemberAcl} {member : MemberAcl} :
    (insertReader readers member).lookup pubkey =
      if isPubkey pubkey = true ∧ normalised member.pubkey = pubkey then
        some { member with pubkey := pubkey }
      else readers.lookup pubkey := by
  rw [insertReader]
  split
  next valid =>
    rw [HashMap.lookup_insert']
    by_cases same : pubkey = normalised member.pubkey
    · subst same
      rw [if_pos rfl, if_pos ⟨valid, rfl⟩]
    · rw [if_neg same, if_neg (fun both => same (Eq.symm both.2))]
  next invalid =>
    rw [if_neg]
    rintro ⟨valid, rfl⟩
    exact invalid valid

/-- The entry under a key is the last one with that key. -/
theorem lookup_foldl_insertReader (readers : HashMap Text MemberAcl) :
    (members.foldl insertReader readers).lookup pubkey =
      (((members.reverse.find? fun member => decide (normalised member.pubkey = pubkey)).filter
        fun _ => isPubkey pubkey).map fun member => { member with pubkey := pubkey }).or
          (readers.lookup pubkey) := by
  induction members using List.reverseRecOn with
  | nil => rfl
  | append_singleton members member ih =>
      rw [List.foldl_append, List.foldl_cons, List.foldl_nil, lookup_insertReader, ih,
        List.reverse_append, List.reverse_singleton, List.singleton_append]
      by_cases valid : isPubkey pubkey = true
      · by_cases same : normalised member.pubkey = pubkey
        · simp [valid, same, Option.filter]
        · simp [valid, same, Option.filter]
      · simp [valid]

def fromParts (members : List MemberAcl) (groups : List (Text × GroupAcl)) : ReadDirectory where
  readers := members.foldl insertReader ∅
  groups := groups.foldl insertGroup ∅
  keyed := by
    intro pubkey member found
    rw [lookup_foldl_insertReader, AList.lookup_empty, Option.or_none,
      Option.map_eq_some_iff] at found
    rcases found with ⟨source, found, rfl⟩
    exact ⟨rfl, (Option.filter_eq_some_iff.mp found).2⟩

/-- `ReadDirectory::default()`: nobody may read. -/
def empty : ReadDirectory := fromParts [] []

variable (directory : ReadDirectory)

def reader (pubkey : Text) : Option MemberAcl := directory.readers.lookup (normalised pubkey)

theorem pubkey_of_reader {directory : ReadDirectory} {member : MemberAcl}
    (found : directory.reader pubkey = some member) : member.pubkey = normalised pubkey :=
  (directory.keyed _ _ found).1

theorem reader_nil (directory : ReadDirectory) : directory.reader [] = none := by
  rw [Option.eq_none_iff_forall_not_mem]
  intro member found
  have valid := (directory.keyed _ _ found).2
  simp [isPubkey, normalised, Text.trim, Text.trimStart, Text.trimEnd,
    Text.toAsciiLowercase] at valid

/-- A reader is one of the loaded members, with its key in normal form. -/
theorem exists_mem_of_reader_fromParts {groups : List (Text × GroupAcl)} {member : MemberAcl}
    (found : (fromParts members groups).reader pubkey = some member) :
    ∃ loaded ∈ members, normalised loaded.pubkey = normalised pubkey ∧
      member = { loaded with pubkey := normalised pubkey } := by
  rw [reader, fromParts, lookup_foldl_insertReader, AList.lookup_empty, Option.or_none,
    Option.map_eq_some_iff] at found
  rcases found with ⟨loaded, found, rfl⟩
  have first := (Option.filter_eq_some_iff.mp found).1
  refine ⟨loaded, ?_, ?_, rfl⟩
  · exact List.mem_reverse.mp (List.mem_of_find?_eq_some first)
  · simpa using List.find?_some first

end ReadDirectory

end ScuffedCrew.RelayPolicy
