import Mathlib.Algebra.BigOperators.Group.List.Basic
import Mathlib.Algebra.Order.Ring.Nat
import Mathlib.Data.List.AList

/-!
# Hash maps

A `HashMap`, or a `DashMap`, as a list of entries with distinct keys, and the
sum of a number over its values.
-/

namespace Rust

universe u v w

abbrev HashMap (κ : Type u) (α : Type v) := AList fun _ : κ => α

namespace HashMap

variable {κ : Type u} {α : Type v}

def total (size : α → ℕ) (map : HashMap κ α) : ℕ :=
  (map.entries.map fun entry => size entry.2).sum

def len (map : HashMap κ α) : ℕ := map.entries.length

def values (map : HashMap κ α) : List α := map.entries.map Sigma.snd

/-- `retain`. -/
def retain (keep : κ → α → Bool) (map : HashMap κ α) : HashMap κ α :=
  ⟨map.entries.filter fun entry => keep entry.1 entry.2,
    map.nodupKeys.sublist List.filter_sublist⟩

/-- The map with every value changed. -/
def mapValues {β : Type w} (change : κ → α → β) (map : HashMap κ α) : HashMap κ β :=
  ⟨map.entries.map (Sigma.map id change), map.nodupKeys.map₂ _⟩

theorem len_retain_le (keep : κ → α → Bool) (map : HashMap κ α) : len (map.retain keep) ≤ len map :=
  List.length_filter_le _ _

/-- Nothing is dropped when nothing is to be dropped. -/
theorem retain_eq_self {keep : κ → α → Bool} (all : len map ≤ len (map.retain keep)) :
    map.retain keep = map := by
  have kept : map.entries.filter (fun entry => keep entry.1 entry.2) = map.entries :=
    List.filter_sublist.eq_of_length_le all
  exact AList.ext kept

/-- What the values add up to in a commutative monoid. -/
def sumOf {β : Type w} [AddCommMonoid β] (size : α → β) (map : HashMap κ α) : β :=
  (map.values.map size).sum

theorem total_eq_sumOf (size : α → ℕ) (map : HashMap κ α) : total size map = sumOf size map := by
  simp [total, sumOf, values, Function.comp_def]

theorem len_eq_total (map : HashMap κ α) : len map = total (fun _ => 1) map := by
  simp [len, total]

variable [DecidableEq κ] {map : HashMap κ α} {key : κ} {value : α} (size : α → ℕ)

section Sums

variable {β : Type w} [AddCommMonoid β] (measure : α → β)

theorem sumOf_insert :
    sumOf measure (map.insert key value) = measure value + sumOf measure (map.erase key) := by
  have erased : (map.erase key).entries = map.entries.kerase key := rfl
  simp [sumOf, values, erased]

theorem sumOf_of_lookup (found : map.lookup key = some value) :
    sumOf measure map = measure value + sumOf measure (map.erase key) := by
  rcases List.exists_of_kerase (List.mem_keys_of_mem (List.of_mem_dlookup found)) with
    ⟨other, before, after, absent, entries, erased⟩
  have same : other = value := by
    have at_key : other ∈ map.entries.dlookup key :=
      (List.mem_dlookup_iff map.nodupKeys).mpr (by simp [entries])
    exact Option.some.inj (Eq.trans (Eq.symm at_key) found)
  have rest : (map.erase key).entries = before ++ after := erased
  simp only [sumOf, values, rest, entries, same, List.map_append, List.map_cons, List.sum_append,
    List.sum_cons]
  rw [add_left_comm]

theorem sumOf_erase_of_none (absent : map.lookup key = none) :
    sumOf measure (map.erase key) = sumOf measure map := by
  have same : (map.erase key).entries = map.entries :=
    List.kerase_of_notMem_keys (AList.lookup_eq_none.mp absent)
  rw [sumOf, sumOf, values, same, values]

end Sums

theorem total_insert :
    total size (map.insert key value) = size value + total size (map.erase key) := by
  rw [total_eq_sumOf, total_eq_sumOf, sumOf_insert]

theorem total_of_lookup (found : map.lookup key = some value) :
    total size map = size value + total size (map.erase key) := by
  rw [total_eq_sumOf, total_eq_sumOf, sumOf_of_lookup size found]

theorem total_erase_of_none (absent : map.lookup key = none) :
    total size (map.erase key) = total size map := by
  rw [total_eq_sumOf, total_eq_sumOf, sumOf_erase_of_none size absent]

theorem total_insert_of_lookup {old : α} (found : map.lookup key = some old) (new : α) :
    total size (map.insert key new) + size old = total size map + size new := by
  rw [total_insert, total_of_lookup size found]
  omega

theorem total_insert_of_none (absent : map.lookup key = none) :
    total size (map.insert key value) = total size map + size value := by
  rw [total_insert, total_erase_of_none size absent]
  omega

/-- Maps that look up the same hold the same values. -/
theorem values_perm {other : HashMap κ α} (same : ∀ key, map.lookup key = other.lookup key) :
    map.values.Perm other.values := by
  apply List.Perm.map
  apply List.lookup_ext map.nodupKeys other.nodupKeys
  intro key value
  rw [show map.entries.dlookup key = other.entries.dlookup key from same key]

theorem mem_values : value ∈ map.values ↔ ∃ key, map.lookup key = some value := by
  simp only [values, List.mem_map]
  constructor
  · rintro ⟨⟨key, value⟩, entry_mem, rfl⟩
    exact ⟨key, AList.mem_lookup_iff.mpr entry_mem⟩
  · rintro ⟨key, found⟩
    exact ⟨⟨key, value⟩, AList.mem_lookup_iff.mp found, rfl⟩

theorem len_insert_of_none (absent : map.lookup key = none) :
    len (map.insert key value) = len map + 1 := by
  rw [len_eq_total, len_eq_total, total_insert_of_none _ absent]

theorem len_erase_of_lookup (found : map.lookup key = some value) :
    len (map.erase key) + 1 = len map := by
  rw [len_eq_total, len_eq_total, total_of_lookup _ found]
  omega

theorem lookup_insert' {other : κ} : (map.insert key value).lookup other =
    if other = key then some value else map.lookup other := by
  split
  next same => rw [same, AList.lookup_insert]
  next differs => rw [AList.lookup_insert_ne differs]

theorem lookup_erase' {other : κ} : (map.erase key).lookup other =
    if other = key then none else map.lookup other := by
  split
  next same => rw [same, AList.lookup_erase]
  next differs => rw [AList.lookup_erase_ne differs]

theorem lookup_mapValues {β : Type w} {change : κ → α → β} {other : κ} :
    (map.mapValues change).lookup other = (map.lookup other).map (change other) :=
  List.dlookup_map₂ other

theorem lookup_retain {keep : κ → α → Bool} {other : κ} :
    (map.retain keep).lookup other = (map.lookup other).filter (keep other) := by
  ext found
  have here := @AList.mem_lookup_iff _ _ _ other found map
  have kept := @AList.mem_lookup_iff _ _ _ other found (map.retain keep)
  rw [Option.mem_def] at here kept
  rw [kept, Option.filter_eq_some_iff, here]
  exact List.mem_filter

end HashMap

end Rust
