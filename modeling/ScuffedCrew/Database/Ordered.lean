import Mathlib.Data.List.Basic
import Mathlib.Order.Basic
import Mathlib.Order.Defs.LinearOrder
import Mathlib.Order.Lattice
import ScuffedCrew.Database.Table

/-!
# Tables in the order of their keys

The rows of a table in the order in which `ORDER BY id` gives them.  What a
statement does to the table is said by the value it leaves under each key.
-/

namespace Database

universe u v

structure Ordered (κ : Type u) (α : Type v) [LinearOrder κ] where
  rows : List (κ × α)
  sorted : rows.Pairwise fun first second => first.1 < second.1

namespace Ordered

variable {κ : Type u} {α : Type v} [LinearOrder κ]

def get? (table : Ordered κ α) (key : κ) : Option α :=
  (table.rows.find? fun row => row.1 = key).map Prod.snd

/-- `UPSERT $rid`. -/
def upsert (table : Ordered κ α) (key : κ) (value : α) : Ordered κ α where
  rows := table.rows.filter (fun row => row.1 < key) ++
    (key, value) :: table.rows.filter (fun row => key < row.1)
  sorted := by
    rw [List.pairwise_append]
    refine ⟨table.sorted.filter _, List.pairwise_cons.mpr ⟨?_, table.sorted.filter _⟩, ?_⟩
    · intro row row_mem
      simpa using (List.mem_filter.mp row_mem).2
    · intro row row_mem other other_mem
      have below : row.1 < key := by simpa using (List.mem_filter.mp row_mem).2
      rcases List.mem_cons.mp other_mem with rfl | other_mem
      · exact below
      · exact lt_trans below (by simpa using (List.mem_filter.mp other_mem).2)

/-- `UPDATE $rid`. -/
def update (table : Ordered κ α) (key : κ) (change : α → α) : Ordered κ α where
  rows := table.rows.map fun row => if row.1 = key then (row.1, change row.2) else row
  sorted := by
    rw [List.pairwise_map]
    refine table.sorted.imp ?_
    intro first second before
    split <;> split <;> exact before

/-- `DELETE … WHERE`. -/
def deleteWhere (table : Ordered κ α) (selected : κ → α → Bool) : Ordered κ α where
  rows := table.rows.filter fun row => !selected row.1 row.2
  sorted := table.sorted.filter _

/-- `DELETE $rid`. -/
def erase (table : Ordered κ α) (key : κ) : Ordered κ α :=
  table.deleteWhere fun other _ => other = key

variable {table : Ordered κ α} {key other : κ} {value new : α} {row : κ × α}

theorem key_inj {first second : κ × α} (first_mem : first ∈ table.rows)
    (second_mem : second ∈ table.rows) (same : first.1 = second.1) : first = second := by
  by_contra differs
  rcases List.getElem_of_mem first_mem with ⟨i, inside, rfl⟩
  rcases List.getElem_of_mem second_mem with ⟨j, inside', rfl⟩
  rcases Nat.lt_trichotomy i j with before | rfl | after
  · exact absurd same
      (ne_of_lt (List.pairwise_iff_getElem.mp table.sorted i j inside inside' before))
  · exact differs rfl
  · exact absurd same.symm
      (ne_of_lt (List.pairwise_iff_getElem.mp table.sorted j i inside' inside after))

theorem nodup_keys : (table.rows.map Prod.fst).Nodup :=
  List.pairwise_map.mpr (table.sorted.imp ne_of_lt)

theorem mem_rows_iff : (key, value) ∈ table.rows ↔ table.get? key = some value := by
  unfold get?
  constructor
  · intro row_mem
    cases found : table.rows.find? fun row => row.1 = key with
    | none =>
        have unmatched := List.find?_eq_none.mp found _ row_mem
        simp at unmatched
    | some row =>
        have same_key : row.1 = key := by simpa using List.find?_some found
        rw [key_inj (List.mem_of_find?_eq_some found) row_mem same_key]
        rfl
  · intro found
    rcases Option.map_eq_some_iff.mp found with ⟨row, at_row, rfl⟩
    have same_key : row.1 = key := by simpa using List.find?_some at_row
    rw [← same_key]
    exact List.mem_of_find?_eq_some at_row

theorem get?_upsert :
    (table.upsert key new).get? other = if other = key then some new else table.get? other := by
  ext value
  rw [← mem_rows_iff]
  simp only [upsert, List.mem_append, List.mem_filter, List.mem_cons, Prod.mk.injEq,
    decide_eq_true_eq, mem_rows_iff]
  by_cases same : other = key
  · simp only [same, lt_irrefl, and_false, false_or, or_false, true_and, if_true,
      Option.some.injEq]
    exact eq_comm
  · rcases lt_or_gt_of_ne same with before | after
    · simp [same, before, not_lt_of_gt before]
    · simp [same, after, not_lt_of_gt after]

theorem get?_update {change : α → α} : (table.update key change).get? other =
    if other = key then (table.get? other).map change else table.get? other := by
  ext value
  rw [← mem_rows_iff]
  simp only [update, List.mem_map, Prod.exists]
  constructor
  · rintro ⟨key', old, row_mem, same⟩
    rw [mem_rows_iff] at row_mem
    split at same
    next is_key =>
      rcases Prod.mk.inj same with ⟨rfl, rfl⟩
      rw [if_pos is_key, row_mem]
      rfl
    next not_key =>
      rcases Prod.mk.inj same with ⟨rfl, rfl⟩
      rw [if_neg not_key]
      exact row_mem
  · intro found
    split at found
    next is_key =>
      rcases Option.map_eq_some_iff.mp found with ⟨old, at_other, rfl⟩
      exact ⟨other, old, mem_rows_iff.mpr at_other, by rw [if_pos is_key]⟩
    next not_key => exact ⟨other, value, mem_rows_iff.mpr found, by rw [if_neg not_key]⟩

theorem get?_deleteWhere {selected : κ → α → Bool} :
    (table.deleteWhere selected).get? key =
      (table.get? key).filter fun value => !selected key value := by
  ext value
  rw [← mem_rows_iff, Option.filter_eq_some_iff]
  simp only [deleteWhere, List.mem_filter, mem_rows_iff]

theorem get?_erase : (table.erase key).get? other =
    if other = key then none else table.get? other := by
  rw [erase, get?_deleteWhere]
  by_cases same : other = key
  · simp [same]
  · cases table.get? other <;> simp [same]

theorem length_erase_lt (found : table.get? key = some value) :
    (table.erase key).rows.length < table.rows.length := by
  apply List.length_filter_lt_length_iff_exists.mpr
  exact ⟨_, mem_rows_iff.mpr found, by simp⟩

theorem length_upsert_le : (table.upsert key new).rows.length ≤ table.rows.length + 1 := by
  have above : table.rows.countP (fun row => key < row.1) ≤
      table.rows.countP fun row => ¬row.1 < key := by
    apply List.countP_mono_left
    intro row _ later
    have after : key < row.1 := by simpa using later
    simpa using le_of_lt after
  have split := List.length_eq_countP_add_countP (fun row => decide (row.1 < key)) (l := table.rows)
  simp only [decide_eq_true_eq] at split
  simp only [upsert, List.length_append, List.length_cons, ← List.countP_eq_length_filter]
  omega

end Ordered

end Database
