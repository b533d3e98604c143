import Mathlib.Data.List.Basic
import Mathlib.Data.List.Nodup
import Mathlib.Logic.Function.Basic

/-!
# Tables with a unique index

No two rows of the table have the same key.  A `CREATE` whose key is taken is
refused, and a `DELETE` takes out the rows it selects.
-/

namespace Database

universe u v

structure Indexed {κ : Type u} {α : Type v} (key : α → κ) where
  rows : List α
  unique : (rows.map key).Nodup

namespace Indexed

variable {κ : Type u} {α : Type v} {key : α → κ}

def deleteWhere (table : Indexed key) (selected : α → Bool) : Indexed key where
  rows := table.rows.filter fun row => !selected row
  unique := table.unique.sublist (List.filter_sublist.map _)

/-- `CREATE`, or nothing when the index holds the key. -/
def create [DecidableEq κ] (table : Indexed key) (row : α) : Option (Indexed key) :=
  if taken : key row ∈ table.rows.map key then none
  else
    some {
      rows := table.rows ++ [row]
      unique := by
        rw [List.map_append, List.nodup_append]
        refine ⟨table.unique, by simp, ?_⟩
        intro one one_mem other other_mem same
        rcases List.mem_singleton.mp other_mem with rfl
        exact taken (same ▸ one_mem) }

variable {table after : Indexed key} {row new : α} {selected : α → Bool}

@[simp]
theorem mem_deleteWhere :
    row ∈ (table.deleteWhere selected).rows ↔ row ∈ table.rows ∧ selected row = false := by
  simp [deleteWhere]

theorem eq_of_key_eq {other : α} (row_mem : row ∈ table.rows) (other_mem : other ∈ table.rows)
    (same : key row = key other) : row = other :=
  List.inj_on_of_nodup_map table.unique row_mem other_mem same

variable [DecidableEq κ]

theorem rows_create (created : table.create new = some after) :
    after.rows = table.rows ++ [new] := by
  rw [create] at created
  split at created
  next => cases created
  next =>
    rcases Option.some.inj created with rfl
    rfl

theorem mem_create (created : table.create new = some after) :
    row ∈ after.rows ↔ row ∈ table.rows ∨ row = new := by
  simp [rows_create created]

theorem create_eq_none : table.create new = none ↔ ∃ row ∈ table.rows, key row = key new := by
  rw [create]
  split
  next taken => simpa using taken
  next free => simpa using free

end Indexed

end Database

/-!
## Tables selected by a key

The records of a table under given keys.  A write replaces one record and
leaves every other record and the keys alone.
-/

namespace Database

universe u v

/-- The value of a key that is not in the table is not looked at. -/
structure Keyed (κ : Type u) (α : Type v) where
  keys : List κ
  row : κ → α

namespace Keyed

variable {κ : Type u} {α : Type v} [DecidableEq κ] {table : Keyed κ α} {key other : κ} {value : α}

/-- `SELECT`. -/
def select (table : Keyed κ α) (key : κ) : Option α :=
  if key ∈ table.keys then some (table.row key) else none

/-- `UPDATE … CONTENT` of a stored record. -/
def replace (table : Keyed κ α) (key : κ) (value : α) : Keyed κ α :=
  { table with row := Function.update table.row key value }

def values (table : Keyed κ α) : List α := table.keys.map table.row

theorem select_eq_some : table.select key = some value ↔ key ∈ table.keys ∧ table.row key = value := by
  unfold select
  split
  next stored => simp [stored]
  next absent => simp [absent]

@[simp]
theorem keys_replace : (table.replace key value).keys = table.keys := rfl

@[simp]
theorem row_replace_self : (table.replace key value).row key = value := by
  simp [replace]

theorem row_replace : (table.replace key value).row other =
    if other = key then value else table.row other := by
  simp only [replace, Function.update_apply]

end Keyed

end Database
