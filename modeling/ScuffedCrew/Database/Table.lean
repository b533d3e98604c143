import Mathlib.Data.List.Nodup

/-!
# Tables with generated record ids

A table gives every record it creates an id it never gave before.  The ids of
its records are therefore distinct, so what a statement does to a table is
said by the value it leaves under each id.
-/

namespace Database

universe u

structure Record (α : Type u) where
  id : ℕ
  value : α
  deriving DecidableEq, Repr

structure Table (α : Type u) where
  rows : List (Record α)
  nextId : ℕ
  fresh : ∀ row ∈ rows, row.id < nextId
  distinct : (rows.map Record.id).Nodup

namespace Table

variable {α : Type u}

def empty : Table α where
  rows := []
  nextId := 0
  fresh := by simp
  distinct := List.nodup_nil

/-- `CREATE`: the value under a new id. -/
def create (table : Table α) (value : α) : Table α where
  rows := table.rows ++ [⟨table.nextId, value⟩]
  nextId := table.nextId + 1
  fresh := by
    intro row row_mem
    rcases List.mem_append.mp row_mem with old | new
    · exact Nat.lt_succ_of_lt (table.fresh row old)
    · rcases List.mem_singleton.mp new with rfl
      exact Nat.lt_succ_self _
  distinct := by
    rw [List.map_append, List.nodup_append]
    refine ⟨table.distinct, by simp, ?_⟩
    intro id id_mem other other_mem same
    rcases List.mem_map.mp id_mem with ⟨row, row_mem, rfl⟩
    rcases List.mem_singleton.mp other_mem with rfl
    exact Nat.ne_of_lt (table.fresh row row_mem) same

/-- `UPDATE … WHERE`. -/
def updateWhere (table : Table α) (selected : Record α → Bool) (change : α → α) : Table α where
  rows := table.rows.map fun row =>
    if selected row then { row with value := change row.value } else row
  nextId := table.nextId
  fresh := by
    intro row row_mem
    rcases List.mem_map.mp row_mem with ⟨old, old_mem, rfl⟩
    split <;> exact table.fresh old old_mem
  distinct := by
    have same_ids : (Record.id ∘ fun row : Record α =>
        if selected row then { row with value := change row.value } else row) = Record.id := by
      funext row
      simp only [Function.comp_apply]
      split <;> rfl
    rw [List.map_map, same_ids]
    exact table.distinct

/-- `UPDATE $id`. -/
def update (table : Table α) (id : ℕ) (change : α → α) : Table α :=
  table.updateWhere (fun row => row.id == id) change

/-- `DELETE … WHERE`. -/
def deleteWhere (table : Table α) (selected : Record α → Bool) : Table α where
  rows := table.rows.filter fun row => !selected row
  nextId := table.nextId
  fresh := fun row row_mem => table.fresh row (List.mem_of_mem_filter row_mem)
  distinct := table.distinct.sublist (List.filter_sublist.map _)

/-- `UPSERT … WHERE`: the value in every selected record, or in a new one when there is none. -/
def upsertWhere (table : Table α) (selected : Record α → Bool) (value : α) : Table α :=
  if table.rows.any selected then table.updateWhere selected fun _ => value
  else table.create value

def get? (table : Table α) (id : ℕ) : Option α :=
  (table.rows.find? fun row => row.id == id).map Record.value

variable {table : Table α} {id : ℕ} {value : α} {row : Record α} {selected : Record α → Bool}
  {change : α → α}

theorem mem_rows_iff : row ∈ table.rows ↔ table.get? row.id = some row.value := by
  unfold get?
  constructor
  · intro row_mem
    cases found : table.rows.find? fun other => other.id == row.id with
    | none =>
        have unmatched := List.find?_eq_none.mp found row row_mem
        simp at unmatched
    | some other =>
        have same_id : other.id = row.id := by simpa using List.find?_some found
        have other_mem := List.mem_of_find?_eq_some found
        rw [List.inj_on_of_nodup_map table.distinct other_mem row_mem same_id]
        rfl
  · intro found
    rcases Option.map_eq_some_iff.mp found with ⟨other, found, same_value⟩
    have same_id : other.id = row.id := by simpa using List.find?_some found
    have same : other = row := by
      cases other
      cases row
      simp_all
    rw [← same]
    exact List.mem_of_find?_eq_some found

theorem get?_eq_some_iff : table.get? id = some value ↔ ⟨id, value⟩ ∈ table.rows :=
  (@mem_rows_iff α table ⟨id, value⟩).symm

theorem lt_nextId_of_get? (found : table.get? id = some value) : id < table.nextId :=
  table.fresh _ (get?_eq_some_iff.mp found)

theorem get?_nextId : table.get? table.nextId = none := by
  cases found : table.get? table.nextId with
  | none => rfl
  | some value => exact absurd (lt_nextId_of_get? found) (Nat.lt_irrefl _)

theorem get?_create {other : ℕ} :
    (table.create value).get? other =
      if other = table.nextId then some value else table.get? other := by
  unfold get? create
  rw [List.find?_append]
  split
  next same =>
    rw [same]
    have absent := table.get?_nextId
    unfold get? at absent
    rw [Option.map_eq_none_iff.mp absent]
    simp
  next differs =>
    have last : [(⟨table.nextId, value⟩ : Record α)].find? (fun row => row.id == other) = none := by
      simpa using fun same => differs (Eq.symm same)
    rw [last, Option.or_none]

theorem get?_updateWhere :
    (table.updateWhere selected change).get? id =
      (table.get? id).map fun value => if selected ⟨id, value⟩ then change value else value := by
  ext result
  rw [get?_eq_some_iff, Option.map_eq_some_iff]
  constructor
  · intro result_mem
    rcases List.mem_map.mp result_mem with ⟨row, row_mem, same⟩
    refine ⟨row.value, ?_, ?_⟩
    · have same_id : row.id = id := by
        split at same <;> exact congrArg Record.id same
      rw [← same_id]
      exact mem_rows_iff.mp row_mem
    · rcases row with ⟨rowId, value⟩
      split at same
      next chosen =>
        rcases Record.mk.inj same with ⟨rfl, rfl⟩
        exact if_pos chosen
      next kept =>
        rcases Record.mk.inj same with ⟨rfl, rfl⟩
        exact if_neg kept
  · rintro ⟨value, found, rfl⟩
    refine List.mem_map.mpr ⟨⟨id, value⟩, get?_eq_some_iff.mp found, ?_⟩
    split <;> rfl

theorem get?_update {other : ℕ} :
    (table.update id change).get? other =
      if other = id then (table.get? other).map change else table.get? other := by
  unfold update
  rw [get?_updateWhere]
  by_cases same : other = id <;> simp [same]

theorem get?_of_update {other : ℕ} (found : (table.update id change).get? other = some value) :
    ∃ old, table.get? other = some old ∧ (id = other ∧ value = change old ∨ value = old) := by
  rw [get?_update] at found
  split at found
  next same =>
    rcases Option.map_eq_some_iff.mp found with ⟨old, old_found, rfl⟩
    exact ⟨old, old_found, .inl ⟨same.symm, rfl⟩⟩
  next => exact ⟨value, found, .inr rfl⟩

theorem get?_deleteWhere :
    (table.deleteWhere selected).get? id =
      (table.get? id).filter fun value => !selected ⟨id, value⟩ := by
  ext result
  rw [get?_eq_some_iff, Option.filter_eq_some_iff, get?_eq_some_iff]
  exact List.mem_filter

theorem get?_of_upsertWhere {new : α}
    (found : (table.upsertWhere selected new).get? id = some value) :
    (∃ old, table.get? id = some old ∧ (selected ⟨id, old⟩ = true ∧ value = new ∨ value = old)) ∨
      table.rows.any selected = false ∧ value = new := by
  unfold upsertWhere at found
  split at found
  next =>
    rw [get?_updateWhere] at found
    rcases Option.map_eq_some_iff.mp found with ⟨old, old_found, rfl⟩
    refine .inl ⟨old, old_found, ?_⟩
    split
    next chosen => exact .inl ⟨chosen, rfl⟩
    next => exact .inr rfl
  next unselected =>
    rw [get?_create] at found
    split at found
    next => exact .inr ⟨Bool.eq_false_iff.mpr unselected, (Option.some.inj found).symm⟩
    next => exact .inl ⟨value, found, .inr rfl⟩

theorem get?_of_deleteWhere (found : (table.deleteWhere selected).get? id = some value) :
    table.get? id = some value := by
  rw [get?_deleteWhere] at found
  exact (Option.filter_eq_some_iff.mp found).1

end Table

end Database
