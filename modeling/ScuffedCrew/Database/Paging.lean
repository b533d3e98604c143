import Mathlib.Algebra.Order.Ring.Nat
import Mathlib.Data.List.Sort
import Mathlib.Order.Lattice

/-!
# Pages after a cursor

`SELECT … WHERE key < $cursor ORDER BY key DESC LIMIT $lim`, read page after
page with the key of the last row of a page as the next cursor.  The pages hold
every row exactly when no two rows with one key stand on both sides of a cut.
-/

namespace Database

universe u v

variable {α : Type u} {κ : Type v}

section Cuts

/-- No two equal keys stand on both sides of a cut after a multiple of the page size. -/
def CutsBetween (limit : ℕ) (keys : List κ) : Prop :=
  ∀ page, (page + 1) * limit < keys.length →
    keys[(page + 1) * limit - 1]? ≠ keys[(page + 1) * limit]?

variable {limit : ℕ} {keys : List κ}

theorem cutsBetween_drop (cuts : CutsBetween limit keys) : CutsBetween limit (keys.drop limit) := by
  intro page inside
  rw [List.length_drop] at inside
  have shifted : (page + 1 + 1) * limit = limit + (page + 1) * limit := by
    rw [Nat.succ_mul (page + 1) limit, Nat.add_comm]
  have differ := cuts (page + 1) (by omega)
  rw [List.getElem?_drop, List.getElem?_drop]
  have positive : 0 < (page + 1) * limit := by
    rcases limit with _ | limit
    · simp at inside
      exact absurd rfl (cuts 0 (by simpa using inside))
    · exact Nat.mul_pos (Nat.succ_pos _) (Nat.succ_pos _)
  rw [shifted, Nat.add_sub_assoc positive] at differ
  exact differ

theorem cutsBetween_of_drop (limit_pos : 0 < limit)
    (first : limit < keys.length → keys[limit - 1]? ≠ keys[limit]?)
    (rest : CutsBetween limit (keys.drop limit)) : CutsBetween limit keys := by
  intro page inside
  cases page with
  | zero =>
      rw [Nat.zero_add, Nat.one_mul] at inside ⊢
      exact first inside
  | succ page =>
      have shifted : (page + 1 + 1) * limit = limit + (page + 1) * limit := by
        rw [Nat.succ_mul (page + 1) limit, Nat.add_comm]
      have positive : 0 < (page + 1) * limit := Nat.mul_pos (Nat.succ_pos _) limit_pos
      have differ := rest page (by rw [List.length_drop]; omega)
      rw [List.getElem?_drop, List.getElem?_drop] at differ
      rw [shifted, Nat.add_sub_assoc positive]
      exact differ

end Cuts

variable [LinearOrder κ]

/-- `ORDER BY key DESC`.  In which order rows with the same key come is not said. -/
structure NewestFirst (key : α → κ) where
  order : List α → List α
  perm : ∀ rows, (order rows).Perm rows
  sorted : ∀ rows, (order rows).Pairwise fun first second => key second ≤ key first

/-- The keys of the rows, newest first. -/
def keysNewestFirst (key : α → κ) (rows : List α) : List κ :=
  (rows.map key).insertionSort (· ≥ ·)

/-- `WHERE key < $cursor`, when there is a cursor. -/
def below (key : α → κ) (before : Option κ) (rows : List α) : List α :=
  rows.filter fun row => before.all fun cursor => key row < cursor

namespace NewestFirst

variable {key : α → κ} (engine : NewestFirst key) (limit : ℕ) (rows : List α)

def page (before : Option κ) : List α :=
  (engine.order (below key before rows)).take limit

/-- The pages from a cursor on, up to the first empty one. -/
def readPages : ℕ → Option κ → Option (List α)
  | 0, _ => none
  | fuel + 1, before =>
      match (engine.page limit rows before).getLast? with
      | none => some []
      | some last =>
          (readPages fuel (some (key last))).map (engine.page limit rows before ++ ·)

end NewestFirst

/-- Rows in an order that is newest first have their keys in the order of `keysNewestFirst`. -/
theorem map_key_eq {key : α → κ} {ordered rows : List α} (perm : ordered.Perm rows)
    (sorted : ordered.Pairwise fun first second => key second ≤ key first) :
    ordered.map key = keysNewestFirst key rows := by
  have same : (ordered.map key).Perm (keysNewestFirst key rows) :=
    (perm.map key).trans (List.perm_insertionSort _ _).symm
  refine same.eq_of_pairwise (fun one other _ _ => flip le_antisymm) ?_
    (List.pairwise_insertionSort (· ≥ ·) _)
  exact List.pairwise_map.mpr sorted

section Below

variable {key : α → κ} {before : Option κ} {cursor : κ} {rows : List α} {row : α}

theorem mem_below : row ∈ below key before rows ↔ row ∈ rows ∧ ∀ cursor ∈ before, key row < cursor := by
  simp [below, Option.all_eq_true]

theorem below_some (lower : ∀ other ∈ before, cursor < other) :
    below key (some cursor) (below key before rows) = below key (some cursor) rows := by
  unfold below
  rw [List.filter_filter]
  apply List.filter_congr
  intro row row_mem
  by_cases under : key row < cursor
  · have under_all : before.all fun other => key row < other := by
      simp only [Option.all_eq_true, decide_eq_true_eq]
      intro other is_before
      exact lt_trans under (lower other is_before)
    simp [under, under_all]
  · simp [under]

end Below

namespace NewestFirst

variable {key : α → κ} (engine : NewestFirst key) {limit : ℕ} {rows : List α} {before : Option κ}

theorem mem_order {row : α} : row ∈ engine.order rows ↔ row ∈ rows := (engine.perm rows).mem_iff

/-- What the last row of a page leaves for the pages after it. -/
theorem below_last {last : α}
    (is_last : ((engine.order rows).take limit).getLast? = some last) :
    (below key (some (key last)) rows).Perm
        (below key (some (key last)) ((engine.order rows).drop limit)) ∧
      (∀ row ∈ (engine.order rows).take limit, key last ≤ key row) ∧
      ∀ row ∈ (engine.order rows).drop limit, key row ≤ key last := by
  rcases List.getLast?_eq_some_iff.mp is_last with ⟨front, taken⟩
  have sorted := engine.sorted rows
  have parts := List.take_append_drop limit (engine.order rows)
  rw [← parts, List.pairwise_append] at sorted
  rcases sorted with ⟨inside, -, across⟩
  have last_mem : last ∈ (engine.order rows).take limit := by simp [taken]
  have least : ∀ row ∈ (engine.order rows).take limit, key last ≤ key row := by
    rw [taken, List.pairwise_append] at inside
    rw [taken]
    intro row row_mem
    rcases List.mem_append.mp row_mem with earlier | is_last
    · exact inside.2.2 row earlier last (List.mem_singleton_self _)
    · rw [List.mem_singleton.mp is_last]
  refine ⟨?_, least, fun row row_mem => across last last_mem row row_mem⟩
  have ordered : (below key (some (key last)) rows).Perm
      (below key (some (key last)) (engine.order rows)) := (engine.perm rows).symm.filter _
  refine ordered.trans ?_
  rw [← parts, below, List.filter_append, List.filter_eq_nil_iff.mpr, List.nil_append, parts]
  · rfl
  · intro row row_mem
    simpa using least row row_mem

/-- No row is left out where the keys on the two sides of the cut differ. -/
theorem length_below_last {last : α}
    (is_last : ((engine.order rows).take limit).getLast? = some last) :
    (below key (some (key last)) rows).length = ((engine.order rows).drop limit).length ↔
      (limit < rows.length →
        (keysNewestFirst key rows)[limit - 1]? ≠ (keysNewestFirst key rows)[limit]?) := by
  rcases engine.below_last is_last with ⟨left, -, under⟩
  have sorted := (engine.sorted rows).drop (i := limit)
  rw [left.length_eq, below, List.length_filter_eq_length_iff,
    ← map_key_eq (engine.perm rows) (engine.sorted rows), ← (engine.perm rows).length_eq,
    List.getElem?_map, List.getElem?_map]
  rw [List.getLast?_take] at is_last
  split at is_last
  next => cases is_last
  next =>
  by_cases inside : limit < (engine.order rows).length
  · have before_cut : (engine.order rows)[limit - 1]? = some last := by
      rw [List.getElem?_eq_getElem (by omega)] at is_last ⊢
      simpa using is_last
    rw [List.drop_eq_getElem_cons inside] at under sorted ⊢
    rw [before_cut, List.getElem?_eq_getElem inside]
    generalize (engine.order rows)[limit] = first at under sorted
    simp only [Option.map_some, ne_eq, Option.some.injEq, inside, true_imp_iff]
    constructor
    · intro lower same
      have lower_first : key first < key last := by simpa using lower first (by simp)
      exact absurd same.symm (ne_of_lt lower_first)
    · intro differ row row_mem
      have lower_first : key first < key last :=
        lt_of_le_of_ne (under first (by simp)) (Ne.symm differ)
      rcases List.mem_cons.mp row_mem with rfl | later
      · simpa using lower_first
      · simpa using lt_of_le_of_lt ((List.pairwise_cons.mp sorted).1 row later) lower_first
  · rw [List.drop_eq_nil_of_le (by omega)]
    simp [inside]

/-- The rows after a cut that leaves none out. -/
theorem perm_drop {last : α}
    (is_last : ((engine.order rows).take limit).getLast? = some last)
    (whole : (below key (some (key last)) rows).length = ((engine.order rows).drop limit).length) :
    (below key (some (key last)) rows).Perm ((engine.order rows).drop limit) := by
  have left := (engine.below_last is_last).1
  have same : (below key (some (key last)) ((engine.order rows).drop limit)) =
      (engine.order rows).drop limit := by
    apply List.Sublist.eq_of_length List.filter_sublist
    rw [← whole, left.length_eq]
    rfl
  rwa [same] at left

theorem keysNewestFirst_below {last : α}
    (is_last : ((engine.order rows).take limit).getLast? = some last)
    (whole : (below key (some (key last)) rows).length = ((engine.order rows).drop limit).length) :
    keysNewestFirst key (below key (some (key last)) rows) =
      (keysNewestFirst key rows).drop limit := by
  rw [← map_key_eq (engine.perm_drop is_last whole).symm (engine.sorted rows).drop, List.map_drop,
    map_key_eq (engine.perm rows) (engine.sorted rows)]

/-- A page and what the pages after it read is every row if and only if no row is left out at the
cut and the later pages read the rest. -/
theorem perm_page_append {last : α} {read : List α}
    (is_last : ((engine.order rows).take limit).getLast? = some last)
    (later : read.Subperm (below key (some (key last)) rows)) :
    ((engine.order rows).take limit ++ read).Perm rows ↔
      (below key (some (key last)) rows).length = ((engine.order rows).drop limit).length ∧
        read.Perm (below key (some (key last)) rows) := by
  have left := (engine.below_last is_last).1
  have parts := List.take_append_drop limit (engine.order rows)
  have fewer : (below key (some (key last)) rows).length ≤
      ((engine.order rows).drop limit).length := by
    rw [left.length_eq]
    exact List.length_filter_le _ _
  constructor
  · intro perm
    have lengths := perm.length_eq
    rw [← (engine.perm rows).length_eq, ← parts, List.length_append, List.length_append,
      parts] at lengths
    have some_left := later.length_le
    exact ⟨by omega, later.perm_of_length_le (by omega)⟩
  · rintro ⟨whole, perm⟩
    refine ((perm.trans (engine.perm_drop is_last whole)).append_left _).trans ?_
    rw [parts]
    exact engine.perm rows

/-- Page after page, every row is read if and only if no cut parts two rows with one key. -/
theorem readPages_spec (limit_pos : 0 < limit) {fuel : ℕ}
    (enough : (below key before rows).length < fuel) :
    ∃ read, engine.readPages limit rows fuel before = some read ∧
      read.Pairwise (fun first second => key second ≤ key first) ∧
      read.Subperm (below key before rows) ∧
      (read.Perm (below key before rows) ↔
        CutsBetween limit (keysNewestFirst key (below key before rows))) := by
  induction fuel generalizing before with
  | zero => cases enough
  | succ fuel ih =>
      cases is_last : (engine.page limit rows before).getLast? with
      | none =>
          have none_selected : below key before rows = [] := by
            rw [List.getLast?_eq_none_iff, page, List.take_eq_nil_iff] at is_last
            rcases is_last with zero | empty
            · omega
            · exact List.nil_perm.mp (empty ▸ engine.perm _)
          refine ⟨[], by simp [readPages, is_last], List.Pairwise.nil, List.nil_subperm, ?_⟩
          simp [none_selected, keysNewestFirst, CutsBetween]
      | some last =>
          have last_mem : last ∈ below key before rows :=
            engine.mem_order.mp (List.mem_of_mem_take (List.mem_of_getLast? is_last))
          have later : below key (some (key last)) (below key before rows) =
              below key (some (key last)) rows := below_some (mem_below.mp last_mem).2
          have fewer : (below key (some (key last)) (below key before rows)).length <
              (below key before rows).length := by
            apply List.length_filter_lt_length_iff_exists.mpr
            exact ⟨last, last_mem, by simp⟩
          rw [later] at fewer
          rcases @ih (some (key last)) (by omega) with ⟨read, rest_read, sorted, some_rows, whole⟩
          rw [← later] at some_rows whole
          rcases engine.below_last is_last with ⟨left, least, -⟩
          refine ⟨engine.page limit rows before ++ read, ?_, ?_, ?_, ?_⟩
          · simp [readPages, is_last, rest_read]
          · refine List.pairwise_append.mpr ⟨(engine.sorted _).take, sorted, ?_⟩
            intro row row_mem other other_mem
            have lower := (mem_below.mp (some_rows.subset other_mem)).2 _ rfl
            exact le_of_lt (lt_of_lt_of_le lower (least row row_mem))
          · have pages : (engine.page limit rows before ++ read).Subperm
                (engine.order (below key before rows)) := by
              rw [← List.take_append_drop limit (engine.order (below key before rows))]
              refine (List.subperm_append_left _).mpr (some_rows.trans ?_)
              exact (left.subperm).trans (List.filter_sublist.subperm)
            exact pages.trans (engine.perm _).subperm
          · rw [page, engine.perm_page_append is_last some_rows, whole]
            constructor
            · rintro ⟨none_left_out, cuts⟩
              rw [engine.keysNewestFirst_below is_last none_left_out] at cuts
              exact cutsBetween_of_drop limit_pos
                ((engine.length_below_last is_last).mp none_left_out ∘ by
                  simp [keysNewestFirst]) cuts
            · intro cuts
              have none_left_out := (engine.length_below_last is_last).mpr (by
                intro inside
                simpa using cuts 0 (by simpa [keysNewestFirst] using inside))
              rw [engine.keysNewestFirst_below is_last none_left_out]
              exact ⟨none_left_out, cutsBetween_drop cuts⟩

end NewestFirst

end Database
