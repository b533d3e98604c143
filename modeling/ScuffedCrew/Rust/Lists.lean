import Mathlib.Data.List.Forall2
import Mathlib.Data.List.Sort

/-!
# Sorting by a comparator

`sort_by` with a comparator that chains several comparisons.  When items that
compare as equal are equal, the order they come in is of no account.
-/

namespace Rust

universe u v

variable {α : Type u}

/-- `sort_by`: stable, and an item stays before one it does not compare as greater than. -/
def sortBy (cmp : α → α → Ordering) (items : List α) : List α :=
  items.insertionSort fun first second => (cmp first second).isLE = true

/-- The greater key first. -/
def descending {κ : Type v} [Ord κ] (key : α → κ) (first second : α) : Ordering :=
  compare (key second) (key first)

instance transCmp_descending {κ : Type v} [Ord κ] [Std.TransOrd κ] (key : α → κ) :
    Std.TransCmp (descending key) :=
  inferInstanceAs (Std.TransCmp fun first second => compareOn key second first)

section SortBy

variable {cmp : α → α → Ordering} {items others : List α}

theorem sortBy_perm : (sortBy cmp items).Perm items := List.perm_insertionSort _ items

theorem pairwise_sortBy [Std.TransCmp cmp] :
    (sortBy cmp items).Pairwise fun first second => (cmp first second).isLE = true := by
  have total : Std.Total fun first second => (cmp first second).isLE = true := by
    constructor
    intro first second
    rcases greater : cmp first second with _ | _ | _
    · exact .inl rfl
    · exact .inl rfl
    · right
      rw [@Std.OrientedCmp.eq_swap _ cmp _ second first, greater]
      rfl
  have trans : IsTrans α fun first second => (cmp first second).isLE = true :=
    ⟨fun _ _ _ => Std.TransCmp.isLE_trans⟩
  exact List.pairwise_insertionSort _ items

theorem sortBy_eq_of_perm [Std.TransCmp cmp] (perm : items.Perm others)
    (distinct : ∀ first ∈ items, ∀ second ∈ items, cmp first second = .eq → first = second) :
    sortBy cmp items = sortBy cmp others := by
  have same : (sortBy cmp items).Perm (sortBy cmp others) :=
    sortBy_perm.trans (perm.trans sortBy_perm.symm)
  refine same.eq_of_pairwise ?_ pairwise_sortBy pairwise_sortBy
  intro first second first_mem second_mem before after
  refine distinct first (sortBy_perm.mem_iff.mp first_mem) second
    (perm.mem_iff.mpr (sortBy_perm.mem_iff.mp second_mem)) ?_
  rw [@Std.OrientedCmp.eq_swap _ cmp _ second first] at after
  rcases greater : cmp first second with _ | _ | _ <;> simp [greater] at before after ⊢

end SortBy

end Rust

/-!
## Collecting results

`collect::<Result<Vec<_>, _>>()` runs over its items in order and stops at the
first error.
-/

namespace Rust

universe u v w

variable {α : Type u} {β : Type v} {ε : Type w} {f : α → Except ε β} {items : List α} {values : List β}

theorem collect_eq_ok : items.mapM f = .ok values ↔
    List.Forall₂ (fun item value => f item = .ok value) items values := by
  induction items generalizing values with
  | nil => cases values <;> simp [pure, Except.pure]
  | cons item items ih =>
      rw [List.mapM_cons, List.forall₂_cons_left_iff]
      cases first : f item with
      | error error => simp [bind, Except.bind]
      | ok value =>
          cases rest : items.mapM f with
          | error error =>
              simp only [bind, Except.bind, reduceCtorEq, Except.ok.injEq, false_iff]
              rintro ⟨other, later, -, collected, -⟩
              rw [← ih, rest] at collected
              cases collected
          | ok later =>
              simp only [bind, Except.bind, pure, Except.pure, Except.ok.injEq]
              constructor
              · rintro rfl
                exact ⟨value, later, rfl, ih.mp rest, rfl⟩
              · rintro ⟨other, others, rfl, collected, rfl⟩
                rw [← ih, rest, Except.ok.injEq] at collected
                rw [collected]

theorem collect_append {before after : List α} : (before ++ after).mapM f =
    (before.mapM f).bind fun values => (after.mapM f).map (values ++ ·) := by
  rw [List.mapM_append]
  cases before.mapM f with
  | error error => rfl
  | ok values => cases after.mapM f <;> rfl

end Rust
