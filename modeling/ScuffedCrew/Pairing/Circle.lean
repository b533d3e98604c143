import Mathlib.Data.List.Basic
import Mathlib.Data.List.Nodup
import Mathlib.Data.Nat.Notation
import Mathlib.Logic.Function.Iterate

/-!
# The circle method

The first slot stays, the others go on by one place from round to round, and the
slots meet that lie as far from the one end as from the other.  With an even
number of slots any two meet in exactly one round.
-/

namespace Pairing

/-! ## Seats -/

/-- Who sits at place `j` in a round, named by the place of the round `0`; the places are `0..m`. -/
def seat (m round j : ℕ) : ℕ :=
  if j = 0 then 0 else if round < j then j - round else j + m - round

/-- Those who sit at `p` and `q` in the round `0` are opposite in this one. -/
def Meet (m round p q : ℕ) : Prop := ∃ j ≤ m, seat m round j = p ∧ seat m round (m - j) = q

section seats

variable {m round round' j j' p q : ℕ}

@[simp]
theorem seat_first (m round : ℕ) : seat m round 0 = 0 := rfl

theorem seat_spec (m round : ℕ) (later : j ≠ 0) :
    round < j ∧ seat m round j + round = j ∨ j ≤ round ∧ seat m round j = j + m - round := by
  unfold seat
  rw [if_neg later]
  split <;> omega

theorem seat_le (inside : j ≤ m) : seat m round j ≤ m := by
  by_cases first : j = 0
  · simp [first]
  · have := seat_spec m round first
    omega

theorem seat_inj (early : round < m) (inside : j ≤ m) (inside' : j' ≤ m)
    (same : seat m round j = seat m round j') : j = j' := by
  by_cases first : j = 0
  · by_cases first' : j' = 0
    · omega
    · have := seat_spec m round first'
      subst first
      rw [seat_first] at same
      omega
  · have := seat_spec m round first
    by_cases first' : j' = 0
    · subst first'
      rw [seat_first] at same
      omega
    · have := seat_spec m round first'
      omega

theorem exists_seat (early : round < m) (inside : p ≤ m) : ∃ j ≤ m, seat m round j = p := by
  by_cases first : p = 0
  · exact ⟨0, Nat.zero_le m, first.symm⟩
  · by_cases low : p + round ≤ m
    · refine ⟨p + round, low, ?_⟩
      have := @seat_spec (p + round) m round (by omega)
      omega
    · refine ⟨p + round - m, by omega, ?_⟩
      have := @seat_spec (p + round - m) m round (by omega)
      omega

/-- The next round. -/
theorem seat_succ (early : round < m) (j : ℕ) (inside : j ≤ m) (later : j ≠ 0) :
    seat m (round + 1) j = seat m round (if j = 1 then m else j - 1) := by
  have now := seat_spec m (round + 1) later
  split
  next first =>
    have before := @seat_spec m m round (by omega)
    omega
  next second =>
    have before := @seat_spec (j - 1) m round (by omega)
    omega

theorem Meet.symm (meet : Meet m round p q) : Meet m round q p := by
  rcases meet with ⟨j, inside, rfl, rfl⟩
  exact ⟨m - j, by omega, rfl, by rw [Nat.sub_sub_self inside]⟩

theorem Meet.distinct (odd : m % 2 = 1) (early : round < m) (meet : Meet m round p q) : p ≠ q := by
  rcases meet with ⟨j, inside, rfl, rfl⟩
  intro same
  have := seat_inj early inside (Nat.sub_le m j) same
  omega

theorem Meet.opponent_unique {q' : ℕ} (early : round < m) (meet : Meet m round p q)
    (meet' : Meet m round p q') : q = q' := by
  rcases meet with ⟨j, inside, rfl, rfl⟩
  rcases meet' with ⟨j', inside', same, rfl⟩
  rw [seat_inj early inside' inside same]

/-- Where two meet, their places and twice the round add up to a multiple of `m`.  The first
slot counts for the one that it meets. -/
theorem Meet.sum (distinct : p ≠ q) (meet : Meet m round p q) (early : round < m) :
    let total := 2 * round + (if p = 0 then q else p) + (if q = 0 then p else q)
    total = m ∨ total = 2 * m ∨ total = 3 * m := by
  rcases meet with ⟨j, inside, rfl, rfl⟩
  by_cases first : j = 0
  · subst first
    have := @seat_spec (m - 0) m round (by omega)
    rw [seat_first] at distinct ⊢
    rw [if_pos rfl, if_neg (by omega)]
    intro total
    omega
  · have := seat_spec m round first
    rw [if_neg (by omega)]
    by_cases last : m - j = 0
    · rw [last, seat_first, if_pos rfl]
      intro total
      omega
    · have := seat_spec m round last
      rw [if_neg (by omega)]
      intro total
      omega

/-- Two meet in one round at most. -/
theorem Meet.round_unique (odd : m % 2 = 1) (distinct : p ≠ q) (early : round < m)
    (early' : round' < m) (meet : Meet m round p q) (meet' : Meet m round' p q) :
    round = round' := by
  have sum := meet.sum distinct early
  have sum' := meet'.sum distinct early'
  simp only at sum sum'
  omega

theorem meet_of_sum (early : round < m) (later : p ≠ 0) (later' : q ≠ 0) (inside : p ≤ m)
    (inside' : q ≤ m) (distinct : p ≠ q) {k : ℕ} (sum : 2 * round + p + q = k)
    (multiple : k = m ∨ k = 2 * m ∨ k = 3 * m) : Meet m round p q := by
  rcases exists_seat early inside with ⟨j, at_place, rfl⟩
  refine ⟨j, at_place, rfl, ?_⟩
  have first : j ≠ 0 := by
    rintro rfl
    exact later rfl
  have here := seat_spec m round first
  have opposite : m - j ≠ 0 := by omega
  have there := seat_spec m round opposite
  omega

theorem exists_meet (odd : m % 2 = 1) (inside : p ≤ m) (inside' : q ≤ m) (distinct : p ≠ q) :
    ∃ round < m, Meet m round p q := by
  have with_first {q : ℕ} (later : q ≠ 0) (inside : q ≤ m) : ∃ round < m, Meet m round 0 q := by
    refine ⟨m - q, by omega, 0, Nat.zero_le m, rfl, ?_⟩
    have := @seat_spec (m - 0) m (m - q) (by omega)
    omega
  by_cases first : p = 0
  · subst first
    exact with_first (Ne.symm distinct) inside'
  · by_cases first' : q = 0
    · subst first'
      rcases with_first first inside with ⟨round, early, meet⟩
      exact ⟨round, early, meet.symm⟩
    · -- the sum of the places fixes the round up to `m`, and its parity says which multiple fits
      rcases Nat.mod_two_eq_zero_or_one (p + q) with even | odd'
      · refine ⟨m - (p + q) / 2, by omega, ?_⟩
        exact meet_of_sum (by omega) first first' inside inside' distinct rfl (by omega)
      · by_cases low : p + q ≤ m
        · refine ⟨(m - (p + q)) / 2, by omega, ?_⟩
          exact meet_of_sum (by omega) first first' inside inside' distinct rfl (by omega)
        · refine ⟨(3 * m - (p + q)) / 2, by omega, ?_⟩
          exact meet_of_sum (by omega) first first' inside inside' distinct rfl (by omega)

end seats

/-! ## Slots -/

/-- The last slot moves behind the first. -/
def rotate {α : Type} (slots : List α) : List α :=
  match slots.getLast? with
  | some last => slots.dropLast.insertIdx 1 last
  | none => slots

section slots

variable {α : Type} {slots : List α} {m round : ℕ}

theorem length_rotate (long : slots.length = m + 1) (some_rounds : m ≠ 0) :
    (rotate slots).length = m + 1 := by
  rcases List.eq_nil_or_concat' slots with rfl | ⟨front, last, rfl⟩
  · cases long
  · rw [List.length_append, List.length_singleton] at long
    simp only [rotate, List.getLast?_concat, List.dropLast_concat]
    rw [List.length_insertIdx_of_le_length (by omega)]
    omega

theorem getElem?_rotate (long : slots.length = m + 1) (some_rounds : m ≠ 0) {j : ℕ}
    (inside : j ≤ m) :
    (rotate slots)[j]? = slots[if j = 0 then 0 else if j = 1 then m else j - 1]? := by
  rcases List.eq_nil_or_concat' slots with rfl | ⟨front, last, rfl⟩
  · cases long
  · rw [List.length_append, List.length_singleton] at long
    simp only [rotate, List.getLast?_concat, List.dropLast_concat, List.getElem?_insertIdx]
    by_cases first : j = 0
    · subst first
      rw [if_pos (by omega), if_pos rfl, List.getElem?_append_left (by omega)]
    · by_cases second : j = 1
      · subst second
        rw [if_neg (by omega), if_pos rfl, if_pos (by omega), if_neg (by omega), if_pos rfl,
          List.getElem?_append_right (by omega)]
        simp [show m - front.length = 0 by omega]
      · rw [if_neg (by omega), if_neg second, if_neg first, if_neg second,
          List.getElem?_append_left (by omega)]

theorem length_iterate_rotate (long : slots.length = m + 1) (some_rounds : m ≠ 0) (round : ℕ) :
    (rotate^[round] slots).length = m + 1 := by
  induction round with
  | zero => exact long
  | succ round ih =>
      rw [Function.iterate_succ_apply']
      exact length_rotate ih some_rounds

/-- The slots of a round are those of the round `0`, at other places. -/
theorem getElem?_iterate_rotate (long : slots.length = m + 1) (some_rounds : m ≠ 0)
    (early : round ≤ m) {j : ℕ} (inside : j ≤ m) :
    (rotate^[round] slots)[j]? = slots[seat m round j]? := by
  induction round generalizing j with
  | zero =>
      have same : seat m 0 j = j := by
        unfold seat
        split <;> try split
        all_goals omega
      rw [same]
      rfl
  | succ round ih =>
      rw [Function.iterate_succ_apply',
        getElem?_rotate (length_iterate_rotate long some_rounds round) some_rounds inside]
      by_cases first : j = 0
      · rw [if_pos first, ih (by omega) (Nat.zero_le m), first, seat_first, seat_first]
      · rw [if_neg first, seat_succ (by omega) j inside first]
        split
        next => exact ih (by omega) (Nat.le_refl m)
        next => exact ih (by omega) (by omega)

end slots

end Pairing
