import Mathlib.Algebra.Order.Ring.Nat
import Mathlib.Data.List.Nodup
import ScuffedCrew.Rust.Text
import ScuffedCrew.StateMachine.Loop

/-!
# Seeding

The positions of the seeds in the first round.  Doubling a bracket keeps the
order of its seeds, so in which half, quarter and match of a bracket a seed
stands is what the smaller brackets say.
-/

namespace ScuffedCrew.Tournaments

open Rust StateMachine

/-- `usize::next_power_of_two`. -/
def nextPowerOfTwo (n : ℕ) : ℕ :=
  if n ≤ 1 then 1 else 2 ^ (Nat.log2 (n - 1) + 1)

/-- One pass of the doubling loop, while the order is shorter than `size`. -/
def doubleOrder (size : ℕ) (order : List ℕ) : Option (List ℕ) :=
  if order.length < size then
    some (order.flatMap fun position => [position, order.length * 2 - 1 - position])
  else none

def standardSeedOrder (size : ℕ) : List ℕ :=
  if size ≤ 1 then [0] else loop (doubleOrder size) size [0, 1]

/-- `double_elim_seeded_slots`, which the single elimination bracket writes out: the participants
and byes at the positions of the first round. -/
def seededSlots (participantIds : List Text) (size : ℕ) : List (Option Text) :=
  let seeded := participantIds.map some ++ List.replicate (size - participantIds.length) none
  (standardSeedOrder size).zipIdx.foldl
    (fun ordered (position, seed) =>
      if seed < seeded.length then ordered.set position (seeded.getD seed none) else ordered)
    (List.replicate size none)

/-! ## The size of a bracket -/

theorem nextPowerOfTwo_eq {n : ℕ} (two : 2 ≤ n) :
    ∃ half, nextPowerOfTwo n = 2 ^ (half + 1) ∧ 2 ^ half < n ∧ n ≤ 2 ^ (half + 1) := by
  refine ⟨Nat.log2 (n - 1), ?_, ?_, ?_⟩
  · simp only [nextPowerOfTwo]
    rw [if_neg (by omega)]
  · have low := Nat.log2_self_le (n := n - 1) (by omega)
    omega
  · have high := @Nat.lt_log2_self (n - 1)
    omega

theorem log2_two_pow (k : ℕ) : Nat.log2 (2 ^ k) = k :=
  (Nat.log2_eq_iff (Nat.two_pow_pos k).ne').mpr
    ⟨le_rfl, Nat.pow_lt_pow_right (by omega) (by omega)⟩

/-! ## The position of a seed -/

/-- The position of a seed in a bracket of `2 ^ k`. -/
def seedPosition : ℕ → ℕ → ℕ
  | 0, _ => 0
  | k + 1, seed =>
      if seed % 2 = 0 then seedPosition k (seed / 2)
      else 2 ^ (k + 1) - 1 - seedPosition k (seed / 2)

@[simp]
theorem seedPosition_even (k index : ℕ) :
    seedPosition (k + 1) (2 * index) = seedPosition k index := by
  have even : 2 * index % 2 = 0 := by omega
  have half : 2 * index / 2 = index := by omega
  rw [seedPosition, if_pos even, half]

@[simp]
theorem seedPosition_odd (k index : ℕ) :
    seedPosition (k + 1) (2 * index + 1) = 2 ^ (k + 1) - 1 - seedPosition k index := by
  have odd : ¬(2 * index + 1) % 2 = 0 := by omega
  have half : (2 * index + 1) / 2 = index := by omega
  rw [seedPosition, if_neg odd, half]

theorem seedPosition_lt (k seed : ℕ) : seedPosition k seed < 2 ^ k := by
  induction k generalizing seed with
  | zero => exact Nat.one_pos
  | succ k ih =>
      have below := ih (seed / 2)
      have double := Nat.pow_succ (n := 2) (m := k)
      simp only [seedPosition]
      split <;> omega

theorem seedPosition_inj {k first second : ℕ} (first_lt : first < 2 ^ k) (second_lt : second < 2 ^ k)
    (same : seedPosition k first = seedPosition k second) : first = second := by
  induction k generalizing first second with
  | zero => omega
  | succ k ih =>
      have first_below := seedPosition_lt k (first / 2)
      have second_below := seedPosition_lt k (second / 2)
      have double := Nat.pow_succ (n := 2) (m := k)
      have halves : seedPosition k (first / 2) = seedPosition k (second / 2) →
          first / 2 = second / 2 := ih (by omega) (by omega)
      simp only [seedPosition] at same
      split at same <;> split at same <;> omega

theorem exists_seed {k position : ℕ} (inside : position < 2 ^ k) :
    ∃ seed < 2 ^ k, seedPosition k seed = position := by
  induction k generalizing position with
  | zero => exact ⟨0, by omega, by simp only [seedPosition]; omega⟩
  | succ k ih =>
      have double := Nat.pow_succ (n := 2) (m := k)
      by_cases low : position < 2 ^ k
      · rcases ih low with ⟨seed, seed_lt, at_position⟩
        exact ⟨2 * seed, by omega, by rw [seedPosition_even, at_position]⟩
      · rcases ih (show 2 ^ (k + 1) - 1 - position < 2 ^ k by omega) with
          ⟨seed, seed_lt, at_position⟩
        refine ⟨2 * seed + 1, by omega, ?_⟩
        rw [seedPosition_odd, at_position]
        omega

/-- The match of a seed is its position in the bracket of half the size. -/
theorem seedPosition_half (k seed : ℕ) :
    seedPosition (k + 1) seed / 2 = seedPosition k (seed % 2 ^ k) := by
  induction k generalizing seed with
  | zero =>
      have below := seedPosition_lt 1 seed
      simp only [seedPosition] at below ⊢
      omega
  | succ k ih =>
      have below := seedPosition_lt (k + 1) (seed / 2)
      have double := Nat.pow_succ (n := 2) (m := k)
      have double' := Nat.pow_succ (n := 2) (m := k + 1)
      have half := ih (seed / 2)
      have halves : seed % 2 ^ (k + 1) / 2 = seed / 2 % 2 ^ k := by
        rw [Nat.pow_succ', Nat.mod_mul_right_div_self]
      have parity : seed % 2 ^ (k + 1) % 2 = seed % 2 := by
        rw [Nat.pow_succ']
        exact Nat.mod_mul_right_mod seed 2 (2 ^ k)
      have unfolded : seedPosition (k + 1) (seed % 2 ^ (k + 1)) =
          if seed % 2 = 0 then seedPosition (k + 1) (seed / 2) / 2
          else 2 ^ (k + 1) - 1 - seedPosition (k + 1) (seed / 2) / 2 := by
        rw [seedPosition, parity, halves, half]
      rw [unfolded, seedPosition]
      split
      · rfl
      · omega

/-! ## The order of the seeds -/

theorem flatMap_range_pairs {α : Type} (count : ℕ) (value : ℕ → α) :
    ((List.range count).flatMap fun index => [value (2 * index), value (2 * index + 1)]) =
      (List.range (2 * count)).map value := by
  induction count with
  | zero => rfl
  | succ count ih =>
      have longer : 2 * (count + 1) = 2 * count + 1 + 1 := by omega
      rw [longer, List.range_succ, List.range_succ, List.range_succ, List.flatMap_append, ih]
      simp

theorem doubleOrder_range {k size : ℕ} (short : 2 ^ k < size) :
    doubleOrder size ((List.range (2 ^ k)).map (seedPosition k)) =
      some ((List.range (2 ^ (k + 1))).map (seedPosition (k + 1))) := by
  have pairs := flatMap_range_pairs (2 ^ k) (seedPosition (k + 1))
  simp only [seedPosition_even, seedPosition_odd, ← Nat.pow_succ', Nat.pow_succ] at pairs
  simp only [doubleOrder, List.length_map, List.length_range, short, if_true, List.flatMap_map,
    pairs, Nat.pow_succ]

theorem standardSeedOrder_eq (k : ℕ) :
    standardSeedOrder (2 ^ k) = (List.range (2 ^ k)).map (seedPosition k) := by
  have doubles : ∀ (fuel j : ℕ), j ≤ k → k - j ≤ fuel →
      loop (doubleOrder (2 ^ k)) fuel ((List.range (2 ^ j)).map (seedPosition j)) =
        (List.range (2 ^ k)).map (seedPosition k) := by
    intro fuel
    induction fuel with
    | zero =>
        intro j below enough
        obtain rfl : j = k := by omega
        rfl
    | succ fuel ih =>
        intro j below enough
        rcases Nat.eq_or_lt_of_le below with rfl | short
        · refine loop_of_none ?_
          simp [doubleOrder]
        · rw [loop_of_some (doubleOrder_range (Nat.pow_lt_pow_right (by omega) short))]
          exact ih (j + 1) short (by omega)
  unfold standardSeedOrder
  cases k with
  | zero => rfl
  | succ k =>
      have large : ¬2 ^ (k + 1) ≤ 1 := by
        have positive := Nat.two_pow_pos k
        omega
      rw [if_neg large]
      have enough := Nat.lt_two_pow_self (n := k + 1)
      exact doubles (2 ^ (k + 1)) 1 (by omega) (by omega)

/-- A position holds its seed, or a bye when there is no such seed. -/
theorem seededSlots_getElem? {participantIds : List Text} {k seed : ℕ}
    (fits : participantIds.length ≤ 2 ^ k) (seed_lt : seed < 2 ^ k) :
    (seededSlots participantIds (2 ^ k))[seedPosition k seed]? = some participantIds[seed]? := by
  have filled : ∀ count ≤ 2 ^ k, ∀ ordered : List (Option Text),
      ordered = (((List.range count).map (seedPosition k)).zipIdx.foldl
        (fun ordered (position, seed) =>
          if seed < (participantIds.map some ++
              List.replicate (2 ^ k - participantIds.length) none).length then
            ordered.set position ((participantIds.map some ++
              List.replicate (2 ^ k - participantIds.length) none).getD seed none)
          else ordered)
        (List.replicate (2 ^ k) none)) →
      ordered.length = 2 ^ k ∧
        ∀ seed < count, ordered[seedPosition k seed]? = some participantIds[seed]? := by
    intro count
    induction count with
    | zero =>
        rintro - ordered rfl
        simp
    | succ count ih =>
        rintro bound ordered rfl
        rcases ih (by omega) _ rfl with ⟨length_eq, placed⟩
        have room : count < (participantIds.map some ++
            List.replicate (2 ^ k - participantIds.length) none).length := by
          simp only [List.length_append, List.length_map, List.length_replicate]
          omega
        have value : (participantIds.map some ++
            List.replicate (2 ^ k - participantIds.length) none).getD count none =
              participantIds[count]? := by
          rw [List.getD_eq_getElem?_getD, List.getElem?_append]
          split
          next inside =>
            simp only [List.length_map] at inside
            simp [inside]
          next outside =>
            simp only [List.length_map, not_lt] at outside
            simp [List.getElem?_replicate, outside]
            split <;> rfl
        rw [List.range_succ, List.map_append, List.zipIdx_append, List.foldl_append]
        simp only [List.map_cons, List.map_nil, List.length_map, List.length_range, Nat.zero_add,
          List.zipIdx_cons, List.zipIdx_nil, List.foldl_cons, List.foldl_nil]
        rw [if_pos room, value]
        refine ⟨by rw [List.length_set, length_eq], ?_⟩
        intro seed seed_lt
        rcases Nat.lt_succ_iff_lt_or_eq.mp seed_lt with earlier | rfl
        · rw [List.getElem?_set_ne]
          · exact placed seed earlier
          · intro same
            have := seedPosition_inj (by omega) (by omega) same
            omega
        · rw [List.getElem?_set_self]
          rw [length_eq]
          exact seedPosition_lt k seed
  rw [seededSlots, standardSeedOrder_eq]
  exact (filled (2 ^ k) le_rfl _ rfl).2 seed seed_lt

/-! ## Who stands where -/

def positioned (participantIds : List Text) (k position : ℕ) : Option Text :=
  (seededSlots participantIds (2 ^ k)).getD position none

section Positions

variable {participantIds : List Text} {participantId : Text} {k seed position other : ℕ}

theorem positioned_seedPosition (fits : participantIds.length ≤ 2 ^ k) (seed_lt : seed < 2 ^ k) :
    positioned participantIds k (seedPosition k seed) = participantIds[seed]? := by
  rw [positioned, List.getD_eq_getElem?_getD, seededSlots_getElem? fits seed_lt, Option.getD_some]

theorem exists_seed_of_positioned (fits : participantIds.length ≤ 2 ^ k) (inside : position < 2 ^ k)
    (taken : positioned participantIds k position = some participantId) :
    ∃ seed < 2 ^ k, seedPosition k seed = position ∧ participantIds[seed]? = some participantId := by
  rcases exists_seed inside with ⟨seed, seed_lt, rfl⟩
  exact ⟨seed, seed_lt, rfl, (positioned_seedPosition fits seed_lt).symm.trans taken⟩

theorem positioned_inj (fits : participantIds.length ≤ 2 ^ k) (distinct : participantIds.Nodup)
    (inside : position < 2 ^ k) (inside' : other < 2 ^ k)
    (taken : positioned participantIds k position = some participantId)
    (taken' : positioned participantIds k other = some participantId) : position = other := by
  rcases exists_seed_of_positioned fits inside taken with ⟨seed, seed_lt, rfl, at_seed⟩
  rcases exists_seed_of_positioned fits inside' taken' with ⟨seed', seed_lt', rfl, at_seed'⟩
  have same : seed = seed' := by
    rcases List.getElem?_eq_some_iff.mp at_seed with ⟨bound, value⟩
    rcases List.getElem?_eq_some_iff.mp at_seed' with ⟨bound', value'⟩
    exact (List.Nodup.getElem_inj_iff distinct).mp (value.trans value'.symm)
  rw [same]

theorem exists_position (fits : participantIds.length ≤ 2 ^ k) (entered : participantId ∈ participantIds) :
    ∃ position < 2 ^ k, positioned participantIds k position = some participantId := by
  rcases List.getElem?_of_mem entered with ⟨seed, at_seed⟩
  have seed_lt : seed < 2 ^ k := by
    have bound := (List.getElem?_eq_some_iff.mp at_seed).1
    omega
  exact ⟨_, seedPosition_lt k seed, (positioned_seedPosition fits seed_lt).trans at_seed⟩

theorem exists_entered (fits : participantIds.length ≤ 2 ^ (k + 1))
    (more : 2 ^ k < participantIds.length) (inside : position < 2 ^ k) :
    ∃ slot < 2, (positioned participantIds (k + 1) (2 * position + slot)).isSome = true := by
  rcases exists_seed inside with ⟨seed, seed_lt, rfl⟩
  have double := Nat.pow_succ (n := 2) (m := k)
  have in_match := seedPosition_half k seed
  rw [Nat.mod_eq_of_lt seed_lt] at in_match
  refine ⟨seedPosition (k + 1) seed % 2, by omega, ?_⟩
  rw [show 2 * seedPosition k seed + seedPosition (k + 1) seed % 2 = seedPosition (k + 1) seed by
    omega, positioned_seedPosition fits (by omega), List.getElem?_eq_getElem (by omega)]
  rfl

theorem seed_of_slot {slot : ℕ} (seed_lt : seed < 2 ^ k) (side : slot < 2) :
    ∃ seed', (seed' = seed ∨ seed' = seed + 2 ^ k) ∧
      seedPosition (k + 1) seed' = 2 * seedPosition k seed + slot := by
  have below := seedPosition_lt k seed
  have double := Nat.pow_succ (n := 2) (m := k)
  rcases @exists_seed (k + 1) (2 * seedPosition k seed + slot) (by omega) with
    ⟨seed', seed'_lt, at_slot⟩
  refine ⟨seed', ?_, at_slot⟩
  have in_match := seedPosition_half k seed'
  rw [at_slot] at in_match
  have positive := Nat.two_pow_pos k
  have same : seed' % 2 ^ k = seed :=
    seedPosition_inj (Nat.mod_lt _ positive) seed_lt (by omega)
  rcases Nat.lt_or_ge seed' (2 ^ k) with low | high
  · exact .inl ((Nat.mod_eq_of_lt low).symm.trans same)
  · rw [Nat.mod_eq_sub_mod high, Nat.mod_eq_of_lt (by omega)] at same
    exact .inr (by omega)

theorem positioned_full {slot : ℕ} (fits : participantIds.length ≤ 2 ^ (k + 1))
    (seed_lt : seed < 2 ^ k) (enough : seed + 2 ^ k < participantIds.length) (side : slot < 2) :
    (positioned participantIds (k + 1) (2 * seedPosition k seed + slot)).isSome = true := by
  have double := Nat.pow_succ (n := 2) (m := k)
  rcases @seed_of_slot k seed slot seed_lt side with ⟨seed', which, at_slot⟩
  rw [← at_slot, positioned_seedPosition fits (by omega), List.getElem?_eq_getElem (by omega)]
  rfl

theorem positioned_missing (fits : participantIds.length ≤ 2 ^ (k + 1)) (seed_lt : seed < 2 ^ k)
    (short : participantIds.length ≤ seed + 2 ^ k) :
    ∃ slot < 2, positioned participantIds (k + 1) (2 * seedPosition k seed + slot) = none := by
  have double := Nat.pow_succ (n := 2) (m := k)
  have in_match := seedPosition_half k (seed + 2 ^ k)
  rw [Nat.add_mod_right, Nat.mod_eq_of_lt seed_lt] at in_match
  refine ⟨seedPosition (k + 1) (seed + 2 ^ k) % 2, by omega, ?_⟩
  rw [show 2 * seedPosition k seed + seedPosition (k + 1) (seed + 2 ^ k) % 2 =
    seedPosition (k + 1) (seed + 2 ^ k) by omega, positioned_seedPosition fits (by omega),
    List.getElem?_eq_none_iff]
  exact short

end Positions

end ScuffedCrew.Tournaments
