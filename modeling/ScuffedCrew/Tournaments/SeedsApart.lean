import ScuffedCrew.Tournaments.SingleElim

/-!
# Keeping the top seeds apart

In a well seeded bracket the ranks of a match add up to one less than the number
of seeds that are left.  The order of the seeds is used here as the place of each
seed, and that is its inverse: seed `r` meets seed `r + size / 2`.
-/

namespace ScuffedCrew.Tournaments

open Rust Database

/-- The seed of a rank stands in the slot, if every match is won by the better seed. -/
inductive Reaches (ids : List Text) (bracket : Matches) : MatchId → Slot → ℕ → Prop
  | first {position : ℕ} {slot : Slot} {rank : ℕ} (stored : mainId 0 position ∈ bracket.keys)
      (inside : rank < ids.length)
      (stands : (bracket.row (mainId 0 position)).participant slot = ids[rank]?) :
      Reaches ids bracket (mainId 0 position) slot rank
  | bye {id target : MatchId} {slot next : Slot} {rank : ℕ} (here : Reaches ids bracket id slot rank)
      (alone : (bracket.row id).status = .bye)
      (leads : (bracket.row id).next = some (target, next)) :
      Reaches ids bracket target next rank
  | won {id target : MatchId} {slot slot' next : Slot} {rank rank' : ℕ}
      (here : Reaches ids bracket id slot rank) (other : Reaches ids bracket id slot' rank')
      (better : rank < rank') (leads : (bracket.row id).next = some (target, next)) :
      Reaches ids bracket target next rank

structure SeedsApart (ids : List Text) (bracket : Matches) : Prop where
  first : ∀ position < nextPowerOfTwo ids.length / 2, ∃ rank rank',
    rank + rank' = nextPowerOfTwo ids.length - 1 ∧
      (bracket.row (mainId 0 position)).participant .a = ids[rank]? ∧
      (bracket.row (mainId 0 position)).participant .b = ids[rank']?
  byes : ∀ rank < ids.length,
    (∃ position slot, mainId 0 position ∈ bracket.keys ∧
      (bracket.row (mainId 0 position)).status = .bye ∧
      (bracket.row (mainId 0 position)).participant slot = ids[rank]?) ↔
        rank < nextPowerOfTwo ids.length - ids.length
  later : ∀ round position rank rank',
    Reaches ids bracket (mainId (round + 1) position) .a rank →
    Reaches ids bracket (mainId (round + 1) position) .b rank' →
      rank + rank' + 1 =
        2 * (bracket.keys.filter fun id => id.round = ⟨.main, round + 2⟩).length

section seeds

variable {tournamentId : Text} {ids : List Text} {half : ℕ}

theorem seedPosition_top (k : ℕ) : seedPosition k 0 = 0 := by
  induction k with
  | zero => rfl
  | succ k ih => simpa using (seedPosition_even k 0).trans ih

/-- The first seed meets the first one of the lower half. -/
theorem seedPosition_middle (half : ℕ) : seedPosition (half + 1) (2 ^ half) = 1 := by
  have in_match := seedPosition_half half (2 ^ half)
  rw [Nat.mod_self, seedPosition_top] at in_match
  have other : seedPosition (half + 1) (2 ^ half) ≠ 0 := by
    intro same
    have double := Nat.pow_succ (n := 2) (m := half)
    have positive := Nat.two_pow_pos half
    have := seedPosition_inj (by omega) (by omega) (same.trans (seedPosition_top (half + 1)).symm)
    omega
  omega

theorem participant_first (size_eq : nextPowerOfTwo ids.length = 2 ^ (half + 1))
    (fits : ids.length ≤ 2 ^ (half + 1)) {position seed : ℕ} {slot : Slot}
    (below : position < 2 ^ half) (seed_lt : seed < 2 ^ (half + 1))
    (at_seed : seedPosition (half + 1) seed = 2 * position + slot.index) :
    ((generateSingleElimBracket tournamentId ids).row (mainId 0 position)).participant slot =
      ids[seed]? := by
  rw [(singleElim_generate size_eq).entered position below, ← at_seed,
    positioned_seedPosition fits seed_lt]

theorem two_of_seedsApart (distinct : ids.Nodup) (two : 2 ≤ ids.length)
    (apart : SeedsApart ids (generateSingleElimBracket tournamentId ids)) : ids.length = 2 := by
  rcases nextPowerOfTwo_eq two with ⟨half, size_eq, more, fits⟩
  have double := Nat.pow_succ (n := 2) (m := half)
  have positive := Nat.two_pow_pos half
  rcases apart.first 0 (by omega) with ⟨rank, rank', sum, top, middle⟩
  rw [@participant_first tournamentId ids half size_eq fits 0 0 .a positive (Nat.two_pow_pos _)
    (seedPosition_top (half + 1))] at top
  rw [@participant_first tournamentId ids half size_eq fits 0 (2 ^ half) .b positive (by omega)
    (seedPosition_middle half)] at middle
  have same : 0 = rank := (List.getElem?_inj (by omega) distinct).mp top
  have same' : 2 ^ half = rank' := (List.getElem?_inj more distinct).mp middle
  have one : 2 ^ half = 1 := by omega
  omega

theorem seedsApart_of_two (two : ids.length = 2) :
    SeedsApart ids (generateSingleElimBracket tournamentId ids) := by
  have size_eq : nextPowerOfTwo ids.length = 2 ^ (0 + 1) := by rw [two]; rfl
  have single := @singleElim_generate tournamentId ids 0 size_eq
  have participant (slot : Slot) :
      ((generateSingleElimBracket tournamentId ids).row (mainId 0 0)).participant slot =
        ids[slot.index]? := by
    apply participant_first size_eq (by omega) (by decide) slot.index_lt
    cases slot <;> rfl
  have only {round position : ℕ}
      (stored : mainId round position ∈ (generateSingleElimBracket tournamentId ids).keys) :
      round = 0 ∧ position = 0 := by
    have inside := single.mem_keys.mp stored
    rw [Nat.zero_sub, Nat.pow_zero] at inside
    omega
  have played : ((generateSingleElimBracket tournamentId ids).row (mainId 0 0)).status ≠ .bye := by
    intro bye
    rcases single.halfEmpty 0 (by decide) bye with ⟨slot, empty⟩
    have side := slot.index_lt
    rw [participant, List.getElem?_eq_none_iff] at empty
    omega
  have stays {id : MatchId} {slot : Slot} {rank : ℕ}
      (reaches : Reaches ids (generateSingleElimBracket tournamentId ids) id slot rank) :
      id = mainId 0 0 := by
    have no_next : ((generateSingleElimBracket tournamentId ids).row (mainId 0 0)).next = none := by
      rw [single.next 0 0 (single.mem_keys.mpr ⟨Nat.le_refl 0, by decide⟩), if_neg (by decide)]
    induction reaches with
    | first stored inside stands => rw [(only stored).2]
    | bye here alone leads ih =>
        rw [ih, no_next] at leads
        cases leads
    | won here other better leads ih ih' =>
        rw [ih, no_next] at leads
        cases leads
  refine ⟨?_, ?_, ?_⟩
  · intro position below
    have first : position = 0 := by
      rw [size_eq] at below
      omega
    subst first
    exact ⟨0, 1, by omega, participant .a, participant .b⟩
  · intro rank inside
    constructor
    · rintro ⟨position, slot, stored, bye, -⟩
      obtain rfl := (only stored).2
      exact absurd bye played
    · intro early
      rw [size_eq, two] at early
      omega
  · intro round position rank rank' reaches
    have final := (mainId_inj.mp (stays reaches)).1
    omega

end seeds

/-- The seeds are kept apart in a bracket of two only. -/
theorem seedsApart_iff (tournamentId : Text) (ids : List Text) (distinct : ids.Nodup)
    (two : 2 ≤ ids.length) :
    SeedsApart ids (generateSingleElimBracket tournamentId ids) ↔ ids.length = 2 :=
  ⟨two_of_seedsApart distinct two, seedsApart_of_two⟩

/-- Two seeds meet in the only match. -/
theorem seedsApart_iff_pair :
    SeedsApart [['a'], ['b']] (generateSingleElimBracket ['t'] [['a'], ['b']]) ↔
      [['a'], ['b']].length = 2 :=
  seedsApart_iff ['t'] [['a'], ['b']] (by decide) (by decide)

/-- Of four seeds the first meets the third. -/
theorem seeds_not_apart :
    ¬SeedsApart [['a'], ['b'], ['c'], ['d']]
      (generateSingleElimBracket ['t'] [['a'], ['b'], ['c'], ['d']]) := by
  intro apart
  have two := two_of_seedsApart (by decide) (by decide) apart
  simp at two

end ScuffedCrew.Tournaments
