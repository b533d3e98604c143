import ScuffedCrew.Pairing.Circle
import ScuffedCrew.Tournaments.Bracket

/-!
# Round robin

The pairings of a round robin by the circle method.  Over all rounds any two
participants meet once, and with an odd number each sits out once.
-/

namespace ScuffedCrew.Tournaments

open Rust Database Pairing

/-- The matches of the round `r + 1`. -/
def roundRobinMatches (tournamentId : Text) (evenN r : ℕ) (slots : List (Option Text)) :
    List TournamentMatch :=
  (List.range (evenN / 2)).map fun i =>
    let a := slots.getD i none
    let b := slots.getD (evenN - 1 - i) none
    createTournamentMatch tournamentId ⟨⟨.main, r + 1⟩, i⟩ a b
      (if a.isNone || b.isNone then .bye else .pending)

/-- The rounds from `r` on and their matches. -/
def roundRobinRounds (tournamentId : Text) (evenN : ℕ) :
    ℕ → ℕ → List (Option Text) → List RoundId × List TournamentMatch
  | 0, _, _ => ([], [])
  | left + 1, r, slots =>
      let (rounds, rows) := roundRobinRounds tournamentId evenN left (r + 1) (rotate slots)
      (⟨.main, r + 1⟩ :: rounds, roundRobinMatches tournamentId evenN r slots ++ rows)

def generateRoundRobinPairings (tournamentId : Text) (ids : List Text) :
    Except Text (List RoundId × List TournamentMatch) :=
  let n := ids.length
  if n < 2 then .error "Need at least 2 participants".toList
  else
    let evenN := if n % 2 = 0 then n else n + 1
    let slots := ids.map some ++ if n % 2 ≠ 0 then [none] else []
    .ok (roundRobinRounds tournamentId evenN (evenN - 1) 0 slots)

/-! ## What a round robin is -/

/-- The participant has no opponent in the round. -/
def LeftOut (rows : List TournamentMatch) (round : RoundId) (p : Text) : Prop :=
  ∀ row ∈ rows, row.roundId = round → ∀ slot, row.participant slot = some p →
    row.participant slot.other = none

structure RoundRobin (ids : List Text) (rounds : List RoundId) (rows : List TournamentMatch) : Prop
    where
  nodup : rows.Nodup
  inRounds : ∀ row ∈ rows, row.roundId ∈ rounds
  met : ∀ p ∈ ids, ∀ q ∈ ids, p ≠ q → ∃! row, row ∈ rows ∧ row.Plays p q
  once : ∀ row ∈ rows, ∀ row' ∈ rows, row.roundId = row'.roundId → ∀ slot slot' p,
    row.participant slot = some p → row'.participant slot' = some p → row = row' ∧ slot = slot'
  odd : ids.length % 2 = 1 →
    (∀ round ∈ rounds, ∃! p, p ∈ ids ∧ LeftOut rows round p) ∧
      ∀ p ∈ ids, ∃! round, round ∈ rounds ∧ LeftOut rows round p
  even : ids.length % 2 = 0 → ∀ round ∈ rounds, ∀ p ∈ ids, ¬LeftOut rows round p

/-! ## The rows -/

/-- The match at place `i` of the round `r + 1`. -/
def roundRobinMatch (tournamentId : Text) (m : ℕ) (slots : List (Option Text)) (r i : ℕ) :
    TournamentMatch :=
  let a := (rotate^[r] slots).getD i none
  let b := (rotate^[r] slots).getD (m - i) none
  createTournamentMatch tournamentId ⟨⟨.main, r + 1⟩, i⟩ a b
    (if a.isNone || b.isNone then .bye else .pending)

theorem roundRobinRounds_eq (tournamentId : Text) (m left r : ℕ) (slots : List (Option Text)) :
    roundRobinRounds tournamentId (m + 1) left r (rotate^[r] slots) =
      ((List.range' r left).map fun r => ⟨.main, r + 1⟩,
        (List.range' r left).flatMap fun r =>
          (List.range ((m + 1) / 2)).map (roundRobinMatch tournamentId m slots r)) := by
  induction left generalizing r with
  | zero => rfl
  | succ left ih =>
      rw [roundRobinRounds, ← Function.iterate_succ_apply' rotate r slots, ih (r + 1)]
      rfl

section round

variable {tournamentId : Text} {m half r i j : ℕ} {slots : List (Option Text)}

/-- The place of a slot of the match `i`. -/
def place (m i : ℕ) : Slot → ℕ
  | .a => i
  | .b => m - i

theorem place_other (inside : i ≤ m) (slot : Slot) : place m i slot.other = m - place m i slot := by
  cases slot with
  | a => rfl
  | b => exact (Nat.sub_sub_self inside).symm

theorem place_inj {i' : ℕ} {slot slot' : Slot} (low : 2 * i < m) (low' : 2 * i' < m)
    (same : place m i slot = place m i' slot') : i = i' ∧ slot = slot' := by
  cases slot <;> cases slot' <;> simp only [place] at same <;> first
    | exact ⟨by omega, rfl⟩
    | omega

theorem place_le (low : 2 * i < m) (slot : Slot) : place m i slot ≤ m := by
  cases slot <;> simp only [place] <;> omega

theorem exists_place (odd : m % 2 = 1) (inside : j ≤ m) :
    ∃ i slot, 2 * i < m ∧ place m i slot = j := by
  by_cases low : 2 * j < m
  · exact ⟨j, .a, low, rfl⟩
  · exact ⟨m - j, .b, by omega, Nat.sub_sub_self inside⟩

theorem participant_roundRobinMatch (long : slots.length = m + 1) (some_rounds : m ≠ 0)
    (early : r < m) (low : 2 * i < m) (slot : Slot) :
    (roundRobinMatch tournamentId m slots r i).participant slot =
      slots.getD (seat m r (place m i slot)) none := by
  have at_place {j : ℕ} (inside : j ≤ m) :
      (rotate^[r] slots).getD j none = slots.getD (seat m r j) none := by
    rw [List.getD_eq_getElem?_getD, getElem?_iterate_rotate long some_rounds early.le inside,
      List.getD_eq_getElem?_getD]
  cases slot with
  | a => exact at_place (by omega)
  | b => exact at_place (by omega)

end round

/-! ## All rounds -/

section rounds

variable {tournamentId : Text} {m r u v : ℕ} {slots : List (Option Text)} {p q : Text}

def allRounds (m : ℕ) : List RoundId := (List.range m).map fun r => ⟨.main, r + 1⟩

def allMatches (tournamentId : Text) (m : ℕ) (slots : List (Option Text)) : List TournamentMatch :=
  (List.range m).flatMap fun r =>
    (List.range ((m + 1) / 2)).map (roundRobinMatch tournamentId m slots r)

theorem mem_allMatches (odd : m % 2 = 1) {row : TournamentMatch} :
    row ∈ allMatches tournamentId m slots ↔
      ∃ r i, r < m ∧ 2 * i < m ∧ row = roundRobinMatch tournamentId m slots r i := by
  simp only [allMatches, List.mem_flatMap, List.mem_map, List.mem_range]
  constructor
  · rintro ⟨r, early, i, inside, rfl⟩
    exact ⟨r, i, early, by omega, rfl⟩
  · rintro ⟨r, i, early, low, rfl⟩
    exact ⟨r, early, i, by omega, rfl⟩

theorem nodup_allMatches : (allMatches tournamentId m slots).Nodup := by
  apply List.nodup_flatMap.mpr
  constructor
  · intro r early
    apply List.Nodup.map _ List.nodup_range
    intro i i' same
    exact congrArg TournamentMatch.bracketPosition same
  · apply List.nodup_range.imp
    intro r r' different row in_round in_round'
    rcases List.mem_map.mp in_round with ⟨i, -, rfl⟩
    rcases List.mem_map.mp in_round' with ⟨i', -, same⟩
    have same_round : r' + 1 = r + 1 := congrArg (fun row => row.roundId.number) same
    omega

theorem getElem?_of_getD (at_place : slots.getD u none = some p) : slots[u]? = some (some p) := by
  rw [List.getD_eq_getElem?_getD] at at_place
  cases found : slots[u]? with
  | none =>
      rw [found] at at_place
      cases at_place
  | some value =>
      rw [found] at at_place
      rw [← at_place]
      rfl

variable (long : slots.length = m + 1) (distinct : slots.Nodup) (odd : m % 2 = 1)

include distinct in
theorem getD_inj (at_place : slots.getD u none = some p) (at_place' : slots.getD v none = some p) :
    u = v := by
  have here := getElem?_of_getD at_place
  have there := getElem?_of_getD at_place'
  exact (List.getElem?_inj (List.getElem?_eq_some_iff.mp here).1 distinct).mp (here.trans there.symm)

include long distinct odd

/-- Two participants play where their slots meet. -/
theorem plays_iff (early : r < m) {i : ℕ} (low : 2 * i < m) (at_u : slots.getD u none = some p)
    (at_v : slots.getD v none = some q) :
    (roundRobinMatch tournamentId m slots r i).Plays p q ↔
      ∃ slot, seat m r (place m i slot) = u ∧ seat m r (m - place m i slot) = v := by
  apply exists_congr
  intro slot
  rw [participant_roundRobinMatch long (by omega) early low,
    participant_roundRobinMatch long (by omega) early low, place_other (by omega)]
  constructor
  · rintro ⟨first, second⟩
    exact ⟨getD_inj distinct first at_u, getD_inj distinct second at_v⟩
  · rintro ⟨rfl, rfl⟩
    exact ⟨at_u, at_v⟩

theorem existsUnique_plays (inside : u ≤ m) (inside' : v ≤ m) (at_u : slots.getD u none = some p)
    (at_v : slots.getD v none = some q) (different : p ≠ q) :
    ∃! row, row ∈ allMatches tournamentId m slots ∧ row.Plays p q := by
  have apart : u ≠ v := by
    rintro rfl
    rw [at_u] at at_v
    exact different (Option.some.inj at_v)
  rcases exists_meet odd inside inside' apart with ⟨r, early, meet⟩
  rcases meet with ⟨j, j_le, rfl, rfl⟩
  rcases exists_place odd j_le with ⟨i, slot, low, rfl⟩
  refine ⟨roundRobinMatch tournamentId m slots r i, ⟨(mem_allMatches odd).mpr ⟨r, i, early, low, rfl⟩,
    (plays_iff long distinct odd early low at_u at_v).mpr ⟨slot, rfl, rfl⟩⟩, ?_⟩
  rintro row ⟨row_mem, plays⟩
  rcases (mem_allMatches odd).mp row_mem with ⟨r', i', early', low', rfl⟩
  rcases (plays_iff long distinct odd early' low' at_u at_v).mp plays with ⟨slot', first, second⟩
  have same_round : r = r' := Meet.round_unique odd apart early early'
    ⟨_, place_le low slot, rfl, rfl⟩ ⟨_, place_le low' slot', first, second⟩
  subst same_round
  have same_place := seat_inj early (place_le low' slot') (place_le low slot) first
  rw [(place_inj low' low same_place).1]

/-- A participant is left out where its slot meets the empty one. -/
theorem leftOut_iff (early : r < m) (at_u : slots.getD u none = some p) (meet : Meet m r u v) :
    LeftOut (allMatches tournamentId m slots) ⟨.main, r + 1⟩ p ↔ slots.getD v none = none := by
  rcases meet with ⟨j, j_le, rfl, rfl⟩
  have participants {i : ℕ} (low : 2 * i < m) (slot : Slot) :=
    @participant_roundRobinMatch tournamentId m r i slots long (by omega) early low slot
  constructor
  · intro left_out
    rcases exists_place odd j_le with ⟨i, slot, low, rfl⟩
    have alone := left_out _ ((mem_allMatches odd).mpr ⟨r, i, early, low, rfl⟩) rfl slot
      ((participants low slot).trans at_u)
    rwa [participants low, place_other (by omega)] at alone
  · intro empty row row_mem same_round slot here
    rcases (mem_allMatches odd).mp row_mem with ⟨r', i, early', low, rfl⟩
    have same : r' + 1 = r + 1 := congrArg RoundId.number same_round
    obtain rfl : r' = r := by omega
    rw [participants low] at here
    have same_place := seat_inj early (place_le low slot) j_le (getD_inj distinct here at_u)
    rw [participants low, place_other (by omega), same_place]
    exact empty

/-- A participant has one slot in a round. -/
theorem slot_unique {row row' : TournamentMatch} {slot slot' : Slot}
    (row_mem : row ∈ allMatches tournamentId m slots)
    (row_mem' : row' ∈ allMatches tournamentId m slots) (same_round : row.roundId = row'.roundId)
    (here : row.participant slot = some p) (here' : row'.participant slot' = some p) :
    row = row' ∧ slot = slot' := by
  rcases (mem_allMatches odd).mp row_mem with ⟨r, i, early, low, rfl⟩
  rcases (mem_allMatches odd).mp row_mem' with ⟨r', i', early', low', rfl⟩
  have same : r + 1 = r' + 1 := congrArg RoundId.number same_round
  obtain rfl : r = r' := by omega
  rw [participant_roundRobinMatch long (by omega) early low] at here
  rw [participant_roundRobinMatch long (by omega) early low'] at here'
  have same_place := seat_inj early (place_le low slot) (place_le low' slot')
    (getD_inj distinct here here')
  rcases place_inj low low' same_place with ⟨rfl, rfl⟩
  exact ⟨rfl, rfl⟩

end rounds

/-! ## The pairings -/

section pairings

variable {tournamentId : Text} {ids : List Text}

/-- The slots that the rotation starts from. -/
def roundRobinSlots (ids : List Text) : List (Option Text) :=
  ids.map some ++ if ids.length % 2 ≠ 0 then [none] else []

theorem nodup_roundRobinSlots (distinct : ids.Nodup) : (roundRobinSlots ids).Nodup := by
  have somes : (ids.map some).Nodup := distinct.map fun _ _ => Option.some.inj
  unfold roundRobinSlots
  split
  · apply List.nodup_append.mpr
    simp [somes]
  · simpa using somes

theorem getD_roundRobinSlots {u : ℕ} {p : Text} (at_u : ids[u]? = some p) :
    (roundRobinSlots ids).getD u none = some p := by
  have inside := (List.getElem?_eq_some_iff.mp at_u).1
  rw [roundRobinSlots, List.getD_eq_getElem?_getD, List.getElem?_append_left (by simpa using inside)]
  simp [at_u]

theorem getD_roundRobinSlots_eq_none {u : ℕ} :
    (roundRobinSlots ids).getD u none = none ↔ ids.length ≤ u := by
  constructor
  · intro empty
    by_contra inside
    rw [getD_roundRobinSlots (List.getElem?_eq_getElem (Nat.lt_of_not_le inside))] at empty
    cases empty
  · intro outside
    rw [roundRobinSlots, List.getD_eq_getElem?_getD,
      List.getElem?_append_right (by simpa using outside)]
    split
    · cases u - (ids.map some).length <;> simp
    · simp

/-- The number of rounds. -/
def roundCount (n : ℕ) : ℕ := if n % 2 = 0 then n - 1 else n

theorem generateRoundRobinPairings_eq (tournamentId : Text) (two : 2 ≤ ids.length) :
    generateRoundRobinPairings tournamentId ids = .ok (allRounds (roundCount ids.length),
      allMatches tournamentId (roundCount ids.length) (roundRobinSlots ids)) := by
  have even_n : (if ids.length % 2 = 0 then ids.length else ids.length + 1) =
      roundCount ids.length + 1 := by
    unfold roundCount
    split <;> omega
  have rounds := roundRobinRounds_eq tournamentId (roundCount ids.length) (roundCount ids.length) 0
    (roundRobinSlots ids)
  rw [← List.range_eq_range', Function.iterate_zero_apply] at rounds
  simp only [generateRoundRobinPairings, if_neg (Nat.not_lt.mpr two), even_n, Nat.add_sub_cancel]
  exact congrArg Except.ok rounds

theorem length_roundRobinSlots (two : 2 ≤ ids.length) :
    (roundRobinSlots ids).length = roundCount ids.length + 1 := by
  by_cases n_even : ids.length % 2 = 0
  · simp [roundRobinSlots, roundCount, n_even]
    omega
  · simp [roundRobinSlots, roundCount, n_even]

theorem roundCount_odd {n : ℕ} (two : 2 ≤ n) : roundCount n % 2 = 1 := by
  unfold roundCount
  split <;> omega

theorem le_roundCount (n : ℕ) : n ≤ roundCount n + 1 := by
  unfold roundCount
  split <;> omega

theorem exists_slot_of_mem {p : Text} (entered : p ∈ ids) : ∃ u < ids.length,
    ids[u]? = some p ∧ (roundRobinSlots ids).getD u none = some p := by
  rcases List.getElem?_of_mem entered with ⟨u, at_u⟩
  exact ⟨u, (List.getElem?_eq_some_iff.mp at_u).1, at_u, getD_roundRobinSlots at_u⟩

theorem exists_opponent {m r u : ℕ} (early : r < m) (inside : u ≤ m) : ∃ v ≤ m, Meet m r u v := by
  rcases exists_seat early inside with ⟨j, j_le, rfl⟩
  exact ⟨_, seat_le (Nat.sub_le _ j), j, j_le, rfl, rfl⟩

section leftOut

variable (distinct : ids.Nodup) (two : 2 ≤ ids.length) {r u : ℕ} {p : Text}

include distinct two

/-- Who is left out of a round meets a seat past the participants. -/
theorem exists_empty_of_leftOut (early : r < roundCount ids.length) (inside : u < ids.length)
    (at_u : (roundRobinSlots ids).getD u none = some p)
    (left_out : LeftOut (allMatches tournamentId (roundCount ids.length) (roundRobinSlots ids))
      ⟨.main, r + 1⟩ p) :
    ∃ v ≤ roundCount ids.length, ids.length ≤ v ∧ Meet (roundCount ids.length) r u v := by
  have seated : u ≤ roundCount ids.length := by
    have := le_roundCount ids.length
    omega
  rcases exists_opponent early seated with ⟨v, v_le, meet⟩
  have no_opponent := (leftOut_iff (length_roundRobinSlots two) (nodup_roundRobinSlots distinct)
    (roundCount_odd two) early at_u meet).mp left_out
  exact ⟨v, v_le, getD_roundRobinSlots_eq_none.mp no_opponent, meet⟩

theorem leftOut_of_meet_empty (early : r < roundCount ids.length)
    (at_u : (roundRobinSlots ids).getD u none = some p)
    (meet : Meet (roundCount ids.length) r u ids.length) :
    LeftOut (allMatches tournamentId (roundCount ids.length) (roundRobinSlots ids))
      ⟨.main, r + 1⟩ p :=
  (leftOut_iff (length_roundRobinSlots two) (nodup_roundRobinSlots distinct) (roundCount_odd two)
    early at_u meet).mpr (getD_roundRobinSlots_eq_none.mpr (Nat.le_refl _))

theorem existsUnique_leftOut (n_odd : ids.length % 2 = 1) (early : r < roundCount ids.length) :
    ∃! p, p ∈ ids ∧
      LeftOut (allMatches tournamentId (roundCount ids.length) (roundRobinSlots ids))
        ⟨.main, r + 1⟩ p := by
  have m_eq : roundCount ids.length = ids.length := if_neg (by omega)
  rcases exists_opponent early (Nat.le_of_eq m_eq.symm) with ⟨u, u_le, meet⟩
  have someone : u < ids.length := by
    rcases Nat.lt_or_ge u ids.length with inside | outside
    · exact inside
    · obtain rfl : u = ids.length := by omega
      exact absurd rfl (meet.distinct (roundCount_odd two) early)
  have at_u := List.getElem?_eq_getElem someone
  refine ⟨ids[u], ⟨List.getElem_mem someone,
    leftOut_of_meet_empty distinct two early (getD_roundRobinSlots at_u) meet.symm⟩, ?_⟩
  rintro p ⟨p_mem, left_out⟩
  rcases exists_slot_of_mem p_mem with ⟨u', inside, here, at_u'⟩
  rcases exists_empty_of_leftOut distinct two early inside at_u' left_out with
    ⟨v, v_le, outside, meet'⟩
  obtain rfl : v = ids.length := by omega
  obtain rfl := meet.opponent_unique early meet'.symm
  exact Option.some.inj (here.symm.trans at_u)

theorem existsUnique_leftOut_round (n_odd : ids.length % 2 = 1) (entered : p ∈ ids) :
    ∃! round, round ∈ allRounds (roundCount ids.length) ∧
      LeftOut (allMatches tournamentId (roundCount ids.length) (roundRobinSlots ids)) round p := by
  have m_eq : roundCount ids.length = ids.length := if_neg (by omega)
  rcases exists_slot_of_mem entered with ⟨u, inside, -, at_u⟩
  rcases exists_meet (roundCount_odd two) (show u ≤ roundCount ids.length by omega)
    (Nat.le_of_eq m_eq.symm) (Nat.ne_of_lt inside) with ⟨r, early, meet⟩
  refine ⟨⟨.main, r + 1⟩, ⟨List.mem_map.mpr ⟨r, List.mem_range.mpr early, rfl⟩,
    leftOut_of_meet_empty distinct two early at_u meet⟩, ?_⟩
  rintro round ⟨round_mem, left_out⟩
  rcases List.mem_map.mp round_mem with ⟨r', early', rfl⟩
  have early' := List.mem_range.mp early'
  rcases exists_empty_of_leftOut distinct two early' inside at_u left_out with
    ⟨v, v_le, outside, meet'⟩
  obtain rfl : v = ids.length := by omega
  rw [meet'.round_unique (roundCount_odd two) (Nat.ne_of_lt inside) early' early meet]

end leftOut

theorem roundRobin_allMatches (tournamentId : Text) (distinct : ids.Nodup) (two : 2 ≤ ids.length) :
    RoundRobin ids (allRounds (roundCount ids.length))
      (allMatches tournamentId (roundCount ids.length) (roundRobinSlots ids)) := by
  have long := length_roundRobinSlots two
  have odd := roundCount_odd two
  have nodup := nodup_roundRobinSlots distinct
  have enough := le_roundCount ids.length
  refine ⟨nodup_allMatches, ?_, ?_, ?_, ?_, ?_⟩
  · intro row row_mem
    rcases (mem_allMatches odd).mp row_mem with ⟨r, i, early, -, rfl⟩
    exact List.mem_map.mpr ⟨r, List.mem_range.mpr early, rfl⟩
  · intro p p_mem q q_mem different
    rcases exists_slot_of_mem p_mem with ⟨u, inside, -, at_u⟩
    rcases exists_slot_of_mem q_mem with ⟨v, inside', -, at_v⟩
    exact existsUnique_plays long nodup odd (by omega) (by omega) at_u at_v different
  · intro row row_mem row' row_mem' same_round slot slot' p here here'
    exact slot_unique long nodup odd row_mem row_mem' same_round here here'
  · intro n_odd
    constructor
    · intro round round_mem
      rcases List.mem_map.mp round_mem with ⟨r, early, rfl⟩
      exact existsUnique_leftOut distinct two n_odd (List.mem_range.mp early)
    · intro p entered
      exact existsUnique_leftOut_round distinct two n_odd entered
  · intro n_even round round_mem p p_mem left_out
    have m_eq : roundCount ids.length = ids.length - 1 := if_pos n_even
    rcases List.mem_map.mp round_mem with ⟨r, early, rfl⟩
    rcases exists_slot_of_mem p_mem with ⟨u, inside, -, at_u⟩
    rcases exists_empty_of_leftOut distinct two (List.mem_range.mp early) inside at_u left_out with
      ⟨v, v_le, outside, -⟩
    omega

/-- The pairings are complete: any two meet once, and with an odd number each is left out once. -/
theorem generateRoundRobinPairings_complete (tournamentId : Text) (ids : List Text)
    (distinct : ids.Nodup) (two : 2 ≤ ids.length) :
    ∃ rounds rows, generateRoundRobinPairings tournamentId ids = .ok (rounds, rows) ∧
      RoundRobin ids rounds rows :=
  ⟨_, _, generateRoundRobinPairings_eq tournamentId two,
    roundRobin_allMatches tournamentId distinct two⟩

/-- Three participants in three rounds. -/
theorem generateRoundRobinPairings_three :
    ∃ rounds rows, generateRoundRobinPairings ['t'] [['a'], ['b'], ['c']] = .ok (rounds, rows) ∧
      RoundRobin [['a'], ['b'], ['c']] rounds rows :=
  generateRoundRobinPairings_complete ['t'] _ (by decide) (by decide)

end pairings

end ScuffedCrew.Tournaments
