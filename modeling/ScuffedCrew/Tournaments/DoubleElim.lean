import ScuffedCrew.Tournaments.Bracket

/-!
# Double elimination

The bracket that `generate_double_elim_bracket` builds: losers of the winners
rounds drop into the losers rounds, which take them in every other round, and
the winners of both sides meet in the grand final.
-/

namespace ScuffedCrew.Tournaments

open Rust Database StateMachine

/-- The matches of the winners and of the losers rounds, the first of which is round 0. -/
def winnersId (round position : ℕ) : MatchId := ⟨⟨.winners, round + 1⟩, position⟩

def losersId (round position : ℕ) : MatchId := ⟨⟨.losers, round + 1⟩, position⟩

def grandFinalId : MatchId := ⟨⟨.grandFinal, 1⟩, 0⟩

structure DoubleElimShape where
  size : ℕ
  wRounds : ℕ
  lRoundCount : ℕ
  firstRoundMatches : ℕ

def doubleElimShape (n : ℕ) : DoubleElimShape :=
  let size := nextPowerOfTwo n
  let wRounds := Nat.log2 size
  { size
    wRounds
    lRoundCount := if wRounds ≤ 1 then 0 else 2 * (wRounds - 1)
    firstRoundMatches := size / 2 }

namespace DoubleElimShape

def losersCounts (shape : DoubleElimShape) : List ℕ :=
  ((List.range shape.lRoundCount).foldl
    (fun (counts, lCount) round =>
      (counts ++ [lCount], if round % 2 = 1 then max ((lCount + 1) / 2) 1 else lCount))
    ([], max (shape.firstRoundMatches / 2) 1)).1

def next (shape : DoubleElimShape) (id : MatchId) : Option (MatchId × Slot) :=
  let round := id.round.number - 1
  let position := id.position
  match id.round.stage with
  | .winners =>
      if round + 1 < shape.wRounds then
        if position / 2 < shape.firstRoundMatches / 2 ^ (round + 1) then
          some (winnersId (round + 1) (position / 2), pairSlot position)
        else none
      else if position = 0 then some (grandFinalId, .a) else none
  | .losers =>
      if round + 1 < shape.losersCounts.length then
        let (nextPosition, slot) :=
          if round % 2 = 0 then (position, .b) else (position / 2, pairSlot position)
        if nextPosition < shape.losersCounts.getD (round + 1) 0 then
          some (losersId (round + 1) nextPosition, slot)
        else none
      else if position = 0 then some (grandFinalId, .b) else none
  | _ => none

def loserNext (shape : DoubleElimShape) (id : MatchId) : Option (MatchId × Slot) :=
  let round := id.round.number - 1
  let position := id.position
  match id.round.stage with
  | .winners =>
      if shape.losersCounts.isEmpty then
        if round = 0 ∧ position = 0 then some (grandFinalId, .b) else none
      else
        let (loserRound, loserPosition, slot) :=
          if round = 0 then (0, position / 2, pairSlot position)
          else if round + 1 = shape.wRounds then (shape.losersCounts.length - 1, 0, .a)
          else (2 * round - 1, position, .a)
        if loserPosition < shape.losersCounts.getD loserRound 0 then
          some (losersId loserRound loserPosition, slot)
        else none
  | _ => none

end DoubleElimShape

def createDoubleElim (tournamentId : Text) (participantIds : List Text) : Matches :=
  let shape := doubleElimShape participantIds.length
  { keys :=
      ((List.range shape.wRounds).flatMap fun round =>
        (List.range (shape.firstRoundMatches / 2 ^ round)).map (winnersId round)) ++
      (shape.losersCounts.zipIdx.flatMap fun (count, round) =>
        (List.range count).map (losersId round)) ++
      [grandFinalId]
    row := fun id =>
      if id.round = ⟨.winners, 1⟩ then
        firstRoundMatch tournamentId (seededSlots participantIds shape.size) id
      else laterMatch tournamentId id }

/-- The bracket with its wires, before the byes go on. -/
def wiredDoubleElim (tournamentId : Text) (participantIds : List Text) : Matches :=
  let shape := doubleElimShape participantIds.length
  ((createDoubleElim tournamentId participantIds).updateNext shape.next).updateLoserNext
    shape.loserNext

def generateDoubleElimBracket (tournamentId : Text) (participantIds : List Text) : Matches :=
  (wiredDoubleElim tournamentId participantIds).advanceByes
    ((List.range (doubleElimShape participantIds.length).firstRoundMatches).map (winnersId 0))

@[simp]
theorem winnersId_inj {round position round' position' : ℕ} :
    winnersId round position = winnersId round' position' ↔ round = round' ∧ position = position' := by
  simp [winnersId]

@[simp]
theorem losersId_inj {round position round' position' : ℕ} :
    losersId round position = losersId round' position' ↔ round = round' ∧ position = position' := by
  simp [losersId]

@[simp]
theorem winnersId_ne_losersId {round position round' position' : ℕ} :
    winnersId round position ≠ losersId round' position' := by
  simp [winnersId, losersId]

@[simp]
theorem winnersId_ne_grandFinalId {round position : ℕ} :
    winnersId round position ≠ grandFinalId := by
  simp [winnersId, grandFinalId]

@[simp]
theorem losersId_ne_grandFinalId {round position : ℕ} :
    losersId round position ≠ grandFinalId := by
  simp [losersId, grandFinalId]

/-! ## The losers rounds -/

/-- The number of matches of a losers round of a bracket over `2 ^ (half + 1)` positions. -/
def losersCount (half round : ℕ) : ℕ := 2 ^ (half - 1 - round / 2)

theorem losersCounts_eq {shape : DoubleElimShape} {half : ℕ}
    (rounds : shape.lRoundCount = 2 * half) (first : shape.firstRoundMatches = 2 ^ half) :
    shape.losersCounts = (List.range (2 * half)).map (losersCount half) := by
  have counted : ∀ round,
      (List.range round).foldl
        (fun (counts, lCount) round =>
          (counts ++ [lCount], if round % 2 = 1 then max ((lCount + 1) / 2) 1 else lCount))
        (([] : List ℕ), losersCount half 0) =
      ((List.range round).map (losersCount half), losersCount half round) := by
    intro round
    induction round with
    | zero => rfl
    | succ round ih =>
        rw [List.range_succ, List.foldl_append, ih, List.map_append]
        simp only [List.foldl_cons, List.foldl_nil, List.map_cons, List.map_nil, Prod.mk.injEq,
          true_and, losersCount]
        split
        next odd =>
          rw [show (round + 1) / 2 = round / 2 + 1 by omega]
          rcases Nat.eq_zero_or_pos (half - 1 - round / 2) with last | before
          · rw [last, show half - 1 - (round / 2 + 1) = 0 by omega]
            rfl
          · rw [show half - 1 - round / 2 = half - 1 - (round / 2 + 1) + 1 by omega, Nat.pow_succ]
            have positive := Nat.two_pow_pos (half - 1 - (round / 2 + 1))
            omega
        next even => rw [show (round + 1) / 2 = round / 2 by omega]
  have start : max (shape.firstRoundMatches / 2) 1 = losersCount half 0 := by
    rw [first, losersCount, Nat.zero_div, Nat.sub_zero]
    cases half with
    | zero => rfl
    | succ half =>
        rw [Nat.pow_succ, Nat.add_sub_cancel]
        have positive := Nat.two_pow_pos half
        omega
  rw [DoubleElimShape.losersCounts, rounds, start, counted]

/-! ## The wires -/

def winnersTarget (half round position : ℕ) : MatchId × Slot :=
  if round < half then (winnersId (round + 1) (position / 2), pairSlot position)
  else (grandFinalId, .a)

def losersTarget (half round position : ℕ) : MatchId × Slot :=
  if round + 1 < 2 * half then
    if round % 2 = 0 then (losersId (round + 1) position, .b)
    else (losersId (round + 1) (position / 2), pairSlot position)
  else (grandFinalId, .b)

def dropTarget (half round position : ℕ) : MatchId × Slot :=
  if half = 0 then (grandFinalId, .b)
  else if round = 0 then (losersId 0 (position / 2), pairSlot position)
  else (losersId (2 * round - 1) position, .a)

/-- The match whose winner (left) or loser (right) enters a slot. -/
def slotSource (half : ℕ) (target : MatchId × Slot) : Option (MatchId ⊕ MatchId) :=
  let round := target.1.round.number - 1
  let position := target.1.position
  match target.1.round.stage, target.2 with
  | .winners, slot => some (.inl (winnersId (round - 1) (2 * position + slot.index)))
  | .losers, slot =>
      if round = 0 then some (.inr (winnersId 0 (2 * position + slot.index)))
      else if round % 2 = 0 then some (.inl (losersId (round - 1) (2 * position + slot.index)))
      else if slot = .a then some (.inr (winnersId ((round + 1) / 2) position))
      else some (.inl (losersId (round - 1) position))
  | .grandFinal, .a => some (.inl (winnersId half 0))
  | .grandFinal, .b =>
      if half = 0 then some (.inr (winnersId 0 0)) else some (.inl (losersId (2 * half - 1) 0))
  | .main, _ => none

structure DoubleElimWires (half : ℕ) (bracket : Matches) : Prop where
  keys : ∀ key, key ∈ bracket.keys ↔
    (∃ round position, key = winnersId round position ∧ round ≤ half ∧
      position < 2 ^ (half - round)) ∨
    (∃ round position, key = losersId round position ∧ round < 2 * half ∧
      position < losersCount half round) ∨
    key = grandFinalId
  winnersNext : ∀ round ≤ half, ∀ position < 2 ^ (half - round),
    (bracket.row (winnersId round position)).next = some (winnersTarget half round position)
  losersNext : ∀ round < 2 * half, ∀ position < losersCount half round,
    (bracket.row (losersId round position)).next = some (losersTarget half round position)
  finalNext : (bracket.row grandFinalId).next = none
  winnersDrop : ∀ round ≤ half, ∀ position < 2 ^ (half - round),
    (bracket.row (winnersId round position)).loserNext = some (dropTarget half round position)
  losersDrop : ∀ round position, (bracket.row (losersId round position)).loserNext = none
  finalDrop : (bracket.row grandFinalId).loserNext = none
  bye : ∀ key, (bracket.row key).status = .bye → ∃ position, key = winnersId 0 position

theorem slotSource_winnersTarget {half round position : ℕ} (inside : round ≤ half)
    (below : position < 2 ^ (half - round)) :
    slotSource half (winnersTarget half round position) = some (.inl (winnersId round position)) := by
  unfold winnersTarget
  split
  next =>
    simp only [slotSource, winnersId, index_pairSlot, Nat.add_sub_cancel, Nat.div_add_mod]
  next last =>
    obtain rfl : round = half := by omega
    rw [Nat.sub_self] at below
    obtain rfl : position = 0 := by omega
    rfl

theorem slotSource_losersTarget {half round position : ℕ} (inside : round < 2 * half)
    (below : position < losersCount half round) :
    slotSource half (losersTarget half round position) = some (.inl (losersId round position)) := by
  unfold losersTarget
  split
  next =>
    split
    next even =>
      have odd : ¬(round + 1) % 2 = 0 := by omega
      simp [slotSource, losersId, odd]
    next odd =>
      have even : (round + 1) % 2 = 0 := by omega
      simp [slotSource, losersId, even, Nat.div_add_mod]
  next last =>
    obtain rfl : round = 2 * half - 1 := by omega
    have one : losersCount half (2 * half - 1) = 1 := by
      rw [losersCount, show half - 1 - (2 * half - 1) / 2 = 0 by omega, Nat.pow_zero]
    obtain rfl : position = 0 := by omega
    have some_rounds : half ≠ 0 := by omega
    simp [slotSource, grandFinalId, some_rounds]

theorem slotSource_dropTarget {half round position : ℕ} (inside : round ≤ half)
    (below : position < 2 ^ (half - round)) :
    slotSource half (dropTarget half round position) = some (.inr (winnersId round position)) := by
  unfold dropTarget
  split
  next two =>
    obtain rfl : round = 0 := by omega
    obtain rfl := two
    obtain rfl : position = 0 := by
      rw [Nat.sub_self] at below
      omega
    rfl
  next =>
    split
    next first =>
      obtain rfl := first
      simp [slotSource, losersId, Nat.div_add_mod]
    next later =>
      have odd : ¬(2 * round - 1) % 2 = 0 := by omega
      have not_first : ¬2 * round - 1 = 0 := by omega
      have back : (2 * round - 1 + 1) / 2 = round := by omega
      simp [slotSource, losersId, odd, not_first, back]

theorem losersCount_even {half round : ℕ} (even : round % 2 = 0) :
    losersCount half (round + 1) = losersCount half round := by
  rw [losersCount, losersCount, show (round + 1) / 2 = round / 2 by omega]

theorem losersCount_odd {half round : ℕ} (later : round + 1 < 2 * half) (odd : ¬round % 2 = 0) :
    losersCount half round = losersCount half (round + 1) * 2 := by
  rw [losersCount, losersCount, ← Nat.pow_succ]
  congr 1
  omega

theorem losersCount_first {half : ℕ} (some_rounds : half ≠ 0) :
    2 ^ half = losersCount half 0 * 2 := by
  rw [losersCount, ← Nat.pow_succ]
  congr 1
  omega

theorem losersCount_drop {half round : ℕ} (later : round ≠ 0) (inside : round ≤ half) :
    losersCount half (2 * round - 1) = 2 ^ (half - round) := by
  rw [losersCount]
  congr 1
  omega

namespace DoubleElimWires

variable {half round position : ℕ} {bracket after : Matches} {id : MatchId} {winner : Text}

theorem mem_winners (wires : DoubleElimWires half bracket) :
    winnersId round position ∈ bracket.keys ↔ round ≤ half ∧ position < 2 ^ (half - round) := by
  rw [wires.keys]
  constructor
  · rintro (⟨round', position', same, bounds⟩ | ⟨round', position', same, -⟩ | same)
    · rcases winnersId_inj.mp same with ⟨rfl, rfl⟩
      exact bounds
    · exact absurd same winnersId_ne_losersId
    · exact absurd same winnersId_ne_grandFinalId
  · intro bounds
    exact .inl ⟨round, position, rfl, bounds⟩

theorem mem_losers (wires : DoubleElimWires half bracket) :
    losersId round position ∈ bracket.keys ↔ round < 2 * half ∧ position < losersCount half round := by
  rw [wires.keys]
  constructor
  · rintro (⟨round', position', same, -⟩ | ⟨round', position', same, bounds⟩ | same)
    · exact absurd same.symm winnersId_ne_losersId
    · rcases losersId_inj.mp same with ⟨rfl, rfl⟩
      exact bounds
    · exact absurd same losersId_ne_grandFinalId
  · intro bounds
    exact .inr (.inl ⟨round, position, rfl, bounds⟩)

theorem mem_final (wires : DoubleElimWires half bracket) : grandFinalId ∈ bracket.keys :=
  (wires.keys _).mpr (.inr (.inr rfl))

theorem winnersTarget_mem (wires : DoubleElimWires half bracket)
    (below : position < 2 ^ (half - round)) :
    (winnersTarget half round position).1 ∈ bracket.keys ∧
      ∀ position', (winnersTarget half round position).1 ≠ winnersId 0 position' := by
  unfold winnersTarget
  split
  next later =>
    have pairs : 2 ^ (half - round) = 2 ^ (half - (round + 1)) * 2 := by
      rw [← Nat.pow_succ]
      congr 1
      omega
    exact ⟨wires.mem_winners.mpr ⟨later, by omega⟩, by simp⟩
  next => exact ⟨wires.mem_final, fun position' => winnersId_ne_grandFinalId.symm⟩

theorem losersTarget_mem (wires : DoubleElimWires half bracket)
    (below : position < losersCount half round) :
    (losersTarget half round position).1 ∈ bracket.keys ∧
      ∀ position', (losersTarget half round position).1 ≠ winnersId 0 position' := by
  unfold losersTarget
  split
  next later =>
    split
    next even =>
      refine ⟨wires.mem_losers.mpr ⟨later, ?_⟩, fun position' => winnersId_ne_losersId.symm⟩
      rw [losersCount_even even]
      exact below
    next odd =>
      refine ⟨wires.mem_losers.mpr ⟨later, ?_⟩, fun position' => winnersId_ne_losersId.symm⟩
      have pairs := losersCount_odd later odd
      omega
  next => exact ⟨wires.mem_final, fun position' => winnersId_ne_grandFinalId.symm⟩

theorem dropTarget_mem (wires : DoubleElimWires half bracket) (inside : round ≤ half)
    (below : position < 2 ^ (half - round)) :
    (dropTarget half round position).1 ∈ bracket.keys ∧
      ∀ position', (dropTarget half round position).1 ≠ winnersId 0 position' := by
  unfold dropTarget
  split
  next => exact ⟨wires.mem_final, fun position' => winnersId_ne_grandFinalId.symm⟩
  next some_rounds =>
    split
    next first =>
      obtain rfl := first
      refine ⟨wires.mem_losers.mpr ⟨by omega, ?_⟩, fun position' => winnersId_ne_losersId.symm⟩
      have pairs := losersCount_first some_rounds
      rw [Nat.sub_zero] at below
      omega
    next later =>
      refine ⟨wires.mem_losers.mpr ⟨by omega, ?_⟩, fun position' => winnersId_ne_losersId.symm⟩
      rw [losersCount_drop later inside]
      exact below

theorem next_target (wires : DoubleElimWires half bracket) {key target : MatchId} {slot : Slot}
    (key_mem : key ∈ bracket.keys) (leads : (bracket.row key).next = some (target, slot)) :
    slotSource half (target, slot) = some (.inl key) ∧ target ∈ bracket.keys ∧
      ∀ position, target ≠ winnersId 0 position := by
  rcases (wires.keys key).mp key_mem with ⟨round, position, rfl, inside, below⟩ |
    ⟨round, position, rfl, inside, below⟩ | rfl
  · rw [wires.winnersNext round inside position below] at leads
    have source := slotSource_winnersTarget inside below
    have stored := wires.winnersTarget_mem below
    rw [Option.some.inj leads] at source stored
    exact ⟨source, stored⟩
  · rw [wires.losersNext round inside position below] at leads
    have source := slotSource_losersTarget inside below
    have stored := wires.losersTarget_mem below
    rw [Option.some.inj leads] at source stored
    exact ⟨source, stored⟩
  · rw [wires.finalNext] at leads
    cases leads

theorem loserNext_target (wires : DoubleElimWires half bracket) {key target : MatchId} {slot : Slot}
    (key_mem : key ∈ bracket.keys) (leads : (bracket.row key).loserNext = some (target, slot)) :
    slotSource half (target, slot) = some (.inr key) ∧ target ∈ bracket.keys ∧
      ∀ position, target ≠ winnersId 0 position := by
  rcases (wires.keys key).mp key_mem with ⟨round, position, rfl, inside, below⟩ |
    ⟨round, position, rfl, -⟩ | rfl
  · rw [wires.winnersDrop round inside position below] at leads
    have source := slotSource_dropTarget inside below
    have stored := wires.dropTarget_mem inside below
    rw [Option.some.inj leads] at source stored
    exact ⟨source, stored⟩
  · rw [wires.losersDrop] at leads
    cases leads
  · rw [wires.finalDrop] at leads
    cases leads

theorem wired (wires : DoubleElimWires half bracket) : Wired bracket := by
  have not_bye : ∀ target, (∀ position, target ≠ winnersId 0 position) →
      (bracket.row target).status ≠ .bye := by
    intro target later bye
    rcases wires.bye target bye with ⟨position, first⟩
    exact later position first
  refine .of_source (slotSource half) ?_ ?_
  · intro key key_mem target slot leads
    rcases wires.next_target key_mem leads with ⟨source, stored, later⟩
    exact ⟨source, stored, not_bye target later⟩
  · intro key key_mem target slot leads
    rcases wires.loserNext_target key_mem leads with ⟨source, stored, later⟩
    exact ⟨source, stored, not_bye target later⟩

theorem reported (wires : DoubleElimWires half bracket)
    (reported : Reported bracket after id winner) : DoubleElimWires half after where
  keys := reported.keys ▸ wires.keys
  winnersNext := by
    simp only [reported.next]
    exact wires.winnersNext
  losersNext := by
    simp only [reported.next]
    exact wires.losersNext
  finalNext := (reported.next _).trans wires.finalNext
  winnersDrop := by
    simp only [reported.loserNext]
    exact wires.winnersDrop
  losersDrop := by
    simp only [reported.loserNext]
    exact wires.losersDrop
  finalDrop := (reported.loserNext _).trans wires.finalDrop
  bye := by
    simp only [reported.bye_iff]
    exact wires.bye

end DoubleElimWires

/-! ## The generated bracket -/

section Shape

variable {n half round position : ℕ}

theorem doubleElimShape_eq (size_eq : nextPowerOfTwo n = 2 ^ (half + 1)) :
    doubleElimShape n = ⟨2 ^ (half + 1), half + 1, 2 * half, 2 ^ half⟩ := by
  have halves : 2 ^ (half + 1) / 2 = 2 ^ half := by omega
  simp only [doubleElimShape, size_eq, log2_two_pow, halves, Nat.add_sub_cancel,
    DoubleElimShape.mk.injEq, true_and, and_true]
  split <;> omega

theorem losersCounts_shape (half : ℕ) :
    (⟨2 ^ (half + 1), half + 1, 2 * half, 2 ^ half⟩ : DoubleElimShape).losersCounts =
      (List.range (2 * half)).map (losersCount half) :=
  losersCounts_eq rfl rfl

theorem getD_losersCounts (inside : round < 2 * half) :
    ((List.range (2 * half)).map (losersCount half)).getD round 0 = losersCount half round := by
  simp [inside]

theorem next_winners (inside : round ≤ half) (below : position < 2 ^ (half - round)) :
    (⟨2 ^ (half + 1), half + 1, 2 * half, 2 ^ half⟩ : DoubleElimShape).next
      (winnersId round position) = some (winnersTarget half round position) := by
  simp only [DoubleElimShape.next, winnersId, Nat.add_sub_cancel, winnersTarget,
    Nat.add_lt_add_iff_right]
  split
  next later =>
    have pairs : 2 ^ (half - round) = 2 ^ half / 2 ^ (round + 1) * 2 := by
      rw [Nat.pow_div (by omega) (by omega), ← Nat.pow_succ]
      congr 1
      omega
    rw [if_pos (by omega)]
  next last =>
    rw [show half - round = 0 by omega] at below
    exact if_pos (by omega)

theorem next_losers (inside : round < 2 * half) (below : position < losersCount half round) :
    (⟨2 ^ (half + 1), half + 1, 2 * half, 2 ^ half⟩ : DoubleElimShape).next
      (losersId round position) = some (losersTarget half round position) := by
  simp only [DoubleElimShape.next, losersId, Nat.add_sub_cancel, losersTarget, losersCounts_shape,
    List.length_map, List.length_range]
  split
  next later =>
    rw [getD_losersCounts later]
    split
    next even =>
      have same := @losersCount_even half round even
      rw [if_pos (by omega)]
    next odd =>
      have pairs := losersCount_odd later odd
      rw [if_pos (by omega)]
  next last =>
    have one : losersCount half round = 1 := by
      rw [losersCount, show half - 1 - round / 2 = 0 by omega, Nat.pow_zero]
    exact if_pos (by omega)

theorem loserNext_winners (inside : round ≤ half) (below : position < 2 ^ (half - round)) :
    (⟨2 ^ (half + 1), half + 1, 2 * half, 2 ^ half⟩ : DoubleElimShape).loserNext
      (winnersId round position) = some (dropTarget half round position) := by
  simp only [DoubleElimShape.loserNext, winnersId, Nat.add_sub_cancel, dropTarget,
    losersCounts_shape, List.length_map, List.length_range, Nat.add_right_cancel_iff]
  have some_rounds : ((List.range (2 * half)).map (losersCount half)).isEmpty = true ↔ half = 0 := by
    simp only [List.isEmpty_iff, List.map_eq_nil_iff, List.range_eq_nil]
    omega
  by_cases two : half = 0
  · obtain rfl := two
    obtain rfl : round = 0 := by omega
    rw [Nat.sub_self] at below
    obtain rfl : position = 0 := by omega
    rfl
  · rw [if_neg (fun empty => two (some_rounds.mp empty)), if_neg two]
    by_cases first : round = 0
    · obtain rfl := first
      have pairs := losersCount_first two
      rw [Nat.sub_zero] at below
      simp only [if_true, getD_losersCounts (show 0 < 2 * half by omega)]
      rw [if_pos (by omega)]
    · have drops := losersCount_drop first inside
      rw [← drops] at below
      simp only [if_neg first]
      by_cases last : round = half
      · obtain rfl := last
        have one : losersCount round (2 * round - 1) = 1 := by rw [drops, Nat.sub_self, Nat.pow_zero]
        obtain rfl : position = 0 := by omega
        simp only [if_true, getD_losersCounts (show 2 * round - 1 < 2 * round by omega)]
        rw [if_pos below]
      · simp only [if_neg last, getD_losersCounts (show 2 * round - 1 < 2 * half by omega)]
        rw [if_pos below]

end Shape

section Generated

variable {tournamentId : Text} {ids : List Text} {half round position : ℕ}

theorem mem_createDoubleElim (size_eq : nextPowerOfTwo ids.length = 2 ^ (half + 1)) (key : MatchId) :
    key ∈ (wiredDoubleElim tournamentId ids).keys ↔
      (∃ round position, key = winnersId round position ∧ round ≤ half ∧
        position < 2 ^ (half - round)) ∨
      (∃ round position, key = losersId round position ∧ round < 2 * half ∧
        position < losersCount half round) ∨
      key = grandFinalId := by
  simp only [wiredDoubleElim, Matches.updateLoserNext, Matches.updateNext, createDoubleElim,
    doubleElimShape_eq size_eq, losersCounts_shape, List.mem_append, List.mem_flatMap, List.mem_map,
    List.mem_range, List.mem_singleton, or_assoc]
  refine or_congr ?_ (or_congr ?_ Iff.rfl)
  · constructor
    · rintro ⟨round, later, position, below, rfl⟩
      rw [Nat.pow_div (by omega) (by omega)] at below
      exact ⟨round, position, rfl, by omega, below⟩
    · rintro ⟨round, position, rfl, later, below⟩
      rw [← Nat.pow_div (by omega) (by omega)] at below
      exact ⟨round, by omega, position, below, rfl⟩
  · constructor
    · rintro ⟨⟨count, round⟩, round_mem, position, below, rfl⟩
      rcases List.mem_zipIdx' round_mem with ⟨inside, at_round⟩
      simp only [List.length_map, List.length_range] at inside
      simp only [List.getElem_map, List.getElem_range] at at_round
      exact ⟨round, position, rfl, inside, at_round ▸ below⟩
    · rintro ⟨round, position, rfl, inside, below⟩
      refine ⟨(losersCount half round, round), ?_, position, below, rfl⟩
      rw [List.mem_zipIdx_iff_getElem?]
      simp [inside]

theorem later_wiredDoubleElim {key : MatchId} (later : ∀ position, key ≠ winnersId 0 position) :
    ((wiredDoubleElim tournamentId ids).row key).status = .pending ∧
      ∀ slot, ((wiredDoubleElim tournamentId ids).row key).participant slot = none := by
  have not_first : key.round ≠ ⟨.winners, 1⟩ := by
    intro first
    exact later key.position (by rw [winnersId, Nat.zero_add, ← first])
  simp only [wiredDoubleElim, Matches.updateLoserNext, Matches.updateNext, createDoubleElim,
    if_neg not_first, TournamentMatch.status_updateMatchNext,
    TournamentMatch.status_updateMatchLoserNext, TournamentMatch.participant_updateMatchNext,
    TournamentMatch.participant_updateMatchLoserNext]
  exact ⟨rfl, fun slot => by cases slot <;> rfl⟩

theorem first_wiredDoubleElim (size_eq : nextPowerOfTwo ids.length = 2 ^ (half + 1)) (position : ℕ) :
    (∀ slot, ((wiredDoubleElim tournamentId ids).row (winnersId 0 position)).participant slot =
      positioned ids (half + 1) (2 * position + slot.index)) ∧
    (((wiredDoubleElim tournamentId ids).row (winnersId 0 position)).status = .bye ∧
        (∃ slot : Slot, positioned ids (half + 1) (2 * position + slot.index) = none) ∨
      ((wiredDoubleElim tournamentId ids).row (winnersId 0 position)).status = .pending ∧
        ∀ slot : Slot, (positioned ids (half + 1) (2 * position + slot.index)).isSome = true) := by
  have first : (winnersId 0 position).round = ⟨.winners, 1⟩ := rfl
  simp only [wiredDoubleElim, Matches.updateLoserNext, Matches.updateNext, createDoubleElim,
    if_pos first, TournamentMatch.status_updateMatchNext,
    TournamentMatch.status_updateMatchLoserNext, TournamentMatch.participant_updateMatchNext,
    TournamentMatch.participant_updateMatchLoserNext, doubleElimShape_eq size_eq]
  exact ⟨participant_firstRoundMatch _ _ _ _, status_firstRoundMatch _ _ _ _⟩

theorem created_wiredDoubleElim (key : MatchId) :
    ((wiredDoubleElim tournamentId ids).row key).tournamentId = tournamentId ∧
      ((wiredDoubleElim tournamentId ids).row key).next =
        (doubleElimShape ids.length).next key ∧
      ((wiredDoubleElim tournamentId ids).row key).loserNext =
        (doubleElimShape ids.length).loserNext key := by
  have same : ∀ (row : TournamentMatch) (wire wire' : Option (MatchId × Slot)),
      ((row.updateMatchNext wire).updateMatchLoserNext wire').tournamentId = row.tournamentId := by
    intro row wire wire'
    cases wire <;> cases wire' <;> rfl
  have created : ∀ key, ((createDoubleElim tournamentId ids).row key).tournamentId = tournamentId ∧
      ((createDoubleElim tournamentId ids).row key).next = none ∧
      ((createDoubleElim tournamentId ids).row key).loserNext = none := by
    intro key
    simp only [createDoubleElim]
    split <;> exact ⟨rfl, rfl, rfl⟩
  rcases created key with ⟨created_in, no_next, no_loserNext⟩
  simp only [wiredDoubleElim, Matches.updateLoserNext, Matches.updateNext, same, created_in,
    TournamentMatch.next_updateMatchLoserNext, TournamentMatch.next_updateMatchNext, no_next,
    TournamentMatch.loserNext_updateMatchLoserNext, TournamentMatch.loserNext_updateMatchNext,
    no_loserNext, Option.or_none, and_self]

theorem undecided_wiredDoubleElim (size_eq : nextPowerOfTwo ids.length = 2 ^ (half + 1))
    (key : MatchId) : ((wiredDoubleElim tournamentId ids).row key).status ≠ .completed := by
  by_cases first : ∃ position, key = winnersId 0 position
  · rcases first with ⟨position, rfl⟩
    rcases (first_wiredDoubleElim size_eq position).2 with ⟨bye, -⟩ | ⟨pending, -⟩
    · rw [bye]
      simp
    · rw [pending]
      simp
  · rw [(later_wiredDoubleElim fun position same => first ⟨position, same⟩).1]
    simp

theorem wires_wiredDoubleElim (size_eq : nextPowerOfTwo ids.length = 2 ^ (half + 1)) :
    DoubleElimWires half (wiredDoubleElim tournamentId ids) where
  keys := mem_createDoubleElim size_eq
  winnersNext := by
    intro round inside position below
    rw [(created_wiredDoubleElim _).2.1, doubleElimShape_eq size_eq, next_winners inside below]
  losersNext := by
    intro round inside position below
    rw [(created_wiredDoubleElim _).2.1, doubleElimShape_eq size_eq, next_losers inside below]
  finalNext := (created_wiredDoubleElim _).2.1
  winnersDrop := by
    intro round inside position below
    rw [(created_wiredDoubleElim _).2.2, doubleElimShape_eq size_eq, loserNext_winners inside below]
  losersDrop := fun round position => (created_wiredDoubleElim _).2.2
  finalDrop := (created_wiredDoubleElim _).2.2
  bye := by
    intro key bye
    by_contra first
    rw [(later_wiredDoubleElim fun position same => first ⟨position, same⟩).1] at bye
    cases bye

theorem byesFed_doubleElim (size_eq : nextPowerOfTwo ids.length = 2 ^ (half + 1)) :
    ByesFed (wiredDoubleElim tournamentId ids) (generateDoubleElimBracket tournamentId ids)
      ((List.range (2 ^ half)).map (winnersId 0)) := by
  have wires := @wires_wiredDoubleElim tournamentId _ _ size_eq
  rw [generateDoubleElimBracket, doubleElimShape_eq size_eq]
  refine advanceByes_fed wires.wired ?_ ?_ (undecided_wiredDoubleElim size_eq) ?_
  · intro id id_mem
    rcases List.mem_map.mp id_mem with ⟨position, below, rfl⟩
    exact wires.mem_winners.mpr ⟨Nat.zero_le _, List.mem_range.mp below⟩
  · refine List.nodup_range.map ?_
    intro position position' same
    exact (winnersId_inj.mp same).2
  · intro key key_mem target slot leads
    exact (later_wiredDoubleElim (wires.next_target key_mem leads).2.2).2 slot

theorem wires_generateDoubleElimBracket (size_eq : nextPowerOfTwo ids.length = 2 ^ (half + 1)) :
    DoubleElimWires half (generateDoubleElimBracket tournamentId ids) := by
  have wires := @wires_wiredDoubleElim tournamentId _ _ size_eq
  have byes := @byesFed_doubleElim tournamentId _ _ size_eq
  exact
    { keys := byes.keys ▸ wires.keys
      winnersNext := by
        simp only [(byes.same _).next]
        exact wires.winnersNext
      losersNext := by
        simp only [(byes.same _).next]
        exact wires.losersNext
      finalNext := (byes.same _).next.trans wires.finalNext
      winnersDrop := by
        simp only [(byes.same _).loserNext]
        exact wires.winnersDrop
      losersDrop := by
        simp only [(byes.same _).loserNext]
        exact wires.losersDrop
      finalDrop := (byes.same _).loserNext.trans wires.finalDrop
      bye := by
        simp only [(byes.same _).status]
        exact wires.bye }

end Generated

end ScuffedCrew.Tournaments
