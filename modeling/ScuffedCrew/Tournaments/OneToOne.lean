import ScuffedCrew.Tournaments.DoubleElim

/-!
# One edge for each slot

In a double elimination bracket the edges of the winners and of the losers run
one to one to the slots behind the first winners round.
-/

namespace ScuffedCrew.Tournaments

open Rust Database

/-- The winner (left) or the loser (right) of a stored match goes to the slot. -/
def Feeds (bracket : Matches) (target : MatchId × Slot) : MatchId ⊕ MatchId → Prop
  | .inl key => key ∈ bracket.keys ∧ (bracket.row key).next = some target
  | .inr key => key ∈ bracket.keys ∧ (bracket.row key).loserNext = some target

def feeder : MatchId ⊕ MatchId → MatchId
  | .inl key => key
  | .inr key => key

/-- The order of play: a drop comes after both rounds that it joins. -/
def depth (shape : DoubleElimShape) (id : MatchId) : ℕ :=
  match id.round.stage with
  | .winners => 2 * id.round.number
  | .losers => id.round.number + 3
  | .grandFinal => 2 * shape.wRounds + 2
  | .main => 0

def winnersFinalId (shape : DoubleElimShape) : MatchId := winnersId (shape.wRounds - 1) 0

def losersFinalId (shape : DoubleElimShape) : MatchId := losersId (shape.lRoundCount - 1) 0

structure OneToOne (shape : DoubleElimShape) (bracket : Matches) : Prop where
  fed : ∀ key ∈ bracket.keys, key.round ≠ ⟨.winners, 1⟩ → ∀ slot,
    ∃! edge, Feeds bracket (key, slot) edge
  winners : ∀ key ∈ bracket.keys, key.round.stage = .winners →
    (∃ target, Feeds bracket target (.inl key)) ∧ ∃ target, Feeds bracket target (.inr key)
  stored : ∀ target edge, Feeds bracket target edge → target.1 ∈ bracket.keys
  earlier : ∀ target edge, Feeds bracket target edge →
    depth shape (feeder edge) < depth shape target.1
  first : Feeds bracket (grandFinalId, .a) (.inl (winnersFinalId shape))

namespace DoubleElimWires

variable {half round position : ℕ} {bracket : Matches} {key : MatchId} {slot : Slot}

@[simp]
theorem pairSlot_index (position : ℕ) (slot : Slot) : pairSlot (2 * position + slot.index) = slot := by
  have side := slot.index_lt
  apply pairSlot_eq_iff.mpr
  omega

theorem half_index (position : ℕ) (slot : Slot) : (2 * position + slot.index) / 2 = position := by
  have side := slot.index_lt
  omega

theorem winners_fed (wires : DoubleElimWires half bracket) (inside : round + 1 ≤ half)
    (below : position < 2 ^ (half - (round + 1))) (slot : Slot) :
    Feeds bracket (winnersId (round + 1) position, slot)
      (.inl (winnersId round (2 * position + slot.index))) := by
  have side := slot.index_lt
  have pairs : 2 ^ (half - round) = 2 ^ (half - (round + 1)) * 2 := by
    rw [← Nat.pow_succ]
    congr 1
    omega
  have below' : 2 * position + slot.index < 2 ^ (half - round) := by omega
  refine ⟨wires.mem_winners.mpr ⟨by omega, below'⟩, ?_⟩
  rw [wires.winnersNext round (by omega) _ below', winnersTarget, if_pos (by omega), half_index,
    pairSlot_index]

theorem losers_fed (wires : DoubleElimWires half bracket) (inside : round < 2 * half)
    (below : position < losersCount half round) (slot : Slot) :
    ∃ edge, Feeds bracket (losersId round position, slot) edge := by
  have side := slot.index_lt
  by_cases first : round = 0
  · subst first
    have pairs := @losersCount_first half (by omega)
    have below' : 2 * position + slot.index < 2 ^ (half - 0) := by
      rw [Nat.sub_zero]
      omega
    refine ⟨.inr (winnersId 0 (2 * position + slot.index)),
      wires.mem_winners.mpr ⟨Nat.zero_le _, below'⟩, ?_⟩
    rw [wires.winnersDrop 0 (Nat.zero_le _) _ below', dropTarget, if_neg (by omega), if_pos rfl,
      half_index, pairSlot_index]
  · obtain ⟨before, rfl⟩ : ∃ before, round = before + 1 := ⟨round - 1, by omega⟩
    by_cases even : before % 2 = 0
    · have same := @losersCount_even half before even
      cases slot with
      | a =>
          -- a drop from the winners round of the same size
          have later : before / 2 + 1 ≠ 0 := by omega
          have drop : 2 * (before / 2 + 1) - 1 = before + 1 := by omega
          have count := @losersCount_drop half (before / 2 + 1) later (by omega)
          rw [drop] at count
          rw [count] at below
          refine ⟨.inr (winnersId (before / 2 + 1) position),
            wires.mem_winners.mpr ⟨by omega, below⟩, ?_⟩
          rw [wires.winnersDrop _ (by omega) _ below, dropTarget, if_neg (by omega), if_neg later, drop]
      | b =>
          refine ⟨.inl (losersId before position), wires.mem_losers.mpr ⟨by omega, by omega⟩, ?_⟩
          rw [wires.losersNext before (by omega) _ (by omega), losersTarget, if_pos inside, if_pos even]
    · have pairs := losersCount_odd inside even
      refine ⟨.inl (losersId before (2 * position + slot.index)),
        wires.mem_losers.mpr ⟨by omega, by omega⟩, ?_⟩
      rw [wires.losersNext before (by omega) _ (by omega), losersTarget, if_pos inside, if_neg even,
        half_index, pairSlot_index]

theorem final_first (wires : DoubleElimWires half bracket) :
    Feeds bracket (grandFinalId, .a) (.inl (winnersId half 0)) := by
  have one : 0 < 2 ^ (half - half) := Nat.two_pow_pos _
  refine ⟨wires.mem_winners.mpr ⟨Nat.le_refl half, one⟩, ?_⟩
  rw [wires.winnersNext half (Nat.le_refl half) 0 one, winnersTarget, if_neg (by omega)]

theorem final_second (wires : DoubleElimWires half bracket) :
    Feeds bracket (grandFinalId, .b)
      (if half = 0 then .inr (winnersId 0 0) else .inl (losersId (2 * half - 1) 0)) := by
  by_cases two : half = 0
  · subst two
    have one : 0 < 2 ^ (0 - 0) := Nat.two_pow_pos _
    rw [if_pos rfl]
    refine ⟨wires.mem_winners.mpr ⟨Nat.le_refl 0, one⟩, ?_⟩
    rw [wires.winnersDrop 0 (Nat.le_refl 0) 0 one, dropTarget, if_pos rfl]
  · have one : 0 < losersCount half (2 * half - 1) := Nat.two_pow_pos _
    rw [if_neg two]
    refine ⟨wires.mem_losers.mpr ⟨by omega, one⟩, ?_⟩
    rw [wires.losersNext (2 * half - 1) (by omega) 0 one, losersTarget, if_neg (by omega)]

/-- No two edges enter one slot. -/
theorem feeds_unique (wires : DoubleElimWires half bracket) {target : MatchId × Slot}
    {edge edge' : MatchId ⊕ MatchId} (feeds : Feeds bracket target edge)
    (feeds' : Feeds bracket target edge') : edge = edge' := by
  have source {edge : MatchId ⊕ MatchId} (feeds : Feeds bracket target edge) :
      slotSource half target = some edge := by
    cases edge with
    | inl key => exact (wires.next_target feeds.1 feeds.2).1
    | inr key => exact (wires.loserNext_target feeds.1 feeds.2).1
  exact Option.some.inj ((source feeds).symm.trans (source feeds'))

theorem depth_lt (wires : DoubleElimWires half bracket) {shape : DoubleElimShape}
    (rounds : shape.wRounds = half + 1) {target : MatchId × Slot} {edge : MatchId ⊕ MatchId}
    (feeds : Feeds bracket target edge) : depth shape (feeder edge) < depth shape target.1 := by
  cases edge with
  | inl key =>
      rcases feeds with ⟨key_mem, leads⟩
      rcases (wires.keys key).mp key_mem with ⟨round, position, rfl, inside, below⟩ |
        ⟨round, position, rfl, inside, below⟩ | rfl
      · rw [wires.winnersNext round inside position below] at leads
        rw [← Option.some.inj leads, winnersTarget]
        split <;> simp [depth, feeder, winnersId, grandFinalId]
        omega
      · rw [wires.losersNext round inside position below] at leads
        rw [← Option.some.inj leads, losersTarget]
        split
        · split <;> simp [depth, feeder, losersId]
        · simp [depth, feeder, losersId, grandFinalId]
          omega
      · rw [wires.finalNext] at leads
        cases leads
  | inr key =>
      rcases feeds with ⟨key_mem, leads⟩
      rcases (wires.keys key).mp key_mem with ⟨round, position, rfl, inside, below⟩ |
        ⟨round, position, rfl, -⟩ | rfl
      · rw [wires.winnersDrop round inside position below] at leads
        rw [← Option.some.inj leads, dropTarget]
        split
        · simp [depth, feeder, winnersId, grandFinalId]
          omega
        · split <;> simp [depth, feeder, winnersId, losersId] <;> omega
      · rw [wires.losersDrop] at leads
        cases leads
      · rw [wires.finalDrop] at leads
        cases leads

theorem oneToOne (wires : DoubleElimWires half bracket) {shape : DoubleElimShape}
    (rounds : shape.wRounds = half + 1) : OneToOne shape bracket where
  fed := by
    intro key key_mem later slot
    have some_edge : ∃ edge, Feeds bracket (key, slot) edge := by
      rcases (wires.keys key).mp key_mem with ⟨round, position, rfl, inside, below⟩ |
        ⟨round, position, rfl, inside, below⟩ | rfl
      · cases round with
        | zero => exact absurd rfl later
        | succ round => exact ⟨_, wires.winners_fed inside below slot⟩
      · exact wires.losers_fed inside below slot
      · cases slot with
        | a => exact ⟨_, wires.final_first⟩
        | b => exact ⟨_, wires.final_second⟩
    rcases some_edge with ⟨edge, feeds⟩
    exact ⟨edge, feeds, fun edge' feeds' => wires.feeds_unique feeds' feeds⟩
  winners := by
    intro key key_mem in_winners
    rcases (wires.keys key).mp key_mem with ⟨round, position, rfl, inside, below⟩ |
      ⟨round, position, rfl, -⟩ | rfl
    · exact ⟨⟨_, key_mem, wires.winnersNext round inside position below⟩,
        ⟨_, key_mem, wires.winnersDrop round inside position below⟩⟩
    · cases in_winners
    · cases in_winners
  stored := by
    rintro ⟨target, slot⟩ edge feeds
    cases edge with
    | inl key => exact (wires.next_target feeds.1 feeds.2).2.1
    | inr key => exact (wires.loserNext_target feeds.1 feeds.2).2.1
  earlier := fun target edge feeds => wires.depth_lt rounds feeds
  first := by
    rw [winnersFinalId, rounds, Nat.add_sub_cancel]
    exact wires.final_first

end DoubleElimWires

/-- The edges run one to one to the slots; without losers rounds the loser of the only winners match
is the second of the grand final. -/
theorem generateDoubleElimBracket_oneToOne (tournamentId : Text) (ids : List Text)
    (two : 2 ≤ ids.length) :
    OneToOne (doubleElimShape ids.length) (generateDoubleElimBracket tournamentId ids) ∧
      Feeds (generateDoubleElimBracket tournamentId ids) (grandFinalId, .b)
        (if (doubleElimShape ids.length).lRoundCount = 0 then
          .inr (winnersFinalId (doubleElimShape ids.length))
        else .inl (losersFinalId (doubleElimShape ids.length))) := by
  rcases nextPowerOfTwo_eq two with ⟨half, size_eq, -⟩
  have wires := @wires_generateDoubleElimBracket tournamentId ids half size_eq
  have shape := doubleElimShape_eq size_eq
  have no_rounds : 2 * half = 0 ↔ half = 0 := by omega
  have second := wires.final_second
  refine ⟨wires.oneToOne (by rw [shape]), ?_⟩
  simp only [shape, winnersFinalId, losersFinalId, no_rounds, Nat.add_sub_cancel]
  by_cases one_match : half = 0
  · rw [if_pos one_match] at second ⊢
    rw [one_match]
    exact second
  · rw [if_neg one_match] at second ⊢
    exact second

/-- Five participants. -/
theorem generateDoubleElimBracket_oneToOne_five :
    OneToOne (doubleElimShape 5)
        (generateDoubleElimBracket ['t'] [['a'], ['b'], ['c'], ['d'], ['e']]) ∧
      Feeds (generateDoubleElimBracket ['t'] [['a'], ['b'], ['c'], ['d'], ['e']]) (grandFinalId, .b)
        (if (doubleElimShape 5).lRoundCount = 0 then .inr (winnersFinalId (doubleElimShape 5))
        else .inl (losersFinalId (doubleElimShape 5))) :=
  generateDoubleElimBracket_oneToOne ['t'] [['a'], ['b'], ['c'], ['d'], ['e']] (by decide)

/-- With two participants no losers match feeds the grand final. -/
theorem grandFinal_without_losers :
    ¬∃ round position, Feeds (generateDoubleElimBracket ['t'] [['a'], ['b']]) (grandFinalId, .b)
      (.inl (losersId round position)) := by
  rintro ⟨round, position, feeds⟩
  have wires := @wires_generateDoubleElimBracket ['t'] [['a'], ['b']] 0 rfl
  cases wires.feeds_unique feeds wires.final_second

end ScuffedCrew.Tournaments
