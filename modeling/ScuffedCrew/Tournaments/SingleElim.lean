import ScuffedCrew.Tournaments.Bracket

/-!
# Single elimination

The bracket that `generate_single_elim_bracket` builds, and what stays true of
it while matches are reported: a participant stands in the matches over its own
position of the first round, and in a later round only after winning the one
before.
-/

namespace ScuffedCrew.Tournaments

open Rust Database StateMachine

/-- The match at a position of a round, the first of which is round 0. -/
def mainId (round position : ℕ) : MatchId := ⟨⟨.main, round + 1⟩, position⟩

def createSingleElim (tournamentId : Text) (participantIds : List Text) : Matches :=
  let size := nextPowerOfTwo participantIds.length
  { keys :=
      (List.range (Nat.log2 size)).flatMap fun round =>
        (List.range (size / 2 / 2 ^ round)).map (mainId round)
    row := fun id =>
      if id.round.number = 1 then
        firstRoundMatch tournamentId (seededSlots participantIds size) id
      else laterMatch tournamentId id }

/-- Two neighbours of a round meet in the next one. -/
def singleElimNext (numRounds firstRound : ℕ) (id : MatchId) : Option (MatchId × Slot) :=
  if id.round.number < numRounds ∧ id.position / 2 < firstRound / 2 ^ id.round.number then
    some (mainId id.round.number (id.position / 2), pairSlot id.position)
  else none

def generateSingleElimBracket (tournamentId : Text) (participantIds : List Text) : Matches :=
  let size := nextPowerOfTwo participantIds.length
  ((createSingleElim tournamentId participantIds).updateNext
    (singleElimNext (Nat.log2 size) (size / 2))).advanceByes ((List.range (size / 2)).map (mainId 0))

@[simp]
theorem mainId_inj {round position round' position' : ℕ} :
    mainId round position = mainId round' position' ↔ round = round' ∧ position = position' := by
  simp [mainId]

/-- The wires of a single elimination bracket over `2 ^ (half + 1)` positions. -/
structure SingleElimWires (half : ℕ) (bracket : Matches) : Prop where
  keys : ∀ key, key ∈ bracket.keys ↔
    ∃ round position, key = mainId round position ∧ round ≤ half ∧ position < 2 ^ (half - round)
  next : ∀ round position, mainId round position ∈ bracket.keys →
    (bracket.row (mainId round position)).next =
      if round < half then some (mainId (round + 1) (position / 2), pairSlot position) else none
  loserNext : ∀ key, (bracket.row key).loserNext = none
  bye : ∀ round position, (bracket.row (mainId round position)).status = .bye → round = 0

namespace SingleElimWires

variable {half round position : ℕ} {bracket after : Matches} {id : MatchId} {winner : Text}
  {slot : Slot}

theorem mem_keys (wires : SingleElimWires half bracket) :
    mainId round position ∈ bracket.keys ↔ round ≤ half ∧ position < 2 ^ (half - round) := by
  rw [wires.keys]
  constructor
  · rintro ⟨round', position', same, bounds⟩
    rcases mainId_inj.mp same with ⟨rfl, rfl⟩
    exact bounds
  · intro bounds
    exact ⟨round, position, rfl, bounds⟩

theorem next_eq_some (wires : SingleElimWires half bracket)
    (mem : mainId round position ∈ bracket.keys) {target : MatchId} :
    (bracket.row (mainId round position)).next = some (target, slot) ↔
      round < half ∧ target = mainId (round + 1) (position / 2) ∧ position % 2 = slot.index := by
  rw [wires.next round position mem]
  split
  next later =>
    simp only [Option.some.injEq, Prod.mk.injEq, pairSlot_eq_iff, later, true_and]
    exact and_congr_left' eq_comm
  next last => simp [last]

theorem feeder (wires : SingleElimWires half bracket)
    (mem : mainId (round + 1) position ∈ bracket.keys) (slot : Slot) :
    mainId round (2 * position + slot.index) ∈ bracket.keys ∧
      (bracket.row (mainId round (2 * position + slot.index))).next =
        some (mainId (round + 1) position, slot) := by
  rcases wires.mem_keys.mp mem with ⟨later, below⟩
  have pairs : 2 ^ (half - round) = 2 ^ (half - (round + 1)) * 2 := by
    rw [← Nat.pow_succ]
    congr 1
    omega
  have side : slot.index < 2 := slot.index_lt
  have feeder_mem : mainId round (2 * position + slot.index) ∈ bracket.keys :=
    wires.mem_keys.mpr ⟨by omega, by omega⟩
  refine ⟨feeder_mem, (wires.next_eq_some feeder_mem).mpr ⟨later, ?_, by omega⟩⟩
  rw [show (2 * position + slot.index) / 2 = position by omega]

theorem wired (wires : SingleElimWires half bracket) : Wired bracket where
  next_mem := by
    intro key key_mem target slot leads
    rcases (wires.keys key).mp key_mem with ⟨round, position, rfl, -, below⟩
    rcases (wires.next_eq_some key_mem).mp leads with ⟨later, rfl, -⟩
    refine ⟨wires.mem_keys.mpr ⟨later, ?_⟩, ?_⟩
    · have halves : 2 ^ (half - round) = 2 ^ (half - (round + 1)) * 2 := by
        rw [← Nat.pow_succ]
        congr 1
        omega
      omega
    · intro bye
      have first := wires.bye _ _ bye
      omega
  loserNext_mem := by
    intro key _ target slot leads
    rw [wires.loserNext] at leads
    cases leads
  next_inj := by
    rintro key key_mem other other_mem ⟨target, slot⟩ leads leads'
    rcases (wires.keys key).mp key_mem with ⟨round, position, rfl, -⟩
    rcases (wires.keys other).mp other_mem with ⟨round', position', rfl, -⟩
    rcases (wires.next_eq_some key_mem).mp leads with ⟨-, rfl, parity⟩
    rcases (wires.next_eq_some other_mem).mp leads' with ⟨-, same, parity'⟩
    rcases mainId_inj.mp same with ⟨same_round, same_half⟩
    exact mainId_inj.mpr ⟨by omega, by omega⟩
  loserNext_inj := by
    intro key _ other _ target leads
    rw [wires.loserNext] at leads
    cases leads
  apart := by
    intro key _ other _ target _ leads
    rw [wires.loserNext] at leads
    cases leads

theorem sends (wires : SingleElimWires half bracket) (target : MatchId × Slot) :
    (bracket.row id).sends winner target =
      if (bracket.row id).next = some target then some winner else none := by
  simp [TournamentMatch.sends, wires.loserNext]

theorem reported (wires : SingleElimWires half bracket)
    (reported : Reported bracket after id winner) : SingleElimWires half after where
  keys := reported.keys ▸ wires.keys
  next := by
    simp only [reported.keys, reported.next]
    exact wires.next
  loserNext := by
    simp only [reported.loserNext]
    exact wires.loserNext
  bye := by
    simp only [reported.bye_iff]
    exact wires.bye

end SingleElimWires

/-- A single elimination bracket at any time of its tournament. -/
structure SingleElim (half : ℕ) (tournamentId : Text) (ids : List Text) (bracket : Matches) : Prop
    extends SingleElimWires half bracket where
  tournament : ∀ key, (bracket.row key).tournamentId = tournamentId
  entered : ∀ position < 2 ^ half, ∀ slot,
    (bracket.row (mainId 0 position)).participant slot =
      positioned ids (half + 1) (2 * position + slot.index)
  opened : ∀ position < 2 ^ half, (bracket.row (mainId 0 position)).status = .bye ∨
    ∀ slot, ((bracket.row (mainId 0 position)).participant slot).isSome = true
  halfEmpty : ∀ position < 2 ^ half, (bracket.row (mainId 0 position)).status = .bye →
    ∃ slot, (bracket.row (mainId 0 position)).participant slot = none
  fed : Fed bracket
  placed : ∀ round position, mainId round position ∈ bracket.keys → ∀ slot participantId,
    (bracket.row (mainId round position)).participant slot = some participantId →
      ∃ entry < 2 ^ (half + 1), positioned ids (half + 1) entry = some participantId ∧
        entry / 2 ^ round = 2 * position + slot.index
  winner : ∀ key ∈ bracket.keys, (bracket.row key).status = .completed →
    ∃ slot winner, (bracket.row key).winnerId = some winner ∧
      (bracket.row key).participant slot = some winner

namespace SingleElim

variable {half : ℕ} {tournamentId : Text} {ids : List Text} {bracket after : Matches}
  {id key : MatchId} {winner participantId : Text} {slot : Slot} {round position : ℕ}

theorem participant_kept (single : SingleElim half tournamentId ids bracket)
    (reported : Reported bracket after id winner)
    (filled : (bracket.row key).participant slot = some participantId) :
    (after.row key).participant slot = some participantId := by
  rw [reported.participant, single.sends]
  split
  next leads =>
    have empty := single.fed id reported.mem key slot leads
    simp [TournamentMatch.advances, reported.pending, filled] at empty
  next => simpa using filled

theorem first_kept (single : SingleElim half tournamentId ids bracket)
    (reported : Reported bracket after id winner) :
    (after.row (mainId 0 position)).participant slot =
      (bracket.row (mainId 0 position)).participant slot := by
  apply reported.participant_of_none
  rw [single.sends]
  split
  next leads =>
    rcases (single.keys id).mp reported.mem with ⟨round, position', rfl, -⟩
    have target := ((single.next_eq_some reported.mem).mp leads).2.1
    have first := (mainId_inj.mp target).1
    omega
  next => rfl

theorem reported (single : SingleElim half tournamentId ids bracket)
    (reported : Reported bracket after id winner) : SingleElim half tournamentId ids after where
  toSingleElimWires := single.toSingleElimWires.reported reported
  tournament key := (reported.tournamentId key).trans (single.tournament key)
  entered := by
    intro position inside slot
    rw [single.first_kept reported]
    exact single.entered position inside slot
  opened := by
    intro position inside
    rw [reported.bye_iff]
    refine (single.opened position inside).imp_right ?_
    intro full slot
    exact reported.isSome_of (full slot)
  halfEmpty := by
    intro position inside bye
    rcases single.halfEmpty position inside (reported.bye_iff.mp bye) with ⟨slot, empty⟩
    exact ⟨slot, (single.first_kept reported).trans empty⟩
  fed := reported.fed single.wired single.fed
  placed := by
    intro round position mem slot participantId filled
    rw [reported.keys] at mem
    rw [reported.participant, single.sends] at filled
    rcases Option.or_eq_some_iff.mp filled with sent | ⟨-, before⟩
    · split at sent
      next leads =>
        rcases Option.some.inj sent with rfl
        rcases (single.keys id).mp reported.mem with ⟨round', position', rfl, -⟩
        rcases (single.next_eq_some reported.mem).mp leads with ⟨-, target, parity⟩
        rcases mainId_inj.mp target with ⟨rfl, rfl⟩
        rcases reported.present with ⟨source, present⟩
        rcases single.placed round' position' reported.mem source winner present with
          ⟨entry, inside, at_entry, over_entry⟩
        refine ⟨entry, inside, at_entry, ?_⟩
        have side := source.index_lt
        rw [Nat.pow_succ, ← Nat.div_div_eq_div_mul, over_entry]
        omega
      next => cases sent
    · exact single.placed round position mem slot participantId before
  winner := by
    intro key key_mem completed
    rw [reported.keys] at key_mem
    by_cases same : key = id
    · rcases same with rfl
      rcases reported.present with ⟨slot, present⟩
      exact ⟨slot, winner, reported.winnerId_self, single.participant_kept reported present⟩
    · rw [(reported.row_of_ne same).1] at completed
      rcases single.winner key key_mem completed with ⟨slot, winner', won, present⟩
      refine ⟨slot, winner', ?_, single.participant_kept reported present⟩
      rw [(reported.row_of_ne same).2, won]

end SingleElim

/-! ## The generated bracket -/

section Generated

variable {tournamentId : Text} {ids : List Text} {half : ℕ}

/-- The bracket with its wires, before the byes go on. -/
def wiredSingleElim (tournamentId : Text) (ids : List Text) : Matches :=
  (createSingleElim tournamentId ids).updateNext
    (singleElimNext (Nat.log2 (nextPowerOfTwo ids.length)) (nextPowerOfTwo ids.length / 2))

theorem mem_createSingleElim (size_eq : nextPowerOfTwo ids.length = 2 ^ (half + 1)) (key : MatchId) :
    key ∈ (wiredSingleElim tournamentId ids).keys ↔
      ∃ round position, key = mainId round position ∧ round ≤ half ∧
        position < 2 ^ (half - round) := by
  have halves : 2 ^ (half + 1) / 2 = 2 ^ half := by omega
  simp only [wiredSingleElim, Matches.updateNext, createSingleElim, size_eq, log2_two_pow, halves,
    List.mem_flatMap, List.mem_map, List.mem_range]
  constructor
  · rintro ⟨round, later, position, below, rfl⟩
    rw [Nat.pow_div (by omega) (by omega)] at below
    exact ⟨round, position, rfl, by omega, below⟩
  · rintro ⟨round, position, rfl, later, below⟩
    rw [← Nat.pow_div (by omega) (by omega)] at below
    exact ⟨round, by omega, position, below, rfl⟩

theorem next_wiredSingleElim (size_eq : nextPowerOfTwo ids.length = 2 ^ (half + 1))
    {round position : ℕ} (below : position < 2 ^ (half - round)) :
    ((wiredSingleElim tournamentId ids).row (mainId round position)).next =
      if round < half then some (mainId (round + 1) (position / 2), pairSlot position) else none := by
  have halves : 2 ^ (half + 1) / 2 = 2 ^ half := by omega
  have created : ((createSingleElim tournamentId ids).row (mainId round position)).next = none := by
    simp only [createSingleElim]
    split <;> rfl
  simp only [wiredSingleElim, Matches.updateNext, TournamentMatch.next_updateMatchNext, created,
    Option.or_none]
  simp only [singleElimNext, size_eq, log2_two_pow, halves, mainId, Nat.add_lt_add_iff_right]
  by_cases later : round < half
  · have pairs : 2 ^ (half - round) = 2 ^ half / 2 ^ (round + 1) * 2 := by
      rw [Nat.pow_div (by omega) (by omega), ← Nat.pow_succ]
      congr 1
      omega
    rw [if_pos ⟨later, by omega⟩, if_pos later]
  · rw [if_neg (fun both => later both.1), if_neg later]

theorem later_wiredSingleElim (round position : ℕ) :
    ((wiredSingleElim tournamentId ids).row (mainId (round + 1) position)).status = .pending ∧
      ∀ slot, ((wiredSingleElim tournamentId ids).row
        (mainId (round + 1) position)).participant slot = none := by
  have not_first : (mainId (round + 1) position).round.number ≠ 1 := by simp [mainId]
  simp only [wiredSingleElim, Matches.updateNext, createSingleElim, if_neg not_first,
    TournamentMatch.status_updateMatchNext, TournamentMatch.participant_updateMatchNext]
  exact ⟨rfl, fun slot => by cases slot <;> rfl⟩

theorem first_wiredSingleElim (size_eq : nextPowerOfTwo ids.length = 2 ^ (half + 1)) (position : ℕ) :
    (∀ slot, ((wiredSingleElim tournamentId ids).row (mainId 0 position)).participant slot =
      positioned ids (half + 1) (2 * position + slot.index)) ∧
    (((wiredSingleElim tournamentId ids).row (mainId 0 position)).status = .bye ∧
        (∃ slot : Slot, positioned ids (half + 1) (2 * position + slot.index) = none) ∨
      ((wiredSingleElim tournamentId ids).row (mainId 0 position)).status = .pending ∧
        ∀ slot : Slot, (positioned ids (half + 1) (2 * position + slot.index)).isSome = true) := by
  have first : (mainId 0 position).round.number = 1 := rfl
  simp only [wiredSingleElim, Matches.updateNext, createSingleElim, if_pos first,
    TournamentMatch.status_updateMatchNext, TournamentMatch.participant_updateMatchNext, size_eq]
  exact ⟨participant_firstRoundMatch _ _ _ _, status_firstRoundMatch _ _ _ _⟩

theorem fixed_wiredSingleElim (key : MatchId) :
    ((wiredSingleElim tournamentId ids).row key).tournamentId = tournamentId ∧
      ((wiredSingleElim tournamentId ids).row key).loserNext = none ∧
      ((wiredSingleElim tournamentId ids).row key).status ≠ .completed := by
  have same : ∀ (row : TournamentMatch) (wire : Option (MatchId × Slot)),
      (row.updateMatchNext wire).tournamentId = row.tournamentId := by
    intro row wire
    cases wire <;> rfl
  simp only [wiredSingleElim, Matches.updateNext, createSingleElim, same,
    TournamentMatch.loserNext_updateMatchNext, TournamentMatch.status_updateMatchNext]
  split
  · refine ⟨rfl, rfl, ?_⟩
    simp only [firstRoundMatch, createTournamentMatch]
    split <;> simp
  · exact ⟨rfl, rfl, by simp [laterMatch, createTournamentMatch]⟩

theorem wires_wiredSingleElim (size_eq : nextPowerOfTwo ids.length = 2 ^ (half + 1)) :
    SingleElimWires half (wiredSingleElim tournamentId ids) where
  keys := mem_createSingleElim size_eq
  next := by
    intro round position mem
    rcases (mem_createSingleElim size_eq _).mp mem with ⟨round', position', same, -, below⟩
    rcases mainId_inj.mp same with ⟨rfl, rfl⟩
    exact next_wiredSingleElim size_eq below
  loserNext key := (fixed_wiredSingleElim key).2.1
  bye := by
    intro round position bye
    cases round with
    | zero => rfl
    | succ round =>
        rw [(later_wiredSingleElim round position).1] at bye
        cases bye

theorem byesFed_singleElim (size_eq : nextPowerOfTwo ids.length = 2 ^ (half + 1)) :
    ByesFed (wiredSingleElim tournamentId ids) (generateSingleElimBracket tournamentId ids)
      ((List.range (2 ^ half)).map (mainId 0)) := by
  have wires := @wires_wiredSingleElim tournamentId _ _ size_eq
  have halves : 2 ^ (half + 1) / 2 = 2 ^ half := by omega
  have byes : generateSingleElimBracket tournamentId ids =
      (wiredSingleElim tournamentId ids).advanceByes
        ((List.range (nextPowerOfTwo ids.length / 2)).map (mainId 0)) := rfl
  rw [byes, size_eq, halves]
  refine advanceByes_fed wires.wired ?_ ?_ (fun key => (fixed_wiredSingleElim key).2.2) ?_
  · intro id id_mem
    rcases List.mem_map.mp id_mem with ⟨position, below, rfl⟩
    exact wires.mem_keys.mpr ⟨Nat.zero_le _, List.mem_range.mp below⟩
  · refine List.nodup_range.map ?_
    intro position position' same
    exact (mainId_inj.mp same).2
  · intro key key_mem target slot leads
    rcases (wires.keys key).mp key_mem with ⟨round, position, rfl, -⟩
    rcases (wires.next_eq_some key_mem).mp leads with ⟨-, rfl, -⟩
    exact (later_wiredSingleElim round (position / 2)).2 slot

theorem singleElim_generate (size_eq : nextPowerOfTwo ids.length = 2 ^ (half + 1)) :
    SingleElim half tournamentId ids (generateSingleElimBracket tournamentId ids) := by
  have wires := @wires_wiredSingleElim tournamentId _ _ size_eq
  have byes := @byesFed_singleElim tournamentId _ _ size_eq
  have first_slot : ∀ position slot, ((generateSingleElimBracket tournamentId ids).row
      (mainId 0 position)).participant slot =
        positioned ids (half + 1) (2 * position + slot.index) := by
    intro position slot
    rw [byes.kept]
    · exact (first_wiredSingleElim size_eq position).1 slot
    · intro id id_mem leads
      rcases (wires.keys id).mp id_mem with ⟨round, position', rfl, -⟩
      have target := ((wires.next_eq_some id_mem).mp leads).2.1
      have not_first := (mainId_inj.mp target).1
      omega
  have wires' : SingleElimWires half (generateSingleElimBracket tournamentId ids) :=
    { keys := byes.keys ▸ wires.keys
      next := by
        simp only [byes.keys, (byes.same _).next]
        exact wires.next
      loserNext := fun key => (byes.same key).loserNext.trans (wires.loserNext key)
      bye := by
        simp only [(byes.same _).status]
        exact wires.bye }
  have fed : Fed (generateSingleElimBracket tournamentId ids) := by
    refine byes.fed_of wires.wired ?_
    intro key key_mem later
    rcases (wires.keys key).mp key_mem with ⟨round, position, rfl, -, below⟩
    cases round with
    | zero => exact absurd (List.mem_map.mpr ⟨position, List.mem_range.mpr below, rfl⟩) later
    | succ round => simp only [TournamentMatch.advances, (later_wiredSingleElim round position).1]
  refine ⟨wires', ?_, fun position _ => first_slot position, ?_, ?_, fed, ?_, ?_⟩
  · exact fun key => (byes.same key).tournamentId.trans (fixed_wiredSingleElim key).1
  · intro position _
    rw [(byes.same _).status]
    refine (first_wiredSingleElim size_eq position).2.imp And.left ?_
    intro full slot
    rw [first_slot]
    exact full.2 slot
  · intro position _ bye
    rw [(byes.same _).status] at bye
    rcases (first_wiredSingleElim size_eq position).2 with ⟨-, slot, missing⟩ | ⟨pending, -⟩
    · exact ⟨slot, (first_slot position slot).trans missing⟩
    · rw [pending] at bye
      cases bye
  · intro round position mem slot participantId filled
    cases round with
    | zero =>
        rw [first_slot] at filled
        have below := (wires'.mem_keys.mp mem).2
        have side := slot.index_lt
        refine ⟨_, ?_, filled, ?_⟩
        · have double := Nat.pow_succ (n := 2) (m := half)
          simp only [Nat.sub_zero] at below
          omega
        · rw [Nat.pow_zero, Nat.div_one]
    | succ round =>
        rcases wires'.feeder mem slot with ⟨feeder_mem, leads⟩
        rw [fed _ feeder_mem _ _ leads] at filled
        rcases TournamentMatch.of_advances filled with ⟨completed, -⟩ | ⟨bye, source, present⟩
        · rw [(byes.same _).status] at completed
          exact absurd completed (fixed_wiredSingleElim _).2.2
        · obtain rfl := wires'.bye _ _ bye
          rw [first_slot] at present
          have below := (wires'.mem_keys.mp feeder_mem).2
          have side := source.index_lt
          have double := Nat.pow_succ (n := 2) (m := half)
          simp only [Nat.sub_zero] at below
          exact ⟨_, by omega, present, by omega⟩
  · intro key _ completed
    rw [(byes.same key).status] at completed
    exact absurd completed (fixed_wiredSingleElim key).2.2

end Generated

end ScuffedCrew.Tournaments
