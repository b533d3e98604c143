import Mathlib.Data.List.Induction
import Mathlib.Data.List.Perm.Subperm
import ScuffedCrew.StateMachine.Tasks

/-!
# Checking first and acting later

Processes check that a level is below a limit, and each raises it by one later,
when others may have raised it since.  What a checked process still clears away
before it acts does not count for it.  The level overshoots the limit by no more
than the number of processes that are checked at the same time.
-/

namespace StateMachine

universe u v w x y

variable {Shared : Type u} {Process : Type v} {Arrival : Type w} {Choice : Type x}
  {Change : Type y}

/-- What the steps of the processes do to the level, and to what a checked one leaves of it. -/
structure ChecksFirst (tasks : Tasks Shared Process Arrival Choice Change) (limit : ℕ)
    (level : Shared → ℕ) (checked : Process → Bool) (spared : Shared → Process → ℕ) : Prop where
  arrival : ∀ arrival, checked (tasks.arrival arrival) = false
  spawned : ∀ {shared process choice advance}, tasks.step shared process choice = some advance →
    ∀ other ∈ advance.spawned, checked other = false
  change : ∀ shared change, level (tasks.change shared change) ≤ level shared ∧
    ∀ process, spared (tasks.change shared change) process ≤ spared shared process
  checks : ∀ {shared process choice advance}, tasks.step shared process choice = some advance →
    checked process = false → checked advance.process = true →
      spared advance.shared advance.process ≤ limit
  clears : ∀ {shared process choice advance}, tasks.step shared process choice = some advance →
    checked process = true → checked advance.process = true →
      spared advance.shared advance.process ≤ spared shared process
  acts : ∀ {shared process choice advance}, tasks.step shared process choice = some advance →
    level advance.shared ≤ level shared ∧
        (∀ other, spared advance.shared other ≤ spared shared other) ∨
      checked process = true ∧ checked advance.process = false ∧
        level shared ≤ spared shared process ∧ level advance.shared ≤ level shared + 1 ∧
          ∀ other, spared advance.shared other ≤ spared shared other + 1

section overlap

variable {tasks : Tasks Shared Process Arrival Choice Change} {limit most : ℕ}
  {level : Shared → ℕ} {checked : Process → Bool} {spared : Shared → Process → ℕ}
  {pool after : Pool Shared Process} {old new : List ℕ} {index : ℕ}

/-- A process at the place is checked. -/
def CheckedAt (checked : Process → Bool) (pool : Pool Shared Process) (index : ℕ) : Prop :=
  ∃ process, pool.processes[index]? = some process ∧ checked process = true

/-- The checked processes in the order they checked in: those that checked before the last one that
has acted, and those after. -/
structure Overlap (limit most : ℕ) (level : Shared → ℕ) (checked : Process → Bool)
    (spared : Shared → Process → ℕ) (pool : Pool Shared Process) (old new : List ℕ) : Prop where
  distinct : (old ++ new).Nodup
  exact_iff : ∀ index, index ∈ old ++ new ↔ CheckedAt checked pool index
  below : level pool.shared + old.length ≤ limit + most
  /-- What a process spares has grown by what others did since it checked. -/
  ahead : ∀ (place index : ℕ) (process : Process), new[place]? = some index →
    pool.processes[index]? = some process → ∃ acted,
      spared pool.shared process ≤ limit + acted ∧ acted + old.length + place + 1 ≤ most

theorem countP_range (processes : List Process) (checked : Process → Bool) :
    (List.range processes.length).countP (fun index => (processes[index]?).any checked) =
      processes.countP checked := by
  induction processes using List.reverseRecOn with
  | nil => rfl
  | append_singleton processes process ih =>
      rw [List.length_append, List.length_singleton, List.range_succ, List.countP_append,
        List.countP_append, ← ih]
      congr 1
      · apply List.countP_congr
        intro index index_mem
        rw [List.getElem?_append_left (List.mem_range.mp index_mem)]
      · simp

theorem length_le_countP {places : List ℕ} (distinct : places.Nodup)
    (all_checked : ∀ place ∈ places, CheckedAt checked pool place) :
    places.length ≤ pool.processes.countP checked := by
  rw [← countP_range, List.countP_eq_length_filter]
  apply List.Subperm.length_le
  apply List.Nodup.subperm distinct
  intro place place_mem
  rcases all_checked place place_mem with ⟨process, found, is_checked⟩
  have inside := (List.getElem?_eq_some_iff.mp found).1
  rw [List.mem_filter, found]
  exact ⟨List.mem_range.mpr inside, is_checked⟩

theorem exists_of_erase {places : List ℕ} {place other : ℕ}
    (found : (places.erase index)[place]? = some other) :
    ∃ place', place ≤ place' ∧ places[place']? = some other := by
  induction places generalizing place with
  | nil => simp at found
  | cons first rest ih =>
      rw [List.erase_cons] at found
      split at found
      · exact ⟨place + 1, Nat.le_succ _, found⟩
      · cases place with
        | zero => exact ⟨0, Nat.le_refl _, found⟩
        | succ place =>
            rcases ih found with ⟨place', later, found'⟩
            exact ⟨place' + 1, Nat.succ_le_succ later, found'⟩

/-- Nothing of the level or of what is spared has grown, and the same processes are checked. -/
theorem Overlap.same (overlap : Overlap limit most level checked spared pool old new)
    (shrinks : level after.shared ≤ level pool.shared)
    (spares : ∀ (index : ℕ) (process' : Process), after.processes[index]? = some process' →
      checked process' = true → ∃ process, pool.processes[index]? = some process ∧
        spared after.shared process' ≤ spared pool.shared process)
    (same : ∀ index, CheckedAt checked after index ↔ CheckedAt checked pool index) :
    Overlap limit most level checked spared after old new := by
  have below := overlap.below
  refine ⟨overlap.distinct, fun index => (overlap.exact_iff index).trans (same index).symm,
    by omega, ?_⟩
  intro place index process' at_place found'
  have among : index ∈ old ++ new :=
    List.mem_append_right _ (List.mem_of_getElem? at_place)
  rcases (same index).mpr ((overlap.exact_iff index).mp among) with ⟨process'', found'', is_checked⟩
  rcases Option.some.inj (found''.symm.trans found') with rfl
  rcases spares index process'' found' is_checked with ⟨process, found, spares'⟩
  rcases overlap.ahead place index process at_place found with ⟨acted, room, fits⟩
  exact ⟨acted, spares'.trans room, fits⟩

/-- A process checks. -/
theorem Overlap.enter (overlap : Overlap limit most level checked spared pool old new)
    (few : after.processes.countP checked ≤ most) {process : Process}
    (found : after.processes[index]? = some process)
    (within : spared after.shared process ≤ limit)
    (shrinks : level after.shared ≤ level pool.shared)
    (others : ∀ (other : ℕ) (process' : Process), other ≠ index →
      after.processes[other]? = some process' → checked process' = true →
        pool.processes[other]? = some process' ∧
          spared after.shared process' ≤ spared pool.shared process')
    (absent : index ∉ old ++ new)
    (same : ∀ other, CheckedAt checked after other ↔ other = index ∨ CheckedAt checked pool other) :
    Overlap limit most level checked spared after old (new ++ [index]) := by
  have below := overlap.below
  have distinct : (old ++ (new ++ [index])).Nodup := by
    rw [← List.append_assoc, List.nodup_append]
    refine ⟨overlap.distinct, by simp, fun one one_mem other other_mem equal => ?_⟩
    rcases List.mem_singleton.mp other_mem with rfl
    exact absent (equal ▸ one_mem)
  have exact_iff : ∀ other, other ∈ old ++ (new ++ [index]) ↔ CheckedAt checked after other := by
    intro other
    rw [same, ← overlap.exact_iff, ← List.append_assoc, List.mem_append, List.mem_singleton]
    exact or_comm
  have room := length_le_countP distinct fun other => (exact_iff other).mp
  rw [List.length_append, List.length_append, List.length_singleton] at room
  refine ⟨distinct, exact_iff, by omega, fun place other process' at_place found' => ?_⟩
  · rcases Nat.lt_or_ge place new.length with inside | last
    · rw [List.getElem?_append_left inside] at at_place
      have among : other ∈ old ++ new := List.mem_append_right _ (List.mem_of_getElem? at_place)
      have differs : other ≠ index := fun equal => absent (equal ▸ among)
      have is_checked : checked process' = true := by
        rcases (same other).mpr (.inr ((overlap.exact_iff other).mp among)) with
          ⟨process'', found'', is_checked⟩
        exact Option.some.inj (found''.symm.trans found') ▸ is_checked
      rcases others other process' differs found' is_checked with ⟨before, spares⟩
      rcases overlap.ahead place other process' at_place before with ⟨acted, room, fits⟩
      exact ⟨acted, spares.trans room, fits⟩
    · have at_end : place = new.length := by
        have bound := (List.getElem?_eq_some_iff.mp at_place).1
        simp only [List.length_append, List.length_singleton] at bound
        omega
      rcases at_end with rfl
      rw [List.getElem?_append_right (Nat.le_refl _), Nat.sub_self] at at_place
      rcases Option.some.inj at_place with rfl
      rcases Option.some.inj (found.symm.trans found') with rfl
      exact ⟨0, within, by omega⟩

/-- A process that was checked is not any more, and the level has not grown. -/
theorem Overlap.leave (overlap : Overlap limit most level checked spared pool old new)
    (shrinks : level after.shared ≤ level pool.shared)
    (others : ∀ (other : ℕ) (process' : Process), other ≠ index →
      after.processes[other]? = some process' → checked process' = true →
        pool.processes[other]? = some process' ∧
          spared after.shared process' ≤ spared pool.shared process')
    (same : ∀ other, CheckedAt checked after other ↔ other ≠ index ∧ CheckedAt checked pool other) :
    Overlap limit most level checked spared after (old.erase index) (new.erase index) := by
  have below := overlap.below
  have shorter := List.length_erase_le (a := index) (l := old)
  have mem_iff : ∀ other, other ∈ old.erase index ++ new.erase index ↔
      other ≠ index ∧ other ∈ old ++ new := by
    intro other
    have distinct := List.nodup_append.mp overlap.distinct
    rw [List.mem_append, distinct.1.mem_erase_iff, distinct.2.1.mem_erase_iff, List.mem_append]
    exact and_or_left.symm
  refine ⟨?_, fun other => ?_, by omega, fun place other process' at_place found' => ?_⟩
  · exact overlap.distinct.sublist (List.erase_sublist.append List.erase_sublist)
  · rw [mem_iff, overlap.exact_iff, same]
  · have among := (mem_iff other).mp (List.mem_append_right _ (List.mem_of_getElem? at_place))
    rcases exists_of_erase at_place with ⟨place', later, at_place'⟩
    have is_checked : checked process' = true := by
      rcases (same other).mpr ⟨among.1, (overlap.exact_iff other).mp among.2⟩ with
        ⟨process'', found'', is_checked⟩
      exact Option.some.inj (found''.symm.trans found') ▸ is_checked
    rcases others other process' among.1 found' is_checked with ⟨before, spares⟩
    rcases overlap.ahead place' other process' at_place' before with ⟨acted, room, fits⟩
    exact ⟨acted, spares.trans room, by omega⟩

/-- A process that was checked has acted. -/
theorem Overlap.act (overlap : Overlap limit most level checked spared pool old new)
    {process : Process} (found : pool.processes[index]? = some process)
    (is_checked : checked process = true)
    (within : level pool.shared ≤ spared pool.shared process)
    (grows : level after.shared ≤ level pool.shared + 1)
    (others : ∀ (other : ℕ) (process' : Process), other ≠ index →
      after.processes[other]? = some process' → checked process' = true →
        pool.processes[other]? = some process' ∧
          spared after.shared process' ≤ spared pool.shared process' + 1)
    (same : ∀ other, CheckedAt checked after other ↔ other ≠ index ∧ CheckedAt checked pool other) :
    ∃ old new, Overlap limit most level checked spared after old new := by
  have below := overlap.below
  have distinct := List.nodup_append.mp overlap.distinct
  have raised : ∀ {other process'}, other ∈ old ++ new → other ≠ index →
      after.processes[other]? = some process' → pool.processes[other]? = some process' ∧
        spared after.shared process' ≤ spared pool.shared process' + 1 := by
    intro other process' among differs found'
    apply others other process' differs found'
    rcases (same other).mpr ⟨differs, (overlap.exact_iff other).mp among⟩ with
      ⟨process'', found'', is_checked'⟩
    exact Option.some.inj (found''.symm.trans found') ▸ is_checked'
  rcases List.mem_append.mp ((overlap.exact_iff index).mpr ⟨process, found, is_checked⟩)
    with in_old | in_new
  · -- It checked before another one that has acted.
    have apart : index ∉ new := fun among => distinct.2.2 index in_old index among rfl
    have shorter : (old.erase index).length + 1 = old.length :=
      List.length_erase_add_one in_old
    refine ⟨old.erase index, new, ?_, fun other => ?_, by omega,
      fun place other process' at_place found' => ?_⟩
    · exact overlap.distinct.sublist (List.erase_sublist.append_right _)
    · rw [same, ← overlap.exact_iff, List.mem_append, List.mem_append, distinct.1.mem_erase_iff]
      constructor
      · rintro (⟨differs, among⟩ | among)
        · exact ⟨differs, .inl among⟩
        · exact ⟨fun equal => apart (equal ▸ among), .inr among⟩
      · rintro ⟨differs, among | among⟩
        · exact .inl ⟨differs, among⟩
        · exact .inr among
    · have among := List.mem_of_getElem? at_place
      have differs : other ≠ index := fun equal => apart (equal ▸ among)
      rcases raised (List.mem_append_right _ among) differs found' with ⟨before, spares⟩
      rcases overlap.ahead place other process' at_place before with ⟨acted, room, fits⟩
      exact ⟨acted + 1, by omega, by omega⟩
  · -- Everything acted on since it checked was checked before.
    rcases List.mem_iff_append.mp in_new with ⟨earlier, later, rfl⟩
    have at_place : (earlier ++ index :: later)[earlier.length]? = some index := by simp
    rcases overlap.ahead earlier.length index process at_place found with ⟨acted, room, fits⟩
    have alone := overlap.distinct
    rw [← List.append_assoc] at alone
    have split := List.perm_middle.nodup_iff.mp alone
    have absent : index ∉ (old ++ earlier) ++ later := (List.nodup_cons.mp split).1
    refine ⟨old ++ earlier, later, (List.nodup_cons.mp split).2, fun other => ?_, ?_,
      fun place other process' at_place' found' => ?_⟩
    · rw [same, ← overlap.exact_iff, ← List.append_assoc]
      simp only [List.mem_append, List.mem_cons] at absent ⊢
      constructor
      · intro among
        refine ⟨?_, by tauto⟩
        rintro rfl
        exact absent among
      · tauto
    · rw [List.length_append]
      omega
    · have among : other ∈ later := List.mem_of_getElem? at_place'
      have differs : other ≠ index := by
        rintro rfl
        exact absent (List.mem_append_right _ among)
      have at_place'' : (earlier ++ index :: later)[earlier.length + (place + 1)]? = some other := by
        rw [List.getElem?_append_right (Nat.le_add_right _ _), Nat.add_sub_cancel_left]
        exact at_place'
      rcases raised (by simp [among]) differs found' with ⟨before, spares⟩
      rcases overlap.ahead _ other process' at_place'' before with ⟨acted', room', fits'⟩
      refine ⟨acted' + 1, by omega, ?_⟩
      rw [List.length_append]
      omega

/-- Which places are checked after a turn. -/
theorem checkedAt_turn {process : Process} {advance : Advance Shared Process}
    (found : pool.processes[index]? = some process)
    (plain : ∀ other ∈ advance.spawned, checked other = false) (other : ℕ) :
    CheckedAt checked
        ⟨advance.shared, pool.processes.set index advance.process ++ advance.spawned⟩ other ↔
      other = index ∧ checked advance.process = true ∨
        other ≠ index ∧ CheckedAt checked pool other := by
  constructor
  · rintro ⟨process', found', is_checked⟩
    rcases Pool.of_set_append found' with ⟨same, rfl⟩ | ⟨differs, before⟩ | ⟨-, is_new⟩
    · exact .inl ⟨same, is_checked⟩
    · exact .inr ⟨differs, process', before, is_checked⟩
    · cases (plain process' is_new).symm.trans is_checked
  · rintro (⟨rfl, is_checked⟩ | ⟨differs, process', before, is_checked⟩)
    · exact ⟨advance.process, Pool.moved_among found, is_checked⟩
    · exact ⟨process', Pool.others_among before differs, is_checked⟩

/-- A checked process that did not move was there before. -/
theorem stayed_of_turn {advance : Advance Shared Process} {process' : Process} {other : ℕ}
    (plain : ∀ other ∈ advance.spawned, checked other = false) (differs : other ≠ index)
    (found' : (pool.processes.set index advance.process ++ advance.spawned)[other]? = some process')
    (is_checked : checked process' = true) : pool.processes[other]? = some process' := by
  rcases Pool.of_set_append found' with ⟨same, -⟩ | ⟨-, before⟩ | ⟨-, is_new⟩
  · exact absurd same differs
  · exact before
  · cases (plain process' is_new).symm.trans is_checked

end overlap

namespace ChecksFirst

variable {tasks : Tasks Shared Process Arrival Choice Change} {limit most : ℕ}
  {level : Shared → ℕ} {checked : Process → Bool} {spared : Shared → Process → ℕ}
  {pool after start final : Pool Shared Process} {old new : List ℕ}
  {event : TaskEvent Arrival Choice Change}
  {steps : List (Step (Pool Shared Process) (TaskEvent Arrival Choice Change))}

theorem turn (rules : ChecksFirst tasks limit level checked spared)
    (overlap : Overlap limit most level checked spared pool old new) {index : ℕ}
    {process : Process} {choice : Choice} {advance : Advance Shared Process}
    (found : pool.processes[index]? = some process)
    (taken : tasks.step pool.shared process choice = some advance)
    (few : (pool.processes.set index advance.process ++ advance.spawned).countP checked ≤ most) :
    ∃ old new, Overlap limit most level checked spared
      ⟨advance.shared, pool.processes.set index advance.process ++ advance.spawned⟩ old new := by
  have plain := rules.spawned taken
  have places := @checkedAt_turn _ _ checked pool index process advance found plain
  have at_index : CheckedAt checked pool index ↔ checked process = true :=
    ⟨fun ⟨process', found', is_checked⟩ => Option.some.inj (found'.symm.trans found) ▸ is_checked,
      fun is_checked => ⟨process, found, is_checked⟩⟩
  rcases rules.acts taken with ⟨shrinks, spares⟩ | ⟨was, gone, within, grows, spares⟩
  · have others : ∀ (other : ℕ) (process' : Process), other ≠ index →
        (pool.processes.set index advance.process ++ advance.spawned)[other]? = some process' →
          checked process' = true → pool.processes[other]? = some process' ∧
            spared advance.shared process' ≤ spared pool.shared process' :=
      fun other process' differs found' is_checked =>
        ⟨stayed_of_turn plain differs found' is_checked, spares process'⟩
    cases was : checked process with
    | false =>
        cases now : checked advance.process with
        | false =>
            refine ⟨old, new, overlap.same shrinks ?_ fun other => ?_⟩
            · intro other process' found' is_checked
              by_cases same : other = index
              · rcases same with rfl
                have moved := Option.some.inj ((Pool.moved_among found).symm.trans found')
                rw [← moved, now] at is_checked
                cases is_checked
              · exact ⟨process', others other process' same found' is_checked⟩
            · rw [places, now]
              by_cases same : other = index
              · rcases same with rfl
                simp [at_index, was]
              · simp [same]
        | true =>
            have absent : index ∉ old ++ new := by
              rw [overlap.exact_iff, at_index, was]
              exact Bool.false_ne_true
            have same : ∀ other, CheckedAt checked
                ⟨advance.shared, pool.processes.set index advance.process ++ advance.spawned⟩
                  other ↔ other = index ∨ CheckedAt checked pool other := by
              intro other
              rw [places, now]
              by_cases same : other = index <;> simp [same]
            refine ⟨old, new ++ [index], overlap.enter few (Pool.moved_among found)
              (rules.checks taken was now) shrinks others absent same⟩
    | true =>
        cases now : checked advance.process with
        | false =>
            refine ⟨old.erase index, new.erase index, overlap.leave shrinks others fun other => ?_⟩
            rw [places, now]
            simp
        | true =>
            refine ⟨old, new, overlap.same shrinks ?_ fun other => ?_⟩
            · intro other process' found' is_checked
              by_cases same : other = index
              · rcases same with rfl
                have moved := Option.some.inj ((Pool.moved_among found).symm.trans found')
                exact ⟨process, found, moved ▸ rules.clears taken was now⟩
              · exact ⟨process', others other process' same found' is_checked⟩
            · rw [places, now]
              by_cases same : other = index
              · rcases same with rfl
                simp [at_index, was]
              · simp [same]
  · apply overlap.act found was within grows
    · exact fun other process' differs found' is_checked =>
        ⟨stayed_of_turn plain differs found' is_checked, spares process'⟩
    · intro other
      rw [places, gone]
      simp

theorem next (rules : ChecksFirst tasks limit level checked spared)
    (overlap : Overlap limit most level checked spared pool old new)
    (effect : tasks.Effect pool event after) (few : after.processes.countP checked ≤ most) :
    ∃ old new, Overlap limit most level checked spared after old new := by
  cases effect with
  | arrives arrival =>
      refine ⟨old, new, overlap.same (Nat.le_refl _) ?_ fun other => ?_⟩
      · intro other process' found' is_checked
        refine ⟨process', ?_, Nat.le_refl _⟩
        rcases Nat.lt_or_ge other pool.processes.length with inside | later
        · rwa [List.getElem?_append_left inside] at found'
        · rw [List.getElem?_append_right later] at found'
          rcases List.mem_singleton.mp (List.mem_of_getElem? found') with rfl
          cases (rules.arrival arrival).symm.trans is_checked
      · constructor
        · rintro ⟨process', found', is_checked⟩
          rcases Nat.lt_or_ge other pool.processes.length with inside | later
          · rw [List.getElem?_append_left inside] at found'
            exact ⟨process', found', is_checked⟩
          · rw [List.getElem?_append_right later] at found'
            rcases List.mem_singleton.mp (List.mem_of_getElem? found') with rfl
            cases (rules.arrival arrival).symm.trans is_checked
        · rintro ⟨process', found, is_checked⟩
          have inside := (List.getElem?_eq_some_iff.mp found).1
          exact ⟨process', by rwa [List.getElem?_append_left inside], is_checked⟩
  | moves found taken => exact rules.turn overlap found taken few
  | changes change =>
      rcases rules.change pool.shared change with ⟨shrinks, spares⟩
      refine ⟨old, new, overlap.same shrinks (fun _ process' found' _ => ?_) fun _ => .rfl⟩
      exact ⟨process', found', spares process'⟩

/-- The level overshoots by no more than the processes that are checked at the same time. -/
theorem level_le (rules : ChecksFirst tasks limit level checked spared)
    (run : tasks.machine.Run start steps final)
    (within : level start.shared ≤ limit + most)
    (quiet : ∀ process ∈ start.processes, checked process = false)
    (few : ∀ step ∈ steps, step.after.processes.countP checked ≤ most) :
    level final.shared ≤ limit + most := by
  have overlaps : ∃ old new, Overlap limit most level checked spared final old new := by
    induction run with
    | refl =>
        refine ⟨[], [], List.nodup_nil, fun index => ?_, within, by simp⟩
        simp only [List.append_nil, List.not_mem_nil, false_iff]
        rintro ⟨process, found, is_checked⟩
        cases (quiet process (List.mem_of_getElem? found)).symm.trans is_checked
    | @snoc steps state after event run taken ih =>
        rcases ih fun step step_mem => few step (List.mem_append_left _ step_mem) with
          ⟨old, new, overlap⟩
        exact rules.next overlap (Tasks.effect_of_next taken)
          (few ⟨state, event, after⟩ (by simp))
  rcases overlaps with ⟨old, new, overlap⟩
  exact Nat.le_of_add_right_le overlap.below

end ChecksFirst

end StateMachine
