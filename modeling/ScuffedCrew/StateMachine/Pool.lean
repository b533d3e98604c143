import Mathlib.Algebra.Order.BigOperators.Group.List
import Mathlib.Algebra.Order.Ring.Nat
import ScuffedCrew.StateMachine.Run

/-!
# Pools of processes

Processes take turns over a shared state.  A turn names the process that moves
and the choice its step leaves open, so the runs of the pool are the
interleavings of the processes, at any point of each.
-/

namespace StateMachine

universe u v w

structure Pool (Shared : Type u) (Process : Type v) where
  shared : Shared
  processes : List Process

structure Turn (Choice : Type w) where
  process : ℕ
  choice : Choice

variable {Shared : Type u} {Process : Type v} {Choice : Type w}

/-- The pool of processes whose steps are given; a process that has ended has no step. -/
def interleaving (step : Shared → Process → Choice → Option (Shared × Process)) :
    Machine (Pool Shared Process) (Turn Choice) where
  next pool turn :=
    pool.processes[turn.process]?.bind fun process =>
      (step pool.shared process turn.choice).map fun result =>
        ⟨result.1, pool.processes.set turn.process result.2⟩

variable {step : Shared → Process → Choice → Option (Shared × Process)}
  {pool after : Pool Shared Process} {turn : Turn Choice}

/-- Exactly one process moves. -/
theorem interleaving_next_eq_some :
    (interleaving step).next pool turn = some after ↔
      ∃ process shared moved, pool.processes[turn.process]? = some process ∧
        step pool.shared process turn.choice = some (shared, moved) ∧
        after = ⟨shared, pool.processes.set turn.process moved⟩ := by
  simp only [interleaving, Option.bind_eq_some_iff, Option.map_eq_some_iff, Prod.exists]
  constructor
  · rintro ⟨process, found, shared, moved, taken, rfl⟩
    exact ⟨process, shared, moved, found, taken, rfl⟩
  · rintro ⟨process, shared, moved, found, taken, rfl⟩
    exact ⟨process, found, shared, moved, taken, rfl⟩

namespace Pool

variable {moved other : Process} {shared : Shared} {index : ℕ}

theorem moved_at {process : Process} (found : pool.processes[index]? = some process) :
    (pool.processes.set index moved)[index]? = some moved := by
  have inside := (List.getElem?_eq_some_iff.mp found).1
  simp [inside]

theorem others_stay {position : ℕ} (differs : position ≠ index) :
    (pool.processes.set index moved)[position]? = pool.processes[position]? :=
  List.getElem?_set_ne differs.symm

theorem of_set {position : ℕ} (found : (pool.processes.set index moved)[position]? = some other) :
    position = index ∧ other = moved ∨
      position ≠ index ∧ pool.processes[position]? = some other := by
  by_cases same : position = index
  · rcases same with rfl
    have inside := (List.getElem?_eq_some_iff.mp found).1
    rw [List.getElem?_set_self (by simpa using inside)] at found
    exact .inl ⟨rfl, (Option.some.inj found).symm⟩
  · rw [others_stay same] at found
    exact .inr ⟨same, found⟩

/-- A number counted over the processes changes by what it changes for the one that moved. -/
theorem sum_set (measure : Process → ℕ) {processes : List Process} {process : Process}
    (found : processes[index]? = some process) :
    ((processes.set index moved).map measure).sum + measure process =
      (processes.map measure).sum + measure moved := by
  induction processes generalizing index with
  | nil => simp at found
  | cons first rest ih =>
      cases index with
      | zero =>
          rcases Option.some.inj found with rfl
          simp only [List.set_cons_zero, List.map_cons, List.sum_cons]
          omega
      | succ index =>
          have later := @ih index (by simpa using found)
          simp only [List.set_cons_succ, List.map_cons, List.sum_cons]
          omega

theorem le_sum (measure : Process → ℕ) {processes : List Process} {process : Process}
    (found : processes[index]? = some process) :
    measure process ≤ (processes.map measure).sum :=
  List.single_le_sum (by simp) _ (List.mem_map_of_mem (List.mem_of_getElem? found))

end Pool

end StateMachine
