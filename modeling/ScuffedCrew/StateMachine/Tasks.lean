import ScuffedCrew.StateMachine.Pool

/-!
# Pools that grow

Processes that take turns over a shared state, where new ones arrive from
outside, a step may start others, and the surroundings may change the shared
state between the steps.  Processes keep their places: the new ones come last.

A ledger counts what the processes hold of a stock the shared state accounts
for.  When every step balances for the process that makes it, the books of the
whole pool balance in every state reached.
-/

namespace StateMachine

universe u v w x y z

/-- What a step of one process makes of the shared state and of itself, and the processes it starts. -/
structure Advance (Shared : Type u) (Process : Type v) where
  shared : Shared
  process : Process
  spawned : List Process

inductive TaskEvent (Arrival : Type w) (Choice : Type x) (Change : Type y)
  | arrive (arrival : Arrival)
  | turn (process : ℕ) (choice : Choice)
  | outside (change : Change)

namespace TaskEvent

variable {Arrival : Type w} {Choice : Type x} {Change : Type y}

def isArrival : TaskEvent Arrival Choice Change → Bool
  | arrive _ => true
  | _ => false

def isTurn : TaskEvent Arrival Choice Change → Bool
  | turn _ _ => true
  | _ => false

end TaskEvent

structure Tasks (Shared : Type u) (Process : Type v) (Arrival : Type w) (Choice : Type x)
    (Change : Type y) where
  arrival : Arrival → Process
  step : Shared → Process → Choice → Option (Advance Shared Process)
  change : Shared → Change → Shared

variable {Shared : Type u} {Process : Type v} {Arrival : Type w} {Choice : Type x}
  {Change : Type y}

namespace Tasks

def machine (tasks : Tasks Shared Process Arrival Choice Change) :
    Machine (Pool Shared Process) (TaskEvent Arrival Choice Change) where
  next pool
    | .arrive arrival => some ⟨pool.shared, pool.processes ++ [tasks.arrival arrival]⟩
    | .turn process choice =>
        pool.processes[process]?.bind fun moving =>
          (tasks.step pool.shared moving choice).map fun advance =>
            ⟨advance.shared, pool.processes.set process advance.process ++ advance.spawned⟩
    | .outside change => some ⟨tasks.change pool.shared change, pool.processes⟩

variable {tasks : Tasks Shared Process Arrival Choice Change} {pool after : Pool Shared Process}

inductive Effect (tasks : Tasks Shared Process Arrival Choice Change) (pool : Pool Shared Process) :
    TaskEvent Arrival Choice Change → Pool Shared Process → Prop
  | arrives (arrival : Arrival) :
      Effect tasks pool (.arrive arrival) ⟨pool.shared, pool.processes ++ [tasks.arrival arrival]⟩
  | moves {index : ℕ} {process : Process} {choice : Choice} {advance : Advance Shared Process}
      (found : pool.processes[index]? = some process)
      (taken : tasks.step pool.shared process choice = some advance) :
      Effect tasks pool (.turn index choice)
        ⟨advance.shared, pool.processes.set index advance.process ++ advance.spawned⟩
  | changes (change : Change) :
      Effect tasks pool (.outside change) ⟨tasks.change pool.shared change, pool.processes⟩

theorem effect_of_next {event : TaskEvent Arrival Choice Change}
    (step : tasks.machine.next pool event = some after) : tasks.Effect pool event after := by
  cases event with
  | arrive arrival =>
      rcases Option.some.inj step with rfl
      exact .arrives arrival
  | turn index choice =>
      simp only [machine, Option.bind_eq_some_iff, Option.map_eq_some_iff] at step
      rcases step with ⟨process, found, advance, taken, rfl⟩
      exact .moves found taken
  | outside change =>
      rcases Option.some.inj step with rfl
      exact .changes change

theorem next_turn {index : ℕ} {process : Process} {choice : Choice}
    {advance : Advance Shared Process} (found : pool.processes[index]? = some process)
    (taken : tasks.step pool.shared process choice = some advance) :
    tasks.machine.next pool (.turn index choice) =
      some ⟨advance.shared, pool.processes.set index advance.process ++ advance.spawned⟩ := by
  simp [machine, found, taken]

end Tasks

namespace Pool

variable {pool : Pool Shared Process} {processes spawned : List Process}
  {process moved other : Process} {index position : ℕ}

theorem of_set_append (found : (processes.set index moved ++ spawned)[position]? = some other) :
    position = index ∧ other = moved ∨
      position ≠ index ∧ processes[position]? = some other ∨
      processes.length ≤ position ∧ other ∈ spawned := by
  rcases Nat.lt_or_ge position processes.length with here | later
  · rw [List.getElem?_append_left (by simpa using here)] at found
    rcases @of_set Unit Process ⟨(), processes⟩ _ _ _ _ found with same | differs
    · exact .inl same
    · exact .inr (.inl differs)
  · rw [List.getElem?_append_right (by simpa using later)] at found
    exact .inr (.inr ⟨later, List.mem_of_getElem? found⟩)

theorem moved_among (found : processes[index]? = some process) :
    (processes.set index moved ++ spawned)[index]? = some moved := by
  have inside := (List.getElem?_eq_some_iff.mp found).1
  rw [List.getElem?_append_left (by simpa using inside), List.getElem?_set_self inside]

theorem others_among (found : processes[position]? = some other) (differs : position ≠ index) :
    (processes.set index moved ++ spawned)[position]? = some other := by
  have inside := (List.getElem?_eq_some_iff.mp found).1
  rw [List.getElem?_append_left (by simpa using inside), List.getElem?_set_ne differs.symm, found]

theorem add_le_sum (measure : Process → ℕ) (found : processes[index]? = some process)
    (found' : processes[position]? = some other) (differs : position ≠ index) :
    measure process + measure other ≤ (processes.map measure).sum := by
  induction processes generalizing index position with
  | nil => simp at found
  | cons first rest ih =>
      rw [List.map_cons, List.sum_cons]
      cases index with
      | zero =>
          cases position with
          | zero => exact absurd rfl differs
          | succ position =>
              have later := le_sum measure (by simpa using found' : rest[position]? = some other)
              rcases Option.some.inj found with rfl
              omega
      | succ index =>
          cases position with
          | zero =>
              have later := le_sum measure (by simpa using found : rest[index]? = some process)
              rcases Option.some.inj found' with rfl
              omega
          | succ position =>
              have later := ih (by simpa using found) (by simpa using found') (by omega)
              omega

theorem exists_of_sum_pos (measure : Process → ℕ) (positive : 0 < (processes.map measure).sum) :
    ∃ (index : ℕ) (process : Process), processes[index]? = some process ∧ 0 < measure process := by
  by_contra nowhere
  have empty : (processes.map measure).sum = 0 := by
    apply List.sum_eq_zero
    intro value value_mem
    rcases List.mem_map.mp value_mem with ⟨process, process_mem, rfl⟩
    rcases List.getElem?_of_mem process_mem with ⟨index, found⟩
    by_contra positive
    exact nowhere ⟨index, process, found, Nat.pos_of_ne_zero positive⟩
  omega

theorem countP_le_sum (processes : List Process) (selected : Process → Bool) (measure : Process → ℕ)
    (counts : ∀ process, selected process → 0 < measure process) :
    processes.countP selected ≤ (processes.map measure).sum := by
  induction processes with
  | nil => exact Nat.le_refl _
  | cons first rest ih =>
      rw [List.countP_cons, List.map_cons, List.sum_cons]
      split
      next chosen =>
        have positive := counts first chosen
        omega
      next => omega

end Pool

/-! ## Ledgers -/

/-- What a process holds of each stock, what is free, and what there is. -/
structure Ledger (ι : Type z) (Shared : Type u) (Process : Type v) where
  held : ι → Process → ℕ
  free : ι → Shared → ℕ
  total : ι → Shared → ℕ

namespace Ledger

variable {ι : Type z} {ledger : Ledger ι Shared Process} {pool after : Pool Shared Process}
  {tasks : Tasks Shared Process Arrival Choice Change} {stock : ι} {process other : Process}
  {index position : ℕ}

def Balanced (ledger : Ledger ι Shared Process) (pool : Pool Shared Process) : Prop :=
  ∀ stock, (pool.processes.map (ledger.held stock)).sum + ledger.free stock pool.shared =
    ledger.total stock pool.shared

/-- The step of one process moves as much as it takes from itself. -/
def Conserves (ledger : Ledger ι Shared Process) (shared : Shared) (process : Process)
    (advance : Advance Shared Process) : Prop :=
  ∀ stock, ledger.held stock advance.process + (advance.spawned.map (ledger.held stock)).sum +
      ledger.free stock advance.shared + ledger.total stock shared =
    ledger.held stock process + ledger.free stock shared + ledger.total stock advance.shared

theorem Balanced.held_le (balanced : ledger.Balanced pool) (stock : ι)
    (found : pool.processes[index]? = some process) :
    ledger.held stock process + ledger.free stock pool.shared ≤ ledger.total stock pool.shared := by
  have books := balanced stock
  have share := Pool.le_sum (ledger.held stock) found
  omega

/-- Two processes do not both hold the only one there is. -/
theorem Balanced.index_unique (balanced : ledger.Balanced pool) (stock : ι)
    (found : pool.processes[index]? = some process)
    (found' : pool.processes[position]? = some other) (holds : 0 < ledger.held stock process)
    (holds' : 0 < ledger.held stock other) (single : ledger.total stock pool.shared ≤ 1) :
    position = index := by
  by_contra differs
  have books := balanced stock
  have shares := Pool.add_le_sum (ledger.held stock) found found' differs
  omega

/-- What is not free is held by some process. -/
theorem Balanced.exists_holder (balanced : ledger.Balanced pool) (stock : ι)
    (out : ledger.free stock pool.shared < ledger.total stock pool.shared) :
    ∃ (index : ℕ) (process : Process), pool.processes[index]? = some process ∧
      0 < ledger.held stock process := by
  apply Pool.exists_of_sum_pos
  have books := balanced stock
  omega

theorem Balanced.next (balanced : ledger.Balanced pool)
    {event : TaskEvent Arrival Choice Change} (effect : tasks.Effect pool event after)
    (arrivals : ∀ stock arrival, ledger.held stock (tasks.arrival arrival) = 0)
    (changes : ∀ stock shared change,
      ledger.free stock (tasks.change shared change) = ledger.free stock shared ∧
        ledger.total stock (tasks.change shared change) = ledger.total stock shared)
    (conserves : ∀ {index : ℕ} {process : Process} {choice : Choice}
      {advance : Advance Shared Process}, pool.processes[index]? = some process →
        tasks.step pool.shared process choice = some advance →
          ledger.Conserves pool.shared process advance) :
    ledger.Balanced after := by
  intro stock
  have books := balanced stock
  cases effect with
  | arrives arrival =>
      have nothing := arrivals stock arrival
      simp only [List.map_append, List.map_cons, List.map_nil, List.sum_append, List.sum_cons,
        List.sum_nil]
      omega
  | @moves index process choice advance found taken =>
      have law := conserves found taken stock
      have placed : ((pool.processes.set index advance.process).map (ledger.held stock)).sum + _ = _ :=
        Pool.sum_set (ledger.held stock) found
      simp only [List.map_append, List.sum_append]
      omega
  | changes change =>
      rcases changes stock pool.shared change with ⟨free, total⟩
      simp only [free, total]
      exact books

end Ledger

end StateMachine
