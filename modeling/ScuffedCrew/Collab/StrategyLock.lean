import ScuffedCrew.Collab.Manager

/-!
# One persist task at a time

The persist tasks of a strategy take turns on its mutex for as long as they all
take it from the same entry.  A leave removes the entry without looking at the
tasks, so the next task makes another mutex and does not wait for the ones that
still have the first.
-/

namespace ScuffedCrew.Collab

open Rust StateMachine

/-- The strategy and the mutex of a task that waits for it or holds it. -/
def Call.mutex? : Call → Option (Text × ℕ)
  | .lock strategyId mutex => some (strategyId, mutex)
  | .work strategyId mutex => some (strategyId, mutex)
  | _ => none

inductive LockEffect (manager : RoomManager) (call : Call) (after : RoomManager) (moved : Call) : Prop
  | keeps (locks : after.strategyLocks = manager.strategyLocks) (locked : after.locked = manager.locked)
      (outside : moved.mutex? = none)
  | removes {strategyId : Text} (leaves : call = .removeLock strategyId)
      (locks : after.strategyLocks = manager.strategyLocks.erase strategyId)
      (locked : after.locked = manager.locked) (outside : moved.mutex? = none)
  | finds {strategyId : Text} {mutex : ℕ} (tasks : call = .strategyLock strategyId)
      (found : manager.strategyLocks.lookup strategyId = some mutex)
      (locks : after.strategyLocks = manager.strategyLocks) (locked : after.locked = manager.locked)
      (waits : moved = .lock strategyId mutex)
  | makes {strategyId : Text} {mutex : ℕ} (tasks : call = .strategyLock strategyId)
      (absent : manager.strategyLocks.lookup strategyId = none)
      (locks : after.strategyLocks = manager.strategyLocks.insert strategyId mutex)
      (locked : after.locked = manager.locked) (waits : moved = .lock strategyId mutex)
  | locks {strategyId : Text} {mutex : ℕ} (waits : call = .lock strategyId mutex)
      (free : mutex ∉ manager.locked) (locks : after.strategyLocks = manager.strategyLocks)
      (locked : after.locked = mutex :: manager.locked) (works : moved = .work strategyId mutex)
  | unlocks {strategyId : Text} {mutex : ℕ} (works : call = .work strategyId mutex)
      (locks : after.strategyLocks = manager.strategyLocks)
      (locked : after.locked = manager.locked.erase mutex) (outside : moved.mutex? = none)

theorem lockEffect_of_step {shard : Text → ℕ} {manager after : RoomManager} {call moved : Call}
    {failing : List Text} (taken : call.step shard manager failing = some (after, moved)) :
    LockEffect manager call after moved := by
  cases call with
  | join strategyId connectionId user =>
      simp only [Call.step] at taken
      split at taken <;> rcases Prod.mk.inj (Option.some.inj taken) with ⟨rfl, rfl⟩
      · exact .keeps rfl rfl rfl
      · exact .keeps rfl rfl rfl
  | joinEntry strategyId connectionId user =>
      simp only [Call.step] at taken
      split at taken
      next => cases taken
      next =>
        split at taken
        next =>
          rcases Prod.mk.inj (Option.some.inj taken) with ⟨rfl, rfl⟩
          exact .keeps rfl rfl rfl
        next =>
          split at taken <;> rcases Prod.mk.inj (Option.some.inj taken) with ⟨rfl, rfl⟩
          · exact .keeps rfl rfl rfl
          · exact .keeps rfl rfl rfl
  | joinAdd strategyId connectionId user =>
      rcases Option.map_eq_some_iff.mp taken with ⟨room, found, result⟩
      rcases Prod.mk.inj result with ⟨rfl, rfl⟩
      exact .keeps rfl rfl rfl
  | rollBack error =>
      rcases Prod.mk.inj (Option.some.inj taken) with ⟨rfl, rfl⟩
      exact .keeps rfl rfl rfl
  | leave strategyId connectionId =>
      simp only [Call.step] at taken
      split at taken
      next => cases taken
      next =>
        split at taken
        next =>
          rcases Prod.mk.inj (Option.some.inj taken) with ⟨rfl, rfl⟩
          exact .keeps rfl rfl rfl
        next =>
          split at taken
          next =>
            rcases Prod.mk.inj (Option.some.inj taken) with ⟨rfl, rfl⟩
            refine .keeps rfl rfl ?_
            split <;> rfl
          next =>
            split at taken <;> rcases Prod.mk.inj (Option.some.inj taken) with ⟨rfl, rfl⟩
            · exact .keeps rfl rfl rfl
            · exact .keeps rfl rfl rfl
  | leaveCount strategyId shouldRemove =>
      rcases Prod.mk.inj (Option.some.inj taken) with ⟨rfl, rfl⟩
      refine .keeps rfl rfl ?_
      cases shouldRemove <;> rfl
  | removeRoom strategyId =>
      simp only [Call.step] at taken
      split at taken
      next => cases taken
      next =>
        rcases Prod.mk.inj (Option.some.inj taken) with ⟨rfl, rfl⟩
        exact .keeps rfl rfl rfl
  | removeLock strategyId =>
      rcases Prod.mk.inj (Option.some.inj taken) with ⟨rfl, rfl⟩
      exact .removes rfl rfl rfl rfl
  | broadcast strategyId senderConnectionId message =>
      simp only [Call.step] at taken
      split at taken
      next => cases taken
      next =>
        split at taken <;> rcases Prod.mk.inj (Option.some.inj taken) with ⟨rfl, rfl⟩
        · exact .keeps rfl rfl rfl
        · exact .keeps rfl rfl rfl
  | deliver strategyId queue follows =>
      rcases queue with _ | ⟨head, queue⟩
      · cases follows with
        | addConnection connectionId user =>
            rcases Prod.mk.inj (Option.some.inj taken) with ⟨rfl, rfl⟩
            exact .keeps rfl rfl rfl
        | isEmpty =>
            rcases Option.map_eq_some_iff.mp taken with ⟨room, found, result⟩
            rcases Prod.mk.inj result with ⟨rfl, rfl⟩
            exact .keeps rfl rfl rfl
        | nothing =>
            rcases Prod.mk.inj (Option.some.inj taken) with ⟨rfl, rfl⟩
            exact .keeps rfl rfl rfl
      · rcases Option.map_eq_some_iff.mp taken with ⟨room, found, result⟩
        rcases Prod.mk.inj result with ⟨rfl, rfl⟩
        refine .keeps rfl rfl ?_
        split <;> rfl
  | settle strategyId pruned queue follows =>
      rcases Prod.mk.inj (Option.some.inj taken) with ⟨rfl, rfl⟩
      exact .keeps rfl rfl rfl
  | persist strategyId =>
      simp only [Call.step] at taken
      split at taken <;> rcases Prod.mk.inj (Option.some.inj taken) with ⟨rfl, rfl⟩
      · exact .keeps rfl rfl rfl
      · exact .keeps rfl rfl rfl
  | strategyLock strategyId =>
      simp only [Call.step] at taken
      split at taken
      next mutex found =>
        rcases Prod.mk.inj (Option.some.inj taken) with ⟨rfl, rfl⟩
        exact .finds rfl found rfl rfl rfl
      next absent =>
        rcases Prod.mk.inj (Option.some.inj taken) with ⟨rfl, rfl⟩
        exact .makes rfl absent rfl rfl rfl
  | lock strategyId mutex =>
      simp only [Call.step] at taken
      split at taken
      next => cases taken
      next free =>
        rcases Prod.mk.inj (Option.some.inj taken) with ⟨rfl, rfl⟩
        exact .locks rfl free rfl rfl rfl
  | work strategyId mutex =>
      rcases Prod.mk.inj (Option.some.inj taken) with ⟨rfl, rfl⟩
      exact .unlocks rfl rfl rfl rfl
  | joined strategyId connectionId => cases taken
  | rejected error => cases taken
  | left => cases taken
  | sent => cases taken
  | persisted => cases taken
  | busy => cases taken

/-- A mutex is made only when no task of the strategy waits for or holds an earlier one. -/
def Call.SoleMutex (pool : Pool RoomManager Call) : Call → Prop
  | .strategyLock strategyId =>
      pool.shared.strategyLocks.lookup strategyId = none →
        ∀ other ∈ pool.processes, other.mutex?.map Prod.fst ≠ some strategyId
  | _ => True

def CollabStep.SoleMutex (step : CollabStep) : Prop := ∀ call ∈ step.call?, call.SoleMutex step.before

/-- No two tasks of a strategy hold a mutex at the same time. -/
def Serialised (pool : Pool RoomManager Call) : Prop :=
  ∀ (index index' : ℕ) (strategyId : Text) (mutex mutex' : ℕ),
    pool.processes[index]? = some (.work strategyId mutex) →
      pool.processes[index']? = some (.work strategyId mutex') → index = index'

/-- The tasks of a strategy have one mutex, and a mutex has one holder. -/
structure Locking (pool : Pool RoomManager Call) : Prop where
  current : ∀ call ∈ pool.processes, ∀ strategyId mutex, call.mutex? = some (strategyId, mutex) →
    pool.shared.strategyLocks.lookup strategyId = none ∨
      pool.shared.strategyLocks.lookup strategyId = some mutex
  same : ∀ call ∈ pool.processes, ∀ call' ∈ pool.processes, ∀ strategyId mutex mutex',
    call.mutex? = some (strategyId, mutex) → call'.mutex? = some (strategyId, mutex') →
      mutex = mutex'
  held : ∀ strategyId mutex, .work strategyId mutex ∈ pool.processes → mutex ∈ pool.shared.locked
  sole : ∀ (index index' : ℕ) (strategyId strategyId' : Text) (mutex : ℕ),
    pool.processes[index]? = some (.work strategyId mutex) →
      pool.processes[index']? = some (.work strategyId' mutex) → index = index'

theorem Locking.serialised {pool : Pool RoomManager Call} (locking : Locking pool) :
    Serialised pool := by
  intro index index' strategyId mutex mutex' works works'
  obtain rfl := locking.same _ (List.mem_of_getElem? works) _ (List.mem_of_getElem? works') strategyId
    mutex mutex' rfl rfl
  exact locking.sole index index' strategyId strategyId mutex works works'

namespace Locking

variable {pool : Pool RoomManager Call} {shared : RoomManager} {call moved : Call} {index : ℕ}

theorem mutex_cases (effect : LockEffect pool.shared call shared moved) {strategyId : Text}
    {mutex : ℕ} (has : moved.mutex? = some (strategyId, mutex)) :
    call.mutex? = some (strategyId, mutex) ∧
        shared.strategyLocks = pool.shared.strategyLocks ∨
      call = .strategyLock strategyId ∧ shared.strategyLocks.lookup strategyId = some mutex := by
  cases effect with
  | keeps locks locked outside =>
      rw [outside] at has
      cases has
  | removes leaves locks locked outside =>
      rw [outside] at has
      cases has
  | finds tasks found locks locked waits =>
      rw [waits] at has
      rcases Option.some.inj has with ⟨⟩
      exact .inr ⟨tasks, locks ▸ found⟩
  | makes tasks absent locks locked waits =>
      rw [waits] at has
      rcases Option.some.inj has with ⟨⟩
      exact .inr ⟨tasks, by rw [locks, AList.lookup_insert]⟩
  | locks waits free locks locked works =>
      rw [works] at has
      rcases Option.some.inj has with ⟨⟩
      exact .inl ⟨by rw [waits]; rfl, locks⟩
  | unlocks works locks locked outside =>
      rw [outside] at has
      cases has

theorem current_kept (locking : Locking pool) (effect : LockEffect pool.shared call shared moved)
    (alone : call.SoleMutex pool) {other : Call} (other_mem : other ∈ pool.processes) {strategyId : Text} {mutex : ℕ}
    (has : other.mutex? = some (strategyId, mutex)) :
    shared.strategyLocks.lookup strategyId = none ∨
      shared.strategyLocks.lookup strategyId = some mutex := by
  have before := locking.current other other_mem strategyId mutex has
  cases effect with
  | keeps locks => rwa [locks]
  | @removes removed leaves locks =>
      rw [locks, HashMap.lookup_erase']
      split
      next => exact .inl rfl
      next => exact before
  | finds tasks found locks => rwa [locks]
  | @makes made new tasks absent locks =>
      have differs : strategyId ≠ made := by
        rintro rfl
        rcases tasks with rfl
        exact alone absent other other_mem (by rw [has]; rfl)
      rwa [locks, AList.lookup_insert_ne differs]
  | locks waits free locks => rwa [locks]
  | unlocks works locks => rwa [locks]

theorem step (locking : Locking pool) (found : pool.processes[index]? = some call)
    (effect : LockEffect pool.shared call shared moved) (alone : call.SoleMutex pool) :
    Locking ⟨shared, pool.processes.set index moved⟩ := by
  have call_mem := List.mem_of_getElem? found
  have current : ∀ strategyId mutex, moved.mutex? = some (strategyId, mutex) →
      shared.strategyLocks.lookup strategyId = none ∨
        shared.strategyLocks.lookup strategyId = some mutex := by
    intro strategyId mutex has
    rcases mutex_cases effect has with ⟨had, locks⟩ | ⟨-, entry⟩
    · rw [locks]
      exact locking.current call call_mem strategyId mutex had
    · exact .inr entry
  have same : ∀ other ∈ pool.processes, ∀ strategyId mutex mutex',
      moved.mutex? = some (strategyId, mutex) → other.mutex? = some (strategyId, mutex') →
        mutex = mutex' := by
    intro other other_mem strategyId mutex mutex' has has'
    rcases mutex_cases effect has with ⟨had, -⟩ | ⟨-, entry⟩
    · exact locking.same call call_mem other other_mem strategyId mutex mutex' had has'
    · rcases locking.current_kept effect alone other_mem has' with gone | entry'
      · rw [entry] at gone
        cases gone
      · exact Option.some.inj (entry.symm.trans entry')
  have still_held : ∀ position, position ≠ index → ∀ strategyId mutex,
      pool.processes[position]? = some (.work strategyId mutex) → mutex ∈ shared.locked := by
    intro position differs strategyId mutex works
    have held := locking.held strategyId mutex (List.mem_of_getElem? works)
    cases effect with
    | keeps locks locked => rwa [locked]
    | removes leaves locks locked => rwa [locked]
    | finds tasks entry locks locked => rwa [locked]
    | makes tasks absent locks locked => rwa [locked]
    | locks waits free locks locked =>
        rw [locked]
        exact List.mem_cons_of_mem _ held
    | @unlocks ended released works' locks locked =>
        have other : mutex ≠ released := by
          rintro rfl
          exact differs (locking.sole _ _ _ _ _ works (works' ▸ found))
        rw [locked]
        exact (List.mem_erase_of_ne other).mpr held
  have new_holder : ∀ strategyId mutex, moved = .work strategyId mutex →
      mutex ∉ pool.shared.locked ∧ mutex ∈ shared.locked := by
    rintro strategyId mutex rfl
    cases effect with
    | keeps locks locked outside => cases outside
    | removes leaves locks locked outside => cases outside
    | finds tasks entry locks locked waits => cases waits
    | makes tasks absent locks locked waits => cases waits
    | locks waits free locks locked works =>
        rcases works with ⟨⟩
        exact ⟨free, locked ▸ List.mem_cons_self⟩
    | unlocks works locks locked outside => cases outside
  refine ⟨?_, ?_, ?_, ?_⟩
  · intro other other_mem strategyId mutex has
    rcases List.getElem?_of_mem other_mem with ⟨position, at_position⟩
    rcases Pool.of_set at_position with ⟨-, rfl⟩ | ⟨-, before⟩
    · exact current strategyId mutex has
    · exact locking.current_kept effect alone (List.mem_of_getElem? before) has
  · intro first first_mem second second_mem strategyId mutex mutex' has has'
    rcases List.getElem?_of_mem first_mem with ⟨position, at_position⟩
    rcases List.getElem?_of_mem second_mem with ⟨position', at_position'⟩
    rcases Pool.of_set at_position with ⟨-, rfl⟩ | ⟨-, before⟩ <;>
      rcases Pool.of_set at_position' with ⟨-, rfl⟩ | ⟨-, before'⟩
    · rw [has] at has'
      exact congrArg Prod.snd (Option.some.inj has')
    · exact same second (List.mem_of_getElem? before') strategyId mutex mutex' has has'
    · exact (same first (List.mem_of_getElem? before) strategyId mutex' mutex has' has).symm
    · exact locking.same first (List.mem_of_getElem? before) second (List.mem_of_getElem? before')
        strategyId mutex mutex' has has'
  · intro strategyId mutex works
    rcases List.getElem?_of_mem works with ⟨position, at_position⟩
    rcases Pool.of_set at_position with ⟨-, now⟩ | ⟨differs, before⟩
    · exact (new_holder strategyId mutex now.symm).2
    · exact still_held position differs strategyId mutex before
  · intro first second strategyId strategyId' mutex at_first at_second
    rcases Pool.of_set at_first with ⟨rfl, now⟩ | ⟨-, before⟩ <;>
      rcases Pool.of_set at_second with ⟨rfl, now'⟩ | ⟨-, before'⟩
    · rfl
    · have held := locking.held _ _ (List.mem_of_getElem? before')
      exact absurd held (new_holder strategyId mutex now.symm).1
    · have held := locking.held _ _ (List.mem_of_getElem? before)
      exact absurd held (new_holder strategyId' mutex now'.symm).1
    · exact locking.sole first second strategyId strategyId' mutex before before'

end Locking

/-- The persist tasks of a strategy run one at a time when no task makes a mutex beside an earlier
one that is still in use. -/
theorem serialised_of_soleMutex {shard : Text → ℕ} {start final : Pool RoomManager Call}
    {steps : List CollabStep} (starting : ∀ call ∈ start.processes, call.starts = true)
    (run : (collab shard).Run start steps final)
    (soleMutex : ∀ step ∈ steps, CollabStep.SoleMutex step) : Serialised final := by
  have outside : ∀ call ∈ start.processes, call.mutex? = none := by
    intro call call_mem
    have starts := starting call call_mem
    cases call <;> first | rfl | cases starts
  have begun : Locking start := by
    refine ⟨?_, ?_, ?_, ?_⟩
    · intro call call_mem strategyId mutex has
      rw [outside call call_mem] at has
      cases has
    · intro call call_mem call' _ strategyId mutex mutex' has
      rw [outside call call_mem] at has
      cases has
    · intro strategyId mutex works
      cases outside _ works
    · intro first second strategyId strategyId' mutex works
      cases outside _ (List.mem_of_getElem? works)
  have locking : Locking final := by
    refine run.invariant_of_forall Locking begun soleMutex ?_
    intro state turn after taken soleMutex locking
    rcases interleaving_next_eq_some.mp taken with ⟨call, shared, moved, found, stepped, rfl⟩
    exact locking.step found (lockEffect_of_step stepped) (soleMutex call found)
  exact locking.serialised

/-! ## Two tasks at once -/

/-- A client edits and leaves; another client joins and edits. -/
def twoEdits : Pool RoomManager Call where
  shared := .withGlobalLimit 512
  processes :=
    [.join "push".toList "tab1".toList ⟨"ana".toList, "Ana".toList, none⟩, .persist "push".toList,
      .leave "push".toList "tab1".toList,
      .join "push".toList "tab2".toList ⟨"bap".toList, "Bap".toList, none⟩, .persist "push".toList]

def editTurns (process count : ℕ) : List (Turn (List Text)) := List.replicate count ⟨process, []⟩

/-- The first edit is still being written when the second client comes. -/
def slowEdit : List (Turn (List Text)) :=
  editTurns 0 5 ++ editTurns 1 3 ++ editTurns 2 6 ++ editTurns 3 5 ++ editTurns 4 3

theorem slowEdit_overlaps : ∃ final, (collab fun _ => 0).exec twoEdits slowEdit = some final ∧
    ¬Serialised final := by
  refine ⟨_, rfl, ?_⟩
  intro serialised
  have same := serialised 1 4 "push".toList 0 1 rfl rfl
  cases same

def Call.locksStrategy : Call → Bool
  | .strategyLock _ => true
  | _ => false

/-- The first edit is written before its client leaves. -/
def quickEdit : List (Turn (List Text)) :=
  editTurns 0 5 ++ editTurns 1 4 ++ editTurns 2 6 ++ editTurns 3 5 ++ editTurns 4 3

theorem quickEdit_serialised : ∃ final, (collab fun _ => 0).exec twoEdits quickEdit = some final ∧
    Serialised final := by
  have run : (collab fun _ => 0).Run twoEdits ((collab fun _ => 0).stepsOf twoEdits quickEdit) _ :=
    .of_exec rfl
  have starting : ∀ call ∈ twoEdits.processes, call.starts = true := by decide
  have idle : ∀ step ∈ (collab fun _ => 0).stepsOf twoEdits quickEdit,
      (∀ call ∈ step.before.processes, call.mutex? = none) ∨
        ∀ call ∈ CollabStep.call? step, call.locksStrategy = false := by
    decide
  refine ⟨_, rfl, serialised_of_soleMutex starting run ?_⟩
  intro step step_mem call called
  cases call with
  | strategyLock strategyId =>
      intro _ other other_mem
      rcases idle step step_mem with idle | busy
      · simp [idle other other_mem]
      · cases busy _ called
  | _ => trivial

end ScuffedCrew.Collab
