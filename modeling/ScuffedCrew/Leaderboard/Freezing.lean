import ScuffedCrew.Leaderboard.Turns

/-!
# The cache does not freeze

What holds of the cache in every state the calls can reach: one leader a key and
no more scans than slots, no more boards than the cache may hold and none
replaced by an older one, and no request that waits for a flight nobody is there
to finish.
-/

namespace ScuffedCrew.Leaderboard

open Rust StateMachine

variable {Rows Error : Type}

namespace Call

def hasEnded : Call Rows Error → Bool
  | returned _ | dropped => true
  | _ => false

/-- The call has a next step, whatever its loader gives. -/
def CanGo (cache : LeaderboardCache Error) (shared : Shared Rows) (call : Call Rows Error) : Prop :=
  ∀ result, ∃ millis advance, call.go cache shared millis result = some advance

variable {cache : LeaderboardCache Error} {shared : Shared Rows} {call : Call Rows Error}

/-- A call with the sender of a flight goes on, unless it waits for a scan slot. -/
theorem canGo_of_sender {flight : ℕ} (sender : call.sender? = some flight)
    (unqueued : call.ticket? = none) : call.CanGo cache shared := by
  intro result
  cases call with
  | tryRefresh key flight board =>
      refine ⟨0, ?_⟩
      simp only [go]
      split <;> exact ⟨_, rfl⟩
  | tryTotal key flight board =>
      refine ⟨0, ?_⟩
      simp only [go]
      split <;> exact ⟨_, rfl⟩
  | storedAt key flight board => exact ⟨0, _, rfl⟩
  | enqueue key flight board storedAt =>
      refine ⟨backoffMin, ?_⟩
      simp only [go]
      rw [if_pos (by decide)]
      split <;> exact ⟨_, rfl⟩
  | skip flight board => exact ⟨0, _, rfl⟩
  | acquire key flight =>
      refine ⟨0, ?_⟩
      simp only [go]
      split <;> exact ⟨_, rfl⟩
  | queued key flight => cases unqueued
  | start key flight refresh =>
      refine ⟨jitterMin, ?_⟩
      simp only [go]
      rw [if_pos (by decide)]
      exact ⟨_, rfl⟩
  | load key flight refresh startedMs started freshForMs => exact ⟨0, _, rfl⟩
  | release flight outcome => exact ⟨0, _, rfl⟩
  | retryRefresh flight outcome =>
      refine ⟨0, ?_⟩
      simp only [go]
      split <;> exact ⟨_, rfl⟩
  | retryTotal flight outcome =>
      refine ⟨0, ?_⟩
      simp only [go]
      split <;> exact ⟨_, rfl⟩
  | handoff flight outcome =>
      refine ⟨0, ?_⟩
      simp only [go]
      split <;> exact ⟨_, rfl⟩
  | _ => cases sender

/-- A flight that is answered, or whose sender is gone, holds nobody up. -/
theorem canGo_of_follow {key : LeaderboardKey} {flight : ℕ}
    (there : flight < shared.channels.length) (dead : shared.isLive flight = false) :
    (follow key flight : Call Rows Error).CanGo cache shared := by
  intro result
  refine ⟨0, ?_⟩
  simp only [go, List.getElem?_eq_getElem there]
  simp only [Shared.isLive, List.getElem?_eq_getElem there, Option.any_some] at dead
  generalize shared.channels[flight] = channel at dead
  rcases channel with ⟨_ | board | _ | _, closed⟩
  · cases closed
    · cases dead
    · exact ⟨_, rfl⟩
  · exact ⟨_, rfl⟩
  · rename_i kind
    cases kind <;> exact ⟨_, rfl⟩
  · exact ⟨_, rfl⟩

theorem canGo_of_granted {key : LeaderboardKey} {flight : ℕ}
    (granted : flight ∈ shared.scans.granted) :
    (queued key flight : Call Rows Error).CanGo cache shared := by
  intro result
  refine ⟨0, ?_⟩
  simp only [go, Semaphore.collect, if_pos granted]
  exact ⟨_, rfl⟩

end Call

section Waiting

variable {cache : LeaderboardCache Error} {pool : Pool (Shared Rows) (Call Rows Error)}
  {call : Call Rows Error} {index flight : ℕ}

/-- A scan slot that is waited for is held by a call that goes on. -/
theorem exists_canGo_of_ticket (sound : Sound cache pool)
    (found : pool.processes[index]? = some call) (waits : call.ticket? = some flight) :
    ∃ other ∈ pool.processes, other.CanGo cache pool.shared := by
  have placed := places_of_ticket sound.slots found waits
  rcases List.eq_nil_or_concat pool.shared.scans.granted with ungranted | ⟨granted, ticket, shape⟩
  · -- Nobody waits while a permit is free, so all of them are out.
    have queue : pool.shared.scans.waiters ≠ [] := by
      intro empty
      simp [Semaphore.places, empty, ungranted] at placed
    have exhausted : pool.shared.scans.available = 0 := by
      by_contra free
      exact queue (pool.shared.scans.fair (Nat.pos_of_ne_zero free))
    have out : pool.shared.scans.permits < cache.scans := by
      have one := cache.one_le_scans
      simp only [Semaphore.permits, exhausted, ungranted, List.length_nil]
      omega
    rcases exists_holdsTotal sound.slots out with ⟨position, holder, found', holds⟩
    rcases Call.sender_of_holdsTotal holds with ⟨flight', sender⟩
    refine ⟨holder, List.mem_of_getElem? found', Call.canGo_of_sender sender ?_⟩
    cases holder <;> first | rfl | cases holds
  · have granted_ticket : ticket ∈ pool.shared.scans.granted := by simp [shape]
    have placed' : 0 < pool.shared.scans.places ticket := by
      have counted := List.count_pos_iff.mpr granted_ticket
      simp only [Semaphore.places]
      omega
    rcases exists_ticket sound.slots placed' with ⟨position, waiter, found', waits'⟩
    refine ⟨waiter, List.mem_of_getElem? found', ?_⟩
    cases waiter with
    | queued key flight' =>
        rcases Option.some.inj waits' with rfl
        exact Call.canGo_of_granted granted_ticket
    | _ => cases waits'

theorem exists_canGo_of_sender (sound : Sound cache pool)
    (found : pool.processes[index]? = some call) (sender : call.sender? = some flight) :
    ∃ other ∈ pool.processes, other.CanGo cache pool.shared := by
  cases ticket : call.ticket? with
  | none => exact ⟨call, List.mem_of_getElem? found, Call.canGo_of_sender sender ticket⟩
  | some place => exact exists_canGo_of_ticket sound found ticket

/-- While a call has not ended, one of the calls goes on. -/
theorem exists_canGo (sound : Sound cache pool) (call_mem : call ∈ pool.processes)
    (running : call.hasEnded = false) :
    ∃ other ∈ pool.processes, other.CanGo cache pool.shared := by
  rcases List.getElem?_of_mem call_mem with ⟨index, found⟩
  cases sender : call.sender? with
  | some flight => exact exists_canGo_of_sender sound found sender
  | none =>
      cases call with
      | follow key flight =>
          by_cases live : pool.shared.isLive flight
          · -- A flight without an answer has its sender with some call.
            rcases exists_sender sound.balanced (Shared.isOpen_of_isLive live)
              with ⟨position, leader, found', sender'⟩
            exact exists_canGo_of_sender sound found' sender'
          · exact ⟨_, call_mem, Call.canGo_of_follow (sound.followed key flight call_mem)
              (Bool.not_eq_true _ ▸ live)⟩
      | begin key => exact ⟨_, call_mem, fun result => ⟨0, _, rfl⟩⟩
      | mustBlock key dead => exact ⟨_, call_mem, fun result => ⟨0, _, rfl⟩⟩
      | stale key otherwise => exact ⟨_, call_mem, fun result => ⟨0, _, rfl⟩⟩
      | returned outcome => cases running
      | dropped => cases running
      | _ => cases sender

theorem turns_le {later : Pool (Shared Rows) (Call Rows Error)}
    {steps : List (Step (Pool (Shared Rows) (Call Rows Error))
      (TaskEvent LeaderboardKey (Choice Rows Error) Tick))}
    (sound : Sound cache pool) (run : (requests cache).machine.Run pool steps later)
    (quiet : ∀ step ∈ steps, step.event.isArrival = false) :
    steps.countP (fun step => step.event.isTurn) + turnsLeft later ≤ turnsLeft pool := by
  apply run.countP_le_rank (Sound cache) turnsLeft TaskEvent.isTurn
    (fun event => event.isArrival = false) sound quiet (fun step before => before.next step)
  intro state event after step before silent
  cases Tasks.effect_of_next step with
  | arrives => cases silent
  | changes => exact Nat.le_refl _
  | moves found taken => exact (before.turn found taken).lowers found

end Waiting

/-! ## The cache under load -/

section Runs

variable {cache : LeaderboardCache Error} {nowMs : ℕ} {wall : ℤ}
  {pool later : Pool (Shared Rows) (Call Rows Error)}
  {steps more : List (Step (Pool (Shared Rows) (Call Rows Error))
    (TaskEvent LeaderboardKey (Choice Rows Error) Tick))}

theorem sound_of_run (run : (requests cache).machine.Run (cache.fresh nowMs wall) steps pool) :
    Sound cache pool :=
  run.invariant (Sound cache) sound_fresh fun step before => before.next step

/-- One leader a key, no more scans at once than there are slots, and no slot kept. -/
structure WithinSlots (cache : LeaderboardCache Error)
    (pool : Pool (Shared Rows) (Call Rows Error)) : Prop where
  leader : ∀ {index position : ℕ} {call other : Call Rows Error} {key : LeaderboardKey}
    {flight flight' : ℕ}, pool.processes[index]? = some call →
      pool.processes[position]? = some other → call.leads? = some (key, flight) →
        other.leads? = some (key, flight') → position = index
  scans : pool.processes.countP Call.scans ≤ cache.scans
  refreshes : pool.processes.countP Call.refreshes ≤ max (cache.scans - 1) 1
  back : (∀ call ∈ pool.processes, call.sender? = none) →
    pool.shared.scans.available = cache.scans ∧ pool.shared.refreshScans = max (cache.scans - 1) 1

def seasonScan : LeaderboardKey := ⟨.publicAudience, "scan".toList, 0, "s4".toList, []⟩

def oneSlot : LeaderboardCache Unit := .build 30000 64 1 fun _ => .serveStale

/-- A request scans while a second one for its key waits, and a third key has no slot. -/
def scanAndWait : List (TaskEvent LeaderboardKey (Choice ℕ Unit) Tick) :=
  [.arrive seasonScan, .turn 0 (.go 0 (.ok 0)), .turn 0 (.go 0 (.ok 0)), .turn 0 (.go 1000 (.ok 0)),
    .arrive seasonScan, .turn 1 (.go 0 (.ok 0)), .arrive { seasonScan with seasonId := [] },
    .turn 2 (.go 0 (.ok 0)), .turn 2 (.go 0 (.ok 0))]

/-- However the calls interleave, fail or are dropped. -/
theorem scans_stay_within_slots
    (run : (requests cache).machine.Run (cache.fresh nowMs wall) steps pool) :
    WithinSlots cache pool := by
  have sound := sound_of_run run
  refine ⟨?_, scans_le sound.slots, refreshes_le sound.slots, fun quiet => ?_⟩
  · intro index position call other key flight flight' found found' leads leads'
    exact leader_unique sound.balanced found found' leads leads'
  · exact permits_back sound.toAccounts quiet

theorem scans_stay_within_one_slot : ∃ pool, (requests oneSlot).machine.exec (oneSlot.fresh 0 0)
    scanAndWait = some pool ∧ pool.processes.countP Call.scans = 1 ∧ WithinSlots oneSlot pool := by
  have ran : ((requests oneSlot).machine.exec (oneSlot.fresh 0 0) scanAndWait).map
      (fun pool => pool.processes.countP Call.scans) = some 1 := by decide
  rcases Option.map_eq_some_iff.mp ran with ⟨pool, executed, one⟩
  exact ⟨pool, executed, one, scans_stay_within_slots (.of_exec executed)⟩

/-- The boards in memory, with those that come after them. -/
structure OnlyNewer (cache : LeaderboardCache Error)
    (pool later : Pool (Shared Rows) (Call Rows Error)) : Prop where
  fits : HashMap.len pool.shared.inner.entries ≤ cache.maxEntries
  listed : Listed pool.shared.inner
  newer : ∀ key entry entry', pool.shared.inner.entries.lookup key = some entry →
    later.shared.inner.entries.lookup key = some entry' → entry.storedAtMs ≤ entry'.storedAtMs

/-- A board is replaced by one whose scan began no earlier, also where it was evicted in between. -/
theorem boards_are_replaced_by_newer
    (run : (requests cache).machine.Run (cache.fresh nowMs wall) steps pool)
    (goesOn : (requests cache).machine.Run pool more later) : OnlyNewer cache pool later := by
  have sound := sound_of_run run
  refine ⟨sound.fits, sound.listed, fun key entry entry' found found' => ?_⟩
  have above : Floor key entry.storedAtMs later :=
    goesOn.invariant (Floor key entry.storedAtMs) (sound.toBoards.floor found)
      fun step before => before.next step
  exact above.stored entry' found'

/-- The scan ends, its window passes, and a later request scans again. -/
def scanAgain : List (TaskEvent LeaderboardKey (Choice ℕ Unit) Tick) :=
  [.outside ⟨300000, 0⟩, .arrive seasonScan, .turn 1 (.go 0 (.ok 0)), .turn 1 (.go 0 (.ok 0)),
    .turn 1 (.go 1000 (.ok 0)), .turn 1 (.go 0 (.ok 7))]

def scanOnce : List (TaskEvent LeaderboardKey (Choice ℕ Unit) Tick) :=
  [.arrive seasonScan, .turn 0 (.go 0 (.ok 0)), .turn 0 (.go 0 (.ok 0)), .turn 0 (.go 1000 (.ok 0)),
    .turn 0 (.go 0 (.ok 3)), .turn 0 (.go 0 (.ok 0)), .turn 0 (.go 0 (.ok 0)),
    .turn 0 (.go 0 (.ok 0)), .turn 0 (.go 0 (.ok 0))]

def storedAt (pool : Pool (Shared ℕ) (Call ℕ Unit)) : Option ℕ :=
  (pool.shared.inner.entries.lookup seasonScan).map Entry.storedAtMs

theorem board_is_replaced_by_newer : ∃ pool later,
    (requests oneSlot).machine.exec (oneSlot.fresh 0 0) scanOnce = some pool ∧
      (requests oneSlot).machine.exec pool scanAgain = some later ∧ storedAt pool = some 0 ∧
        storedAt later = some 300000 ∧ OnlyNewer oneSlot pool later := by
  have ran : ((requests oneSlot).machine.exec (oneSlot.fresh 0 0) scanOnce).map storedAt =
      some (some 0) := by decide
  have ran_again : (((requests oneSlot).machine.exec (oneSlot.fresh 0 0) scanOnce).bind
      ((requests oneSlot).machine.exec · scanAgain)).map storedAt = some (some 300000) := by decide
  rcases Option.map_eq_some_iff.mp ran with ⟨pool, executed, first⟩
  rw [executed] at ran_again
  rcases Option.map_eq_some_iff.mp ran_again with ⟨later, executed_again, second⟩
  exact ⟨pool, later, executed, executed_again, first, second,
    boards_are_replaced_by_newer (.of_exec executed) (.of_exec executed_again)⟩

/-- Nobody waits for what nobody will do. -/
structure GoesOn (cache : LeaderboardCache Error)
    (pool : Pool (Shared Rows) (Call Rows Error)) : Prop where
  awaited : ∀ key flight, Call.follow key flight ∈ pool.processes → pool.shared.isLive flight →
    ∃ call ∈ pool.processes, call.sender? = some flight
  unblocked : ∀ call ∈ pool.processes, call.hasEnded = false →
    ∃ other ∈ pool.processes, other.CanGo cache pool.shared
  bounded : ∀ more later, (requests cache).machine.Run pool more later →
    (∀ step ∈ more, step.event.isArrival = false) →
      more.countP (fun step => step.event.isTurn) ≤ turnsLeft pool

/-- In every state the calls reach, a flight that a request waits for has its sender, some call goes
on until all have ended, and they end after a bounded number of turns unless new requests come. -/
theorem calls_never_freeze
    (run : (requests cache).machine.Run (cache.fresh nowMs wall) steps pool) :
    GoesOn cache pool := by
  have sound := sound_of_run run
  refine ⟨fun key flight waits live => ?_, fun call call_mem running => ?_, ?_⟩
  · rcases exists_sender sound.balanced (Shared.isOpen_of_isLive live)
      with ⟨index, call, found, sender⟩
    exact ⟨call, List.mem_of_getElem? found, sender⟩
  · exact exists_canGo sound call_mem running
  · intro more later goesOn quiet
    have turns := turns_le sound goesOn quiet
    omega

theorem waiting_calls_never_freeze : ∃ pool, (requests oneSlot).machine.exec (oneSlot.fresh 0 0)
    scanAndWait = some pool ∧ pool.shared.isLive 0 = true ∧ GoesOn oneSlot pool := by
  have ran : ((requests oneSlot).machine.exec (oneSlot.fresh 0 0) scanAndWait).map
      (fun pool => pool.shared.isLive 0) = some true := by decide
  rcases Option.map_eq_some_iff.mp ran with ⟨pool, executed, live⟩
  exact ⟨pool, executed, live, calls_never_freeze (.of_exec executed)⟩

end Runs

end ScuffedCrew.Leaderboard
