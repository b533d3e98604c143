import ScuffedCrew.Leaderboard.SingleFlight

/-!
# The scan slots

Every permit that is out is held by a call with the sender of a flight, or was
granted to one that waits for it.
-/

namespace ScuffedCrew.Leaderboard

open Rust StateMachine
open LeaderboardCache (Outcome)

variable {Rows Error : Type}

namespace Call

/-- The call has a permit of the scan cap. -/
def holdsTotal : Call Rows Error → Bool
  | start _ _ _ | load _ _ _ _ _ _ | release _ _ | handoff _ _ => true
  | _ => false

/-- The call has a permit of the refresh budget. -/
def holdsRefresh : Call Rows Error → Bool
  | tryTotal _ _ _ | retryTotal _ _ | handoff _ _ => true
  | start _ _ refresh | load _ _ refresh _ _ _ => refresh
  | _ => false

/-- The place of the call in the line for a scan slot. -/
def ticket? : Call Rows Error → Option ℕ
  | queued _ flight => some flight
  | _ => none

/-- The call's loader runs. -/
def scans : Call Rows Error → Bool
  | load _ _ _ _ _ _ => true
  | _ => false

/-- The call's loader runs, in the background. -/
def refreshes : Call Rows Error → Bool
  | load _ _ refresh _ _ _ => refresh
  | _ => false

theorem sender_of_holdsTotal {call : Call Rows Error} (holds : call.holdsTotal) :
    ∃ flight, call.sender? = some flight := by
  cases call <;> first | exact ⟨_, rfl⟩ | cases holds

theorem sender_of_holdsRefresh {call : Call Rows Error} (holds : call.holdsRefresh) :
    ∃ flight, call.sender? = some flight := by
  cases call <;> first | exact ⟨_, rfl⟩ | cases holds

theorem holdsTotal_of_scans {call : Call Rows Error} (running : call.scans) : call.holdsTotal := by
  cases call <;> first | rfl | cases running

theorem holdsRefresh_of_refreshes {call : Call Rows Error} (running : call.refreshes) :
    call.holdsRefresh := by
  cases call <;> first | exact running | cases running

theorem sender_of_ticket {call : Call Rows Error} {flight : ℕ} (waits : call.ticket? = some flight) :
    call.sender? = some flight := by
  cases call <;> first | exact waits | cases waits

end Call

inductive Slot
  | total
  | refresh
  | ticket (flight : ℕ)

def permits (cache : LeaderboardCache Error) : Ledger Slot (Shared Rows) (Call Rows Error) where
  held
    | .total, call => call.holdsTotal.toNat
    | .refresh, call => call.holdsRefresh.toNat
    | .ticket flight, call => if call.ticket? = some flight then 1 else 0
  free
    | .total, shared => shared.scans.permits
    | .refresh, shared => shared.refreshScans
    | .ticket _, _ => 0
  total
    | .total, _ => cache.scans
    | .refresh, _ => refreshSlots cache.scans
    | .ticket flight, shared => shared.scans.places flight

section Law

variable {cache : LeaderboardCache Error} {shared after : Shared Rows} {call moved : Call Rows Error}

theorem discardDead_scans {key : LeaderboardKey} : (shared.discardDead key).scans = shared.scans ∧
    (shared.discardDead key).refreshScans = shared.refreshScans := by
  unfold Shared.discardDead
  split
  · split <;> exact ⟨rfl, rfl⟩
  · exact ⟨rfl, rfl⟩

theorem beginLoad_scans (cache : LeaderboardCache Error) (shared : Shared Rows)
    (key : LeaderboardKey) :
    (cache.beginLoad shared key).1.scans = shared.scans ∧
      (cache.beginLoad shared key).1.refreshScans = shared.refreshScans := by
  have effect := begin_effect cache shared key
  generalize cache.beginLoad shared key = begun at effect
  cases effect with
  | leads free touched => rcases touched with rfl | rfl <;> exact discardDead_scans
  | _ => exact discardDead_scans

theorem finishLead_scans (cache : LeaderboardCache Error) (shared : Shared Rows)
    (key : LeaderboardKey) (flight startedMs freshForMs : ℕ) (started : ℤ)
    (result : Except Error Rows) :
    (cache.finishLead shared key flight startedMs started freshForMs result).1.scans =
        shared.scans ∧
      (cache.finishLead shared key flight startedMs started freshForMs result).1.refreshScans =
        shared.refreshScans := by
  unfold LeaderboardCache.finishLead
  cases result with
  | ok rows => exact ⟨rfl, rfl⟩
  | error error =>
      simp only
      split <;> exact ⟨rfl, rfl⟩

/-- A step that leaves the semaphores alone, and what the call holds. -/
theorem permits_conserved_of_same (scans : after.scans = shared.scans)
    (refreshScans : after.refreshScans = shared.refreshScans)
    (total : moved.holdsTotal = call.holdsTotal) (refresh : moved.holdsRefresh = call.holdsRefresh)
    (ticket : moved.ticket? = call.ticket?) :
    (permits cache).Conserves shared call ⟨after, moved, []⟩ := by
  intro slot
  cases slot with
  | total => simp [permits, scans, total]
  | refresh => simp [permits, refreshScans, refresh]
  | ticket flight => simp [permits, scans, ticket]

/-- The semaphores before and after a step add up. -/
theorem permits_conserved_of_balance {spawned : List (Call Rows Error)}
    (total : moved.holdsTotal.toNat + (spawned.map fun call => call.holdsTotal.toNat).sum +
      after.scans.permits = call.holdsTotal.toNat + shared.scans.permits)
    (refresh : moved.holdsRefresh.toNat + (spawned.map fun call => call.holdsRefresh.toNat).sum +
      after.refreshScans = call.holdsRefresh.toNat + shared.refreshScans)
    (ticket : ∀ flight, (if moved.ticket? = some flight then 1 else 0) +
      (spawned.map fun call => if call.ticket? = some flight then 1 else 0).sum +
        shared.scans.places flight =
      (if call.ticket? = some flight then 1 else 0) + after.scans.places flight) :
    (permits cache).Conserves shared call ⟨after, moved, spawned⟩ := by
  intro slot
  cases slot with
  | total => simpa [permits] using total
  | refresh => simpa [permits] using refresh
  | ticket flight => simpa [permits] using ticket flight

theorem permits_conserved_of_go {millis : ℕ} {result : Except Error Rows}
    {advance : Advance (Shared Rows) (Call Rows Error)}
    (taken : call.go cache shared millis result = some advance) :
    (permits cache).Conserves shared call advance := by
  cases call with
  | begin key =>
      rcases Option.some.inj taken with rfl
      have same := beginLoad_scans cache shared key
      refine permits_conserved_of_same same.1 same.2 ?_ ?_ ?_
      all_goals
        generalize (cache.beginLoad shared key).2 = begun
        rcases begun with _ | ⟨_, _ | _⟩ | _ | _ <;> rfl
  | tryRefresh key flight board =>
      simp only [Call.go] at taken
      split at taken <;> rcases Option.some.inj taken with rfl
      next free =>
        refine permits_conserved_of_balance (by simp [Call.holdsTotal]) ?_
          (by simp [Call.ticket?])
        simp only [Call.holdsRefresh, Bool.toNat_true, Bool.toNat_false, List.map_nil,
          List.sum_nil]
        omega
      next => exact permits_conserved_of_same rfl rfl rfl rfl rfl
  | tryTotal key flight board =>
      simp only [Call.go] at taken
      split at taken <;> rcases Option.some.inj taken with rfl
      next scans acquired =>
        have fewer := Semaphore.permits_tryAcquire acquired
        refine permits_conserved_of_balance ?_ (by simp [Call.holdsRefresh]) fun ticket => ?_
        · simp only [Call.holdsTotal, Bool.toNat_true, Bool.toNat_false, List.map_cons,
            List.map_nil, List.sum_cons, List.sum_nil]
          omega
        · simp [Call.ticket?, Semaphore.places_tryAcquire acquired]
      next =>
        refine permits_conserved_of_balance (by simp [Call.holdsTotal]) ?_
          (by simp [Call.ticket?])
        simp only [Call.holdsRefresh, Bool.toNat_true, Bool.toNat_false, List.map_nil,
          List.sum_nil]
        omega
  | storedAt key flight board =>
      rcases Option.some.inj taken with rfl
      exact permits_conserved_of_same rfl rfl rfl rfl rfl
  | enqueue key flight board storedAt =>
      simp only [Call.go] at taken
      split at taken
      next =>
        split at taken <;> rcases Option.some.inj taken with rfl
        · exact permits_conserved_of_same rfl rfl rfl rfl rfl
        · exact permits_conserved_of_same rfl rfl rfl rfl rfl
      next => cases taken
  | skip flight board =>
      rcases Option.some.inj taken with rfl
      exact permits_conserved_of_same rfl rfl rfl rfl rfl
  | follow key flight =>
      simp only [Call.go] at taken
      split at taken
      next => cases taken
      next =>
        split at taken
        next =>
          split at taken
          next =>
            rcases Option.some.inj taken with rfl
            exact permits_conserved_of_same rfl rfl rfl rfl rfl
          next => cases taken
        all_goals
          rcases Option.some.inj taken with rfl
          exact permits_conserved_of_same rfl rfl rfl rfl rfl
  | mustBlock key dead =>
      rcases Option.some.inj taken with rfl
      refine permits_conserved_of_same rfl rfl ?_ ?_ ?_ <;> split <;> rfl
  | stale key otherwise =>
      rcases Option.some.inj taken with rfl
      refine permits_conserved_of_same rfl rfl ?_ ?_ ?_ <;> split <;> rfl
  | acquire key flight =>
      simp only [Call.go] at taken
      split at taken <;> rcases Option.some.inj taken with rfl
      next scans acquired =>
        have fewer := Semaphore.permits_tryAcquire acquired
        refine permits_conserved_of_balance ?_ (by simp [Call.holdsRefresh]) fun ticket => ?_
        · simp only [Call.holdsTotal, Bool.toNat_true, Bool.toNat_false, List.map_nil,
            List.sum_nil]
          omega
        · simp [Call.ticket?, Semaphore.places_tryAcquire acquired]
      next exhausted =>
        refine permits_conserved_of_balance (by simp [Call.holdsTotal])
          (by simp [Call.holdsRefresh]) fun ticket => ?_
        have joined := Semaphore.places_enqueue flight ticket exhausted
        simp only [Call.ticket?, Option.some.injEq, List.map_nil, List.sum_nil, reduceCtorEq,
          if_false, joined]
        omega
  | queued key flight =>
      rcases Option.map_eq_some_iff.mp taken with ⟨scans, collected, rfl⟩
      have fewer := Semaphore.permits_collect collected
      refine permits_conserved_of_balance ?_ (by simp [Call.holdsRefresh]) fun ticket => ?_
      · simp only [Call.holdsTotal, Bool.toNat_true, Bool.toNat_false, List.map_nil,
          List.sum_nil]
        omega
      · have left := Semaphore.places_collect ticket collected
        simp only [Call.ticket?, Option.some.injEq, List.map_nil, List.sum_nil, reduceCtorEq,
          if_false]
        omega
  | start key flight refresh =>
      simp only [Call.go] at taken
      split at taken
      next =>
        rcases Option.some.inj taken with rfl
        exact permits_conserved_of_same rfl rfl rfl rfl rfl
      next => cases taken
  | load key flight refresh startedMs started freshForMs =>
      rcases Option.some.inj taken with rfl
      have same := finishLead_scans cache shared key flight startedMs freshForMs started result
      refine permits_conserved_of_same same.1 same.2 ?_ ?_ ?_ <;> cases refresh <;> rfl
  | release flight outcome =>
      rcases Option.some.inj taken with rfl
      refine permits_conserved_of_balance ?_ ?_ fun ticket => ?_
      · simp only [Call.holdsTotal, Bool.toNat_true, Bool.toNat_false, List.map_nil, List.sum_nil,
          Shared.dropPermit, Semaphore.permits_release]
        omega
      · simp [Call.holdsRefresh, Shared.dropPermit]
      · simp [Call.ticket?, Shared.dropPermit]
  | retryRefresh flight outcome =>
      simp only [Call.go] at taken
      split at taken <;> rcases Option.some.inj taken with rfl
      next free =>
        refine permits_conserved_of_balance (by simp [Call.holdsTotal]) ?_
          (by simp [Call.ticket?])
        simp only [Call.holdsRefresh, Bool.toNat_true, Bool.toNat_false, List.map_nil,
          List.sum_nil]
        omega
      next => exact permits_conserved_of_same rfl rfl rfl rfl rfl
  | retryTotal flight outcome =>
      simp only [Call.go] at taken
      split at taken <;> rcases Option.some.inj taken with rfl
      next scans acquired =>
        have fewer := Semaphore.permits_tryAcquire acquired
        refine permits_conserved_of_balance ?_ (by simp [Call.holdsRefresh]) fun ticket => ?_
        · simp only [Call.holdsTotal, Bool.toNat_true, Bool.toNat_false, List.map_nil,
            List.sum_nil]
          omega
        · simp [Call.ticket?, Semaphore.places_tryAcquire acquired]
      next =>
        refine permits_conserved_of_balance (by simp [Call.holdsTotal, Shared.hangUp]) ?_
          (by simp [Call.ticket?, Shared.hangUp])
        simp only [Call.holdsRefresh, Bool.toNat_true, Bool.toNat_false, List.map_nil,
          List.sum_nil, Shared.hangUp]
        omega
  | handoff flight outcome =>
      have effect := handoff_effect shared (shared.inner.refreshWait.rows.map Prod.fst)
      simp only [Call.go] at taken
      generalize handoff shared (shared.inner.refreshWait.rows.map Prod.fst) = found
        at effect taken
      cases effect with
      | nothing refreshWait length fewer =>
          rcases Option.some.inj taken with rfl
          refine permits_conserved_of_balance ?_ ?_ fun ticket => ?_
          · simp only [Call.holdsTotal, Bool.toNat_true, Bool.toNat_false, List.map_nil,
              List.sum_nil, Shared.hangUp, Shared.dropPermit, Shared.waiting,
              Semaphore.permits_release]
            omega
          · simp only [Call.holdsRefresh, Bool.toNat_true, Bool.toNat_false, List.map_nil,
              List.sum_nil, Shared.hangUp, Shared.dropPermit, Shared.waiting, if_true]
            omega
          · simp [Call.ticket?, Shared.hangUp, Shared.dropPermit, Shared.waiting]
      | launches refreshWait length fewer found free =>
          rcases Option.some.inj taken with rfl
          exact permits_conserved_of_balance
            (by simp [Call.holdsTotal, Shared.hangUp, Shared.openFlight, Shared.waiting])
            (by simp [Call.holdsRefresh, Shared.hangUp, Shared.openFlight, Shared.waiting])
            (by simp [Call.ticket?, Shared.hangUp, Shared.openFlight, Shared.waiting])
  | returned outcome => cases taken
  | dropped => cases taken

theorem permits_conserved_of_drop {advance : Advance (Shared Rows) (Call Rows Error)}
    (waits : ∀ flight, call.ticket? = some flight → 0 < shared.scans.places flight)
    (taken : call.drop shared = some advance) : (permits cache).Conserves shared call advance := by
  cases call with
  | follow key flight =>
      rcases Option.some.inj taken with rfl
      exact permits_conserved_of_same rfl rfl rfl rfl rfl
  | queued key flight =>
      rcases Option.some.inj taken with rfl
      refine permits_conserved_of_balance (by simp [Call.holdsTotal, Shared.hangUp])
        (by simp [Call.holdsRefresh, Shared.hangUp]) fun ticket => ?_
      have left := Semaphore.places_leave ticket (waits flight rfl)
      simp only [Call.ticket?, Option.some.injEq, List.map_nil, List.sum_nil, reduceCtorEq,
        if_false, Shared.hangUp]
      omega
  | load key flight refresh startedMs started freshForMs =>
      rcases Option.some.inj taken with rfl
      refine permits_conserved_of_balance ?_ ?_ fun ticket => ?_
      · simp only [Call.holdsTotal, Bool.toNat_true, Bool.toNat_false, List.map_nil, List.sum_nil,
          Shared.hangUp, Shared.dropPermit, Semaphore.permits_release]
        omega
      · cases refresh <;> simp [Call.holdsRefresh, Shared.hangUp, Shared.dropPermit]
        omega
      · simp [Call.ticket?, Shared.hangUp, Shared.dropPermit]
  | _ => cases taken

end Law

/-! ## Every state reached -/

theorem toNat_pos_iff {b : Bool} : 0 < b.toNat ↔ b = true := by
  cases b <;> decide

/-- The books of the flights and of the scan slots. -/
structure Accounts (cache : LeaderboardCache Error) (pool : Pool (Shared Rows) (Call Rows Error)) :
    Prop extends InFlight pool where
  slots : (permits cache).Balanced pool

variable {cache : LeaderboardCache Error} {pool after : Pool (Shared Rows) (Call Rows Error)}
  {event : TaskEvent LeaderboardKey (Choice Rows Error) Tick} {call : Call Rows Error}
  {index flight : ℕ}

theorem places_of_ticket (slots : (permits cache).Balanced pool)
    (found : pool.processes[index]? = some call) (waits : call.ticket? = some flight) :
    0 < pool.shared.scans.places flight := by
  have held := slots.held_le (.ticket flight) found
  simp only [permits, waits, if_true] at held
  omega

theorem exists_ticket (slots : (permits cache).Balanced pool)
    (waits : 0 < pool.shared.scans.places flight) :
    ∃ (index : ℕ) (call : Call Rows Error), pool.processes[index]? = some call ∧
      call.ticket? = some flight := by
  rcases slots.exists_holder (.ticket flight) (by simpa [permits] using waits) with
    ⟨index, call, found, holds⟩
  refine ⟨index, call, found, ?_⟩
  by_contra differs
  simp [permits, differs] at holds

theorem exists_holdsTotal (slots : (permits cache).Balanced pool)
    (out : pool.shared.scans.permits < cache.scans) :
    ∃ (index : ℕ) (call : Call Rows Error), pool.processes[index]? = some call ∧
      call.holdsTotal := by
  rcases slots.exists_holder .total (by simpa [permits] using out) with
    ⟨index, call, found, holds⟩
  exact ⟨index, call, found, toNat_pos_iff.mp holds⟩

theorem Accounts.next (accounts : Accounts cache pool)
    (step : (requests cache).machine.next pool event = some after) : Accounts cache after := by
  refine ⟨accounts.toInFlight.next step, accounts.slots.next (Tasks.effect_of_next step)
    (fun slot key => ?_) (fun slot shared tick => ?_) ?_⟩
  · cases slot <;> rfl
  · cases slot <;> exact ⟨rfl, rfl⟩
  · intro index call choice advance found taken
    cases choice with
    | go millis result => exact permits_conserved_of_go taken
    | drop =>
        exact permits_conserved_of_drop
          (fun flight waits => places_of_ticket accounts.slots found waits) taken

theorem accounts_fresh {nowMs : ℕ} {wall : ℤ} :
    Accounts cache (cache.fresh nowMs wall : Pool (Shared Rows) (Call Rows Error)) where
  toInFlight := inFlight_fresh
  slots := by
    rintro (_ | _ | flight)
    · exact Nat.zero_add _
    · exact Nat.zero_add _
    · rfl

/-- The scans that run are no more than the cap. -/
theorem scans_le (slots : (permits cache).Balanced pool) :
    pool.processes.countP Call.scans ≤ cache.scans := by
  have books := slots .total
  have running := Pool.countP_le_sum pool.processes Call.scans
    ((permits cache).held .total)
    (fun call running => toNat_pos_iff.mpr (Call.holdsTotal_of_scans running))
  simp only [permits] at books running
  omega

theorem refreshes_le (slots : (permits cache).Balanced pool) :
    pool.processes.countP Call.refreshes ≤ refreshSlots cache.scans := by
  have books := slots .refresh
  have running := Pool.countP_le_sum pool.processes Call.refreshes
    ((permits cache).held .refresh)
    (fun call running => toNat_pos_iff.mpr (Call.holdsRefresh_of_refreshes running))
  simp only [permits] at books running
  omega

/-- No permit is out when there is no sender. -/
theorem permits_back (accounts : Accounts cache pool)
    (quiet : ∀ call ∈ pool.processes, call.sender? = none) :
    pool.shared.scans.available = cache.scans ∧
      pool.shared.refreshScans = refreshSlots cache.scans := by
  have nobody : ∀ holds : Call Rows Error → ℕ,
      (∀ call, 0 < holds call → ∃ flight, call.sender? = some flight) →
        (pool.processes.map holds).sum = 0 := by
    intro holds sends
    by_contra positive
    rcases Pool.exists_of_sum_pos holds (Nat.pos_of_ne_zero positive) with
      ⟨index, call, found, some_held⟩
    rcases sends call some_held with ⟨flight, sender⟩
    cases (quiet call (List.mem_of_getElem? found)).symm.trans sender
  have no_total := nobody (fun call => call.holdsTotal.toNat) (fun call holds =>
    Call.sender_of_holdsTotal (toNat_pos_iff.mp holds))
  have no_refresh := nobody (fun call => call.holdsRefresh.toNat) (fun call holds =>
    Call.sender_of_holdsRefresh (toNat_pos_iff.mp holds))
  have ungranted : pool.shared.scans.granted = [] := by
    apply List.eq_nil_iff_forall_not_mem.mpr
    intro flight granted
    have placed : 0 < pool.shared.scans.places flight := by
      have counted := List.count_pos_iff.mpr granted
      simp only [Semaphore.places]
      omega
    rcases exists_ticket accounts.slots placed with ⟨index, call, found, waits⟩
    cases (quiet call (List.mem_of_getElem? found)).symm.trans (Call.sender_of_ticket waits)
  have total := accounts.slots .total
  have refresh := accounts.slots .refresh
  simp only [permits, Semaphore.permits, ungranted, List.length_nil] at total refresh
  omega

end ScuffedCrew.Leaderboard
