import Mathlib.Data.List.Basic

/-!
# Semaphores

A counting semaphore whose waiters are served in the order they came.  A permit
given back goes to the first waiter, and it is that waiter's from then on,
whether it has noticed or not.
-/

namespace Rust

universe u

structure Semaphore (τ : Type u) where
  available : ℕ
  waiters : List τ
  granted : List τ
  fair : 0 < available → waiters = []

namespace Semaphore

variable {τ : Type u}

/-- `Semaphore::new`. -/
def ofPermits (permits : ℕ) : Semaphore τ := ⟨permits, [], [], fun _ => rfl⟩

/-- `try_acquire_owned`. -/
def tryAcquire (semaphore : Semaphore τ) : Option (Semaphore τ) :=
  if free : 0 < semaphore.available then
    some ⟨semaphore.available - 1, semaphore.waiters, semaphore.granted,
      fun _ => semaphore.fair free⟩
  else none

/-- The first poll of `acquire_owned` that finds no permit. -/
def enqueue (semaphore : Semaphore τ) (ticket : τ) : Semaphore τ :=
  if free : 0 < semaphore.available then semaphore
  else
    { semaphore with
      waiters := semaphore.waiters ++ [ticket]
      fair := fun available => absurd available free }

/-- A permit given back. -/
def release (semaphore : Semaphore τ) : Semaphore τ :=
  match shape : semaphore.waiters with
  | [] => ⟨semaphore.available + 1, [], semaphore.granted, fun _ => rfl⟩
  | first :: waiters =>
      ⟨semaphore.available, waiters, first :: semaphore.granted, fun available => by
        simp [semaphore.fair available] at shape⟩

/-- The permits no holder has. -/
def permits (semaphore : Semaphore τ) : ℕ := semaphore.available + semaphore.granted.length

variable {semaphore after : Semaphore τ}

theorem permits_tryAcquire (taken : semaphore.tryAcquire = some after) :
    after.permits + 1 = semaphore.permits := by
  unfold tryAcquire at taken
  split at taken
  next free =>
    rcases Option.some.inj taken with rfl
    simp only [permits]
    omega
  next => cases taken

@[simp]
theorem permits_enqueue {ticket : τ} : (semaphore.enqueue ticket).permits = semaphore.permits := by
  unfold enqueue
  split <;> rfl

@[simp]
theorem permits_release : semaphore.release.permits = semaphore.permits + 1 := by
  unfold release
  split <;> simp only [permits, List.length_cons] <;> omega

theorem tryAcquire_eq_none : semaphore.tryAcquire = none ↔ semaphore.available = 0 := by
  unfold tryAcquire
  split <;> simp <;> omega

variable [DecidableEq τ] {ticket other : τ}

/-- The poll that finds the permit granted. -/
def collect (semaphore : Semaphore τ) (ticket : τ) : Option (Semaphore τ) :=
  if ticket ∈ semaphore.granted then
    some { semaphore with granted := semaphore.granted.erase ticket }
  else none

/-- The wait is dropped, and a permit granted to it goes back. -/
def leave (semaphore : Semaphore τ) (ticket : τ) : Semaphore τ :=
  if ticket ∈ semaphore.granted then
    release { semaphore with granted := semaphore.granted.erase ticket }
  else
    { semaphore with
      waiters := semaphore.waiters.erase ticket
      fair := fun available => by rw [semaphore.fair available]; rfl }

/-- The places a ticket has in the queue or among the permits granted. -/
def places (semaphore : Semaphore τ) (ticket : τ) : ℕ :=
  semaphore.waiters.count ticket + semaphore.granted.count ticket

theorem permits_collect (taken : semaphore.collect ticket = some after) :
    after.permits + 1 = semaphore.permits := by
  unfold collect at taken
  split at taken
  next granted =>
    rcases Option.some.inj taken with rfl
    have some_left := List.length_pos_of_mem granted
    simp only [permits, List.length_erase_of_mem granted]
    omega
  next => cases taken

@[simp]
theorem permits_leave : (semaphore.leave ticket).permits = semaphore.permits := by
  unfold leave
  split
  next granted =>
    have some_left := List.length_pos_of_mem granted
    rw [permits_release]
    simp only [permits, List.length_erase_of_mem granted]
    omega
  next => rfl

theorem places_tryAcquire (taken : semaphore.tryAcquire = some after) :
    after.places ticket = semaphore.places ticket := by
  unfold tryAcquire at taken
  split at taken
  next =>
    rcases Option.some.inj taken with rfl
    rfl
  next => cases taken

theorem places_enqueue (other ticket : τ) (exhausted : semaphore.tryAcquire = none) :
    (semaphore.enqueue other).places ticket =
      semaphore.places ticket + if other = ticket then 1 else 0 := by
  have none_free := tryAcquire_eq_none.mp exhausted
  rw [enqueue, dif_neg (by omega)]
  simp only [places, List.count_append, List.count_singleton, beq_iff_eq]
  omega

@[simp]
theorem places_release : semaphore.release.places ticket = semaphore.places ticket := by
  unfold release
  split
  next shape => simp [places, shape]
  next first waiters shape =>
    simp only [places, shape, List.count_cons]
    omega

theorem places_collect (ticket : τ) (taken : semaphore.collect other = some after) :
    after.places ticket + (if other = ticket then 1 else 0) = semaphore.places ticket := by
  unfold collect at taken
  split at taken
  next granted =>
    rcases Option.some.inj taken with rfl
    simp only [places, List.count_erase, beq_iff_eq]
    split
    next same =>
      rcases same with rfl
      have some_left := List.count_pos_iff.mpr granted
      omega
    next => omega
  next => cases taken

theorem places_leave (ticket : τ) (waits : 0 < semaphore.places other) :
    (semaphore.leave other).places ticket + (if other = ticket then 1 else 0) =
      semaphore.places ticket := by
  unfold leave
  split
  next granted =>
    rw [places_release]
    simp only [places, List.count_erase, beq_iff_eq]
    split
    next same =>
      rcases same with rfl
      have some_left := List.count_pos_iff.mpr granted
      omega
    next => omega
  next absent =>
    simp only [places, List.count_erase, beq_iff_eq]
    split
    next same =>
      rcases same with rfl
      have not_granted := List.count_eq_zero.mpr absent
      simp only [places, not_granted] at waits
      omega
    next => omega

end Semaphore

end Rust
