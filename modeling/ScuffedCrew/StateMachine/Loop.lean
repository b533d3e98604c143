import Mathlib.Data.Nat.Notation

/-!
# Loops

A `while` loop whose body either makes a step or leaves.  The loop runs on
fuel; a measure that every step lowers bounds the fuel it needs.
-/

namespace StateMachine

universe u

variable {State : Type u}

/-- Repeat the body until it leaves. -/
def loop (body : State → Option State) : ℕ → State → State
  | 0, state => state
  | fuel + 1, state =>
      match body state with
      | none => state
      | some next => loop body fuel next

variable {body : State → Option State} {state next : State} {fuel : ℕ}

theorem loop_of_none (leaves : body state = none) : loop body fuel state = state := by
  cases fuel <;> simp [loop, leaves]

theorem loop_of_some (step : body state = some next) :
    loop body (fuel + 1) state = loop body fuel next := by
  simp [loop, step]

/-- What holds before the loop and is kept by its body holds after it. -/
theorem loop_invariant (Inv : State → Prop) (init : Inv state)
    (kept : ∀ {state next}, body state = some next → Inv state → Inv next) :
    Inv (loop body fuel state) := by
  induction fuel generalizing state with
  | zero => exact init
  | succ fuel ih =>
      cases step : body state with
      | none =>
          rw [loop_of_none step]
          exact init
      | some next =>
          rw [loop_of_some step]
          exact ih (kept step init)

/-- A loop whose body lowers a measure leaves within that many steps. -/
theorem loop_leaves (weight : State → ℕ)
    (lowers : ∀ {state next}, body state = some next → weight next < weight state)
    (enough : weight state ≤ fuel) : body (loop body fuel state) = none := by
  induction fuel generalizing state with
  | zero =>
      cases step : body state with
      | none => simpa [loop] using step
      | some next =>
          have lower := lowers step
          omega
  | succ fuel ih =>
      cases step : body state with
      | none =>
          rw [loop_of_none step]
          exact step
      | some next =>
          rw [loop_of_some step]
          refine ih ?_
          have lower := lowers step
          omega

end StateMachine
