import Mathlib.Algebra.Order.Ring.Nat
import Mathlib.Data.List.TakeWhile
import ScuffedCrew.StateMachine.Run

/-!
# Metered allowances

A meter fills with time up to a capacity, and what is allowed takes its cost out
of it.  Whatever is metered is allowed no more than the capacity and the time
that has passed pay for, also where an allowance takes more than its cost.
-/

namespace StateMachine

structure Meter where
  level : ℕ
  since : ℕ

namespace Meter

variable (capacity cost : ℕ) (meter : Meter) {now later : ℕ}

/-- The level at a time. -/
def fill (now : ℕ) : ℕ := min capacity (meter.level + (now - meter.since))

/-- The meter after an attempt, and whether it is allowed. -/
def spend (now : ℕ) : Meter × Bool :=
  if cost ≤ meter.fill capacity now then (⟨meter.fill capacity now - cost, now⟩, true)
  else (⟨meter.fill capacity now, now⟩, false)

theorem fill_le : meter.fill capacity now ≤ capacity := Nat.min_le_left _ _

/-- Filling twice is filling once. -/
theorem fill_fill (before : meter.since ≤ now) (after : now ≤ later) :
    Meter.fill capacity ⟨meter.fill capacity now, now⟩ later = meter.fill capacity later := by
  simp only [fill]
  omega

theorem fill_spent : (meter.spend capacity cost now).1.fill capacity now +
    (if (meter.spend capacity cost now).2 then cost else 0) = meter.fill capacity now := by
  have bounded := @fill_le capacity meter now
  have stays (level : ℕ) (within : level ≤ capacity) :
      Meter.fill capacity ⟨level, now⟩ now = level := by
    simp [fill, within]
  unfold spend
  split
  next enough =>
    rw [stays _ ((Nat.sub_le _ _).trans bounded), if_pos rfl, Nat.sub_add_cancel enough]
  next =>
    rw [stays _ bounded]
    rfl

end Meter

universe u v

variable {State : Type u} {Event : Type v} {machine : Machine State Event} {start final : State}
  {steps : List (Step State Event)}

/-- What is allowed in a run that begins at a time costs at most the capacity and the time since. -/
theorem Machine.Run.allowed_le (run : machine.Run start steps final) (clock level : State → ℕ)
    (allowed : Step State Event → Bool) {capacity cost begins : ℕ}
    (full : level start ≤ capacity) (starts : ∀ step ∈ steps, begins ≤ clock step.after)
    (metered : ∀ step ∈ steps, clock step.before ≤ clock step.after ∧
      level step.after + (if allowed step then cost else 0) ≤
        min capacity (level step.before + (clock step.after - clock step.before))) :
    steps.countP allowed * cost ≤ capacity + (clock final - begins) := by
  have paid : (steps = [] ∨ begins ≤ clock final) ∧
      steps.countP allowed * cost + level final ≤ capacity + (clock final - begins) := by
    induction run with
    | refl => exact ⟨.inl rfl, by simpa using Nat.le_add_right_of_le full⟩
    | @snoc steps before after event run taken ih =>
        have last : (⟨before, event, after⟩ : Step State Event) ∈ steps ++ [⟨before, event, after⟩] :=
          List.mem_append_right _ (List.mem_singleton_self _)
        have later := starts _ last
        have meter := metered _ last
        rcases ih (fun step step_mem => starts step (List.mem_append_left _ step_mem))
          (fun step step_mem => metered step (List.mem_append_left _ step_mem)) with ⟨begun, paid⟩
        refine ⟨.inr later, ?_⟩
        simp only at later meter
        rw [List.countP_append, List.countP_singleton, Nat.add_mul, ite_mul, Nat.one_mul,
          Nat.zero_mul]
        rcases begun with rfl | begun
        · simp only [List.countP_nil, Nat.zero_mul] at paid ⊢
          omega
        · omega
  exact Nat.le_of_add_right_le paid.2

end StateMachine

/-!
## Sliding windows

A log of instants of which only the end is kept.  When everything that was let
go has left the window, no interval of the window's length holds more of the
log than is kept.
-/

namespace StateMachine

/-- What is kept is the end of the log, and the rest has left the window. -/
def Retains (window now : ℕ) (log kept : List ℕ) : Prop :=
  ∃ gone, log = gone ++ kept ∧ ∀ stamp ∈ gone, window < now - stamp

namespace Retains

variable {window now : ℕ} {log kept : List ℕ}

theorem nil : Retains window now [] [] := ⟨[], rfl, by simp⟩

theorem mono {later : ℕ} (retains : Retains window now log kept) (after : now ≤ later) :
    Retains window later log kept := by
  rcases retains with ⟨gone, split, expired⟩
  refine ⟨gone, split, ?_⟩
  intro stamp stamp_mem
  have := expired stamp stamp_mem
  omega

/-- Stamps that have left the window may be let go. -/
theorem dropWhile (retains : Retains window now log kept) :
    Retains window now log (kept.dropWhile fun stamp => decide (window < now - stamp)) := by
  rcases retains with ⟨gone, split, expired⟩
  refine ⟨gone ++ kept.takeWhile fun stamp => decide (window < now - stamp), ?_, ?_⟩
  · rw [List.append_assoc, List.takeWhile_append_dropWhile, split]
  · intro stamp stamp_mem
    rcases List.mem_append.mp stamp_mem with before | taken
    · exact expired stamp before
    · simpa using List.mem_takeWhile_imp taken

theorem push (retains : Retains window now log kept) (stamp : ℕ) :
    Retains window now (log ++ [stamp]) (kept ++ [stamp]) := by
  rcases retains with ⟨gone, split, expired⟩
  exact ⟨gone, by rw [split, List.append_assoc], expired⟩

/-- No interval of the window's length holds more of the log than is kept. -/
theorem countP_le (retains : Retains window now log kept) {start : ℕ}
    (inside : now ≤ start + window) :
    log.countP (fun stamp => decide (start ≤ stamp)) ≤ kept.length := by
  rcases retains with ⟨gone, rfl, expired⟩
  have none_gone : gone.countP (fun stamp => decide (start ≤ stamp)) = 0 := by
    rw [List.countP_eq_zero]
    intro stamp stamp_mem
    have := expired stamp stamp_mem
    simp only [decide_eq_true_eq]
    omega
  rw [List.countP_append, none_gone, Nat.zero_add]
  exact List.countP_le_length

/-- The same for what is counted of a logged list, when everything counted is logged. -/
theorem countP_inside_le {α : Type*} {stampOf : α → ℕ} {counted logged : α → Bool} {taken : List α}
    (retains : Retains window now ((taken.filter logged).map stampOf) kept) {start : ℕ}
    (inside : now ≤ start + window) (counts : ∀ one, counted one = true → logged one = true) :
    taken.countP (fun one => counted one && decide (start ≤ stampOf one)) ≤ kept.length := by
  refine le_trans ?_ (retains.countP_le inside)
  rw [List.countP_map, List.countP_filter]
  apply List.countP_mono_left
  intro one _ both
  simp only [Bool.and_eq_true, Function.comp_apply] at both ⊢
  exact ⟨both.2, counts one both.1⟩

end Retains

universe u v

variable {State : Type u} {Event : Type v} {machine : Machine State Event} {start final : State}
  {steps : List (Step State Event)}

/-- A count over a run is bounded when it is right after each step that counts. -/
theorem Machine.Run.countP_le (run : machine.Run start steps final)
    (counted : Step State Event → Bool) {limit : ℕ}
    (bounded : ∀ {steps state event after}, machine.Run start steps state →
      machine.next state event = some after → counted ⟨state, event, after⟩ = true →
        List.countP counted (steps ++ [⟨state, event, after⟩]) ≤ limit) :
    steps.countP counted ≤ limit := by
  induction run with
  | refl => simp
  | @snoc steps state after event run taken ih =>
      cases counts : counted (Step.mk state event after) with
      | true => exact bounded run taken counts
      | false =>
          rw [List.countP_append, List.countP_singleton, counts]
          simpa using ih

end StateMachine
