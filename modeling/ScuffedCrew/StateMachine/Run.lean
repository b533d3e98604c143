import Mathlib.Data.List.Basic

/-!
# Runs of a machine

A machine is a partial step function: the event of a step resolves every choice
the step leaves open, and a step that is not enabled has no successor.  A run
records each of its steps with the state before and after it, so that a property
of a run may speak about what happened earlier in it.

The rules are the induction principles the developments over a machine use:
an invariant of the states reached, an invariant under a condition on the
steps taken, and an invariant that ties the state to the steps so far.
-/

namespace StateMachine

universe u v

/-- States, events, and the step an event makes. -/
structure Machine (State : Type u) (Event : Type v) where
  next : State → Event → Option State

structure Step (State : Type u) (Event : Type v) where
  before : State
  event : Event
  after : State

namespace Machine

variable {State : Type u} {Event : Type v}

/-- The finite runs from `start`, with the steps taken and the state reached. -/
inductive Run (machine : Machine State Event) (start : State) :
    List (Step State Event) → State → Prop
  | refl : Run machine start [] start
  | snoc {steps : List (Step State Event)} {state after : State} {event : Event}
      (run : Run machine start steps state) (step : machine.next state event = some after) :
      Run machine start (steps ++ [⟨state, event, after⟩]) after

/-- The steps the events make from a state, up to the first one that is not enabled. -/
def stepsOf (machine : Machine State Event) : State → List Event → List (Step State Event)
  | _, [] => []
  | state, event :: events =>
      match machine.next state event with
      | none => []
      | some after => ⟨state, event, after⟩ :: machine.stepsOf after events

def exec (machine : Machine State Event) : State → List Event → Option State
  | state, [] => some state
  | state, event :: events => (machine.next state event).bind (machine.exec · events)

namespace Run

variable {machine : Machine State Event} {start middle final : State}
  {first second steps : List (Step State Event)}

theorem trans (left : machine.Run start first middle) (right : machine.Run middle second final) :
    machine.Run start (first ++ second) final := by
  induction right with
  | refl => simpa using left
  | snoc _ step ih =>
      rw [← List.append_assoc]
      exact ih.snoc step

theorem single {event : Event} (step : machine.next start event = some final) :
    machine.Run start [⟨start, event, final⟩] final := by
  simpa using Run.refl.snoc step

/-- A run passes through a state at every point of its list of steps. -/
theorem exists_middle (run : machine.Run start (first ++ second) final) :
    ∃ middle, machine.Run start first middle ∧ machine.Run middle second final := by
  generalize split : first ++ second = steps at run
  induction run generalizing second with
  | refl =>
      rcases List.append_eq_nil_iff.mp split with ⟨rfl, rfl⟩
      exact ⟨start, .refl, .refl⟩
  | @snoc before state after event run step ih =>
      rcases List.eq_nil_or_concat second with rfl | ⟨init, last, rfl⟩
      · rw [List.append_nil] at split
        subst split
        exact ⟨after, run.snoc step, .refl⟩
      · rw [List.concat_eq_append, ← List.append_assoc] at split
        rcases List.append_inj' split rfl with ⟨front, back⟩
        rcases ih front with ⟨middle, left, right⟩
        rcases List.singleton_inj.mp back with rfl
        rw [List.concat_eq_append]
        exact ⟨middle, left, right.snoc step⟩

theorem last_after {last : Step State Event} (run : machine.Run start (steps ++ [last]) final) :
    final = last.after := by
  generalize split : steps ++ [last] = taken at run
  cases run with
  | refl => simp at split
  | snoc =>
      rcases List.append_inj' split rfl with ⟨-, same⟩
      rw [List.singleton_inj.mp same]

theorem next_of_mem (run : machine.Run start steps final) :
    ∀ step ∈ steps, machine.next step.before step.event = some step.after := by
  induction run with
  | refl => simp
  | snoc _ taken ih =>
      intro step step_mem
      rcases List.mem_append.mp step_mem with earlier | last
      · exact ih step earlier
      · rcases List.mem_singleton.mp last with rfl
        exact taken

theorem nil_eq (run : machine.Run start [] final) : final = start := by
  generalize empty : ([] : List (Step State Event)) = steps at run
  cases run with
  | refl => rfl
  | snoc => simp at empty

theorem cons_inv {step : Step State Event} (run : machine.Run start (step :: second) final) :
    step.before = start ∧ machine.next start step.event = some step.after ∧
      machine.Run step.after second final := by
  have split : step :: second = [step] ++ second := rfl
  rw [split] at run
  rcases run.exists_middle with ⟨middle, left, right⟩
  generalize one : [step] = steps at left
  cases left with
  | refl => simp at one
  | @snoc before state after event left taken =>
      rcases before with _ | ⟨head, tail⟩
      · rcases List.singleton_inj.mp one with rfl
        rcases left.nil_eq with rfl
        exact ⟨rfl, taken, right⟩
      · simp at one

theorem reaches_before {step : Step State Event}
    (run : machine.Run start (first ++ step :: second) final) :
    machine.Run start first step.before ∧
      machine.next step.before step.event = some step.after := by
  rcases run.exists_middle with ⟨middle, left, right⟩
  rcases right.cons_inv with ⟨rfl, taken, -⟩
  exact ⟨left, taken⟩

/-- What holds at the start and is kept by every step holds of every state reached. -/
theorem invariant (run : machine.Run start steps final) (Inv : State → Prop) (init : Inv start)
    (kept : ∀ {state event after}, machine.next state event = some after →
      Inv state → Inv after) : Inv final := by
  induction run with
  | refl => exact init
  | snoc _ step ih => exact kept step ih

/-- An invariant kept only by the steps that meet a condition holds of the
states reached by runs whose steps all meet it. -/
theorem invariant_of_forall (run : machine.Run start steps final) (Inv : State → Prop)
    {Meets : Step State Event → Prop} (init : Inv start)
    (meets : ∀ step ∈ steps, Meets step)
    (kept : ∀ {state event after}, machine.next state event = some after →
      Meets ⟨state, event, after⟩ → Inv state → Inv after) : Inv final := by
  induction run with
  | refl => exact init
  | @snoc before state after event _ step ih =>
      refine kept step (meets _ (by simp)) (ih ?_)
      intro earlier earlier_mem
      exact meets earlier (List.mem_append_left _ earlier_mem)

/-- The same for every state along the run, not only the last one. -/
theorem always_of_forall (run : machine.Run start steps final) (Inv : State → Prop)
    {Meets : Step State Event → Prop} (init : Inv start)
    (meets : ∀ step ∈ steps, Meets step)
    (kept : ∀ {state event after}, machine.next state event = some after →
      Meets ⟨state, event, after⟩ → Inv state → Inv after) :
    ∀ step ∈ steps, Inv step.after := by
  intro step step_mem
  rcases List.append_of_mem step_mem with ⟨before, later, rfl⟩
  rw [List.append_cons] at run meets
  rcases run.exists_middle with ⟨middle, left, -⟩
  rcases left.last_after with rfl
  refine left.invariant_of_forall Inv init (fun other other_mem => ?_) kept
  exact meets other (List.mem_append_left _ other_mem)

/-- An invariant that ties the state to the steps taken so far. -/
theorem history (run : machine.Run start steps final)
    (Inv : List (Step State Event) → State → Prop) (init : Inv [] start)
    (kept : ∀ {steps state event after}, machine.next state event = some after →
      Inv steps state → Inv (steps ++ [⟨state, event, after⟩]) after) : Inv steps final := by
  induction run with
  | refl => exact init
  | snoc _ step ih => exact kept step ih

theorem of_exec {events : List Event} (executed : machine.exec start events = some final) :
    machine.Run start (machine.stepsOf start events) final := by
  induction events generalizing start with
  | nil =>
      obtain rfl : start = final := by simpa [exec] using executed
      exact .refl
  | cons event events ih =>
      simp only [exec, Option.bind_eq_some_iff] at executed
      rcases executed with ⟨after, taken, rest⟩
      simp only [stepsOf, taken]
      exact (single taken).trans (ih rest)

end Run

end Machine

/-! ## Since

`Since P Q steps`: some step of the list has `P`, and every later one has `Q`. -/

/-- The past operator on a list whose last element is the most recent one. -/
def Since {α : Type u} (P Q : α → Prop) (steps : List α) : Prop :=
  ∃ before step later, steps = before ++ step :: later ∧ P step ∧ ∀ other ∈ later, Q other

namespace Since

variable {α : Type u} {P P' Q Q' : α → Prop} {steps : List α} {last : α}

@[simp]
theorem not_nil : ¬Since P Q [] := by
  rintro ⟨before, step, later, empty, -⟩
  simp at empty

@[simp]
theorem snoc_iff : Since P Q (steps ++ [last]) ↔ P last ∨ (Q last ∧ Since P Q steps) := by
  constructor
  · rintro ⟨before, step, later, split, found, after⟩
    rcases List.eq_nil_or_concat later with rfl | ⟨init, tail, rfl⟩
    · rcases List.append_inj' split rfl with ⟨-, same⟩
      rcases List.singleton_inj.mp same with rfl
      exact .inl found
    · rw [List.concat_eq_append, ← List.cons_append, ← List.append_assoc] at split
      rcases List.append_inj' split rfl with ⟨front, same⟩
      rcases List.singleton_inj.mp same with rfl
      refine .inr ⟨after last (by simp), before, step, init, front, found, ?_⟩
      intro other other_mem
      exact after other (by simp [other_mem])
  · rintro (found | ⟨kept, before, step, later, rfl, found, after⟩)
    · exact ⟨steps, last, [], rfl, found, by simp⟩
    · refine ⟨before, step, later ++ [last], by simp, found, ?_⟩
      intro other other_mem
      rcases List.mem_append.mp other_mem with earlier | same
      · exact after other earlier
      · rcases List.mem_singleton.mp same with rfl
        exact kept

end Since

end StateMachine

/-!
## What an observer of a machine sees

The outputs of a run, and runs that differ only in hidden events.  When hidden
events change nothing and put nothing out, the observer cannot tell such runs
apart.
-/

namespace StateMachine

namespace Machine

universe u v w

variable {State : Type u} {Event : Type v} {Output : Type w}

/-- What the events put out, up to the first one that is not enabled. -/
def observe (machine : Machine State Event) (output : State → Event → List Output) :
    State → List Event → List Output
  | _, [] => []
  | state, event :: events =>
      match machine.next state event with
      | none => []
      | some after => output state event ++ machine.observe output after events

/-- Two lists of events that differ, from a state on, only in hidden ones. -/
inductive SameBut (machine : Machine State Event) (hidden : State → Event → Prop) :
    State → List Event → List Event → Prop
  | nil {state : State} : SameBut machine hidden state [] []
  | left {state : State} {event : Event} {first second : List Event}
      (unseen : hidden state event) (rest : SameBut machine hidden state first second) :
      SameBut machine hidden state (event :: first) second
  | right {state : State} {event : Event} {first second : List Event}
      (unseen : hidden state event) (rest : SameBut machine hidden state first second) :
      SameBut machine hidden state first (event :: second)
  | both {state : State} {event : Event} {first second : List Event}
      (rest : ∀ after, machine.next state event = some after →
        SameBut machine hidden after first second) :
      SameBut machine hidden state (event :: first) (event :: second)

variable {machine : Machine State Event} {hidden : State → Event → Prop}
  {output : State → Event → List Output} {state : State} {first second : List Event}

/-- Hidden events that change nothing and put nothing out are not observed. -/
theorem SameBut.observe_eq
    (silent : ∀ state event, hidden state event →
      machine.next state event = some state ∧ output state event = [])
    (same : SameBut machine hidden state first second) :
    machine.observe output state first = machine.observe output state second := by
  induction same with
  | nil => rfl
  | @left state event first second unseen _ ih =>
      rcases silent state event unseen with ⟨stays, nothing⟩
      simp only [observe, stays, nothing, List.nil_append, ih]
  | @right state event first second unseen _ ih =>
      rcases silent state event unseen with ⟨stays, nothing⟩
      simp only [observe, stays, nothing, List.nil_append, ih]
  | @both state event first second _ ih =>
      cases taken : machine.next state event with
      | none => simp only [observe, taken]
      | some after => simp only [observe, taken, ih after taken]

end Machine

end StateMachine
