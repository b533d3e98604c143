import ScuffedCrew.StateMachine.Run

/-!
# Bounded progress

A state leads to a goal within a bound when every list of fair events that is
long enough takes the machine to a state of the goal no later than that.  The
rules compose bounds, and get one from a measure that every fair event lowers.
-/

namespace StateMachine

namespace Machine

universe u v

variable {State : Type u} {Event : Type v}

def Leads (machine : Machine State Event) (fair : Event → Prop) (goal : State → Prop)
    (bound : ℕ) (state : State) : Prop :=
  ∀ events : List Event, (∀ event ∈ events, fair event) → bound ≤ events.length →
    ∃ count ≤ bound, ∃ reached,
      machine.exec state (events.take count) = some reached ∧ goal reached

variable {machine : Machine State Event} {fair : Event → Prop} {goal middle : State → Prop}
  {state : State} {bound first second : ℕ}

theorem leads_of_goal (arrived : goal state) : machine.Leads fair goal bound state := by
  intro events _ _
  exact ⟨0, Nat.zero_le _, state, rfl, arrived⟩

theorem leads_succ
    (step : ∀ event, fair event →
      ∃ after, machine.next state event = some after ∧ machine.Leads fair goal bound after) :
    machine.Leads fair goal (bound + 1) state := by
  intro events all_fair long
  cases events with
  | nil => simp at long
  | cons event events =>
      rcases step event (all_fair event List.mem_cons_self) with ⟨after, taken, leads⟩
      have rest_fair : ∀ other ∈ events, fair other := fun other other_mem =>
        all_fair other (List.mem_cons_of_mem _ other_mem)
      have rest_long : bound ≤ events.length := by simpa using long
      rcases leads events rest_fair rest_long with ⟨count, within, reached, executed, arrived⟩
      refine ⟨count + 1, Nat.succ_le_succ within, reached, ?_, arrived⟩
      simpa [exec, taken] using executed

theorem Leads.mono (leads : machine.Leads fair goal first state) (within : first ≤ second) :
    machine.Leads fair goal second state := by
  intro events all_fair long
  rcases leads events all_fair (Nat.le_trans within long) with
    ⟨count, bounded, reached, executed, arrived⟩
  exact ⟨count, Nat.le_trans bounded within, reached, executed, arrived⟩

theorem exec_append (state : State) (events later : List Event) :
    machine.exec state (events ++ later) =
      (machine.exec state events).bind (machine.exec · later) := by
  induction events generalizing state with
  | nil => rfl
  | cons event events ih =>
      simp only [List.cons_append, exec, Option.bind_assoc]
      congr 1
      funext after
      exact ih after

/-- Progress to a middle goal, and from each of its states to the last one. -/
theorem Leads.trans (left : machine.Leads fair middle first state)
    (right : ∀ reached, middle reached → machine.Leads fair goal second reached) :
    machine.Leads fair goal (first + second) state := by
  intro events all_fair long
  rcases left events all_fair (by omega) with ⟨count, within, between, executed, passed⟩
  have rest_fair : ∀ event ∈ events.drop count, fair event := fun event event_mem =>
    all_fair event (List.mem_of_mem_drop event_mem)
  have rest_long : second ≤ (events.drop count).length := by
    rw [List.length_drop]
    omega
  rcases right between passed _ rest_fair rest_long with
    ⟨more, bounded, reached, executed_rest, arrived⟩
  refine ⟨count + more, Nat.add_le_add within bounded, reached, ?_, arrived⟩
  rw [List.take_add, exec_append, executed]
  exact executed_rest

/-- An invariant under which every fair event gets to the goal or lowers a measure. -/
theorem leads_of_measure (Inv : State → Prop) (weight : State → ℕ)
    (step : ∀ state, Inv state → ∀ event, fair event → ∃ after,
      machine.next state event = some after ∧
        (goal after ∨ Inv after ∧ weight after < weight state))
    (init : Inv state) (within : weight state ≤ bound) :
    machine.Leads fair goal (bound + 1) state := by
  induction bound generalizing state with
  | zero =>
      apply leads_succ
      intro event event_fair
      rcases step state init event event_fair with ⟨after, taken, arrived | ⟨-, lower⟩⟩
      · exact ⟨after, taken, leads_of_goal arrived⟩
      · omega
  | succ bound ih =>
      apply leads_succ
      intro event event_fair
      rcases step state init event event_fair with ⟨after, taken, arrived | ⟨kept, lower⟩⟩
      · exact ⟨after, taken, leads_of_goal arrived⟩
      · exact ⟨after, taken, ih kept (by omega)⟩

variable {start final : State} {steps : List (Step State Event)}

/-- A rank that the counted steps lower, and no step raises, bounds how many of them a run has. -/
theorem Run.countP_le_rank (run : machine.Run start steps final) (Inv : State → Prop) (rank : State → ℕ)
    (counted : Event → Bool) (meets : Event → Prop) (init : Inv start)
    (all_meet : ∀ step ∈ steps, meets step.event)
    (kept : ∀ {state event after}, machine.next state event = some after → Inv state → Inv after)
    (lower : ∀ {state event after}, machine.next state event = some after → Inv state →
      meets event → rank after + (if counted event then 1 else 0) ≤ rank state) :
    steps.countP (fun step => counted step.event) + rank final ≤ rank start := by
  induction run with
  | refl => simp
  | @snoc steps before after event run taken ih =>
      have earlier := ih fun step step_mem => all_meet step (List.mem_append_left _ step_mem)
      have last : (⟨before, event, after⟩ : Step State Event) ∈ steps ++ [⟨before, event, after⟩] :=
        List.mem_append_right _ (List.mem_singleton_self _)
      have allowed := all_meet _ last
      have here := lower taken (run.invariant Inv init kept) allowed
      simp only [List.countP_append, List.countP_singleton]
      omega

end Machine

end StateMachine
