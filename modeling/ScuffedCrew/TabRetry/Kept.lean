import ScuffedCrew.TabRetry.Ends

/-!
# What the keys and the captures keep to

A press is debounced by a taken board only, and waits in the queue behind one
capture.  What the keys do to a capture and what it does itself are a run of
its retries, so a run of the daemon keeps all that such a run keeps.
-/

namespace ScuffedCrew.TabRetry

open StateMachine

variable {T E : Type} {judge : Judge T} {state after start final : Daemon T E}
  {event : TabEvent T E} {steps : List (TabStep T E)}

/-! ## Boards -/

/-- The step reports that the capture of the press took its board. -/
def TakesBoard (step : TabStep T E) (press : ℕ) : Prop :=
  ∃ index task, step.event = .report index true ∧ step.before.tasks[index]? = some task ∧
    task.press = press

/-- The last taken board is one that was reported. -/
def BoardKnown (steps : List (TabStep T E)) (state : Daemon T E) : Prop :=
  ∀ press, state.lastAccepted = some press → ∃ step ∈ steps, TakesBoard step press

theorem BoardKnown.step (known : BoardKnown steps state)
    (turns : Turns judge state event after) :
    BoardKnown (steps ++ [⟨state, event, after⟩]) after := by
  intro press accepted
  have earlier (same : state.lastAccepted = some press) :
      ∃ step ∈ steps ++ [⟨state, event, after⟩], TakesBoard step press := by
    rcases known press same with ⟨step, step_mem, takes⟩
    exact ⟨step, List.mem_append_left _ step_mem, takes⟩
  cases turns with
  | takes index task started flying found =>
      refine ⟨_, List.mem_append_right _ (List.mem_singleton_self _), index, task, rfl, found, ?_⟩
      exact Option.some.inj accepted
  | forgets => cases accepted
  | starts | debounces | queues | restarts | drops | releases | begins | hands | resumes =>
      exact earlier accepted

/-! ## The queue -/

def QueuesBehind (press index : ℕ) (step : TabStep T E) : Prop :=
  (∃ captureGone, step.event = .press press captureGone) ∧
    step.after.tabs.queued = some press ∧ step.after.tabs.flight = some index

def StaysBehind (press index : ℕ) (step : TabStep T E) : Prop :=
  step.after.tabs.queued = some press ∧ step.after.tabs.flight = some index

/-- What is in the queue has been there, behind the running capture, since it was pressed. -/
def QueuedBehind (steps : List (TabStep T E)) (state : Daemon T E) : Prop :=
  ∀ press, state.tabs.queued = some press → ∃ index, state.tabs.flight = some index ∧
    Since (QueuesBehind press index) (StaysBehind press index) steps

theorem Turns.queue (turns : Turns judge state event after) {press : ℕ}
    (queued : after.tabs.queued = some press) :
    (state.tabs.queued = some press ∧
        (after.tabs.flight = state.tabs.flight ∨ state.starting.isSome)) ∨
      ∃ index, event = .press press false ∧ after.tabs.flight = some index := by
  cases turns with
  | queues time index ahead started flying late =>
      rcases Option.some.inj queued with rfl
      exact .inr ⟨index, rfl, flying⟩
  | begins waits begun starting =>
      exact .inl ⟨queued, .inr (Option.isSome_iff_exists.mpr ⟨begun, starting⟩)⟩
  | debounces | releases | resumes | forgets => exact .inl ⟨queued, .inl rfl⟩
  | starts | restarts | drops | takes | hands => cases queued

theorem QueuedBehind.step (behind : QueuedBehind steps state) (formed : state.WellFormed)
    (turns : Turns judge state event after) :
    QueuedBehind (steps ++ [⟨state, event, after⟩]) after := by
  intro press queued
  rcases turns.queue queued with ⟨before, flights⟩ | ⟨index, rfl, flying⟩
  · rcases behind press before with ⟨index, flying, since⟩
    have same : after.tabs.flight = state.tabs.flight := by
      rcases flights with same | starting
      · exact same
      · have idle := formed.starting starting
        rw [flying] at idle
        cases idle
    refine ⟨index, same.trans flying, ?_⟩
    rw [Since.snoc_iff]
    exact .inr ⟨⟨queued, same.trans flying⟩, since⟩
  · refine ⟨index, flying, ?_⟩
    rw [Since.snoc_iff]
    exact .inl ⟨⟨false, rfl⟩, queued, flying⟩

/-! ## The run of one capture -/

/-- The step as a step of the capture's retries. -/
def TabStep.forTask (index : ℕ) (step : TabStep T E) : Option (CaptureStep T E) :=
  (step.event.forTask step.before index).bind fun happens =>
    step.before.tasks[index]?.bind fun before =>
      step.after.tasks[index]?.map fun after => ⟨before.capture, happens, after.capture⟩

/-- What happened to the capture so far. -/
def trace (index : ℕ) (steps : List (TabStep T E)) : List (CaptureStep T E) :=
  steps.filterMap (TabStep.forTask index)

/-- The step starts the capture, with these waits. -/
def Starts (index : ℕ) (waits : List ℕ) (step : TabStep T E) : Prop :=
  step.event = .started waits ∧ step.before.tasks.length = index

/-- Each capture has run its retries since it was started. -/
structure Captured (judge : Judge T) (steps : List (TabStep T E)) (state : Daemon T E) : Prop where
  fresh : ∀ index, state.tasks.length ≤ index → trace index steps = []
  runs : ∀ index (task : Task T E), state.tasks[index]? = some task →
    ∃ waits flight, (∃ step ∈ steps, Starts index waits step) ∧ flight.press = task.press ∧
      (retries judge).Run ⟨flight, .unpolled waits⟩ (trace index steps) task.capture

theorem trace_snoc (index : ℕ) (step : TabStep T E) :
    trace index (steps ++ [step]) = trace index steps ++ (TabStep.forTask index step).toList := by
  unfold trace
  rw [List.filterMap_append]
  cases own : TabStep.forTask index step <;> simp [own]

theorem forTask_of_length_le {index : ℕ} (outside : state.tasks.length ≤ index) :
    TabStep.forTask index ⟨state, event, after⟩ = none := by
  unfold TabStep.forTask
  rw [List.getElem?_eq_none outside]
  cases event.forTask state index <;> rfl

theorem Turns.length (turns : Turns judge state event after) :
    state.tasks.length ≤ after.tasks.length := by
  cases turns with
  | starts | debounces | hands | takes | queues | restarts | drops | resumes | forgets =>
      simp [Daemon.withoutFlight]
  | releases =>
      simp only [Daemon.onRelease, Daemon.changeFlight]
      cases state.tabs.flight <;> simp
  | begins => simp [Daemon.started]

theorem Captured.step (captured : Captured judge steps state)
    (turns : Turns judge state event after) :
    Captured judge (steps ++ [⟨state, event, after⟩]) after where
  fresh index outside := by
    have before := turns.length.trans outside
    rw [trace_snoc, captured.fresh index before, forTask_of_length_le before]
    rfl
  runs index task found := by
    rw [trace_snoc]
    have earlier {before : Task T E} (at_index : state.tasks[index]? = some before)
        (press : before.press = task.press) (last : List (CaptureStep T E))
        (moves : (retries judge).Run before.capture last task.capture) :
        ∃ waits flight, (∃ step ∈ steps ++ [⟨state, event, after⟩], Starts index waits step) ∧
          flight.press = task.press ∧
          (retries judge).Run ⟨flight, .unpolled waits⟩ (trace index steps ++ last)
            task.capture := by
      rcases captured.runs index before at_index with
        ⟨waits, flight, ⟨step, step_mem, starts⟩, same, run⟩
      exact ⟨waits, flight, ⟨step, List.mem_append_left _ step_mem, starts⟩, same.trans press,
        run.trans moves⟩
    cases turns.task found with
    | still before at_index quiet same =>
        have none_own : TabStep.forTask index ⟨state, event, after⟩ = none := by
          simp [TabStep.forTask, quiet]
        rw [none_own]
        apply earlier at_index (congrArg (·.flight.press) same.symm)
        rw [same]
        exact .refl
    | goes before at_index happens own next =>
        have own_step : TabStep.forTask index ⟨state, event, after⟩ =
            some ⟨before.capture, happens, task.capture⟩ := by
          simp [TabStep.forTask, own, at_index, found]
        rw [own_step]
        exact earlier at_index (press_of_next next).symm _ (.single next)
    | new waits press begins starting last unpolled =>
        rcases last with rfl
        rw [captured.fresh _ le_rfl, forTask_of_length_le le_rfl, unpolled]
        refine ⟨waits, _, ⟨_, List.mem_append_right _ (List.mem_singleton_self _), begins, rfl⟩,
          ?_, .refl⟩
        rw [Task.press, unpolled]

/-! ## Whole runs -/

/-- What the presses and the captures of a run keep to. -/
structure PressesKept (judge : Judge T) (steps : List (TabStep T E)) (final : Daemon T E) :
    Prop where
  one_running : ∀ (first second : ℕ) (task other : Task T E),
    final.tasks[first]? = some task → final.tasks[second]? = some other →
      task.status = .running → other.status = .running → first = second
  accounted : Accounted steps final
  settles : (∀ task ∈ final.tasks, task.status ≠ .running) → final.starting = none →
    final.unsettled = []
  debounced : ∀ first step rest, steps = first ++ step :: rest →
    ∀ press ∈ TabStep.debounced step, ∃ accepted, (∃ report ∈ first, TakesBoard report accepted) ∧
      accepted ≤ press ∧ press < accepted + tabDebounceAfterAccept
  queued : ∀ first step rest, steps = first ++ step :: rest →
    ∀ press, step.before.tabs.queued = some press → ∃ index,
      step.before.tabs.flight = some index ∧
        Since (QueuesBehind press index) (StaysBehind press index) first
  reports : ∀ step ∈ steps, ∀ index boardTaken, step.event = .report index boardTaken →
    step.before.tabs.flight = some index
  told : ∀ (index : ℕ) (task : Task T E), final.tasks[index]? = some task →
    task.status = .running → ∀ time, Released steps time → task.press ≤ time →
      task.capture.flight.releasedAt.isSome
  heard : ∀ task ∈ final.tasks, ∀ time, task.capture.flight.releasedAt = some time →
    task.press ≤ time ∧ Released steps time
  retries : ∀ (index : ℕ) (task : Task T E), final.tasks[index]? = some task →
    ∃ waits, (∃ step ∈ steps, Starts index waits step) ∧
      RetriesKept judge waits (trace index steps) task.capture

/-- What is known of the steps so far, at every state of a run. -/
structure Known (judge : Judge T) (steps : List (TabStep T E)) (state : Daemon T E) : Prop where
  formed : state.WellFormed
  boards : BoardKnown steps state
  behind : QueuedBehind steps state
  releases : Releases steps state
  captured : Captured judge steps state

theorem known_of_run (run : (daemon judge).Run .initial steps final) : Known judge steps final := by
  apply run.history (Known judge)
  · refine ⟨.initial, ?_, ?_, ?_, ?_⟩
    · intro press accepted
      cases accepted
    · intro press queued
      cases queued
    · constructor <;> simp [Daemon.initial, Released]
    · constructor <;> simp [Daemon.initial, trace]
  · intro steps state event after taken known
    have turns := turns_of_next known.formed taken
    exact ⟨known.formed.step turns, known.boards.step turns,
      known.behind.step known.formed turns, known.releases.step known.formed turns,
      known.captured.step turns⟩

theorem debounced_of_next {step : TabStep T E} {press : ℕ}
    (taken : (daemon judge).next step.before step.event = some step.after)
    (debounced : press ∈ TabStep.debounced step) :
    Debounced step.before press ∧ step.before.clock ≤ press := by
  rcases step with ⟨state, event, after⟩
  cases event with
  | press time captureGone =>
      rcases Option.ite_none_right_eq_some.mp taken with ⟨⟨ahead, -⟩, -⟩
      simp only [TabStep.debounced] at debounced
      split at debounced
      next close =>
        rcases List.mem_singleton.mp debounced with rfl
        exact ⟨close, ahead⟩
      next => cases debounced
  | release => cases debounced
  | started => cases debounced
  | report => cases debounced
  | capture => cases debounced
  | forgotten => cases debounced

theorem Turns.reports {index : ℕ} {boardTaken : Bool}
    (turns : Turns judge state (.report index boardTaken) after) :
    state.tabs.flight = some index := by
  cases turns with
  | takes _ _ _ flying => exact flying
  | hands _ _ _ flying => exact flying

/-- In any order of presses, releases, starts and reports, every press comes to one end, at most
one capture runs, it knows of a release at or after its press, and its retries stop with it. -/
theorem presses_kept (run : (daemon judge).Run .initial steps final) :
    PressesKept judge steps final := by
  have known := known_of_run run
  constructor
  · intro first second task other found found' running running'
    exact known.formed.one_running found found' running running'
  · exact accounted_of_run run
  · exact known.formed.unsettled_eq_nil
  · rintro first step rest rfl press debounced
    have reached := run.reaches_before
    have before := known_of_run reached.1
    rcases debounced_of_next reached.2 debounced with ⟨⟨accepted, last, close⟩, ahead⟩
    have past := (before.formed.accepted accepted last).trans ahead
    exact ⟨accepted, before.boards accepted last, past, by omega⟩
  · rintro first step rest rfl press queued
    exact (known_of_run run.reaches_before.1).behind press queued
  · rintro step step_mem index boardTaken reports
    rcases List.append_of_mem step_mem with ⟨first, rest, rfl⟩
    have reached := run.reaches_before
    have turns := turns_of_next (known_of_run reached.1).formed reached.2
    rw [reports] at turns
    exact turns.reports
  · intro index task found running time released press
    have flying := (known.formed.running index task found).mp running
    exact known.releases.told index task flying found time released press
  · exact known.releases.own
  · intro index task found
    rcases known.captured.runs index task found with ⟨waits, flight, started, -, ran⟩
    exact ⟨waits, started, retries_kept ran⟩

/-! ## A press during a capture -/

/-- A grab is its rank, and shows a board when that is not zero. -/
def rankJudge : Judge ℕ := ⟨fun grab => if grab = 0 then .notAScoreboard else .accepted, id⟩

/-- The second press is released while the first capture still runs. -/
def queuedAndReleased : List (TabEvent ℕ Unit) :=
  [.press 0 true, .started [300, 400], .capture 0 .polled, .press 500 false, .release 600,
    .capture 0 (.attempted (.ok 0)), .report 0 false, .started [300, 400], .capture 1 .polled,
    .capture 1 (.attempted (.ok 1)), .report 1 true]

theorem presses_kept_queued : ∃ final,
    (daemon rankJudge).exec .initial queuedAndReleased = some final ∧
      PressesKept rankJudge ((daemon rankJudge).stepsOf .initial queuedAndReleased) final :=
  ⟨_, rfl, presses_kept (.of_exec rfl)⟩

/-- The capture of the second press makes its first attempt although it has been released. -/
theorem first_attempt_after_release : ∃ final,
    (daemon rankJudge).exec .initial queuedAndReleased = some final ∧
      ∃ step ∈ trace 1 ((daemon rankJudge).stepsOf .initial queuedAndReleased),
        CaptureStep.begins step = true ∧ step.before.flight.retryStop = some .released :=
  ⟨_, rfl, by decide⟩

end ScuffedCrew.TabRetry
