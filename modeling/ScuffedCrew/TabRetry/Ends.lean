import Mathlib.Data.List.Count
import ScuffedCrew.TabRetry.Presses

/-!
# Presses that are neither lost nor run twice

Every press gets a capture of its own, is debounced, is replaced in the queue,
or is dropped with the capture it was queued behind.  The running capture knows
of a release at or after its press, from its start on.
-/

namespace ScuffedCrew.TabRetry

open StateMachine

variable {T E : Type} {judge : Judge T} {state after start final : Daemon T E}
  {event : TabEvent T E}

/-! ## Where the presses go -/

abbrev TabStep (T E : Type) := Step (Daemon T E) (TabEvent T E)

namespace TabStep

variable (step : TabStep T E)

def pressed : List ℕ :=
  match step.event with
  | .press time _ => [time]
  | _ => []

def debounced : List ℕ :=
  match step.event with
  | .press time _ => if Debounced step.before time then [time] else []
  | _ => []

/-- The press that a newer one replaces in the queue. -/
def replaced : List ℕ :=
  match step.event with
  | .press time captureGone =>
      if captureGone = false ∧ ¬Debounced step.before time then step.before.tabs.queued.toList
      else []
  | _ => []

/-- The press that is dropped as the capture it was queued behind is gone. -/
def vanished : List ℕ :=
  match step.event with
  | .press _ captureGone => if captureGone then step.before.tabs.queued.toList else []
  | _ => []

/-- The press that is dropped as the capture it was queued behind took its board. -/
def taken : List ℕ :=
  match step.event with
  | .report _ boardTaken => if boardTaken then step.before.tabs.queued.toList else []
  | _ => []

end TabStep

/-- The presses still in the queue or being started. -/
def Daemon.unsettled (daemon : Daemon T E) : List ℕ :=
  daemon.tabs.queued.toList ++ daemon.starting.toList

/-- The ends of the presses so far: a capture of its own, and the four ways to get none. -/
def settled (steps : List (TabStep T E)) (daemon : Daemon T E) : List ℕ :=
  daemon.tasks.map Task.press ++ steps.flatMap TabStep.debounced ++
    steps.flatMap TabStep.replaced ++ steps.flatMap TabStep.vanished ++
    steps.flatMap TabStep.taken

/-- Every press has come to one end, or is unsettled. -/
def Accounted (steps : List (TabStep T E)) (daemon : Daemon T E) : Prop :=
  (steps.flatMap TabStep.pressed).Perm (settled steps daemon ++ daemon.unsettled)

theorem Daemon.WellFormed.queue_empty (formed : state.WellFormed)
    (idle : state.tabs.flight = none) : state.tabs.queued = none := by
  rcases Option.eq_none_or_eq_some state.tabs.queued with empty | ⟨press, queued⟩
  · exact empty
  · have flying := formed.queued (Option.isSome_iff_exists.mpr ⟨press, queued⟩)
    rw [idle] at flying
    cases flying

theorem map_press_modify (tasks : List (Task T E)) (index : ℕ) {change : Task T E → Task T E}
    (press : ∀ task, (change task).press = task.press) :
    (tasks.modify index change).map Task.press = tasks.map Task.press := by
  apply List.ext_getElem?
  intro position
  rw [List.getElem?_map, List.getElem?_map, List.getElem?_modify]
  cases tasks[position]? with
  | none => rfl
  | some task =>
      by_cases same : index = position
      · simp [same, press]
      · simp [same]

theorem map_press_set {tasks : List (Task T E)} {index : ℕ} {task moved : Task T E}
    (found : tasks[index]? = some task) (press : moved.press = task.press) :
    (tasks.set index moved).map Task.press = tasks.map Task.press := by
  apply List.ext_getElem?
  intro position
  rw [List.getElem?_map, List.getElem?_map, List.getElem?_set]
  split
  next same =>
    rcases same with rfl
    have inside := (List.getElem?_eq_some_iff.mp found).1
    rw [if_pos inside, found]
    exact congrArg some press
  next => rfl

/-- What one step adds to the presses, to their ends and to the unsettled. -/
def Balanced (step : TabStep T E) : Prop :=
  (TabStep.pressed step ++ step.before.tasks.map Task.press ++ step.before.unsettled).Perm
    (step.after.tasks.map Task.press ++ TabStep.debounced step ++ TabStep.replaced step ++
      TabStep.vanished step ++ TabStep.taken step ++ step.after.unsettled)

theorem Turns.balanced (formed : state.WellFormed) (turns : Turns judge state event after) :
    Balanced ⟨state, event, after⟩ := by
  have ended (index : ℕ) (status : TaskStatus) :
      (state.tasks.modify index (Task.withStatus status)).map Task.press =
        state.tasks.map Task.press := map_press_modify _ _ fun _ => rfl
  unfold Balanced Daemon.unsettled
  rw [List.perm_iff_count]
  intro press
  simp only [List.count_append]
  cases turns with
  | starts time captureGone ahead started idle late =>
      have empty := formed.queue_empty idle
      simp [TabStep.pressed, TabStep.debounced, TabStep.replaced, TabStep.vanished, TabStep.taken,
        late, started, empty]
      omega
  | debounces time captureGone ahead started held close =>
      have dropped : (if captureGone = true then state.tabs.queued.toList else []) = [] := by
        split
        next gone => rw [formed.queue_empty (held gone), Option.toList_none]
        next => rfl
      simp [TabStep.pressed, TabStep.debounced, TabStep.replaced, TabStep.vanished, TabStep.taken,
        close, started, dropped]
      omega
  | queues time index ahead started flying late =>
      have same : (state.tasks.modify index (Task.withFlight (·.cancelRetries))).map Task.press =
          state.tasks.map Task.press := map_press_modify _ _ fun _ => rfl
      simp [TabStep.pressed, TabStep.debounced, TabStep.replaced, TabStep.vanished, TabStep.taken,
        late, started, same]
      omega
  | restarts time index ahead started flying late =>
      simp [TabStep.pressed, TabStep.debounced, TabStep.replaced, TabStep.vanished, TabStep.taken,
        late, started, Daemon.withoutFlight, ended]
      omega
  | drops time index ahead started flying close =>
      simp [TabStep.pressed, TabStep.debounced, TabStep.replaced, TabStep.vanished, TabStep.taken,
        close, started, Daemon.withoutFlight, ended]
      omega
  | releases time ahead =>
      have same : (state.onRelease time).tasks.map Task.press = state.tasks.map Task.press := by
        simp only [Daemon.onRelease, Daemon.changeFlight]
        cases state.tabs.flight with
        | none => rfl
        | some index =>
            exact map_press_modify _ _ fun task => TabFlight.press_noteRelease _ time
      simp [TabStep.pressed, TabStep.debounced, TabStep.replaced, TabStep.vanished, TabStep.taken,
        same]
      simp [Daemon.onRelease]
  | begins waits begun starting =>
      simp [TabStep.pressed, TabStep.debounced, TabStep.replaced, TabStep.vanished, TabStep.taken,
        starting, Daemon.started, Task.press, press_started]
      omega
  | takes index task started flying found =>
      simp [TabStep.pressed, TabStep.debounced, TabStep.replaced, TabStep.vanished, TabStep.taken,
        started, ended]
  | hands index task started flying found =>
      simp [TabStep.pressed, TabStep.debounced, TabStep.replaced, TabStep.vanished, TabStep.taken,
        started, ended]
  | resumes index task event later found next =>
      have same : (state.tasks.set index { task with capture := later }).map Task.press =
          state.tasks.map Task.press := map_press_set found (moves_of_next next).press
      simp [TabStep.pressed, TabStep.debounced, TabStep.replaced, TabStep.vanished, TabStep.taken,
        same]
  | forgets =>
      simp [TabStep.pressed, TabStep.debounced, TabStep.replaced, TabStep.vanished, TabStep.taken]

theorem Accounted.step {steps : List (TabStep T E)} (accounted : Accounted steps state)
    (balanced : Balanced ⟨state, event, after⟩) :
    Accounted (steps ++ [⟨state, event, after⟩]) after := by
  unfold Accounted settled at accounted ⊢
  unfold Balanced at balanced
  rw [List.perm_iff_count] at accounted balanced ⊢
  intro press
  have before := accounted press
  have last := balanced press
  simp only [List.flatMap_append, List.flatMap_singleton, List.count_append] at before last ⊢
  omega

theorem accounted_of_run {steps : List (TabStep T E)}
    (run : (daemon judge).Run .initial steps final) : Accounted steps final := by
  have both : final.WellFormed ∧ Accounted steps final := by
    apply run.history fun steps state => state.WellFormed ∧ Accounted steps state
    · exact ⟨.initial, .refl _⟩
    · rintro steps state event after taken ⟨formed, accounted⟩
      have turns := turns_of_next formed taken
      exact ⟨formed.step turns, accounted.step (turns.balanced formed)⟩
  exact both.2

/-- When every capture is reported or gone and none is being started, every press has its end. -/
theorem Daemon.WellFormed.unsettled_eq_nil (formed : state.WellFormed)
    (ended : ∀ task ∈ state.tasks, task.status ≠ .running) (started : state.starting = none) :
    state.unsettled = [] := by
  have idle : state.tabs.flight = none := by
    rcases Option.eq_none_or_eq_some state.tabs.flight with idle | ⟨index, flying⟩
    · exact idle
    · have inside := formed.flight index flying
      have found := List.getElem?_eq_getElem inside
      exact absurd ((formed.running index _ found).mpr flying) (ended _ (List.getElem_mem inside))
  rw [Daemon.unsettled, formed.queue_empty idle, started]
  rfl

/-! ## What a step does to one capture -/

namespace TabEvent

/-- What the event is for the capture. -/
def forTask (state : Daemon T E) (index : ℕ) : TabEvent T E → Option (RetryEvent T E)
  | .press time captureGone =>
      if captureGone = false ∧ ¬Debounced state time ∧ state.tabs.flight = some index then
        some .cancelRetries
      else none
  | .release time => if state.tabs.flight = some index then some (.noteRelease time) else none
  | .capture position event => if position = index then some (.loop event) else none
  | .started _ | .report _ _ | .forgotten => none

end TabEvent

/-- A capture goes on with its event, is left alone, or is new. -/
inductive TaskTurn (judge : Judge T) (state : Daemon T E) (event : TabEvent T E) (index : ℕ)
    (task : Task T E) : Prop
  | still (before : Task T E) (found : state.tasks[index]? = some before)
      (quiet : event.forTask state index = none) (same : task.capture = before.capture)
  | goes (before : Task T E) (found : state.tasks[index]? = some before)
      (happens : RetryEvent T E) (own : event.forTask state index = some happens)
      (next : (retries judge).next before.capture happens = some task.capture)
  | new (waits : List ℕ) (press : ℕ) (begins : event = .started waits)
      (starting : state.starting = some press) (last : index = state.tasks.length)
      (unpolled : task.capture = ⟨state.tabs.lastRelease.elim (TabFlight.new press)
        (TabFlight.new press).noteRelease, .unpolled waits⟩)

theorem of_modify_status {index position : ℕ} {status : TaskStatus} {task : Task T E}
    (found : (state.tasks.modify position (Task.withStatus status))[index]? = some task) :
    ∃ before, state.tasks[index]? = some before ∧ task.capture = before.capture := by
  rcases of_modify found with ⟨before, at_index, rfl⟩
  refine ⟨before, at_index, ?_⟩
  split <;> rfl

theorem Turns.task (turns : Turns judge state event after) {index : ℕ} {task : Task T E}
    (found : after.tasks[index]? = some task) : TaskTurn judge state event index task := by
  cases turns with
  | starts time captureGone ahead started idle late =>
      exact .still task found (if_neg (by simp [idle])) rfl
  | debounces time captureGone ahead started held close =>
      exact .still task found (if_neg (by simp [close])) rfl
  | queues time position ahead started flying late =>
      rcases of_modify found with ⟨before, at_index, rfl⟩
      by_cases same : position = index
      · rw [if_pos same]
        refine .goes before at_index .cancelRetries (if_pos ⟨rfl, late, ?_⟩) rfl
        rw [flying, same]
      · rw [if_neg same]
        exact .still before at_index (if_neg (by simp [flying, same])) rfl
  | restarts time position ahead started flying late =>
      rcases of_modify_status found with ⟨before, at_index, same⟩
      exact .still before at_index (by simp [TabEvent.forTask]) same
  | drops time position ahead started flying close =>
      rcases of_modify_status found with ⟨before, at_index, same⟩
      exact .still before at_index (by simp [TabEvent.forTask]) same
  | releases time ahead =>
      simp only [Daemon.onRelease, Daemon.changeFlight] at found
      cases flying : state.tabs.flight with
      | none =>
          rw [flying] at found
          exact .still task found (if_neg (by simp [flying])) rfl
      | some position =>
          rw [flying] at found
          rcases of_modify found with ⟨before, at_index, rfl⟩
          by_cases same : position = index
          · rw [if_pos same]
            refine .goes before at_index (.noteRelease time) (if_pos ?_) rfl
            rw [flying, same]
          · rw [if_neg same]
            exact .still before at_index (if_neg (by simp [flying, same])) rfl
  | begins waits press starting =>
      rcases of_snoc found with earlier | ⟨rfl, rfl⟩
      · exact .still task earlier rfl rfl
      · exact .new waits press rfl starting rfl rfl
  | takes position other started flying at_position =>
      rcases of_modify_status found with ⟨before, at_index, same⟩
      exact .still before at_index rfl same
  | hands position other started flying at_position =>
      rcases of_modify_status found with ⟨before, at_index, same⟩
      exact .still before at_index rfl same
  | resumes position other event later at_position next =>
      rcases of_set found with ⟨rfl, rfl⟩ | ⟨differs, before⟩
      · exact .goes other at_position (.loop event) (if_pos rfl) next
      · exact .still task before (if_neg (Ne.symm differs)) rfl
  | forgets => exact .still task found rfl rfl

/-! ## Releases -/

/-- Some step so far releases the key. -/
def Released (steps : List (TabStep T E)) (time : ℕ) : Prop :=
  ∃ step ∈ steps, step.event = .release time

/-- What is known of the releases so far. -/
structure Releases (steps : List (TabStep T E)) (state : Daemon T E) : Prop where
  last : ∀ time, state.tabs.lastRelease = some time → Released steps time
  latest : ∀ time, Released steps time →
    ∃ last, state.tabs.lastRelease = some last ∧ time ≤ last
  own : ∀ task ∈ state.tasks, ∀ heard, task.capture.flight.releasedAt = some heard →
    task.press ≤ heard ∧ Released steps heard
  told : ∀ index (task : Task T E), state.tabs.flight = some index →
    state.tasks[index]? = some task → ∀ time, Released steps time → task.press ≤ time →
      task.capture.flight.releasedAt.isSome

variable {steps : List (TabStep T E)}

theorem released_snoc {step : TabStep T E} {time : ℕ} :
    Released (steps ++ [step]) time ↔ Released steps time ∨ step.event = .release time := by
  simp [Released, or_and_right, exists_or]

theorem releasedAt_noteRelease {flight : TabFlight} {time heard : ℕ}
    (released : (flight.noteRelease time).releasedAt = some heard) :
    flight.releasedAt = some heard ∨ heard = time ∧ flight.press ≤ time := by
  unfold TabFlight.noteRelease at released
  split at released
  · exact .inl released
  next after =>
    split at released
    · exact .inr ⟨(Option.some.inj released).symm, Nat.not_lt.mp after⟩
    · exact .inl released

theorem releasedAt_of_loop {capture later : Capture T E} {event : LoopEvent T E}
    (moves : Moves judge capture (.loop event) later) :
    later.flight.releasedAt = capture.flight.releasedAt := by
  generalize same : RetryEvent.loop event = happens at moves
  cases moves with
  | begins | fails | keeps | stops | retries => rfl
  | takes flight waits best =>
      rcases @Capture.nextWait_cases T E judge flight best 0 waits with same | ⟨_, _, -, same⟩
      · rw [same]
        rfl
      · rw [same]
        rfl
  | compares flight best next count waits =>
      rcases @Capture.nextWait_cases T E judge flight (Capture.better judge best next) count waits
        with same | ⟨_, _, -, same⟩
      · rw [same]
        rfl
      · rw [same]
        rfl
  | cancelled => cases same
  | noted => cases same

/-- The last release changes with a release only. -/
theorem Turns.lastRelease (turns : Turns judge state event after) :
    (∃ time, event = .release time ∧ after.tabs.lastRelease = some time ∧ state.clock ≤ time) ∨
      (∀ time, event ≠ .release time) ∧ after.tabs.lastRelease = state.tabs.lastRelease := by
  cases turns with
  | releases time ahead => exact .inl ⟨time, rfl, rfl, ahead⟩
  | starts | debounces | queues | restarts | drops | begins | takes | hands | resumes | forgets =>
      exact .inr ⟨(fun time same => by cases same), rfl⟩

/-- The running capture is the same after a step, or has just been started. -/
theorem Turns.flight (turns : Turns judge state event after) {index : ℕ}
    (flying : after.tabs.flight = some index) :
    state.tabs.flight = some index ∨ index = state.tasks.length := by
  cases turns with
  | begins waits press starting => exact .inr (Option.some.inj flying).symm
  | starts | debounces | queues | releases | resumes | forgets => exact .inl flying
  | restarts | drops | takes | hands => cases flying

theorem forTask_release {index time : ℕ} (flying : state.tabs.flight = some index) :
    (TabEvent.release time : TabEvent T E).forTask state index = some (.noteRelease time) :=
  if_pos flying

theorem eq_release_of_forTask {index time : ℕ}
    (own : event.forTask state index = some (.noteRelease time)) : event = .release time := by
  cases event with
  | press => simp [TabEvent.forTask] at own
  | release other =>
      rcases Option.ite_none_right_eq_some.mp own with ⟨-, same⟩
      rcases RetryEvent.noteRelease.inj (Option.some.inj same) with rfl
      rfl
  | started => cases own
  | report => cases own
  | capture => simp [TabEvent.forTask] at own
  | forgotten => cases own

theorem press_of_next {capture later : Capture T E} {happens : RetryEvent T E}
    (next : (retries judge).next capture happens = some later) :
    later.flight.press = capture.flight.press := (moves_of_next next).press

/-- A task hears of a release at or after its press, and of no other. -/
theorem TaskTurn.own {index : ℕ} {task : Task T E}
    (turn : TaskTurn judge state event index task) {heard : ℕ}
    (released : task.capture.flight.releasedAt = some heard) :
    (∃ before, state.tasks[index]? = some before ∧ task.press = before.press ∧
        before.capture.flight.releasedAt = some heard) ∨
      task.press ≤ heard ∧
        (event = .release heard ∨ state.tabs.lastRelease = some heard) := by
  cases turn with
  | still before found quiet same =>
      rw [same] at released
      exact .inl ⟨before, found, congrArg (·.flight.press) same, released⟩
  | goes before found happens own next =>
      have press := press_of_next next
      cases happens with
      | loop event =>
          rw [releasedAt_of_loop (moves_of_next next)] at released
          exact .inl ⟨before, found, press, released⟩
      | cancelRetries =>
          rw [← Option.some.inj next] at released
          exact .inl ⟨before, found, press, released⟩
      | noteRelease time =>
          rw [← Option.some.inj next] at released
          rcases releasedAt_noteRelease released with earlier | ⟨rfl, after⟩
          · exact .inl ⟨before, found, press, earlier⟩
          · exact .inr ⟨press.le.trans after, .inl (eq_release_of_forTask own)⟩
  | new waits press begins starting last unpolled =>
      have same : task.press = press := by
        rw [Task.press, unpolled]
        exact press_started state press
      rw [same]
      rw [unpolled] at released
      cases before : state.tabs.lastRelease with
      | none =>
          rw [before] at released
          cases released
      | some time =>
          rw [before] at released
          rcases releasedAt_noteRelease released with earlier | ⟨rfl, after⟩
          · cases earlier
          · exact .inr ⟨after, .inr rfl⟩

theorem releasedAt_isSome_noteRelease {flight : TabFlight} (time : ℕ)
    (released : flight.releasedAt.isSome) : (flight.noteRelease time).releasedAt.isSome := by
  unfold TabFlight.noteRelease
  split
  · exact released
  · split
    · rfl
    · exact released

theorem Releases.told_step (releases : Releases steps state) {index : ℕ} {task : Task T E}
    (flying : state.tabs.flight = some index ∨ index = state.tasks.length)
    (turn : TaskTurn judge state event index task) {time : ℕ}
    (released : Released steps time ∨ event = .release time) (press : task.press ≤ time) :
    task.capture.flight.releasedAt.isSome := by
  have flying_of {before : Task T E} (found : state.tasks[index]? = some before) :
      state.tabs.flight = some index := by
    rcases flying with flying | rfl
    · exact flying
    · simp at found
  cases turn with
  | still before found quiet same =>
      rw [Task.press, same] at press
      rw [same]
      rcases released with earlier | rfl
      · exact releases.told index before (flying_of found) found time earlier press
      · rw [forTask_release (flying_of found)] at quiet
        cases quiet
  | goes before found happens own next =>
      rw [Task.press, press_of_next next] at press
      have told (earlier : Released steps time) :=
        releases.told index before (flying_of found) found time earlier press
      cases happens with
      | loop happens =>
          rw [releasedAt_of_loop (moves_of_next next)]
          rcases released with earlier | rfl
          · exact told earlier
          · rw [forTask_release (flying_of found)] at own
            cases own
      | cancelRetries =>
          rw [← Option.some.inj next]
          rcases released with earlier | rfl
          · exact told earlier
          · rw [forTask_release (flying_of found)] at own
            cases own
      | noteRelease now =>
          rw [← Option.some.inj next]
          rcases released with earlier | this
          · exact releasedAt_isSome_noteRelease now (told earlier)
          · rcases TabEvent.release.inj ((eq_release_of_forTask own).symm.trans this) with rfl
            exact TabFlight.released_noteRelease press
  | new waits begun begins starting last unpolled =>
      have same : task.press = begun := by
        rw [Task.press, unpolled]
        exact press_started state begun
      rw [same] at press
      rw [unpolled]
      rcases released with earlier | this
      · rcases releases.latest time earlier with ⟨last, known, le⟩
        rw [known]
        exact TabFlight.released_noteRelease (press.trans le)
      · rw [begins] at this
        cases this

theorem Releases.step (releases : Releases steps state) (formed : state.WellFormed)
    (turns : Turns judge state event after) :
    Releases (steps ++ [⟨state, event, after⟩]) after where
  last time last := by
    rw [released_snoc]
    rcases turns.lastRelease with ⟨released, rfl, now, -⟩ | ⟨-, same⟩
    · rw [now] at last
      rcases Option.some.inj last with rfl
      exact .inr rfl
    · rw [same] at last
      exact .inl (releases.last time last)
  latest time released := by
    rcases turns.lastRelease with ⟨now, rfl, last, ahead⟩ | ⟨other, same⟩
    · refine ⟨now, last, ?_⟩
      rcases released_snoc.mp released with earlier | this
      · rcases releases.latest time earlier with ⟨before, last, le⟩
        exact le.trans ((formed.heard before last).trans ahead)
      · exact (TabEvent.release.inj this).ge
    · rw [same]
      rcases released_snoc.mp released with earlier | this
      · exact releases.latest time earlier
      · exact absurd this (other time)
  own task task_mem heard released := by
    rcases List.getElem?_of_mem task_mem with ⟨index, found⟩
    rw [released_snoc]
    rcases (turns.task found).own released with ⟨before, at_index, press, earlier⟩ |
      ⟨after, this | last⟩
    · rcases releases.own before (List.mem_of_getElem? at_index) heard earlier with ⟨after, known⟩
      exact ⟨press.le.trans after, .inl known⟩
    · exact ⟨after, .inr this⟩
    · exact ⟨after, .inl (releases.last heard last)⟩
  told index task flying found time released press :=
    releases.told_step (turns.flight flying) (turns.task found) (released_snoc.mp released) press

end ScuffedCrew.TabRetry
