import ScuffedCrew.StateMachine.Pool
import ScuffedCrew.TabRetry.Attempts
import ScuffedCrew.TabRetry.Keys

/-!
# The running capture

At most one capture runs, and it is the one the keys know; a press is in the
queue only while one runs, and is started only while none does.
-/

namespace ScuffedCrew.TabRetry

open StateMachine

variable {T E : Type} {judge : Judge T} {state after start final : Daemon T E}
  {event : TabEvent T E}

/-- The running capture is the one of the keys, and a press waits behind it or is started. -/
structure Daemon.WellFormed (daemon : Daemon T E) : Prop where
  running : ∀ index (task : Task T E), daemon.tasks[index]? = some task →
    (task.status = .running ↔ daemon.tabs.flight = some index)
  flight : ∀ index, daemon.tabs.flight = some index → index < daemon.tasks.length
  queued : daemon.tabs.queued.isSome → daemon.tabs.flight.isSome
  starting : daemon.starting.isSome → daemon.tabs.flight = none
  heard : ∀ release, daemon.tabs.lastRelease = some release → release ≤ daemon.clock
  waiting : ∀ press, daemon.tabs.queued = some press → press ≤ daemon.clock
  begun : ∀ press, daemon.starting = some press → press ≤ daemon.clock
  pressed : ∀ task ∈ daemon.tasks, task.press ≤ daemon.clock
  accepted : ∀ press, daemon.lastAccepted = some press → press ≤ daemon.clock

/-- The press is within three seconds of a taken board's press. -/
def Debounced (daemon : Daemon T E) (press : ℕ) : Prop :=
  ∃ accepted, daemon.lastAccepted = some accepted ∧ press - accepted < tabDebounceAfterAccept

instance decidableDebounced (daemon : Daemon T E) (press : ℕ) :
    Decidable (Debounced daemon press) :=
  decidable_of_iff (∃ accepted ∈ daemon.lastAccepted,
    press - accepted < tabDebounceAfterAccept) (by simp [Debounced])

theorem tabPressAction_of_debounced {phase : Option TabFlightPhase} {press : ℕ}
    (debounced : Debounced state press) :
    tabPressAction press state.lastAccepted phase = .debounced := by
  rcases debounced with ⟨accepted, found, close⟩
  simp [tabPressAction, found, close]

theorem tabPressAction_of_not_debounced {phase : Option TabFlightPhase} {press : ℕ}
    (late : ¬Debounced state press) :
    tabPressAction press state.lastAccepted phase = if phase.isSome then .queue else .start := by
  have far : ¬state.lastAccepted.any
      (fun accepted => decide (press - accepted < tabDebounceAfterAccept)) = true := by
    intro close
    rcases Option.any_eq_true_iff_get _ _ |>.mp close with ⟨some, close⟩
    exact late ⟨_, (Option.some_get some).symm, of_decide_eq_true close⟩
  unfold tabPressAction
  rw [if_neg far]
  cases phase <;> rfl

namespace Daemon

/-- The keys after a press that finds the running capture gone. -/
def withoutFlight (daemon : Daemon T E) (index : ℕ) : Daemon T E :=
  { daemon with
    tabs := { daemon.tabs with flight := none, queued := none }
    tasks := daemon.tasks.modify index (Task.withStatus .gone) }

end Daemon

/-- What an event does to the keys and the captures. -/
inductive Turns (judge : Judge T) (state : Daemon T E) : TabEvent T E → Daemon T E → Prop
  | starts (time : ℕ) (captureGone : Bool) (ahead : state.clock ≤ time)
      (started : state.starting = none) (idle : state.tabs.flight = none)
      (late : ¬Debounced state time) :
      Turns judge state (.press time captureGone)
        { state with
          tabs := { state.tabs with queued := none }
          starting := some time
          clock := time }
  | debounces (time : ℕ) (captureGone : Bool) (ahead : state.clock ≤ time)
      (started : state.starting = none) (held : captureGone = true → state.tabs.flight = none)
      (close : Debounced state time) :
      Turns judge state (.press time captureGone) { state with clock := time }
  | queues (time : ℕ) (index : ℕ) (ahead : state.clock ≤ time) (started : state.starting = none)
      (flying : state.tabs.flight = some index) (late : ¬Debounced state time) :
      Turns judge state (.press time false)
        { state with
          tabs := { state.tabs with queued := some time }
          tasks := state.tasks.modify index (Task.withFlight (·.cancelRetries))
          clock := time }
  | restarts (time : ℕ) (index : ℕ) (ahead : state.clock ≤ time) (started : state.starting = none)
      (flying : state.tabs.flight = some index) (late : ¬Debounced state time) :
      Turns judge state (.press time true)
        { state.withoutFlight index with starting := some time, clock := time }
  | drops (time : ℕ) (index : ℕ) (ahead : state.clock ≤ time) (started : state.starting = none)
      (flying : state.tabs.flight = some index) (close : Debounced state time) :
      Turns judge state (.press time true) { state.withoutFlight index with clock := time }
  | releases (time : ℕ) (ahead : state.clock ≤ time) :
      Turns judge state (.release time) { state.onRelease time with clock := time }
  | begins (waits : List ℕ) (press : ℕ) (starting : state.starting = some press) :
      Turns judge state (.started waits) (state.started press waits)
  | takes (index : ℕ) (task : Task T E) (started : state.starting = none)
      (flying : state.tabs.flight = some index) (found : state.tasks[index]? = some task) :
      Turns judge state (.report index true)
        { state with
          tabs := { state.tabs with flight := none, queued := none }
          tasks := state.tasks.modify index (Task.withStatus .reported)
          lastAccepted := some task.press
          starting := none }
  | hands (index : ℕ) (task : Task T E) (started : state.starting = none)
      (flying : state.tabs.flight = some index) (found : state.tasks[index]? = some task) :
      Turns judge state (.report index false)
        { state with
          tabs := { state.tabs with flight := none, queued := none }
          tasks := state.tasks.modify index (Task.withStatus .reported)
          starting := state.tabs.queued }
  | resumes (index : ℕ) (task : Task T E) (event : LoopEvent T E) (later : Capture T E)
      (found : state.tasks[index]? = some task)
      (next : (retries judge).next task.capture (.loop event) = some later) :
      Turns judge state (.capture index event)
        { state with tasks := state.tasks.set index { task with capture := later } }
  | forgets : Turns judge state .forgotten { state with lastAccepted := none }

theorem Daemon.WellFormed.inFlight_isSome (formed : state.WellFormed) :
    state.inFlight.isSome = state.tabs.flight.isSome := by
  unfold Daemon.inFlight
  cases flying : state.tabs.flight with
  | none => rfl
  | some index =>
      have inside := formed.flight index flying
      simp [inside]

namespace Daemon

theorem takePress_of_debounced {press : ℕ} (close : Debounced state press) :
    state.takePress press = state := by
  unfold takePress
  rw [tabPressAction_of_debounced close]

theorem takePress_of_idle {press : ℕ} (late : ¬Debounced state press)
    (idle : state.tabs.flight = none) :
    state.takePress press =
      { state with tabs := { state.tabs with queued := none }, starting := some press } := by
  have nothing : state.inFlight = none := by simp [inFlight, idle]
  unfold takePress
  rw [tabPressAction_of_not_debounced late, nothing]
  rfl

theorem takePress_of_flying {press index : ℕ} (formed : state.WellFormed)
    (late : ¬Debounced state press) (flying : state.tabs.flight = some index) :
    state.takePress press =
      { state with
        tabs := { state.tabs with queued := some press }
        tasks := state.tasks.modify index (Task.withFlight (·.cancelRetries)) } := by
  have busy : state.inFlight.isSome = true := by simp [formed.inFlight_isSome, flying]
  unfold takePress
  rw [tabPressAction_of_not_debounced late, if_pos busy]
  simp only [changeFlight, flying, Option.elim_some]

theorem forgetGone_of_idle (captureGone : Bool) (idle : state.tabs.flight = none) :
    state.forgetGone captureGone = state := by
  unfold forgetGone
  rw [idle]

theorem forgetGone_of_flying {index : ℕ} (captureGone : Bool)
    (flying : state.tabs.flight = some index) :
    state.forgetGone captureGone = if captureGone then state.withoutFlight index else state := by
  unfold forgetGone
  rw [flying]
  rfl

end Daemon

theorem turns_of_press (formed : state.WellFormed) {time : ℕ} (captureGone : Bool)
    (ahead : state.clock ≤ time) (started : state.starting = none) :
    Turns judge state (.press time captureGone)
      { state.onPress time captureGone with clock := time } := by
  unfold Daemon.onPress
  by_cases close : Debounced state time
  · cases flying : state.tabs.flight with
    | none =>
        rw [Daemon.forgetGone_of_idle captureGone flying, Daemon.takePress_of_debounced close]
        exact .debounces time captureGone ahead started (fun _ => flying) close
    | some index =>
        rw [Daemon.forgetGone_of_flying captureGone flying]
        cases captureGone with
        | false =>
            rw [if_neg Bool.false_ne_true, Daemon.takePress_of_debounced close]
            exact .debounces time false ahead started (fun gone => by cases gone) close
        | true =>
            have still : Debounced (state.withoutFlight index) time := close
            rw [if_pos rfl, Daemon.takePress_of_debounced still]
            exact .drops time index ahead started flying close
  · cases flying : state.tabs.flight with
    | none =>
        rw [Daemon.forgetGone_of_idle captureGone flying, Daemon.takePress_of_idle close flying]
        exact .starts time captureGone ahead started flying close
    | some index =>
        rw [Daemon.forgetGone_of_flying captureGone flying]
        cases captureGone with
        | false =>
            rw [if_neg Bool.false_ne_true, Daemon.takePress_of_flying formed close flying]
            exact .queues time index ahead started flying close
        | true =>
            have still : ¬Debounced (state.withoutFlight index) time := close
            rw [if_pos rfl, Daemon.takePress_of_idle still rfl]
            exact .restarts time index ahead started flying close

theorem turns_of_report (formed : state.WellFormed) {index : ℕ} (boardTaken : Bool)
    (started : state.starting = none)
    (running : state.tasks[index]?.any fun task => decide (task.status = .running)) :
    Turns judge state (.report index boardTaken)
      { state.onReport boardTaken with
        tasks := state.tasks.modify index (Task.withStatus .reported) } := by
  cases found : state.tasks[index]? with
  | none => simp [found] at running
  | some task =>
      have flying : state.tabs.flight = some index := by
        apply (formed.running index task found).mp
        simpa [found] using running
      have same : state.tabs.flight.bind (fun index => state.tasks[index]?) = some task := by
        rw [flying]
        exact found
      unfold Daemon.onReport
      rw [same]
      cases boardTaken with
      | false => exact .hands index task started flying found
      | true => exact .takes index task started flying found

theorem turns_of_next (formed : state.WellFormed)
    (taken : (daemon judge).next state event = some after) : Turns judge state event after := by
  cases event with
  | press time captureGone =>
      rcases Option.ite_none_right_eq_some.mp taken with ⟨⟨ahead, started⟩, reached⟩
      rcases Option.some.inj reached with rfl
      exact turns_of_press formed captureGone ahead started
  | release time =>
      rcases Option.ite_none_right_eq_some.mp taken with ⟨ahead, reached⟩
      rcases Option.some.inj reached with rfl
      exact .releases time ahead
  | started waits =>
      rcases Option.map_eq_some_iff.mp taken with ⟨press, starting, rfl⟩
      exact .begins waits press starting
  | report index boardTaken =>
      rcases Option.ite_none_right_eq_some.mp taken with ⟨⟨started, running⟩, reached⟩
      rcases Option.some.inj reached with rfl
      exact turns_of_report formed boardTaken started running
  | capture index event =>
      rcases Option.bind_eq_some_iff.mp taken with ⟨task, found, reached⟩
      rcases Option.ite_none_right_eq_some.mp reached with ⟨-, reached⟩
      rcases Option.map_eq_some_iff.mp reached with ⟨later, resumed, rfl⟩
      exact .resumes index task event later found resumed
  | forgotten =>
      rcases Option.some.inj taken with rfl
      exact .forgets

/-! ## One running capture -/

theorem of_modify {tasks : List (Task T E)} {index position : ℕ} {task : Task T E}
    {change : Task T E → Task T E} (found : (tasks.modify index change)[position]? = some task) :
    ∃ before, tasks[position]? = some before ∧
      task = if index = position then change before else before := by
  rw [List.getElem?_modify] at found
  rcases Option.map_eq_some_iff.mp found with ⟨before, at_position, same⟩
  exact ⟨before, at_position, same.symm⟩

theorem of_snoc {tasks : List (Task T E)} {position : ℕ} {task last : Task T E}
    (found : (tasks ++ [last])[position]? = some task) :
    tasks[position]? = some task ∨ position = tasks.length ∧ task = last := by
  rcases Nat.lt_trichotomy position tasks.length with inside | rfl | outside
  · rw [List.getElem?_append_left inside] at found
    exact .inl found
  · rw [List.getElem?_concat_length] at found
    exact .inr ⟨rfl, (Option.some.inj found).symm⟩
  · rw [List.getElem?_eq_none (by simpa using Nat.succ_le_of_lt outside)] at found
    cases found

theorem of_set {tasks : List (Task T E)} {index position : ℕ} {task moved : Task T E}
    (found : (tasks.set index moved)[position]? = some task) :
    position = index ∧ task = moved ∨ position ≠ index ∧ tasks[position]? = some task :=
  @Pool.of_set Unit _ ⟨(), tasks⟩ _ _ _ _ found

theorem forall_mem_modify {tasks : List (Task T E)} {index : ℕ} {Holds : Task T E → Prop}
    {change : Task T E → Task T E} (holds : ∀ task ∈ tasks, Holds task)
    (kept : ∀ task ∈ tasks, Holds task → Holds (change task)) :
    ∀ task ∈ tasks.modify index change, Holds task := by
  intro task task_mem
  rcases List.getElem?_of_mem task_mem with ⟨position, found⟩
  rcases of_modify found with ⟨before, at_position, rfl⟩
  have before_mem := List.mem_of_getElem? at_position
  split
  · exact kept before before_mem (holds before before_mem)
  · exact holds before before_mem

namespace TabFlight

variable (flight : TabFlight) (time : ℕ)

@[simp]
theorem press_noteRelease : (flight.noteRelease time).press = flight.press := by
  unfold noteRelease
  split
  · rfl
  · split <;> rfl

@[simp]
theorem press_cancelRetries : flight.cancelRetries.press = flight.press := rfl

@[simp]
theorem press_finish (result : TabResult) : (flight.finish result).press = flight.press := rfl

end TabFlight

/-- A capture keeps its press. -/
theorem Moves.press {capture later : Capture T E} {event : RetryEvent T E}
    (moves : Moves judge capture event later) : later.flight.press = capture.flight.press := by
  cases moves with
  | begins | fails | keeps | stops | retries | cancelled => rfl
  | takes flight waits best =>
      rcases @Capture.nextWait_cases T E judge flight best 0 waits with same | ⟨_, _, -, same⟩
      · rw [same]
        rfl
      · rw [same]
        rfl
  | compares flight best next count waits =>
      rcases @Capture.nextWait_cases T E judge flight (Capture.better judge best next) count waits
        with same | ⟨_, _, -, same⟩
      · rw [same]
        rfl
      · rw [same]
        rfl
  | noted capture time => exact TabFlight.press_noteRelease _ time

theorem press_started (daemon : Daemon T E) (press : ℕ) :
    (daemon.tabs.lastRelease.elim (TabFlight.new press)
      (TabFlight.new press).noteRelease).press = press := by
  cases daemon.tabs.lastRelease with
  | none => rfl
  | some release => exact TabFlight.press_noteRelease _ release

namespace Daemon.WellFormed

theorem initial : (Daemon.initial : Daemon T E).WellFormed := by
  constructor <;> simp [Daemon.initial]

/-- The flights' changes leave the running capture alone. -/
theorem changed (formed : state.WellFormed) (index : ℕ) {change : TabFlight → TabFlight}
    (press : ∀ flight, (change flight).press = flight.press) {time : ℕ}
    (ahead : state.clock ≤ time) :
    ({ state with
      tasks := state.tasks.modify index (Task.withFlight change)
      clock := time } : Daemon T E).WellFormed where
  running position task found := by
    rcases of_modify found with ⟨before, at_position, rfl⟩
    rw [← formed.running position before at_position]
    split <;> rfl
  flight position flying := by simpa using formed.flight position flying
  queued := formed.queued
  starting := formed.starting
  heard release last := (formed.heard release last).trans ahead
  waiting press queued := (formed.waiting press queued).trans ahead
  begun press starting := (formed.begun press starting).trans ahead
  pressed := by
    refine forall_mem_modify (fun task task_mem => (formed.pressed task task_mem).trans ahead) ?_
    intro task _ before
    exact (press task.capture.flight).le.trans before
  accepted press taken := (formed.accepted press taken).trans ahead

/-- The running capture ends, and nothing waits behind it. -/
theorem ended (formed : state.WellFormed) {index : ℕ} (flying : state.tabs.flight = some index)
    {status : TaskStatus} (ended : status ≠ .running) {time : ℕ} (ahead : state.clock ≤ time)
    {starting lastAccepted : Option ℕ} (begun : ∀ press, starting = some press → press ≤ time)
    (accepted : ∀ press, lastAccepted = some press → press ≤ time) :
    (⟨⟨none, none, state.tabs.lastRelease⟩, state.tasks.modify index (Task.withStatus status),
      lastAccepted, starting, time⟩ : Daemon T E).WellFormed where
  running position task found := by
    rcases of_modify found with ⟨before, at_position, rfl⟩
    have was := formed.running position before at_position
    rw [flying] at was
    split
    next => exact iff_of_false ended (by simp)
    next other =>
      refine iff_of_false (fun running => ?_) (by simp)
      exact other (Option.some.inj (was.mp running))
  flight position flying := by cases flying
  queued waiting := by cases waiting
  starting _ := rfl
  heard release last := (formed.heard release last).trans ahead
  waiting press queued := by cases queued
  begun := begun
  pressed := by
    refine forall_mem_modify (fun task task_mem => (formed.pressed task task_mem).trans ahead) ?_
    intro task _ before
    exact before
  accepted := accepted

theorem step (formed : state.WellFormed) (turns : Turns judge state event after) :
    after.WellFormed := by
  cases turns with
  | starts time captureGone ahead started idle late =>
      constructor
      · exact formed.running
      · exact formed.flight
      · intro waiting
        cases waiting
      · intro _
        exact idle
      · intro release last
        exact (formed.heard release last).trans ahead
      · intro press queued
        cases queued
      · intro press starting
        exact (Option.some.inj starting).ge
      · intro task task_mem
        exact (formed.pressed task task_mem).trans ahead
      · intro press taken
        exact (formed.accepted press taken).trans ahead
  | debounces time captureGone ahead started held close =>
      exact ⟨formed.running, formed.flight, formed.queued, formed.starting,
        fun release last => (formed.heard release last).trans ahead,
        fun press queued => (formed.waiting press queued).trans ahead,
        fun press starting => (formed.begun press starting).trans ahead,
        fun task task_mem => (formed.pressed task task_mem).trans ahead,
        fun press taken => (formed.accepted press taken).trans ahead⟩
  | queues time index ahead started flying late =>
      have changed := formed.changed index TabFlight.press_cancelRetries ahead
      refine ⟨changed.running, changed.flight, ?_, changed.starting, changed.heard, ?_,
        changed.begun, changed.pressed, changed.accepted⟩
      · intro _
        exact Option.isSome_iff_exists.mpr ⟨index, flying⟩
      · intro press queued
        exact (Option.some.inj queued).ge
  | restarts time index ahead started flying late =>
      have ended : TaskStatus.gone ≠ .running := by decide
      apply formed.ended flying ended ahead
      · intro press starting
        exact (Option.some.inj starting).ge
      · intro press taken
        exact (formed.accepted press taken).trans ahead
  | drops time index ahead started flying close =>
      have ended : TaskStatus.gone ≠ .running := by decide
      apply formed.ended flying ended ahead
      · intro press starting
        exact (formed.begun press starting).trans ahead
      · intro press taken
        exact (formed.accepted press taken).trans ahead
  | releases time ahead =>
      have heard (release : ℕ) (last : some time = some release) : release ≤ time :=
        (Option.some.inj last).ge
      unfold Daemon.onRelease Daemon.changeFlight
      cases flying : state.tabs.flight with
      | none =>
          exact ⟨formed.running, formed.flight, formed.queued, formed.starting, heard,
            fun press queued => (formed.waiting press queued).trans ahead,
            fun press starting => (formed.begun press starting).trans ahead,
            fun task task_mem => (formed.pressed task task_mem).trans ahead,
            fun press taken => (formed.accepted press taken).trans ahead⟩
      | some index =>
          have changed := formed.changed index (TabFlight.press_noteRelease · time) ahead
          exact ⟨changed.running, changed.flight, changed.queued, changed.starting, heard,
            changed.waiting, changed.begun, changed.pressed, changed.accepted⟩
  | begins waits press starting =>
      have idle := formed.starting (Option.isSome_iff_exists.mpr ⟨press, starting⟩)
      constructor
      · intro index task found
        rcases of_snoc found with earlier | ⟨rfl, rfl⟩
        · have was := formed.running index task earlier
          rw [idle] at was
          have inside := (List.getElem?_eq_some_iff.mp earlier).1
          refine iff_of_false (fun running => by cases was.mp running) ?_
          intro same
          exact absurd (Option.some.inj same) (Nat.ne_of_gt inside)
        · exact iff_of_true rfl rfl
      · intro index flying
        rcases Option.some.inj flying with rfl
        simp [Daemon.started]
      · intro _
        rfl
      · intro begun
        cases begun
      · exact formed.heard
      · exact formed.waiting
      · intro other begun
        cases begun
      · intro task task_mem
        rcases List.mem_append.mp task_mem with earlier | last
        · exact formed.pressed task earlier
        · rcases List.mem_singleton.mp last with rfl
          exact (press_started state press).le.trans (formed.begun press starting)
      · exact formed.accepted
  | takes index task started flying found =>
      have ended : TaskStatus.reported ≠ .running := by decide
      apply formed.ended flying ended le_rfl
      · intro press starting
        cases starting
      · intro press taken
        rw [← Option.some.inj taken]
        exact formed.pressed task (List.mem_of_getElem? found)
  | hands index task started flying found =>
      have ended : TaskStatus.reported ≠ .running := by decide
      exact formed.ended flying ended le_rfl formed.waiting formed.accepted
  | resumes index task event later found next =>
      constructor
      · intro position other at_position
        rcases of_set at_position with ⟨rfl, rfl⟩ | ⟨-, before⟩
        · exact formed.running position task found
        · exact formed.running position other before
      · intro position flying
        simpa using formed.flight position flying
      · exact formed.queued
      · exact formed.starting
      · exact formed.heard
      · exact formed.waiting
      · exact formed.begun
      · intro other other_mem
        rcases List.mem_or_eq_of_mem_set other_mem with before | rfl
        · exact formed.pressed other before
        · exact (moves_of_next next).press.le.trans
            (formed.pressed task (List.mem_of_getElem? found))
      · exact formed.accepted
  | forgets =>
      refine ⟨formed.running, formed.flight, formed.queued, formed.starting, formed.heard,
        formed.waiting, formed.begun, formed.pressed, ?_⟩
      intro press taken
      cases taken

end Daemon.WellFormed

theorem wellFormed_of_run {steps : List (Step (Daemon T E) (TabEvent T E))}
    (run : (daemon judge).Run .initial steps final) : final.WellFormed := by
  apply run.invariant Daemon.WellFormed .initial
  intro state event after taken formed
  exact formed.step (turns_of_next formed taken)

/-- Two running captures are the same. -/
theorem Daemon.WellFormed.one_running (formed : state.WellFormed) {first second : ℕ}
    {task other : Task T E} (found : state.tasks[first]? = some task)
    (found' : state.tasks[second]? = some other) (running : task.status = .running)
    (running' : other.status = .running) : first = second := by
  have flying := (formed.running first task found).mp running
  rw [(formed.running second other found').mp running'] at flying
  exact (Option.some.inj flying).symm

end ScuffedCrew.TabRetry
