import ScuffedCrew.RelayPolicy.Limits

/-!
# Admission accounting

Every interleaving of admissions, messages, drops and the passing of time.  The
connections of a bucket are the live admissions of its address.  Of the attempts
and the accepted messages each bucket keeps what is still in the window.
-/

namespace ScuffedCrew.RelayPolicy

open Rust StateMachine

structure Admissions where
  buckets : Buckets
  clock : Instant
  /-- The address of every admission that has not been dropped. -/
  live : List IpAddr

def Admissions.new (clock : Instant) : Admissions := ⟨∅, clock, []⟩

inductive LimitStep
  | tryAdmit (ip : IpAddr)
  | allowMessage (ip : IpAddr)
  | drop (ip : IpAddr)
  | tick (span : Duration)
  deriving DecidableEq

namespace Admissions

variable (limits : GateLimits) (state : Admissions)

def admitted (ip : IpAddr) : Bool := (limits.tryAdmit state.buckets ip state.clock).1

def allowed (ip : IpAddr) : Bool := (limits.allowMessage state.buckets ip state.clock).1

end Admissions

/-- An admission is dropped once. -/
def admissions (limits : GateLimits) : Machine Admissions LimitStep where
  next state
    | .tryAdmit ip =>
        some
          { state with
            buckets := (limits.tryAdmit state.buckets ip state.clock).2
            live := if state.admitted limits ip then ip :: state.live else state.live }
    | .allowMessage ip =>
        some { state with buckets := (limits.allowMessage state.buckets ip state.clock).2 }
    | .drop ip =>
        if ip ∈ state.live then
          some
            { state with
              buckets := limits.drop state.buckets ip state.clock
              live := state.live.erase ip }
        else none
    | .tick span => some { state with clock := state.clock + span }

variable {limits : GateLimits} {ip : IpAddr} {start state after final : Admissions}
  {event : LimitStep} {steps : List (Step Admissions LimitStep)}

/-! ## The logs -/

def clockOf (step : Step Admissions LimitStep) : Instant := step.before.clock

def attempts (ip : IpAddr) (step : Step Admissions LimitStep) : Bool :=
  decide (step.event = .tryAdmit ip)

def admits (limits : GateLimits) (ip : IpAddr) (step : Step Admissions LimitStep) : Bool :=
  attempts ip step && step.before.admitted limits ip

def accepts (limits : GateLimits) (ip : IpAddr) (step : Step Admissions LimitStep) : Bool :=
  decide (step.event = .allowMessage ip) && step.before.allowed limits ip

/-- The instants of the steps a test picks. -/
def logOf (picks : Step Admissions LimitStep → Bool) (steps : List (Step Admissions LimitStep)) :
    List Instant :=
  (steps.filter picks).map clockOf

theorem logOf_snoc {picks : Step Admissions LimitStep → Bool} {step : Step Admissions LimitStep} :
    logOf picks (steps ++ [step]) =
      if picks step then logOf picks steps ++ [clockOf step] else logOf picks steps := by
  rw [logOf, List.filter_append, List.map_append]
  split
  next picked => rw [List.filter_cons_of_pos picked]; rfl
  next missed => rw [List.filter_cons_of_neg missed]; simp [logOf]

/-! ## The invariant -/

structure Accounted (limits : GateLimits) (ip : IpAddr)
    (steps : List (Step Admissions LimitStep)) (state : Admissions) : Prop where
  connections : (bucketOf state.buckets ip).connections = state.live.count ip
  bounded : (bucketOf state.buckets ip).connections ≤ limits.maxConnections
  attempted : Retains limits.window state.clock (logOf (attempts ip) steps)
    (bucketOf state.buckets ip).connTimes
  accepted : Retains limits.window state.clock (logOf (accepts limits ip) steps)
    (bucketOf state.buckets ip).msgTimes

theorem connections_lt_of_admitted (admitted : state.admitted limits ip = true) :
    (bucketOf state.buckets ip).connections < limits.maxConnections := by
  rw [Admissions.admitted, GateLimits.tryAdmit] at admitted
  simp only at admitted
  split at admitted
  next => cases admitted
  next inside => exact Nat.lt_of_not_le (not_or.mp inside).2

theorem length_connTimes_of_admitted (admitted : state.admitted limits ip = true) :
    (bucketOf (limits.tryAdmit state.buckets ip state.clock).2 ip).connTimes.length ≤
      limits.maxNewPerWindow := by
  rw [bucketOf_tryAdmit, if_pos rfl]
  rw [Admissions.admitted, GateLimits.tryAdmit] at admitted
  simp only at admitted
  split at admitted
  next => cases admitted
  next inside => exact Nat.le_of_not_lt (not_or.mp inside).1

theorem length_msgTimes_of_allowed (allowed : state.allowed limits ip = true) :
    (bucketOf (limits.allowMessage state.buckets ip state.clock).2 ip).msgTimes.length ≤
      limits.maxMessagesPerWindow := by
  rw [bucketOf_allowMessage, if_pos rfl]
  rw [Admissions.allowed] at allowed
  simp only [allowed, if_true]
  rw [GateLimits.allowMessage] at allowed
  split at allowed
  next => cases allowed
  next inside =>
    rw [List.length_append, List.length_singleton]
    omega

theorem Accounted.of_same (accounted : Accounted limits ip steps state)
    (bucket : bucketOf after.buckets ip = bucketOf state.buckets ip)
    (live : after.live.count ip = state.live.count ip) (clock : state.clock ≤ after.clock)
    (unattempted : attempts ip ⟨state, event, after⟩ = false)
    (unaccepted : accepts limits ip ⟨state, event, after⟩ = false) :
    Accounted limits ip (steps ++ [⟨state, event, after⟩]) after := by
  rcases accounted with ⟨connections, bounded, attempted, accepted⟩
  constructor
  · rw [bucket, live, connections]
  · rwa [bucket]
  · rw [bucket, logOf_snoc, unattempted]
    exact attempted.mono clock
  · rw [bucket, logOf_snoc, unaccepted]
    exact accepted.mono clock

theorem Accounted.step (taken : (admissions limits).next state event = some after)
    (accounted : Accounted limits ip steps state) :
    Accounted limits ip (steps ++ [⟨state, event, after⟩]) after := by
  cases event with
  | tryAdmit other =>
      rcases Option.some.inj taken with rfl
      by_cases same : ip = other
      · subst same
        rcases accounted with ⟨connections, bounded, attempted, accepted⟩
        have bucket := @bucketOf_tryAdmit state.buckets ip ip limits state.clock
        rw [if_pos rfl] at bucket
        constructor
        · rw [bucket]
          cases admitted : state.admitted limits ip with
          | true =>
              rw [Admissions.admitted] at admitted
              simp [admitted, Bucket.prune, connections]
          | false =>
              rw [Admissions.admitted] at admitted
              simp [admitted, Bucket.prune, connections]
        · rw [bucket]
          cases admitted : state.admitted limits ip with
          | true =>
              have := connections_lt_of_admitted admitted
              rw [Admissions.admitted] at admitted
              simpa [admitted, Bucket.prune] using Nat.succ_le_of_lt this
          | false =>
              rw [Admissions.admitted] at admitted
              simpa [admitted, Bucket.prune] using bounded
        · rw [bucket, logOf_snoc, attempts, decide_eq_true rfl]
          exact attempted.dropWhile.push state.clock
        · rw [bucket, logOf_snoc]
          exact accepted.dropWhile
      · refine accounted.of_same ?_ ?_ le_rfl ?_ rfl
        · simp only [bucketOf_tryAdmit, if_neg same]
        · simp only
          split
          · exact List.count_cons_of_ne (Ne.symm same)
          · rfl
        · simp [attempts, Ne.symm same]
  | allowMessage other =>
      rcases Option.some.inj taken with rfl
      by_cases same : ip = other
      · subst same
        rcases accounted with ⟨connections, bounded, attempted, accepted⟩
        have bucket := @bucketOf_allowMessage state.buckets ip ip limits state.clock
        rw [if_pos rfl] at bucket
        constructor
        · rw [bucket]
          exact connections
        · rw [bucket]
          exact bounded
        · rw [bucket, logOf_snoc]
          exact attempted.dropWhile
        · rw [bucket, logOf_snoc, accepts, decide_eq_true rfl, Bool.true_and, Admissions.allowed]
          split
          · exact accepted.dropWhile.push state.clock
          · exact accepted.dropWhile
      · refine accounted.of_same ?_ rfl le_rfl rfl ?_
        · simp only [bucketOf_allowMessage, if_neg same]
        · simp [accepts, Ne.symm same]
  | drop other =>
      simp only [admissions] at taken
      split at taken
      next live =>
        rcases Option.some.inj taken with rfl
        by_cases same : ip = other
        · subst same
          rcases accounted with ⟨connections, bounded, attempted, accepted⟩
          have bucket := @bucketOf_drop state.buckets ip ip limits state.clock
          rw [if_pos rfl] at bucket
          constructor
          · rw [bucket, List.count_erase_self, ← connections]
            rfl
          · rw [bucket]
            exact le_trans (Nat.sub_le _ _) bounded
          · rw [bucket, logOf_snoc]
            exact attempted.dropWhile
          · rw [bucket, logOf_snoc]
            exact accepted.dropWhile
        · refine accounted.of_same ?_ ?_ le_rfl rfl rfl
          · simp only [bucketOf_drop, if_neg same]
          · exact List.count_erase_of_ne same
      next => cases taken
  | tick span =>
      rcases Option.some.inj taken with rfl
      exact accounted.of_same rfl rfl (Nat.le_add_right _ _) rfl rfl

theorem accounted_of_run {clock : Instant} (run : (admissions limits).Run (.new clock) steps final)
    (ip : IpAddr) : Accounted limits ip steps final := by
  apply run.history (Accounted limits ip)
  · exact ⟨rfl, Nat.zero_le _, .nil, .nil⟩
  · intro steps state event after taken accounted
    exact accounted.step taken

/-! ## Windows -/

/-- The step lies in the window that begins at an instant. -/
def insideWindow (limits : GateLimits) (first : Instant) (step : Step Admissions LimitStep) :
    Bool :=
  decide (first ≤ clockOf step) && decide (clockOf step ≤ first + limits.window)

theorem countP_insideWindow_le {picks : Step Admissions LimitStep → Bool} {first : Instant} :
    steps.countP (fun step => picks step && insideWindow limits first step) ≤
      steps.countP (fun step => picks step && decide (first ≤ clockOf step)) := by
  apply List.countP_mono_left
  intro step _ both
  simp only [insideWindow, Bool.and_eq_true] at both ⊢
  exact ⟨both.1, both.2.1⟩

theorem countP_admits_le {clock : Instant}
    (run : (admissions limits).Run (.new clock) steps final) (ip : IpAddr) (first : Instant) :
    steps.countP (fun step => admits limits ip step && insideWindow limits first step) ≤
      limits.maxNewPerWindow := by
  apply run.countP_le
  intro steps state event after run taken counts
  simp only [admits, attempts, insideWindow, Bool.and_eq_true, decide_eq_true_eq] at counts
  rcases counts with ⟨⟨rfl, admitted⟩, -, inside⟩
  have accounted := (accounted_of_run run ip).step taken
  rcases Option.some.inj taken with rfl
  refine le_trans ?_ (length_connTimes_of_admitted admitted)
  have logged : ∀ step, admits limits ip step = true → attempts ip step = true := by
    intro step counted
    exact (Bool.and_eq_true_iff.mp counted).1
  refine le_trans ?_ (accounted.attempted.countP_inside_le inside logged)
  exact countP_insideWindow_le

theorem countP_accepts_le {clock : Instant}
    (run : (admissions limits).Run (.new clock) steps final) (ip : IpAddr) (first : Instant) :
    steps.countP (fun step => accepts limits ip step && insideWindow limits first step) ≤
      limits.maxMessagesPerWindow := by
  apply run.countP_le
  intro steps state event after run taken counts
  simp only [accepts, insideWindow, Bool.and_eq_true, decide_eq_true_eq] at counts
  rcases counts with ⟨⟨rfl, allowed⟩, -, inside⟩
  have accounted := (accounted_of_run run ip).step taken
  rcases Option.some.inj taken with rfl
  refine le_trans ?_ (length_msgTimes_of_allowed allowed)
  refine le_trans ?_ (accounted.accepted.countP_inside_le inside fun step => id)
  exact countP_insideWindow_le

/-- In every run the buckets count the live admissions of their addresses, none of these is
without its bucket, no drop finds a count of zero, and no window admits or accepts more
than its limit. -/
theorem admissions_accounted (limits : GateLimits) (clock : Instant)
    (run : (admissions limits).Run (.new clock) steps final) (ip : IpAddr) :
    (∀ bucket, final.buckets.lookup ip = some bucket →
      bucket.connections = final.live.count ip ∧ bucket.connections ≤ limits.maxConnections) ∧
    (ip ∈ final.live → ∃ bucket, final.buckets.lookup ip = some bucket) ∧
    (∀ step ∈ steps, step.event = .drop ip →
      ∃ bucket, step.before.buckets.lookup ip = some bucket ∧ 0 < bucket.connections) ∧
    ∀ first,
      steps.countP (fun step => admits limits ip step && insideWindow limits first step) ≤
        limits.maxNewPerWindow ∧
      steps.countP (fun step => accepts limits ip step && insideWindow limits first step) ≤
        limits.maxMessagesPerWindow := by
  have present : ∀ {steps state}, (admissions limits).Run (.new clock) steps state →
      ip ∈ state.live →
        ∃ bucket, state.buckets.lookup ip = some bucket ∧ 0 < bucket.connections := by
    intro steps state run live
    have counted := (accounted_of_run run ip).connections
    have some_live := List.count_pos_iff.mpr live
    rw [← counted, bucketOf] at some_live
    cases found : state.buckets.lookup ip with
    | none =>
        rw [found] at some_live
        exact absurd some_live (Nat.lt_irrefl 0)
    | some bucket =>
        rw [found] at some_live
        exact ⟨bucket, rfl, some_live⟩
  refine ⟨?_, ?_, ?_, fun first => ⟨countP_admits_le run ip first, countP_accepts_le run ip first⟩⟩
  · intro bucket found
    have accounted := accounted_of_run run ip
    have here : bucketOf final.buckets ip = bucket := by rw [bucketOf, found, Option.getD_some]
    rw [← here]
    exact ⟨accounted.connections, accounted.bounded⟩
  · intro live
    rcases present run live with ⟨bucket, found, -⟩
    exact ⟨bucket, found⟩
  · intro step step_mem dropped
    rcases List.append_of_mem step_mem with ⟨before, later, rfl⟩
    rcases run.reaches_before with ⟨earlier, taken⟩
    apply present earlier
    rw [dropped] at taken
    simp only [admissions] at taken
    split at taken
    next live => exact live
    next => cases taken

/-! ## An evening -/

def oneEach : GateLimits := ⟨1, 2, 1, 60⟩

def home : IpAddr := .v4 0x0A000001

/-- The second connection waits for the first, and the third attempt in a window is refused. -/
def evening : List LimitStep :=
  [.tryAdmit home, .tryAdmit home, .allowMessage home, .allowMessage home, .drop home,
    .tick 61, .tryAdmit home]

/-- One live admission is left, and it is the one its bucket counts. -/
theorem evening_accounted : ∃ final, (admissions oneEach).exec (.new 0) evening = some final ∧
    final.live = [home] ∧
    (∀ bucket, final.buckets.lookup home = some bucket →
      bucket.connections = final.live.count home ∧ bucket.connections ≤ 1) ∧
    (∃ bucket, final.buckets.lookup home = some bucket) ∧
    ((admissions oneEach).stepsOf (.new 0) evening).countP
      (fun step => admits oneEach home step && insideWindow oneEach 0 step) ≤ 2 := by
  have run : (admissions oneEach).Run (.new 0) ((admissions oneEach).stepsOf (.new 0) evening) _ :=
    .of_exec rfl
  rcases admissions_accounted oneEach 0 run home with ⟨counts, present, -, windows⟩
  exact ⟨_, rfl, by decide, counts, present (by decide), (windows 0).1⟩

end ScuffedCrew.RelayPolicy
