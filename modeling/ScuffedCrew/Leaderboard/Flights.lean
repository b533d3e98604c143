import ScuffedCrew.Leaderboard.Calls

/-!
# One flight a key

A flight belongs to the call that has its sender, and a call leads a flight for
as long as the flight is registered.  Both are a stock of one in the ledger of
the flights, so no key has two calls that lead it.
-/

namespace ScuffedCrew.Leaderboard

open Rust StateMachine
open LeaderboardCache (Outcome)

variable {Rows Error : Type}

namespace Call

/-- The flight whose sender the call has. -/
def sender? : Call Rows Error → Option ℕ
  | tryRefresh _ flight _ | tryTotal _ flight _ | storedAt _ flight _ | enqueue _ flight _ _
  | skip flight _ | acquire _ flight | queued _ flight | start _ flight _ | load _ flight _ _ _ _
  | release flight _ | retryRefresh flight _ | retryTotal flight _ | handoff flight _ => some flight
  | begin _ | follow _ _ | mustBlock _ _ | stale _ _ | returned _ | dropped => none

/-- The key the call leads, and its flight, until it takes the flight out of the register. -/
def leads? : Call Rows Error → Option (LeaderboardKey × ℕ)
  | tryRefresh key flight _ | tryTotal key flight _ | storedAt key flight _
  | enqueue key flight _ _ | acquire key flight | queued key flight | start key flight _
  | load key flight _ _ _ _ => some (key, flight)
  | skip _ _ | release _ _ | retryRefresh _ _ | retryTotal _ _ | handoff _ _
  | begin _ | follow _ _ | mustBlock _ _ | stale _ _ | returned _ | dropped => none

@[simp]
theorem sender_begin {key : LeaderboardKey} : (begin key : Call Rows Error).sender? = none := rfl

@[simp]
theorem leads_begin {key : LeaderboardKey} : (begin key : Call Rows Error).leads? = none := rfl

@[simp]
theorem sender_start {key : LeaderboardKey} {flight : ℕ} {refresh : Bool} :
    (start key flight refresh : Call Rows Error).sender? = some flight := rfl

@[simp]
theorem leads_start {key : LeaderboardKey} {flight : ℕ} {refresh : Bool} :
    (start key flight refresh : Call Rows Error).leads? = some (key, flight) := rfl

theorem sender_of_leads {call : Call Rows Error} {key : LeaderboardKey} {flight : ℕ}
    (leads : call.leads? = some (key, flight)) : call.sender? = some flight := by
  cases call <;> simp_all [leads?, sender?]

end Call

namespace Shared

variable {shared : Shared Rows} {key other : LeaderboardKey} {flight flight' : ℕ}

/-- The flight is the one of its key, and can still be finished. -/
def Registered (shared : Shared Rows) (key : LeaderboardKey) (flight : ℕ) : Prop :=
  shared.inner.inflight.lookup key = some flight ∧ shared.isOpen flight

instance : Decidable (shared.Registered key flight) := inferInstanceAs (Decidable (_ ∧ _))

theorem isOpen_congr {after : Shared Rows} (channels : after.channels = shared.channels) :
    after.isOpen flight = shared.isOpen flight := by
  simp only [isOpen, channels]

theorem lt_of_isOpen (opened : shared.isOpen flight) : flight < shared.channels.length := by
  by_contra outside
  simp [isOpen, List.getElem?_eq_none (Nat.le_of_not_lt outside)] at opened

@[simp]
theorem isOpen_send {state : FlightState Rows} :
    (shared.send flight' state).isOpen flight = shared.isOpen flight := by
  simp only [isOpen, send, List.getElem?_modify]
  cases shared.channels[flight]? with
  | none => rfl
  | some channel =>
      change (!(if flight' = flight then _ else channel).closed) = !channel.closed
      split <;> rfl

@[simp]
theorem isOpen_hangUp : (shared.hangUp flight').isOpen flight =
    (shared.isOpen flight && decide (flight ≠ flight')) := by
  simp only [isOpen, hangUp, List.getElem?_modify]
  cases shared.channels[flight]? with
  | none => rfl
  | some channel =>
      change (!(if flight' = flight then _ else channel).closed) =
        (!channel.closed && decide (flight ≠ flight'))
      split
      next same => simp [same]
      next differs => simp [Ne.symm differs]

@[simp]
theorem isOpen_openFlight : (shared.openFlight key).isOpen flight =
    (shared.isOpen flight || decide (flight = shared.channels.length)) := by
  simp only [isOpen, openFlight]
  rcases Nat.lt_trichotomy flight shared.channels.length with before | rfl | after
  · rw [List.getElem?_append_left before]
    simp [Nat.ne_of_lt before]
  · simp
  · rw [List.getElem?_eq_none (by simp; omega), List.getElem?_eq_none (by omega)]
    simp [Nat.ne_of_gt after]

theorem lookup_openFlight : (shared.openFlight key).inner.inflight.lookup other =
    if other = key then some shared.channels.length else shared.inner.inflight.lookup other :=
  HashMap.lookup_insert'

/-- A flight whose sender is gone was not registered. -/
theorem registered_discardDead :
    (shared.discardDead key).Registered other flight ↔ shared.Registered other flight := by
  unfold discardDead
  split
  next dead found =>
    split
    next => rfl
    next gone =>
      simp only [Registered, HashMap.lookup_erase']
      split
      next same =>
        rw [same, found]
        constructor
        · rintro ⟨impossible, -⟩
          cases impossible
        · rintro ⟨same, opened⟩
          rcases Option.some.inj same with rfl
          exact absurd opened gone
      next => rfl
  next => rfl

@[simp]
theorem discardDead_channels : (shared.discardDead key).channels = shared.channels := by
  unfold discardDead
  split
  · split <;> rfl
  · rfl

/-- What is under the key after `begin` has looked is alive. -/
theorem registered_of_discardDead
    (found : (shared.discardDead key).inner.inflight.lookup key = some flight) :
    shared.Registered key flight := by
  unfold discardDead at found
  split at found
  next other at_key =>
    split at found
    next opened =>
      rcases Option.some.inj (at_key.symm.trans found) with rfl
      exact ⟨found, opened⟩
    next => simp at found
  next absent => cases absent.symm.trans found

theorem registered_congr {after : Shared Rows} (inflight : after.inner.inflight = shared.inner.inflight)
    (channels : after.channels = shared.channels) :
    after.Registered key flight ↔ shared.Registered key flight := by
  simp only [Registered, inflight, isOpen_congr channels]

theorem registered_hangUp : (shared.hangUp flight').Registered key flight ↔
    shared.Registered key flight ∧ flight ≠ flight' := by
  simp only [Registered, isOpen_hangUp, Bool.and_eq_true, decide_eq_true_eq, and_assoc]
  rfl

/-- The register names channels that are there, and a queued refresh leads the key it waits for. -/
structure Tidy (shared : Shared Rows) : Prop where
  inflight : ∀ key flight, shared.inner.inflight.lookup key = some flight →
    flight < shared.channels.length
  waits : ∀ waitKey queued, shared.inner.refreshWait.get? waitKey = some queued →
    queued.key = (ofLex waitKey).2

theorem registered_openFlight (tidy : shared.Tidy) (free : ∀ flight, ¬shared.Registered key flight) :
    (shared.openFlight key).Registered other flight ↔
      shared.Registered other flight ∨ other = key ∧ flight = shared.channels.length := by
  simp only [Registered, isOpen_openFlight, lookup_openFlight, Bool.or_eq_true, decide_eq_true_eq]
  by_cases same : other = key
  · simp only [same, if_true, Option.some.injEq, true_and]
    constructor
    · rintro ⟨rfl, -⟩
      exact .inr rfl
    · rintro (registered | rfl)
      · exact absurd (same ▸ registered) (free flight)
      · exact ⟨rfl, .inr rfl⟩
  · simp only [same, if_false, false_and, or_false]
    constructor
    · rintro ⟨found, opened | rfl⟩
      · exact ⟨found, opened⟩
      · exact absurd (tidy.inflight other _ found) (Nat.lt_irrefl _)
    · rintro ⟨found, opened⟩
      exact ⟨found, .inl opened⟩

theorem Tidy.discardDead (tidy : shared.Tidy) : (shared.discardDead key).Tidy := by
  unfold Shared.discardDead
  split
  · split
    · exact tidy
    · refine ⟨fun other flight found => ?_, tidy.waits⟩
      rw [HashMap.lookup_erase'] at found
      split at found
      next => cases found
      next => exact tidy.inflight other flight found
  · exact tidy

end Shared

/-! ## What the locked sections do to the flights -/

/-- The shared state but for its waiting keys. -/
def Shared.waiting (shared : Shared Rows) (refreshWait : RefreshWait) : Shared Rows :=
  { shared with inner := { shared.inner with refreshWait } }

inductive HandoffEffect (shared : Shared Rows) : Shared Rows × Option (QueuedRefresh × ℕ) → Prop
  | nothing (refreshWait : RefreshWait)
      (length : refreshWait.rows.length ≤ shared.inner.refreshWait.rows.length)
      (fewer : ∀ waitKey queued, refreshWait.get? waitKey = some queued →
        shared.inner.refreshWait.get? waitKey = some queued) :
      HandoffEffect shared (shared.waiting refreshWait, none)
  | launches (refreshWait : RefreshWait) {candidate : WaitKey} {queued : QueuedRefresh}
      (length : refreshWait.rows.length < shared.inner.refreshWait.rows.length)
      (fewer : ∀ waitKey queued, refreshWait.get? waitKey = some queued →
        shared.inner.refreshWait.get? waitKey = some queued)
      (found : shared.inner.refreshWait.get? candidate = some queued)
      (free : (ofLex candidate).2 ∉ shared.inner.inflight) :
      HandoffEffect shared
        ((shared.waiting refreshWait).openFlight (ofLex candidate).2,
          some (queued, shared.channels.length))

theorem handoff_effect (shared : Shared Rows) (candidates : List WaitKey) :
    HandoffEffect shared (handoff shared candidates) := by
  induction candidates generalizing shared with
  | nil => exact .nothing shared.inner.refreshWait (Nat.le_refl _) (fun _ _ found => found)
  | cons candidate candidates ih =>
      unfold handoff
      split
      next => exact ih shared
      next queued found =>
        have shorter := Database.Ordered.length_erase_lt found
        have fewer : ∀ waitKey queued,
            (shared.inner.refreshWait.erase candidate).get? waitKey = some queued →
              shared.inner.refreshWait.get? waitKey = some queued := by
          intro waitKey queued later
          rw [Database.Ordered.get?_erase] at later
          split at later
          next => cases later
          next => exact later
        -- A candidate that is passed over is out of the queue, and the search goes on.
        have passes : HandoffEffect shared
            (handoff (shared.waiting (shared.inner.refreshWait.erase candidate)) candidates) := by
          have rest := ih (shared.waiting (shared.inner.refreshWait.erase candidate))
          generalize handoff (shared.waiting (shared.inner.refreshWait.erase candidate))
            candidates = result at rest
          cases rest with
          | nothing refreshWait length fewer' =>
              exact .nothing refreshWait (Nat.le_trans length (Nat.le_of_lt shorter))
                (fun waitKey queued later => fewer _ _ (fewer' _ _ later))
          | launches refreshWait length fewer' found' free =>
              exact .launches refreshWait (Nat.lt_trans length shorter)
                (fun waitKey queued later => fewer _ _ (fewer' _ _ later)) (fewer _ _ found') free
        dsimp only
        by_cases busy : (ofLex candidate).2 ∈ shared.inner.inflight
        · rw [if_pos busy]
          exact passes
        · rw [if_neg busy]
          split
          · exact .launches _ shorter fewer found busy
          · exact passes

/-- `begin` answers from what is there, or opens the flight of a key that has none. -/
inductive BeginEffect (shared : Shared Rows) (key : LeaderboardKey) :
    Shared Rows × Begin Rows → Prop
  | hits {board : CachedBoard Rows} :
      BeginEffect shared key ((shared.discardDead key).touch key, .hit board)
  | serves {board : CachedBoard Rows} :
      BeginEffect shared key (shared.discardDead key, .serveStale board none)
  | waits {flight : ℕ} (registered : shared.Registered key flight) :
      BeginEffect shared key (shared.discardDead key, .wait flight)
  | leads {opened : Shared Rows}
      (free : (shared.discardDead key).inner.inflight.lookup key = none)
      (touched : opened = (shared.discardDead key).openFlight key ∨
        opened = ((shared.discardDead key).openFlight key).touch key) :
      BeginEffect shared key (opened, .lead shared.channels.length)
  | refreshes {board : CachedBoard Rows}
      (free : (shared.discardDead key).inner.inflight.lookup key = none) :
      BeginEffect shared key (((shared.discardDead key).openFlight key).touch key,
        .serveStale board (some shared.channels.length))

theorem begin_effect (cache : LeaderboardCache Error) (shared : Shared Rows)
    (key : LeaderboardKey) : BeginEffect shared key (cache.beginLoad shared key) := by
  unfold LeaderboardCache.beginLoad
  simp only [Shared.discardDead_channels]
  split
  next entry stored =>
    split
    next => exact .hits
    next =>
      split
      next flight found =>
        split
        next => exact .waits (Shared.registered_of_discardDead found)
        next => exact .serves
      next free =>
        split
        next => exact .serves
        next =>
          split
          next => exact .leads free (.inr rfl)
          next => exact .refreshes free
  next =>
    split
    next flight found => exact .waits (Shared.registered_of_discardDead found)
    next free => exact .leads free (.inl rfl)

/-- What a step does to the flights, the senders and the register. -/
inductive FlightEffect (shared : Shared Rows) (call : Call Rows Error) :
    Advance (Shared Rows) (Call Rows Error) → Prop
  | keeps {after : Shared Rows} {moved : Call Rows Error}
      (opened : ∀ flight, after.isOpen flight = shared.isOpen flight)
      (registered : ∀ key flight, after.Registered key flight ↔ shared.Registered key flight)
      (sender : moved.sender? = call.sender?) (leads : moved.leads? = call.leads?) :
      FlightEffect shared call ⟨after, moved, []⟩
  | opens {after : Shared Rows} {moved : Call Rows Error} {key : LeaderboardKey}
      (begins : call = .begin key)
      (free : ∀ flight, ¬shared.Registered key flight)
      (opened : ∀ flight, after.isOpen flight =
        (shared.isOpen flight || decide (flight = shared.channels.length)))
      (registered : ∀ other flight, after.Registered other flight ↔
        shared.Registered other flight ∨ other = key ∧ flight = shared.channels.length)
      (leads : moved.leads? = some (key, shared.channels.length)) :
      FlightEffect shared call ⟨after, moved, []⟩
  | passes {after : Shared Rows} {moved : Call Rows Error} {key : LeaderboardKey} {flight : ℕ}
      (opened : ∀ flight, after.isOpen flight = shared.isOpen flight)
      (registered : ∀ key flight, after.Registered key flight ↔ shared.Registered key flight)
      (leads : call.leads? = some (key, flight)) (ends : moved.sender? = none) :
      FlightEffect shared call ⟨after, moved, [.start key flight true]⟩
  | unregisters {after : Shared Rows} {moved : Call Rows Error} {key : LeaderboardKey}
      {flight : ℕ} (opened : ∀ flight, after.isOpen flight = shared.isOpen flight)
      (registered : ∀ other flight, after.Registered other flight ↔
        shared.Registered other flight ∧ other ≠ key)
      (leads : call.leads? = some (key, flight)) (sender : moved.sender? = some flight)
      (led : moved.leads? = none) : FlightEffect shared call ⟨after, moved, []⟩
  | hangsUp {after : Shared Rows} {moved : Call Rows Error} {flight : ℕ}
      (opened : ∀ other, after.isOpen other = (shared.isOpen other && decide (other ≠ flight)))
      (registered : ∀ key other, after.Registered key other ↔
        shared.Registered key other ∧ other ≠ flight)
      (sender : call.sender? = some flight) (ends : moved.sender? = none) :
      FlightEffect shared call ⟨after, moved, []⟩
  | hands {after : Shared Rows} {moved : Call Rows Error} {key : LeaderboardKey} {flight : ℕ}
      (free : ∀ flight, ¬shared.Registered key flight)
      (opened : ∀ other, after.isOpen other = ((shared.isOpen other ||
        decide (other = shared.channels.length)) && decide (other ≠ flight)))
      (registered : ∀ other flight', after.Registered other flight' ↔
        (shared.Registered other flight' ∨ other = key ∧ flight' = shared.channels.length) ∧
          flight' ≠ flight)
      (sender : call.sender? = some flight) (leads : call.leads? = none)
      (ends : moved.sender? = none) :
      FlightEffect shared call ⟨after, moved, [.start key shared.channels.length true]⟩

variable {shared : Shared Rows} {call : Call Rows Error}

theorem flightEffect_of_begin {cache : LeaderboardCache Error} {key : LeaderboardKey}
    (tidy : shared.Tidy) {millis : ℕ} {result : Except Error Rows}
    {advance : Advance (Shared Rows) (Call Rows Error)}
    (taken : (Call.begin key).go cache shared millis result = some advance) :
    FlightEffect shared (.begin key) advance := by
  have effect := begin_effect cache shared key
  simp only [Call.go, Option.some.injEq] at taken
  rcases taken with rfl
  generalize cache.beginLoad shared key = begun at effect
  have looked : ∀ {after : Shared Rows} flight, after.channels = (shared.discardDead key).channels →
      after.isOpen flight = shared.isOpen flight := fun flight channels =>
    Shared.isOpen_congr (channels.trans Shared.discardDead_channels)
  have listed : ∀ {after : Shared Rows} other flight,
      after.inner.inflight = (shared.discardDead key).inner.inflight →
        after.channels = (shared.discardDead key).channels →
          (after.Registered other flight ↔ shared.Registered other flight) :=
    fun other flight inflight channels =>
      (Shared.registered_congr inflight channels).trans Shared.registered_discardDead
  have leads : ∀ {after : Shared Rows} {moved : Call Rows Error},
      (shared.discardDead key).inner.inflight.lookup key = none →
      after.inner.inflight = ((shared.discardDead key).openFlight key).inner.inflight →
      after.channels = ((shared.discardDead key).openFlight key).channels →
      moved.leads? = some (key, shared.channels.length) →
      FlightEffect shared (.begin key) ⟨after, moved, []⟩ := by
    intro after moved free inflight channels leads
    have empty : ∀ flight, ¬(shared.discardDead key).Registered key flight := by
      rintro flight ⟨found, -⟩
      cases free.symm.trans found
    refine .opens rfl (fun flight registered => ?_) (fun flight => ?_) (fun other flight => ?_) leads
    · exact empty flight (Shared.registered_discardDead.mpr registered)
    · rw [Shared.isOpen_congr channels, Shared.isOpen_openFlight, looked flight rfl,
        Shared.discardDead_channels]
    · rw [Shared.registered_congr inflight channels,
        Shared.registered_openFlight tidy.discardDead empty, Shared.registered_discardDead,
        Shared.discardDead_channels]
  cases effect with
  | hits =>
      exact .keeps (fun flight => looked flight rfl)
        (fun other flight => listed other flight touch_inflight rfl) rfl rfl
  | serves =>
      exact .keeps (fun flight => looked flight rfl)
        (fun other flight => listed other flight rfl rfl) rfl rfl
  | waits =>
      exact .keeps (fun flight => looked flight rfl)
        (fun other flight => listed other flight rfl rfl) rfl rfl
  | leads free touched =>
      rcases touched with rfl | rfl
      · exact leads free rfl rfl rfl
      · exact leads free touch_inflight rfl rfl
  | refreshes free => exact leads free touch_inflight rfl rfl

theorem flightEffect_of_handoff {cache : LeaderboardCache Error} {flight : ℕ}
    {outcome : Outcome Rows Error} (tidy : shared.Tidy) {millis : ℕ} {result : Except Error Rows}
    {advance : Advance (Shared Rows) (Call Rows Error)}
    (taken : (Call.handoff flight outcome).go cache shared millis result = some advance) :
    FlightEffect shared (.handoff flight outcome) advance := by
  have effect := handoff_effect shared (shared.inner.refreshWait.rows.map Prod.fst)
  simp only [Call.go] at taken
  generalize handoff shared (shared.inner.refreshWait.rows.map Prod.fst) = found at effect taken
  cases effect with
  | nothing refreshWait length fewer =>
      rcases Option.some.inj taken with rfl
      refine .hangsUp (fun other => ?_) (fun key other => ?_) rfl rfl
      · rw [Shared.isOpen_hangUp]
        rfl
      · rw [Shared.registered_hangUp]
        rfl
  | @launches refreshWait candidate queued length fewer found free =>
      rcases Option.some.inj taken with rfl
      have waiting : (shared.waiting refreshWait).Tidy :=
        ⟨tidy.inflight, fun waitKey queued later => tidy.waits waitKey queued (fewer _ _ later)⟩
      have empty : ∀ flight, ¬shared.Registered (ofLex candidate).2 flight := by
        rintro flight ⟨found, -⟩
        exact free (AList.lookup_isSome.mp (by simp [found]))
      rw [tidy.waits candidate queued found]
      refine .hands empty (fun other => ?_) (fun other flight' => ?_) rfl rfl rfl
      · rw [Shared.isOpen_hangUp, Shared.isOpen_openFlight]
        rfl
      · rw [Shared.registered_hangUp, Shared.registered_openFlight waiting empty]
        rfl

theorem finishLead_inflight (cache : LeaderboardCache Error) {key : LeaderboardKey}
    {flight startedMs freshForMs : ℕ} {started : ℤ} {result : Except Error Rows} :
    (cache.finishLead shared key flight startedMs started freshForMs result).1.inner.inflight =
      shared.inner.inflight.erase key := by
  unfold LeaderboardCache.finishLead
  cases result with
  | ok rows => exact store_inflight
  | error error =>
      simp only
      split <;> rfl

theorem finishLead_isOpen (cache : LeaderboardCache Error) {key : LeaderboardKey}
    {flight startedMs freshForMs other : ℕ} {started : ℤ} {result : Except Error Rows} :
    (cache.finishLead shared key flight startedMs started freshForMs result).1.isOpen other =
      shared.isOpen other := by
  unfold LeaderboardCache.finishLead
  cases result with
  | ok rows => exact Shared.isOpen_send
  | error error =>
      simp only
      split <;> exact Shared.isOpen_send

theorem Shared.registered_send {key : LeaderboardKey} {flight other : ℕ}
    {state : FlightState Rows} :
    (shared.send other state).Registered key flight ↔ shared.Registered key flight := by
  simp only [Shared.Registered, Shared.isOpen_send]
  rfl

theorem Shared.registered_of_erase {after : Shared Rows} {key other : LeaderboardKey} {flight : ℕ}
    (inflight : after.inner.inflight = shared.inner.inflight.erase key)
    (opened : after.isOpen flight = shared.isOpen flight) :
    after.Registered other flight ↔ shared.Registered other flight ∧ other ≠ key := by
  simp only [Shared.Registered, inflight, opened, HashMap.lookup_erase']
  split
  next same => simp [same]
  next differs => simp [differs]

theorem flightEffect_of_go {cache : LeaderboardCache Error} (tidy : shared.Tidy)
    (leading : ∀ key flight, call.leads? = some (key, flight) → shared.Registered key flight)
    {millis : ℕ} {result : Except Error Rows} {advance : Advance (Shared Rows) (Call Rows Error)}
    (taken : call.go cache shared millis result = some advance) :
    FlightEffect shared call advance := by
  have same : ∀ {after : Shared Rows} {moved : Call Rows Error},
      after.inner.inflight = shared.inner.inflight → after.channels = shared.channels →
        moved.sender? = call.sender? → moved.leads? = call.leads? →
          FlightEffect shared call ⟨after, moved, []⟩ := fun inflight channels sender leads =>
    .keeps (fun _ => Shared.isOpen_congr channels)
      (fun _ _ => Shared.registered_congr inflight channels) sender leads
  have ends : ∀ {after : Shared Rows} {moved : Call Rows Error} {flight : ℕ},
      after.inner.inflight = shared.inner.inflight → after.channels = shared.channels →
        call.sender? = some flight → moved.sender? = none →
          FlightEffect shared call ⟨after.hangUp flight, moved, []⟩ := by
    intro after moved flight inflight channels sender ends
    refine .hangsUp (fun other => ?_) (fun key other => ?_) sender ends
    · rw [Shared.isOpen_hangUp, Shared.isOpen_congr channels]
    · rw [Shared.registered_hangUp, Shared.registered_congr inflight channels]
  cases call with
  | begin key => exact flightEffect_of_begin tidy taken
  | tryRefresh key flight board =>
      simp only [Call.go] at taken
      split at taken
      next =>
        rcases Option.some.inj taken with rfl
        exact same rfl rfl rfl rfl
      next =>
        rcases Option.some.inj taken with rfl
        exact same rfl rfl rfl rfl
  | tryTotal key flight board =>
      simp only [Call.go] at taken
      split at taken
      next =>
        rcases Option.some.inj taken with rfl
        exact .passes (fun _ => rfl) (fun _ _ => Iff.rfl) rfl rfl
      next =>
        rcases Option.some.inj taken with rfl
        exact same rfl rfl rfl rfl
  | storedAt key flight board =>
      rcases Option.some.inj taken with rfl
      exact same rfl rfl rfl rfl
  | enqueue key flight board storedAt =>
      simp only [Call.go] at taken
      split at taken
      next =>
        split at taken
        next =>
          rcases Option.some.inj taken with rfl
          exact .unregisters (fun _ => rfl)
            (fun _ _ => Shared.registered_of_erase rfl rfl) rfl rfl rfl
        next =>
          rcases Option.some.inj taken with rfl
          refine .hangsUp (fun other => ?_) (fun other flight' => ?_) rfl rfl
          · rw [Shared.isOpen_hangUp, Shared.isOpen_send]
            rfl
          · have erased : ({ shared with
                inner := (cache.enqueueRefresh shared.inner shared.nowMs
                  (cache.refreshBackoffMs millis) storedAt key).1 } : Shared Rows).Registered
                    other flight' ↔ shared.Registered other flight' ∧ other ≠ key :=
              Shared.registered_of_erase rfl rfl
            rw [Shared.registered_hangUp, Shared.registered_send, erased]
            -- The flight of the key is the one that is hung up.
            have led := (leading key flight rfl).1
            constructor
            · rintro ⟨⟨registered, -⟩, differs⟩
              exact ⟨registered, differs⟩
            · rintro ⟨registered, differs⟩
              refine ⟨⟨registered, fun same_key => ?_⟩, differs⟩
              rcases same_key with rfl
              exact differs (Option.some.inj (registered.1.symm.trans led))
      next => cases taken
  | skip flight board =>
      rcases Option.some.inj taken with rfl
      refine .hangsUp (fun other => ?_) (fun other flight' => ?_) rfl rfl
      · rw [Shared.isOpen_hangUp, Shared.isOpen_send]
      · rw [Shared.registered_hangUp, Shared.registered_send]
  | follow key flight =>
      simp only [Call.go] at taken
      split at taken
      next => cases taken
      next channel found =>
        split at taken
        next =>
          split at taken
          next =>
            rcases Option.some.inj taken with rfl
            exact same rfl rfl rfl rfl
          next => cases taken
        all_goals
          rcases Option.some.inj taken with rfl
          exact same rfl rfl rfl rfl
  | mustBlock key dead =>
      rcases Option.some.inj taken with rfl
      refine same rfl rfl ?_ ?_
      · split <;> rfl
      · split <;> rfl
  | stale key otherwise =>
      rcases Option.some.inj taken with rfl
      refine same rfl rfl ?_ ?_
      · split <;> rfl
      · split <;> rfl
  | acquire key flight =>
      simp only [Call.go] at taken
      split at taken
      next =>
        rcases Option.some.inj taken with rfl
        exact same rfl rfl rfl rfl
      next =>
        rcases Option.some.inj taken with rfl
        exact same rfl rfl rfl rfl
  | queued key flight =>
      rcases Option.map_eq_some_iff.mp taken with ⟨scans, collected, rfl⟩
      exact same rfl rfl rfl rfl
  | start key flight refresh =>
      simp only [Call.go] at taken
      split at taken
      next =>
        rcases Option.some.inj taken with rfl
        exact same rfl rfl rfl rfl
      next => cases taken
  | load key flight refresh startedMs started freshForMs =>
      rcases Option.some.inj taken with rfl
      refine .unregisters (fun _ => finishLead_isOpen cache)
        (fun _ _ => Shared.registered_of_erase (finishLead_inflight cache)
          (finishLead_isOpen cache)) rfl ?_ ?_
      · split <;> rfl
      · split <;> rfl
  | release flight outcome =>
      rcases Option.some.inj taken with rfl
      exact same rfl rfl rfl rfl
  | retryRefresh flight outcome =>
      simp only [Call.go] at taken
      split at taken
      next =>
        rcases Option.some.inj taken with rfl
        exact same rfl rfl rfl rfl
      next =>
        rcases Option.some.inj taken with rfl
        exact ends rfl rfl rfl rfl
  | retryTotal flight outcome =>
      simp only [Call.go] at taken
      split at taken
      next =>
        rcases Option.some.inj taken with rfl
        exact same rfl rfl rfl rfl
      next =>
        rcases Option.some.inj taken with rfl
        exact ends rfl rfl rfl rfl
  | handoff flight outcome => exact flightEffect_of_handoff tidy taken
  | returned outcome => cases taken
  | dropped => cases taken

theorem flightEffect_of_drop {advance : Advance (Shared Rows) (Call Rows Error)}
    (taken : call.drop shared = some advance) : FlightEffect shared call advance := by
  have ends : ∀ {after : Shared Rows} {flight : ℕ},
      after.inner.inflight = shared.inner.inflight → after.channels = shared.channels →
        call.sender? = some flight →
          FlightEffect shared call ⟨after.hangUp flight, .dropped, []⟩ := by
    intro after flight inflight channels sender
    refine .hangsUp (fun other => ?_) (fun key other => ?_) sender rfl
    · rw [Shared.isOpen_hangUp, Shared.isOpen_congr channels]
    · rw [Shared.registered_hangUp, Shared.registered_congr inflight channels]
  cases call with
  | follow key flight =>
      rcases Option.some.inj taken with rfl
      exact .keeps (fun _ => rfl) (fun _ _ => Iff.rfl) rfl rfl
  | queued key flight =>
      rcases Option.some.inj taken with rfl
      exact ends rfl rfl rfl
  | load key flight refresh startedMs started freshForMs =>
      rcases Option.some.inj taken with rfl
      exact ends rfl rfl rfl
  | _ => cases taken

theorem flightEffect_of_step {cache : LeaderboardCache Error} (tidy : shared.Tidy)
    (leading : ∀ key flight, call.leads? = some (key, flight) → shared.Registered key flight)
    {choice : Choice Rows Error} {advance : Advance (Shared Rows) (Call Rows Error)}
    (taken : call.step cache shared choice = some advance) : FlightEffect shared call advance := by
  cases choice with
  | go millis result => exact flightEffect_of_go tidy leading taken
  | drop => exact flightEffect_of_drop taken

/-! ## The register stays tidy -/

theorem makeWaitRoom_fewer (cache : LeaderboardCache Error) {waitKey other : WaitKey}
    {fuel : ℕ} {waiting : RefreshWait} {queued : QueuedRefresh}
    (found : (cache.makeWaitRoom waitKey fuel waiting).1.get? other = some queued) :
    waiting.get? other = some queued := by
  induction fuel generalizing waiting with
  | zero => exact found
  | succ fuel ih =>
      unfold LeaderboardCache.makeWaitRoom at found
      split at found
      next =>
        split at found
        next => exact found
        next freshest last =>
          split at found
          next => exact found
          next =>
            have left := ih found
            rw [Database.Ordered.get?_erase] at left
            split at left
            next => cases left
            next => exact left
      next => exact found

theorem enqueueRefresh_waits (cache : LeaderboardCache Error) {inner : Inner Rows}
    {now backoff storedAt : ℕ} {key : LeaderboardKey} {waitKey : WaitKey} {queued : QueuedRefresh}
    (found : (cache.enqueueRefresh inner now backoff storedAt key).1.refreshWait.get? waitKey =
      some queued) :
    inner.refreshWait.get? waitKey = some queued ∨ queued.key = key ∧ (ofLex waitKey).2 = key := by
  have fewer : ∀ {fuel : ℕ},
      (cache.makeWaitRoom (toLex (storedAt, key)) fuel
        (inner.refreshWait.deleteWhere fun other _ => (ofLex other).2 = key)).1.get? waitKey =
          some queued → inner.refreshWait.get? waitKey = some queued := by
    intro fuel there
    have left := makeWaitRoom_fewer cache there
    rw [Database.Ordered.get?_deleteWhere] at left
    exact (Option.filter_eq_some_iff.mp left).1
  simp only [LeaderboardCache.enqueueRefresh] at found
  split at found
  next =>
    rw [Database.Ordered.get?_upsert] at found
    split at found
    next same =>
      rcases Option.some.inj found with rfl
      rw [same]
      exact .inr ⟨rfl, rfl⟩
    next => exact .inl (fewer found)
  next => exact .inl (fewer found)

namespace Shared.Tidy

variable {after : Shared Rows}

theorem mono (tidy : shared.Tidy) (channels : shared.channels.length ≤ after.channels.length)
    (inflight : ∀ key flight, after.inner.inflight.lookup key = some flight →
      shared.inner.inflight.lookup key = some flight ∨ flight < after.channels.length)
    (waits : ∀ waitKey queued, after.inner.refreshWait.get? waitKey = some queued →
      shared.inner.refreshWait.get? waitKey = some queued ∨ queued.key = (ofLex waitKey).2) :
    after.Tidy := by
  refine ⟨fun key flight found => ?_, fun waitKey queued found => ?_⟩
  · rcases inflight key flight found with before | fits
    · exact Nat.lt_of_lt_of_le (tidy.inflight key flight before) channels
    · exact fits
  · rcases waits waitKey queued found with before | right
    · exact tidy.waits waitKey queued before
    · exact right

theorem congr (tidy : shared.Tidy) (channels : after.channels.length = shared.channels.length)
    (inflight : after.inner.inflight = shared.inner.inflight)
    (waits : after.inner.refreshWait = shared.inner.refreshWait) : after.Tidy :=
  tidy.mono (Nat.le_of_eq channels.symm) (fun _ _ found => .inl (inflight ▸ found))
    (fun _ _ found => .inl (waits ▸ found))

theorem erase (tidy : shared.Tidy) {key : LeaderboardKey}
    (channels : after.channels.length = shared.channels.length)
    (inflight : after.inner.inflight = shared.inner.inflight.erase key)
    (waits : ∀ waitKey queued, after.inner.refreshWait.get? waitKey = some queued →
      shared.inner.refreshWait.get? waitKey = some queued ∨ queued.key = (ofLex waitKey).2) :
    after.Tidy := by
  refine tidy.mono (Nat.le_of_eq channels.symm) (fun other flight found => ?_) waits
  rw [inflight, HashMap.lookup_erase'] at found
  split at found
  next => cases found
  next => exact .inl found

theorem openFlight (tidy : shared.Tidy) {key : LeaderboardKey} : (shared.openFlight key).Tidy := by
  have longer : (shared.openFlight key).channels.length = shared.channels.length + 1 := by
    simp [Shared.openFlight]
  refine tidy.mono (by omega) (fun other flight found => ?_) (fun _ _ found => .inl found)
  rw [Shared.lookup_openFlight] at found
  split at found
  next =>
    rcases Option.some.inj found with rfl
    exact .inr (by omega)
  next => exact .inl found

theorem hangUp (tidy : shared.Tidy) {flight : ℕ} : (shared.hangUp flight).Tidy :=
  tidy.congr (List.length_modify ..) rfl rfl

theorem send (tidy : shared.Tidy) {flight : ℕ} {state : FlightState Rows} :
    (shared.send flight state).Tidy :=
  tidy.congr (List.length_modify ..) rfl rfl

theorem beginLoad (tidy : shared.Tidy) (cache : LeaderboardCache Error) (key : LeaderboardKey) :
    (cache.beginLoad shared key).1.Tidy := by
  have effect := begin_effect cache shared key
  generalize cache.beginLoad shared key = begun at effect
  cases effect with
  | hits => exact tidy.discardDead.congr rfl touch_inflight touch_refreshWait
  | serves => exact tidy.discardDead
  | waits => exact tidy.discardDead
  | leads free touched =>
      rcases touched with rfl | rfl
      · exact tidy.discardDead.openFlight
      · exact tidy.discardDead.openFlight.congr rfl touch_inflight touch_refreshWait
  | refreshes free => exact tidy.discardDead.openFlight.congr rfl touch_inflight touch_refreshWait

theorem finishLead (tidy : shared.Tidy) (cache : LeaderboardCache Error) {key : LeaderboardKey}
    {flight startedMs freshForMs : ℕ} {started : ℤ} {result : Except Error Rows} :
    (cache.finishLead shared key flight startedMs started freshForMs result).1.Tidy := by
  refine tidy.erase ?_ (finishLead_inflight cache) (fun waitKey queued found => .inl ?_)
  · unfold LeaderboardCache.finishLead
    cases result with
    | ok rows => exact List.length_modify ..
    | error error =>
        simp only
        split <;> exact List.length_modify ..
  · unfold LeaderboardCache.finishLead at found
    cases result with
    | ok rows => simpa [Shared.send] using found
    | error error =>
        simp only at found
        split at found <;> exact found

theorem go (tidy : shared.Tidy) {cache : LeaderboardCache Error} {millis : ℕ}
    {result : Except Error Rows} {advance : Advance (Shared Rows) (Call Rows Error)}
    (taken : call.go cache shared millis result = some advance) : advance.shared.Tidy := by
  cases call with
  | begin key =>
      rcases Option.some.inj taken with rfl
      exact tidy.beginLoad cache key
  | tryRefresh key flight board =>
      simp only [Call.go] at taken
      split at taken <;> rcases Option.some.inj taken with rfl
      · exact tidy.congr rfl rfl rfl
      · exact tidy
  | tryTotal key flight board =>
      simp only [Call.go] at taken
      split at taken <;> rcases Option.some.inj taken with rfl
      · exact tidy.congr rfl rfl rfl
      · exact tidy.congr rfl rfl rfl
  | storedAt key flight board =>
      rcases Option.some.inj taken with rfl
      exact tidy
  | enqueue key flight board storedAt =>
      simp only [Call.go] at taken
      split at taken
      next =>
        have queued : ∀ {millis : ℕ} (waitKey : WaitKey) (queued : QueuedRefresh),
            (cache.enqueueRefresh shared.inner shared.nowMs (cache.refreshBackoffMs millis)
              storedAt key).1.refreshWait.get? waitKey = some queued →
            shared.inner.refreshWait.get? waitKey = some queued ∨
              queued.key = (ofLex waitKey).2 := by
          intro millis waitKey queued found
          rcases enqueueRefresh_waits cache found with before | ⟨right, at_key⟩
          · exact .inl before
          · exact .inr (right.trans at_key.symm)
        split at taken <;> rcases Option.some.inj taken with rfl
        · exact tidy.erase rfl rfl queued
        · refine tidy.erase ?_ rfl queued
          exact (List.length_modify ..).trans (List.length_modify ..)
      next => cases taken
  | skip flight board =>
      rcases Option.some.inj taken with rfl
      exact tidy.send.hangUp
  | follow key flight =>
      simp only [Call.go] at taken
      split at taken
      next => cases taken
      next =>
        split at taken
        next =>
          split at taken
          next =>
            rcases Option.some.inj taken with rfl
            exact tidy
          next => cases taken
        all_goals
          rcases Option.some.inj taken with rfl
          exact tidy
  | mustBlock key dead =>
      rcases Option.some.inj taken with rfl
      exact tidy
  | stale key otherwise =>
      rcases Option.some.inj taken with rfl
      exact tidy
  | acquire key flight =>
      simp only [Call.go] at taken
      split at taken <;> rcases Option.some.inj taken with rfl
      · exact tidy.congr rfl rfl rfl
      · exact tidy.congr rfl rfl rfl
  | queued key flight =>
      rcases Option.map_eq_some_iff.mp taken with ⟨scans, collected, rfl⟩
      exact tidy.congr rfl rfl rfl
  | start key flight refresh =>
      simp only [Call.go] at taken
      split at taken
      next =>
        rcases Option.some.inj taken with rfl
        exact tidy
      next => cases taken
  | load key flight refresh startedMs started freshForMs =>
      rcases Option.some.inj taken with rfl
      exact tidy.finishLead cache
  | release flight outcome =>
      rcases Option.some.inj taken with rfl
      exact tidy.congr rfl rfl rfl
  | retryRefresh flight outcome =>
      simp only [Call.go] at taken
      split at taken <;> rcases Option.some.inj taken with rfl
      · exact tidy.congr rfl rfl rfl
      · exact tidy.hangUp
  | retryTotal flight outcome =>
      simp only [Call.go] at taken
      split at taken <;> rcases Option.some.inj taken with rfl
      · exact tidy.congr rfl rfl rfl
      · have kept : Shared.Tidy { shared with refreshScans := shared.refreshScans + 1 } :=
          tidy.congr rfl rfl rfl
        exact kept.hangUp
  | handoff flight outcome =>
      have effect := handoff_effect shared (shared.inner.refreshWait.rows.map Prod.fst)
      simp only [Call.go] at taken
      generalize handoff shared (shared.inner.refreshWait.rows.map Prod.fst) = found
        at effect taken
      cases effect with
      | nothing refreshWait length fewer =>
          rcases Option.some.inj taken with rfl
          have kept : ((shared.waiting refreshWait).dropPermit true).Tidy :=
            tidy.mono (Nat.le_refl _) (fun _ _ found => .inl found) fun waitKey queued later =>
              .inl (fewer waitKey queued later)
          exact kept.hangUp
      | launches refreshWait length fewer found free =>
          rcases Option.some.inj taken with rfl
          have kept : (shared.waiting refreshWait).Tidy :=
            tidy.mono (Nat.le_refl _) (fun _ _ found => .inl found) fun waitKey queued later =>
              .inl (fewer waitKey queued later)
          exact kept.openFlight.hangUp
  | returned outcome => cases taken
  | dropped => cases taken

theorem drop (tidy : shared.Tidy) {advance : Advance (Shared Rows) (Call Rows Error)}
    (taken : call.drop shared = some advance) : advance.shared.Tidy := by
  cases call with
  | follow key flight =>
      rcases Option.some.inj taken with rfl
      exact tidy
  | queued key flight =>
      rcases Option.some.inj taken with rfl
      have kept : Shared.Tidy { shared with scans := shared.scans.leave flight } :=
        tidy.congr rfl rfl rfl
      exact kept.hangUp
  | load key flight refresh startedMs started freshForMs =>
      rcases Option.some.inj taken with rfl
      have kept : (shared.dropPermit refresh).Tidy := tidy.congr rfl rfl rfl
      exact kept.hangUp
  | _ => cases taken

end Shared.Tidy

end ScuffedCrew.Leaderboard
