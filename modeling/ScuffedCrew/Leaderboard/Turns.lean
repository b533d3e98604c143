import ScuffedCrew.Leaderboard.Entries
import ScuffedCrew.StateMachine.Progress

/-!
# Turns run out

Where no request arrives the calls do not go on for ever.  A call waits for a
flight that is not answered, and each flight that is opened takes from what the
calls and the waiting keys can still open; between two such steps every turn
brings its call nearer to its end.
-/

namespace ScuffedCrew.Leaderboard

open Rust StateMachine

variable {Rows Error : Type}

def FlightState.isPending : FlightState Rows → Bool
  | .pending => true
  | _ => false

/-- The flight has no answer, and its sender is there to give it one. -/
def Channel.isLive (channel : Channel Rows) : Bool := !channel.closed && channel.state.isPending

namespace Shared

variable {shared after : Shared Rows} {flight other : ℕ}

def isLive (shared : Shared Rows) (flight : ℕ) : Bool := shared.channels[flight]?.any Channel.isLive

/-- The flights that are not answered. -/
def live (shared : Shared Rows) : ℕ := shared.channels.countP Channel.isLive

theorem isOpen_of_isLive (live : shared.isLive flight) : shared.isOpen flight := by
  simp only [isLive, Option.any_eq_true] at live
  rcases live with ⟨channel, found, live⟩
  simp only [Channel.isLive, Bool.and_eq_true] at live
  simp [isOpen, found, live.1]

theorem isLive_congr (channels : after.channels = shared.channels) :
    after.isLive flight = shared.isLive flight := by
  simp only [isLive, channels]

theorem live_congr (channels : after.channels = shared.channels) : after.live = shared.live := by
  simp only [live, channels]

/-- Another channel, with a sender and no answer. -/
theorem isLive_append (channels : after.channels = shared.channels ++ [⟨.pending, false⟩]) :
    after.isLive flight = (shared.isLive flight || decide (flight = shared.channels.length)) := by
  simp only [isLive, channels]
  rcases Nat.lt_trichotomy flight shared.channels.length with before | rfl | later
  · rw [List.getElem?_append_left before]
    simp [Nat.ne_of_lt before]
  · simp [Channel.isLive, FlightState.isPending]
  · rw [List.getElem?_eq_none (by simp; omega), List.getElem?_eq_none (by omega)]
    simp [Nat.ne_of_gt later]

theorem live_append (channels : after.channels = shared.channels ++ [⟨.pending, false⟩]) :
    after.live = shared.live + 1 := by
  simp [live, channels, Channel.isLive, FlightState.isPending]

variable {change : Channel Rows → Channel Rows}

/-- A flight that is answered, or whose sender is gone, is not live; the others are as they were. -/
theorem isLive_modify (channels : after.channels = shared.channels.modify other change)
    (ends : ∀ channel, (change channel).isLive = false) :
    after.isLive flight = (shared.isLive flight && decide (flight ≠ other)) := by
  simp only [isLive, channels, List.getElem?_modify]
  by_cases same : other = flight
  · rcases same with rfl
    cases shared.channels[other]? <;> simp [ends]
  · cases shared.channels[flight]? <;> simp [same, Ne.symm same]

theorem countP_isLive_modify (flights : List (Channel Rows))
    (ends : ∀ channel, (change channel).isLive = false) :
    (flights.modify other change).countP Channel.isLive +
        (if flights[other]?.any Channel.isLive then 1 else 0) =
      flights.countP Channel.isLive := by
  induction flights generalizing other with
  | nil => simp
  | cons first rest ih =>
      cases other with
      | zero => cases live : first.isLive <;> simp [ends, live]
      | succ other =>
          have later := @ih other
          simp only [List.modify_succ_cons, List.countP_cons, List.getElem?_cons_succ]
          omega

theorem live_modify (channels : after.channels = shared.channels.modify other change)
    (ends : ∀ channel, (change channel).isLive = false) :
    after.live + (if shared.isLive other then 1 else 0) = shared.live := by
  simp only [live, isLive, channels]
  exact countP_isLive_modify shared.channels ends

end Shared

namespace Call

/-- The flights the call may still bring about: its own, and one for a refresh left waiting. -/
def chances : Call Rows Error → ℕ
  | begin _ | follow _ _ | mustBlock _ _ | stale _ _ => 2
  | tryRefresh _ _ _ | tryTotal _ _ _ | storedAt _ _ _ | enqueue _ _ _ _ => 1
  | _ => 0

/-- The turns the call may take before a flight is opened or answered. -/
def weight (shared : Shared Rows) : Call Rows Error → ℕ
  | follow _ flight => if shared.isLive flight then 1 else 5
  | tryRefresh _ _ _ | release _ _ => 5
  | mustBlock _ _ | tryTotal _ _ _ | acquire _ _ | retryRefresh _ _ => 4
  | stale _ _ | storedAt _ _ _ | queued _ _ | retryTotal _ _ => 3
  | begin _ | enqueue _ _ _ _ | start _ _ _ | handoff _ _ => 2
  | skip _ _ | load _ _ _ _ _ _ => 1
  | returned _ | dropped => 0

theorem weight_le (shared : Shared Rows) (call : Call Rows Error) : call.weight shared ≤ 5 := by
  cases call with
  | follow key flight =>
      simp only [weight]
      split <;> omega
  | _ => simp [weight]

theorem weight_congr {shared after : Shared Rows}
    (live : ∀ flight, after.isLive flight = shared.isLive flight) (call : Call Rows Error) :
    call.weight after = call.weight shared := by
  cases call with
  | follow key flight => simp only [weight, live]
  | _ => rfl

end Call

/-- The keys that wait for a refresh slot. -/
def Shared.waiters (shared : Shared Rows) : ℕ := shared.inner.refreshWait.rows.length

/-- What one turn does to the flights, and to what may come of them. -/
inductive Turn (shared : Shared Rows) (call : Call Rows Error) :
    Advance (Shared Rows) (Call Rows Error) → Prop
  | goesOn {after : Shared Rows} {moved : Call Rows Error}
      (channels : after.channels = shared.channels)
      (chances : moved.chances + after.waiters ≤ call.chances + shared.waiters)
      (lighter : moved.weight shared < call.weight shared) : Turn shared call ⟨after, moved, []⟩
  | spends {after : Shared Rows} {moved : Call Rows Error} {spawned : List (Call Rows Error)}
      (channels : after.channels = shared.channels) (ended : moved.chances = 0)
      (idle : ∀ other ∈ spawned, other.chances = 0)
      (chances : spawned.length + after.waiters ≤ call.chances + shared.waiters)
      (fewer : after.waiters < call.chances + shared.waiters) :
      Turn shared call ⟨after, moved, spawned⟩
  | opens {after : Shared Rows} {moved : Call Rows Error}
      (channels : after.channels = shared.channels ++ [⟨.pending, false⟩])
      (waiters : after.waiters = shared.waiters) (led : moved.chances < call.chances)
      (leads : moved.chances < 2) : Turn shared call ⟨after, moved, []⟩
  | answers {after : Shared Rows} {moved : Call Rows Error} {flight : ℕ}
      {change : Channel Rows → Channel Rows}
      (channels : after.channels = shared.channels.modify flight change)
      (ends : ∀ channel, (change channel).isLive = false)
      (gone : ∀ key, ¬after.Registered key flight) (ended : moved.chances = 0)
      (waiters : after.waiters ≤ call.chances + shared.waiters)
      (lighter : shared.isLive flight ∨ moved.weight shared < call.weight shared) :
      Turn shared call ⟨after, moved, []⟩
  | hands {after opened : Shared Rows} {moved started : Call Rows Error} {flight : ℕ}
      {change : Channel Rows → Channel Rows}
      (channels : opened.channels = shared.channels ++ [⟨.pending, false⟩])
      (modified : after.channels = opened.channels.modify flight change)
      (ends : ∀ channel, (change channel).isLive = false)
      (gone : ∀ key, ¬after.Registered key flight) (ended : moved.chances = 0)
      (idle : started.chances = 0) (fewer : after.waiters < shared.waiters) :
      Turn shared call ⟨after, moved, [started]⟩

/-- Every flight in the register is one that will be answered. -/
def Shared.Unanswered (shared : Shared Rows) : Prop :=
  ∀ key flight, shared.Registered key flight → shared.isLive flight

variable {cache : LeaderboardCache Error} {shared after : Shared Rows}
  {call moved : Call Rows Error}

/-- The locked section of `lead` answers the flight, whatever the load gave. -/
theorem finishLead_sends (cache : LeaderboardCache Error) (shared : Shared Rows)
    (key : LeaderboardKey) (flight startedMs freshForMs : ℕ) (started : ℤ) (result : Except Error Rows) :
    ∃ state : FlightState Rows, state.isPending = false ∧
      (cache.finishLead shared key flight startedMs started freshForMs result).1.channels =
        shared.channels.modify flight fun channel => { channel with state } := by
  unfold LeaderboardCache.finishLead
  cases result with
  | ok rows => exact ⟨.ready ⟨rows, started⟩, rfl, rfl⟩
  | error error =>
      simp only
      split
      · exact ⟨.failed .unavailable, rfl, rfl⟩
      · exact ⟨.failed .rejected, rfl, rfl⟩

theorem finishLead_waiters (cache : LeaderboardCache Error) (shared : Shared Rows)
    (key : LeaderboardKey) (flight startedMs freshForMs : ℕ) (started : ℤ)
    (result : Except Error Rows) :
    (cache.finishLead shared key flight startedMs started freshForMs result).1.waiters =
      shared.waiters := by
  unfold LeaderboardCache.finishLead Shared.waiters
  cases result with
  | ok rows => simp [Shared.send]
  | error error =>
      simp only
      split <;> rfl

theorem makeWaitRoom_length_le (waitKey : WaitKey) (fuel : ℕ) (waiting : RefreshWait) :
    (cache.makeWaitRoom waitKey fuel waiting).1.rows.length ≤ waiting.rows.length := by
  induction fuel generalizing waiting with
  | zero => exact Nat.le_refl _
  | succ fuel ih =>
      unfold LeaderboardCache.makeWaitRoom
      split
      next =>
        split
        next => exact Nat.le_refl _
        next freshest last =>
          split
          next => exact Nat.le_refl _
          next => exact (ih _).trans (List.length_filter_le _ _)
      next => exact Nat.le_refl _

/-- `enqueue_refresh` adds at most the key itself to those that wait. -/
theorem enqueueRefresh_length_le (inner : Inner Rows) (now backoff storedAt : ℕ)
    (key : LeaderboardKey) :
    (cache.enqueueRefresh inner now backoff storedAt key).1.refreshWait.rows.length ≤
        inner.refreshWait.rows.length + 1 ∧
      ((cache.enqueueRefresh inner now backoff storedAt key).2 = false →
        (cache.enqueueRefresh inner now backoff storedAt key).1.refreshWait.rows.length ≤
          inner.refreshWait.rows.length) := by
  have room : ∀ fuel, (cache.makeWaitRoom (toLex (storedAt, key)) fuel
      (inner.refreshWait.deleteWhere fun other _ => (ofLex other).2 = key)).1.rows.length ≤
        inner.refreshWait.rows.length :=
    fun fuel => (makeWaitRoom_length_le _ fuel _).trans (List.length_filter_le _ _)
  constructor
  · simp only [LeaderboardCache.enqueueRefresh]
    split
    · apply Database.Ordered.length_upsert_le.trans
      exact Nat.succ_le_succ (room _)
    · exact (room _).trans (Nat.le_succ _)
  · intro unqueued
    simp only [LeaderboardCache.enqueueRefresh] at unqueued ⊢
    split
    next queued => cases unqueued.symm.trans queued
    next => exact room _

/-- The sender of the flight is dropped at the end of the call. -/
theorem turn_of_hangUp {before : Shared Rows} {flight : ℕ} {change : Channel Rows → Channel Rows}
    (channels : before.channels = shared.channels.modify flight change)
    (ended : moved.chances = 0) (waiters : before.waiters ≤ call.chances + shared.waiters)
    (lighter : moved.weight shared < call.weight shared) :
    Turn shared call ⟨before.hangUp flight, moved, []⟩ := by
  refine @Turn.answers _ _ _ _ _ _ flight
    (fun channel => { change channel with closed := true }) ?_ (fun channel => rfl) ?_ ended
    waiters (.inr lighter)
  · simp only [Shared.hangUp, channels, List.modify_modify_eq]
    rfl
  · intro key registered
    have opened := registered.2
    simp at opened

theorem turn_of_begin {key : LeaderboardKey} (unanswered : shared.Unanswered) {millis : ℕ}
    {result : Except Error Rows} {advance : Advance (Shared Rows) (Call Rows Error)}
    (taken : (Call.begin key).go cache shared millis result = some advance) :
    Turn shared (.begin key) advance := by
  have effect := begin_effect cache shared key
  simp only [Call.go, Option.some.injEq] at taken
  rcases taken with rfl
  generalize cache.beginLoad shared key = begun at effect
  have waiters : (shared.discardDead key).waiters = shared.waiters := by
    unfold Shared.discardDead
    split
    · split <;> rfl
    · rfl
  have touched : ∀ before : Shared Rows, (before.touch key).waiters = before.waiters := by
    intro before
    simp [Shared.waiters, Shared.touch]
  have opened : ((shared.discardDead key).openFlight key).channels =
      shared.channels ++ [⟨.pending, false⟩] := by
    simp [Shared.openFlight]
  cases effect with
  | hits =>
      refine .spends Shared.discardDead_channels rfl (by simp) ?_ ?_
      · simp [touched, waiters]
      · simp [Call.chances, touched, waiters]
  | serves =>
      refine .spends Shared.discardDead_channels rfl (by simp) ?_ ?_
      · simp [waiters]
      · simp [Call.chances, waiters]
  | waits registered =>
      refine .goesOn Shared.discardDead_channels ?_ ?_
      · simp [Call.chances, waiters]
      · simp [Call.weight, unanswered key _ registered]
  | leads free opens =>
      rcases opens with rfl | rfl
      · exact .opens opened waiters (by simp [Call.chances]) (by simp [Call.chances])
      · exact .opens opened ((touched _).trans waiters) (by simp [Call.chances])
          (by simp [Call.chances])
  | refreshes free =>
      exact .opens opened ((touched _).trans waiters) (by simp [Call.chances])
        (by simp [Call.chances])

theorem turn_of_go (owns : Owns shared call) (unanswered : shared.Unanswered) {millis : ℕ}
    {result : Except Error Rows} {advance : Advance (Shared Rows) (Call Rows Error)}
    (taken : call.go cache shared millis result = some advance) : Turn shared call advance := by
  cases call with
  | begin key => exact turn_of_begin unanswered taken
  | tryRefresh key flight board =>
      simp only [Call.go] at taken
      split at taken <;> rcases Option.some.inj taken with rfl
      · exact .goesOn rfl (Nat.le_refl _) (by simp [Call.weight])
      · exact .goesOn rfl (Nat.le_refl _) (by simp [Call.weight])
  | tryTotal key flight board =>
      simp only [Call.go] at taken
      split at taken <;> rcases Option.some.inj taken with rfl
      next scans acquired =>
        refine .spends rfl rfl (by simp [Call.chances]) ?_ ?_
        · simp [Call.chances, Shared.waiters]
        · simp [Call.chances, Shared.waiters]
      next => exact .goesOn rfl (Nat.le_refl _) (by simp [Call.weight])
  | storedAt key flight board =>
      rcases Option.some.inj taken with rfl
      exact .goesOn rfl (Nat.le_refl _) (by simp [Call.weight])
  | enqueue key flight board storedAt =>
      simp only [Call.go] at taken
      split at taken
      next =>
        have lengths := @enqueueRefresh_length_le _ _ cache shared.inner shared.nowMs
          (cache.refreshBackoffMs millis) storedAt key
        split at taken <;> rcases Option.some.inj taken with rfl
        next queued =>
          refine .goesOn rfl ?_ (by simp [Call.weight])
          simp only [Call.chances, Shared.waiters]
          omega
        next unqueued =>
          refine turn_of_hangUp rfl rfl ?_ (by simp [Call.weight])
          have fewer := lengths.2 (by simpa using unqueued)
          simp only [Call.chances, Shared.waiters, Shared.send]
          omega
      next => cases taken
  | skip flight board =>
      rcases Option.some.inj taken with rfl
      exact turn_of_hangUp rfl rfl (Nat.le_add_left ..) (by simp [Call.weight])
  | follow key flight =>
      simp only [Call.go] at taken
      split at taken
      next => cases taken
      next channel found =>
        have dead : channel.isLive = false →
            (Call.follow key flight : Call Rows Error).weight shared = 5 := by
          intro dead
          simp [Call.weight, Shared.isLive, found, dead]
        split at taken
        next pending =>
          split at taken
          next closed =>
            rcases Option.some.inj taken with rfl
            refine .goesOn rfl (Nat.le_refl _) ?_
            rw [dead (by simp [Channel.isLive, closed])]
            simp [Call.weight]
          next => cases taken
        next board ready =>
          rcases Option.some.inj taken with rfl
          exact .spends rfl rfl (by simp) (by simp) (by simp [Call.chances])
        next rejected =>
          rcases Option.some.inj taken with rfl
          exact .spends rfl rfl (by simp) (by simp) (by simp [Call.chances])
        next failed =>
          rcases Option.some.inj taken with rfl
          refine .goesOn rfl (Nat.le_refl _) ?_
          rw [dead (by simp [Channel.isLive, failed, FlightState.isPending])]
          simp [Call.weight]
        next skipped =>
          rcases Option.some.inj taken with rfl
          refine .goesOn rfl (Nat.le_refl _) ?_
          rw [dead (by simp [Channel.isLive, skipped, FlightState.isPending])]
          simp [Call.weight]
  | mustBlock key dead =>
      rcases Option.some.inj taken with rfl
      refine .goesOn rfl ?_ ?_
      · split <;> exact Nat.le_refl _
      · split <;> simp [Call.weight]
  | stale key otherwise =>
      simp only [Call.go] at taken
      split at taken <;> rcases Option.some.inj taken with rfl
      · exact .spends rfl rfl (by simp) (by simp) (by simp [Call.chances])
      · exact .spends rfl rfl (by simp) (by simp) (by simp [Call.chances])
      · exact .goesOn rfl (Nat.le_refl _) (by simp [Call.weight])
  | acquire key flight =>
      simp only [Call.go] at taken
      split at taken <;> rcases Option.some.inj taken with rfl
      · exact .goesOn rfl (Nat.le_refl _) (by simp [Call.weight])
      · exact .goesOn rfl (Nat.le_refl _) (by simp [Call.weight])
  | queued key flight =>
      rcases Option.map_eq_some_iff.mp taken with ⟨scans, collected, rfl⟩
      exact .goesOn rfl (Nat.le_refl _) (by simp [Call.weight])
  | start key flight refresh =>
      simp only [Call.go] at taken
      split at taken
      next =>
        rcases Option.some.inj taken with rfl
        exact .goesOn rfl (Nat.le_refl _) (by simp [Call.weight])
      next => cases taken
  | load key flight refresh startedMs started freshForMs =>
      rcases Option.some.inj taken with rfl
      have led : shared.Registered key flight := owns.leading key flight rfl
      rcases finishLead_sends cache shared key flight startedMs freshForMs started result
        with ⟨state, answers, sent⟩
      refine .answers sent (fun channel => by simp [Channel.isLive, answers]) ?_ ?_ ?_
        (.inl (unanswered key flight led))
      · rintro other registered
        rcases (Shared.registered_of_erase (finishLead_inflight cache)
          (finishLead_isOpen cache)).mp registered with ⟨before, differs⟩
        have same := owns.only other flight rfl before
        exact differs (Prod.mk.inj (Option.some.inj same)).1.symm
      · split <;> rfl
      · rw [finishLead_waiters]
        exact Nat.le_add_left ..
  | release flight outcome =>
      rcases Option.some.inj taken with rfl
      exact .goesOn rfl (Nat.le_refl _) (by simp [Call.weight])
  | retryRefresh flight outcome =>
      simp only [Call.go] at taken
      split at taken <;> rcases Option.some.inj taken with rfl
      · exact .goesOn rfl (Nat.le_refl _) (by simp [Call.weight])
      · exact turn_of_hangUp (List.modify_id ..).symm rfl (Nat.le_add_left ..)
          (by simp [Call.weight])
  | retryTotal flight outcome =>
      simp only [Call.go] at taken
      split at taken <;> rcases Option.some.inj taken with rfl
      · exact .goesOn rfl (Nat.le_refl _) (by simp [Call.weight])
      · exact turn_of_hangUp (List.modify_id ..).symm rfl (Nat.le_add_left ..)
          (by simp [Call.weight])
  | handoff flight outcome =>
      have effect := handoff_effect shared (shared.inner.refreshWait.rows.map Prod.fst)
      simp only [Call.go] at taken
      generalize handoff shared (shared.inner.refreshWait.rows.map Prod.fst) = found
        at effect taken
      cases effect with
      | nothing refreshWait length fewer =>
          rcases Option.some.inj taken with rfl
          exact turn_of_hangUp (List.modify_id ..).symm rfl (length.trans (Nat.le_add_left ..))
            (by simp [Call.weight])
      | launches refreshWait length fewer found free =>
          rcases Option.some.inj taken with rfl
          refine @Turn.hands _ _ _ _ _ ((shared.waiting refreshWait).openFlight _) _ _ flight
            (fun channel => { channel with closed := true }) rfl rfl (fun channel => rfl) ?_ rfl rfl
            length
          intro key registered
          have opened := registered.2
          simp at opened
  | returned outcome => cases taken
  | dropped => cases taken

theorem turn_of_drop {advance : Advance (Shared Rows) (Call Rows Error)}
    (taken : call.drop shared = some advance) : Turn shared call advance := by
  cases call with
  | follow key flight =>
      rcases Option.some.inj taken with rfl
      exact .spends rfl rfl (by simp) (by simp) (by simp [Call.chances])
  | queued key flight =>
      rcases Option.some.inj taken with rfl
      exact turn_of_hangUp (List.modify_id ..).symm rfl (Nat.le_add_left ..) (by simp [Call.weight])
  | load key flight refresh startedMs started freshForMs =>
      rcases Option.some.inj taken with rfl
      exact turn_of_hangUp (List.modify_id ..).symm rfl (Nat.le_add_left ..) (by simp [Call.weight])
  | _ => cases taken

theorem turn_of_step (owns : Owns shared call) (unanswered : shared.Unanswered)
    {choice : Choice Rows Error} {advance : Advance (Shared Rows) (Call Rows Error)}
    (taken : call.step cache shared choice = some advance) : Turn shared call advance := by
  cases choice with
  | go millis result => exact turn_of_go owns unanswered taken
  | drop => exact turn_of_drop taken

theorem Turn.follows {key : LeaderboardKey} {flight : ℕ} {spawned : List (Call Rows Error)}
    (turn : Turn shared call ⟨after, .follow key flight, spawned⟩) : shared.isLive flight := by
  cases turn with
  | goesOn channels chances lighter =>
      by_contra dead
      have heavy : (Call.follow key flight : Call Rows Error).weight shared = 5 := by
        simp [Call.weight, dead]
      have bounded := call.weight_le shared
      omega
  | spends channels ended => cases ended
  | opens channels waiters led leads => simp [Call.chances] at leads
  | answers channels ends gone ended => cases ended
  | hands channels modified ends gone ended => cases ended

theorem Turn.idle_of_spawned {spawned : List (Call Rows Error)}
    (turn : Turn shared call ⟨after, moved, spawned⟩) : ∀ other ∈ spawned, other.chances = 0 := by
  cases turn with
  | spends channels ended idle => exact idle
  | hands channels modified ends gone ended idle => simpa using idle
  | _ => simp

theorem Turn.longer {advance : Advance (Shared Rows) (Call Rows Error)}
    (turn : Turn shared call advance) :
    shared.channels.length ≤ advance.shared.channels.length := by
  cases turn with
  | goesOn channels => exact Nat.le_of_eq (congrArg List.length channels.symm)
  | spends channels => exact Nat.le_of_eq (congrArg List.length channels.symm)
  | opens channels => simp [channels]
  | answers channels => simp [channels]
  | hands channels modified => simp [modified, channels]

theorem registered_before {advance : Advance (Shared Rows) (Call Rows Error)}
    (effect : FlightEffect shared call advance) {key : LeaderboardKey} {flight : ℕ}
    (registered : advance.shared.Registered key flight) :
    shared.Registered key flight ∨ flight = shared.channels.length := by
  cases effect with
  | keeps _ same => exact .inl ((same key flight).mp registered)
  | opens _ _ _ more =>
      rcases (more key flight).mp registered with before | ⟨-, new⟩
      · exact .inl before
      · exact .inr new
  | passes _ same => exact .inl ((same key flight).mp registered)
  | unregisters _ fewer => exact .inl ((fewer key flight).mp registered).1
  | hangsUp _ fewer => exact .inl ((fewer key flight).mp registered).1
  | hands _ _ more =>
      rcases ((more key flight).mp registered).1 with before | ⟨-, new⟩
      · exact .inl before
      · exact .inr new

theorem Shared.Unanswered.moves {advance : Advance (Shared Rows) (Call Rows Error)}
    (unanswered : shared.Unanswered) (turn : Turn shared call advance)
    (effect : FlightEffect shared call advance) : advance.shared.Unanswered := by
  intro key flight registered
  have inside := Shared.lt_of_isOpen registered.2
  have before := registered_before effect registered
  cases turn with
  | goesOn channels chances lighter =>
      rw [Shared.isLive_congr channels]
      rcases before with led | new
      · exact unanswered key flight led
      · rw [channels] at inside
        omega
  | spends channels =>
      rw [Shared.isLive_congr channels]
      rcases before with led | new
      · exact unanswered key flight led
      · rw [channels] at inside
        omega
  | opens channels =>
      rw [Shared.isLive_append channels]
      rcases before with led | new
      · simp [unanswered key flight led]
      · simp [new]
  | @answers after moved other change channels ends gone =>
      have differs : flight ≠ other := by
        rintro rfl
        exact gone key registered
      rw [Shared.isLive_modify channels ends]
      rcases before with led | new
      · simp [unanswered key flight led, differs]
      · simp only [channels, List.length_modify] at inside
        omega
  | @hands after opened moved started other change channels modified ends gone =>
      have differs : flight ≠ other := by
        rintro rfl
        exact gone key registered
      rw [Shared.isLive_modify modified ends, Shared.isLive_append channels]
      rcases before with led | new
      · simp [unanswered key flight led, differs]
      · simp [new, new ▸ differs]

/-! ## Every state reached -/

/-- The books and the boards, with the flights that requests wait for. -/
structure Sound (cache : LeaderboardCache Error) (pool : Pool (Shared Rows) (Call Rows Error)) :
    Prop extends Accounts cache pool, Boards cache pool where
  unanswered : pool.shared.Unanswered
  followed : ∀ key flight, Call.follow key flight ∈ pool.processes →
    flight < pool.shared.channels.length

variable {pool later : Pool (Shared Rows) (Call Rows Error)}
  {event : TaskEvent LeaderboardKey (Choice Rows Error) Tick}

theorem sound_fresh {nowMs : ℕ} {wall : ℤ} :
    Sound cache (cache.fresh nowMs wall : Pool (Shared Rows) (Call Rows Error)) where
  toAccounts := accounts_fresh
  toBoards := boards_fresh
  unanswered _ _ registered := by cases registered.1
  followed _ _ call_mem := by cases call_mem

theorem Sound.turn (sound : Sound cache pool) {index : ℕ} {choice : Choice Rows Error}
    {advance : Advance (Shared Rows) (Call Rows Error)}
    (found : pool.processes[index]? = some call)
    (taken : call.step cache pool.shared choice = some advance) : Turn pool.shared call advance :=
  turn_of_step (owns_of_balanced sound.balanced found) sound.unanswered taken

theorem Sound.next (sound : Sound cache pool)
    (step : (requests cache).machine.next pool event = some later) : Sound cache later := by
  refine ⟨sound.toAccounts.next step, sound.toBoards.next sound.toInFlight step, ?_, ?_⟩
  · cases Tasks.effect_of_next step with
    | arrives => exact sound.unanswered
    | changes => exact sound.unanswered
    | moves found taken =>
        have owns := owns_of_balanced sound.balanced found
        exact sound.unanswered.moves (sound.turn found taken)
          (flightEffect_of_step sound.tidy owns.leading taken)
  · cases Tasks.effect_of_next step with
    | arrives arrival =>
        intro key flight call_mem
        rcases List.mem_append.mp call_mem with before | new
        · exact sound.followed key flight before
        · cases List.mem_singleton.mp new
    | changes => exact sound.followed
    | @moves index call choice advance found taken =>
        have turn := sound.turn found taken
        intro key flight call_mem
        rcases List.mem_append.mp call_mem with among | new
        · rcases List.mem_or_eq_of_mem_set among with before | same
          · exact (sound.followed key flight before).trans_le turn.longer
          · rcases advance with ⟨after, moved, spawned⟩
            rcases same with rfl
            have opened := Shared.isOpen_of_isLive turn.follows
            exact (Shared.lt_of_isOpen opened).trans_le turn.longer
        · cases turn.idle_of_spawned _ new

/-! ## The turns that are left -/

/-- The flights that may still be opened. -/
def expectedFlights (pool : Pool (Shared Rows) (Call Rows Error)) : ℕ :=
  (pool.processes.map Call.chances).sum + pool.shared.waiters

/-- What is still to come of the flights: their openings and their answers. -/
def unsettledFlights (pool : Pool (Shared Rows) (Call Rows Error)) : ℕ :=
  2 * expectedFlights pool + pool.shared.live

/-- The calls there are, and those that may still be started. -/
def callsAtMost (pool : Pool (Shared Rows) (Call Rows Error)) : ℕ :=
  pool.processes.length + expectedFlights pool

def stepsLeft (pool : Pool (Shared Rows) (Call Rows Error)) : ℕ :=
  (pool.processes.map (Call.weight pool.shared)).sum

/-- The most turns the calls can take before the next request arrives. -/
def turnsLeft (pool : Pool (Shared Rows) (Call Rows Error)) : ℕ :=
  unsettledFlights pool * (5 * callsAtMost pool + 1) + stepsLeft pool

theorem stepsLeft_le (pool : Pool (Shared Rows) (Call Rows Error)) :
    stepsLeft pool ≤ 5 * pool.processes.length := by
  have each := List.sum_le_card_nsmul (pool.processes.map (Call.weight pool.shared)) 5 (by
    intro weight weight_mem
    rcases List.mem_map.mp weight_mem with ⟨call, -, rfl⟩
    exact call.weight_le pool.shared)
  simpa [stepsLeft, Nat.mul_comm] using each

theorem turnsLeft_lt_of (smaller : callsAtMost later ≤ callsAtMost pool)
    (lower : unsettledFlights later < unsettledFlights pool ∨
      unsettledFlights later ≤ unsettledFlights pool ∧ stepsLeft later < stepsLeft pool) :
    turnsLeft later < turnsLeft pool := by
  have narrower : 5 * callsAtMost later + 1 ≤ 5 * callsAtMost pool + 1 := by omega
  have few : stepsLeft later ≤ 5 * callsAtMost pool := by
    have each := stepsLeft_le later
    simp only [callsAtMost] at smaller ⊢
    omega
  unfold turnsLeft
  rcases lower with fewer | ⟨same, fewer⟩
  · calc unsettledFlights later * (5 * callsAtMost later + 1) + stepsLeft later
        < (unsettledFlights later + 1) * (5 * callsAtMost pool + 1) := by
          rw [Nat.add_mul, Nat.one_mul]
          have scaled := Nat.mul_le_mul_left (unsettledFlights later) narrower
          omega
      _ ≤ unsettledFlights pool * (5 * callsAtMost pool + 1) := Nat.mul_le_mul_right _ fewer
      _ ≤ unsettledFlights pool * (5 * callsAtMost pool + 1) + stepsLeft pool :=
          Nat.le_add_right _ _
  · exact Nat.add_lt_add_of_le_of_lt (Nat.mul_le_mul same narrower) fewer

/-- A turn leaves fewer of them. -/
theorem Turn.lowers {index : ℕ} {advance : Advance (Shared Rows) (Call Rows Error)}
    (found : pool.processes[index]? = some call) (turn : Turn pool.shared call advance) :
    turnsLeft ⟨advance.shared, pool.processes.set index advance.process ++ advance.spawned⟩ <
      turnsLeft pool := by
  have before : expectedFlights pool =
      (pool.processes.map Call.chances).sum + pool.shared.waiters := rfl
  have chances : ∀ {after : Shared Rows} {moved : Call Rows Error}
      {spawned : List (Call Rows Error)}, (∀ other ∈ spawned, other.chances = 0) →
        expectedFlights ⟨after, pool.processes.set index moved ++ spawned⟩ + call.chances =
          (pool.processes.map Call.chances).sum + moved.chances + after.waiters := by
    intro after moved spawned none_left
    have placed : ((pool.processes.set index moved).map Call.chances).sum + call.chances =
        (pool.processes.map Call.chances).sum + moved.chances := Pool.sum_set _ found
    have idle : (spawned.map Call.chances).sum = 0 := by
      apply List.sum_eq_zero
      intro left left_mem
      rcases List.mem_map.mp left_mem with ⟨other, other_mem, rfl⟩
      exact none_left other other_mem
    simp only [expectedFlights, List.map_append, List.sum_append]
    omega
  -- Where no flight changes, the others have as many steps left as before.
  have others : ∀ {after : Shared Rows} {moved : Call Rows Error},
      (∀ flight, after.isLive flight = pool.shared.isLive flight) →
        stepsLeft ⟨after, pool.processes.set index moved ++ []⟩ + call.weight pool.shared =
          stepsLeft pool + moved.weight pool.shared := by
    intro after moved live
    have same : Call.weight after = (Call.weight pool.shared : Call Rows Error → ℕ) :=
      funext fun other => other.weight_congr live
    simp only [stepsLeft, List.append_nil, same]
    exact Pool.sum_set _ found
  cases turn with
  | @goesOn after moved channels fewer lighter =>
      have left := @others after moved fun flight => Shared.isLive_congr channels
      have live := Shared.live_congr channels
      have flights := @chances after moved [] (by simp)
      apply turnsLeft_lt_of
      · simp only [callsAtMost, List.length_append, List.length_set, List.length_nil]
        omega
      · right
        simp only [unsettledFlights]
        constructor <;> omega
  | @spends after moved spawned channels ended none_left fits fewer =>
      have live := Shared.live_congr channels
      have flights := @chances after moved spawned none_left
      apply turnsLeft_lt_of
      · simp only [callsAtMost, List.length_append, List.length_set]
        omega
      · left
        simp only [unsettledFlights]
        omega
  | @opens after moved channels waiters led =>
      have live := Shared.live_append channels
      have flights := @chances after moved [] (by simp)
      apply turnsLeft_lt_of
      · simp only [callsAtMost, List.length_append, List.length_set, List.length_nil]
        omega
      · left
        simp only [unsettledFlights]
        omega
  | @answers after moved flight change channels ends gone ended waiters lighter =>
      have live := Shared.live_modify channels ends
      have flights := @chances after moved [] (by simp)
      apply turnsLeft_lt_of
      · simp only [callsAtMost, List.length_append, List.length_set, List.length_nil]
        omega
      · simp only [unsettledFlights]
        by_cases alive : pool.shared.isLive flight
        · left
          rw [if_pos alive] at live
          omega
        · right
          rw [if_neg alive] at live
          have left := @others after moved fun other => by
            rw [Shared.isLive_modify channels ends]
            by_cases same : other = flight
            · simp [same, alive]
            · simp [same]
          rcases lighter with alive' | lighter
          · exact absurd alive' alive
          · constructor <;> omega
  | @hands after opened moved started flight change channels modified ends gone ended idle fewer =>
      have live := Shared.live_modify modified ends
      have more := Shared.live_append channels
      have flights := @chances after moved [started] (by simpa using idle)
      apply turnsLeft_lt_of
      · simp only [callsAtMost, List.length_append, List.length_set, List.length_singleton]
        omega
      · left
        simp only [unsettledFlights]
        omega

end ScuffedCrew.Leaderboard
