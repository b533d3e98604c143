import ScuffedCrew.Leaderboard.Flights

/-!
# The ledger of the flights

There is one sender for every flight that is open, and one leader for every
flight that is registered.
-/

namespace ScuffedCrew.Leaderboard

open Rust StateMachine

variable {Rows Error : Type}

/-- What a call can hold of a flight. -/
inductive Stake
  | sender (flight : ℕ)
  | lead (key : LeaderboardKey) (flight : ℕ)

def flights : Ledger Stake (Shared Rows) (Call Rows Error) where
  held
    | .sender flight, call => if call.sender? = some flight then 1 else 0
    | .lead key flight, call => if call.leads? = some (key, flight) then 1 else 0
  free _ _ := 0
  total
    | .sender flight, shared => if shared.isOpen flight then 1 else 0
    | .lead key flight, shared => if shared.Registered key flight then 1 else 0

/-- What the ledger says about one call. -/
structure Owns (shared : Shared Rows) (call : Call Rows Error) : Prop where
  opened : ∀ flight, call.sender? = some flight → shared.isOpen flight
  leading : ∀ key flight, call.leads? = some (key, flight) → shared.Registered key flight
  only : ∀ key flight, call.sender? = some flight → shared.Registered key flight →
    call.leads? = some (key, flight)

section Books

variable {pool after : Pool (Shared Rows) (Call Rows Error)} {call other : Call Rows Error}
  {index position flight : ℕ} {key : LeaderboardKey}

theorem isOpen_of_sender (balanced : flights.Balanced pool)
    (found : pool.processes[index]? = some call) (sender : call.sender? = some flight) :
    pool.shared.isOpen flight := by
  have held := balanced.held_le (.sender flight) found
  simp only [flights, sender, if_true] at held
  by_contra closed
  simp [closed] at held

theorem registered_of_leads (balanced : flights.Balanced pool)
    (found : pool.processes[index]? = some call) (leads : call.leads? = some (key, flight)) :
    pool.shared.Registered key flight := by
  have held := balanced.held_le (.lead key flight) found
  simp only [flights, leads, if_true] at held
  by_contra unregistered
  simp [unregistered] at held

/-- A flight has one sender. -/
theorem sender_unique (balanced : flights.Balanced pool)
    (found : pool.processes[index]? = some call) (found' : pool.processes[position]? = some other)
    (sender : call.sender? = some flight) (sender' : other.sender? = some flight) :
    position = index := by
  apply balanced.index_unique (.sender flight) found found'
  · simp [flights, sender]
  · simp [flights, sender']
  · simp only [flights]
    split <;> omega

theorem exists_sender (balanced : flights.Balanced pool) (opened : pool.shared.isOpen flight) :
    ∃ (index : ℕ) (call : Call Rows Error), pool.processes[index]? = some call ∧
      call.sender? = some flight := by
  rcases balanced.exists_holder (.sender flight) (by simp [flights, opened]) with
    ⟨index, call, found, holds⟩
  refine ⟨index, call, found, ?_⟩
  by_contra differs
  simp [flights, differs] at holds

/-- The call with the sender of a registered flight leads it. -/
theorem leads_of_registered (balanced : flights.Balanced pool)
    (found : pool.processes[index]? = some call) (sender : call.sender? = some flight)
    (registered : pool.shared.Registered key flight) : call.leads? = some (key, flight) := by
  rcases balanced.exists_holder (.lead key flight) (by simp [flights, registered]) with
    ⟨position, leader, found', holds⟩
  have leads : leader.leads? = some (key, flight) := by
    by_contra differs
    simp [flights, differs] at holds
  rcases sender_unique balanced found found' sender (Call.sender_of_leads leads) with rfl
  rcases Option.some.inj (found.symm.trans found') with rfl
  exact leads

/-- A key has one leader. -/
theorem leader_unique (balanced : flights.Balanced pool) {flight' : ℕ}
    (found : pool.processes[index]? = some call) (found' : pool.processes[position]? = some other)
    (leads : call.leads? = some (key, flight)) (leads' : other.leads? = some (key, flight')) :
    position = index := by
  have registered := (registered_of_leads balanced found leads).1
  have registered' := (registered_of_leads balanced found' leads').1
  rcases Option.some.inj (registered.symm.trans registered') with rfl
  exact sender_unique balanced found found' (Call.sender_of_leads leads)
    (Call.sender_of_leads leads')

theorem owns_of_balanced (balanced : flights.Balanced pool)
    (found : pool.processes[index]? = some call) : Owns pool.shared call where
  opened _ sender := isOpen_of_sender balanced found sender
  leading _ _ leads := registered_of_leads balanced found leads
  only _ _ sender registered := leads_of_registered balanced found sender registered

end Books

section Law

variable {shared : Shared Rows} {call : Call Rows Error}
  {advance : Advance (Shared Rows) (Call Rows Error)}

theorem conserves_senders (owns : Owns shared call) (effect : FlightEffect shared call advance)
    (flight : ℕ) :
    flights.held (.sender flight) advance.process +
        (advance.spawned.map (flights.held (.sender flight))).sum +
        (if shared.isOpen flight then 1 else 0) =
      flights.held (.sender flight) call + if advance.shared.isOpen flight then 1 else 0 := by
  have unallocated : shared.isOpen shared.channels.length = false := by
    by_contra opened
    exact absurd (Shared.lt_of_isOpen (Bool.of_not_eq_false opened)) (Nat.lt_irrefl _)
  cases effect with
  | keeps opened registered sender leads => simp [flights, sender, opened]
  | opens begins free opened registered leads =>
      simp only [flights, Call.sender_of_leads leads, begins, opened, Call.sender_begin]
      by_cases same : flight = shared.channels.length
      · simp [same, unallocated]
      · simp [same, Ne.symm same]
  | passes opened registered leads ends =>
      simp [flights, Call.sender_of_leads leads, ends, opened]
  | unregisters opened registered leads sender led =>
      simp [flights, Call.sender_of_leads leads, sender, opened]
  | @hangsUp after moved last opened registered sender ends =>
      have before := owns.opened last sender
      simp only [flights, sender, ends, opened]
      by_cases same : flight = last
      · simp [same, before]
      · simp [same, Ne.symm same]
  | @hands after moved key last free opened registered sender leads ends =>
      have before := owns.opened last sender
      have older := Nat.ne_of_lt (Shared.lt_of_isOpen before)
      simp only [flights, sender, ends, opened, List.map_cons, List.map_nil, List.sum_cons,
        List.sum_nil, Call.sender_start]
      by_cases same : flight = last
      · simp [same, before, Ne.symm older]
      · by_cases new : flight = shared.channels.length
        · simp [new, unallocated, older, Ne.symm older]
        · simp [same, new, Ne.symm same, Ne.symm new]

theorem conserves_leads (owns : Owns shared call) (effect : FlightEffect shared call advance)
    (key : LeaderboardKey) (flight : ℕ) :
    flights.held (.lead key flight) advance.process +
        (advance.spawned.map (flights.held (.lead key flight))).sum +
        (if shared.Registered key flight then 1 else 0) =
      flights.held (.lead key flight) call +
        if advance.shared.Registered key flight then 1 else 0 := by
  have quiet : ∀ {moved : Call Rows Error}, moved.sender? = none → moved.leads? = none := by
    intro moved ends
    cases leads : moved.leads? with
    | none => rfl
    | some led => cases ends.symm.trans (Call.sender_of_leads leads)
  cases effect with
  | keeps opened registered sender leads => simp [flights, leads, registered]
  | @opens after moved key' begins free opened registered leads =>
      simp only [flights, leads, begins, registered, Call.leads_begin]
      by_cases same : key = key' ∧ flight = shared.channels.length
      · rcases same with ⟨rfl, rfl⟩
        simp [free]
      · have differs : ¬(key' = key ∧ shared.channels.length = flight) := by
          rintro ⟨rfl, rfl⟩
          exact same ⟨rfl, rfl⟩
        simp [same, differs]
  | passes opened registered leads ends =>
      simp [flights, leads, quiet ends, registered]
  | @unregisters after moved key' last opened registered leads sender led =>
      have before := owns.leading key' last leads
      simp only [flights, leads, led, registered]
      by_cases same : key = key'
      · rcases same with rfl
        by_cases current : flight = last
        · simp [current, before]
        · have gone : ¬shared.Registered key flight := by
            rintro ⟨found, -⟩
            exact current (Option.some.inj (found.symm.trans before.1))
          simp [gone, Ne.symm current]
      · simp [same, Ne.symm same]
  | @hangsUp after moved last opened registered sender ends =>
      simp only [flights, quiet ends, registered]
      by_cases same : flight = last
      · rcases same with rfl
        by_cases led : shared.Registered key flight
        · simp [led, owns.only key flight sender led]
        · have not_led : call.leads? ≠ some (key, flight) := fun leads =>
            led (owns.leading key flight leads)
          simp [led, not_led]
      · have not_led : call.leads? ≠ some (key, flight) := by
          intro leads
          have other := Call.sender_of_leads leads
          exact same (Option.some.inj (other.symm.trans sender))
        simp [same, not_led]
  | @hands after moved key' last free opened registered sender leads ends =>
      have older := Nat.ne_of_lt (Shared.lt_of_isOpen (owns.opened last sender))
      have unregistered : ¬shared.Registered key last := by
        intro led
        cases leads.symm.trans (owns.only key last sender led)
      simp only [flights, quiet ends, leads, registered, List.map_cons, List.map_nil,
        List.sum_cons, List.sum_nil, Call.leads_start]
      by_cases same : key = key' ∧ flight = shared.channels.length
      · rcases same with ⟨rfl, rfl⟩
        simp [free, Ne.symm older]
      · have differs : ¬(key' = key ∧ shared.channels.length = flight) := by
          rintro ⟨rfl, rfl⟩
          exact same ⟨rfl, rfl⟩
        by_cases hung : flight = last
        · rcases hung with rfl
          simp [unregistered, differs]
        · simp [same, differs, hung]

theorem flights_conserved (owns : Owns shared call) (effect : FlightEffect shared call advance) :
    flights.Conserves shared call advance := by
  intro stake
  cases stake with
  | sender flight => exact conserves_senders owns effect flight
  | lead key flight => exact conserves_leads owns effect key flight

end Law

/-! ## Every state reached -/

/-- The books of the flights, over a register that is tidy. -/
structure InFlight (pool : Pool (Shared Rows) (Call Rows Error)) : Prop where
  tidy : pool.shared.Tidy
  balanced : flights.Balanced pool

variable {cache : LeaderboardCache Error} {pool after : Pool (Shared Rows) (Call Rows Error)}
  {event : TaskEvent LeaderboardKey (Choice Rows Error) Tick}

theorem InFlight.next (inv : InFlight pool)
    (step : (requests cache).machine.next pool event = some after) : InFlight after := by
  have effect := Tasks.effect_of_next step
  constructor
  · cases effect with
    | arrives => exact inv.tidy
    | @moves index call choice advance found taken =>
        cases choice with
        | go millis result => exact inv.tidy.go taken
        | drop => exact inv.tidy.drop taken
    | changes => exact inv.tidy.congr rfl rfl rfl
  · refine inv.balanced.next effect (fun stake key => ?_) (fun stake shared tick => ?_) ?_
    · cases stake <;> rfl
    · cases stake <;> exact ⟨rfl, rfl⟩
    · intro index call choice advance found taken
      have owns := owns_of_balanced inv.balanced found
      exact flights_conserved owns (flightEffect_of_step inv.tidy owns.leading taken)

theorem inFlight_fresh {nowMs : ℕ} {wall : ℤ} :
    InFlight (cache.fresh nowMs wall : Pool (Shared Rows) (Call Rows Error)) where
  tidy := ⟨fun _ _ found => (by cases found), fun _ _ found => (by cases found)⟩
  balanced := by
    rintro (flight | ⟨key, flight⟩)
    · rfl
    · rfl

end ScuffedCrew.Leaderboard
