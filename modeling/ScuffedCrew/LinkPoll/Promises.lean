import ScuffedCrew.LinkPoll.Buckets

/-!
# What the limit on link polls promises

No address is accepted more than its burst and a cell a second allow, a refusal
names the time after which a call is accepted, and the map stays small.  A
refill is exact when the times are whole milliseconds.  The bucket that makes
room is the first of the map, which may not be full when others are.
-/

namespace ScuffedCrew.LinkPoll

open Rust StateMachine

variable {gate after start final : LinkPollGate} {poll : Poll} {steps : List PollStep} {ip : IpAddr}

/-! ## The rate -/

/-- In no span of time is an address that keeps its bucket accepted more than a burst and a call for
each refill. -/
def RateBounded (steps : List PollStep) : Prop :=
  ∀ ip first span rest, steps = first ++ span ++ rest →
    (∀ step ∈ span, ¬PollStep.Evicts step ip) → ∀ begins ends,
      (∀ step ∈ span, begins ≤ step.event.now ∧ step.event.now ≤ ends) →
        span.countP (PollStep.accepts · ip) ≤ linkPollBurst + (ends - begins) / cell

/-- An accepted call costs a cell. -/
theorem Tracking.metered (tracking : Tracking gate) (taken : machine.next gate poll = some after)
    (kept : ¬PollStep.Evicts ⟨gate, poll, after⟩ ip) :
    gate.clock ≤ after.clock ∧
      after.level ip + (if PollStep.accepts ⟨gate, poll, after⟩ ip then cell else 0) ≤
        min capacity (gate.level ip + (after.clock - gate.clock)) := by
  have called := tracking.called taken
  rw [called.clock]
  refine ⟨called.later, ?_⟩
  by_cases mine : poll.ip = ip
  · rcases mine with rfl
    have takes := take_takes (gate.bucketOf poll.ip poll.now) poll.now
    rw [← tracking.bucketOf_level called.later, called.level_mine, PollStep.accepts, called.answer]
    simpa using takes.level_le
  · have differs : (poll.ip == ip) = false := by simpa using mine
    have same : after.book.lookup ip = gate.book.lookup ip := by
      rcases called.others ip (Ne.symm mine) with same | ⟨-, -, gone⟩
      · exact same
      · cases found : gate.book.lookup ip with
        | none => exact gone
        | some bucket => exact absurd ⟨by simp [found], gone⟩ kept
    rw [tracking.level_other called same, PollStep.accepts]
    simp [differs]

theorem rate_bounded (tracking : Tracking start) (run : machine.Run start steps final) :
    RateBounded steps := by
  rintro ip first span rest rfl kept begins ends inside
  rw [List.append_assoc] at run
  rcases run.exists_middle with ⟨opened, before, later⟩
  rcases later.exists_middle with ⟨closed, within, -⟩
  have reached (step : PollStep) (step_mem : step ∈ span) :
      Tracking step.before ∧ machine.next step.before step.event = some step.after := by
    rcases List.append_of_mem step_mem with ⟨left, right, split⟩
    rw [split] at within
    rcases within.reaches_before with ⟨reaches, taken⟩
    exact ⟨tracking_of_run (tracking_of_run tracking before) reaches, taken⟩
  have clocks (step : PollStep) (step_mem : step ∈ span) : step.after.clock = step.event.now :=
    ((reached step step_mem).1.called (reached step step_mem).2).clock
  have paid : span.countP (PollStep.accepts · ip) * cell ≤ capacity + (closed.clock - begins) := by
    apply within.allowed_le LinkPollGate.clock (LinkPollGate.level · ip) (PollStep.accepts · ip)
      LinkPollGate.level_le
    · intro step step_mem
      rw [clocks step step_mem]
      exact (inside step step_mem).1
    · intro step step_mem
      exact (reached step step_mem).1.metered (reached step step_mem).2 (kept step step_mem)
  rcases List.eq_nil_or_concat span with rfl | ⟨init, last, rfl⟩
  · exact Nat.zero_le _
  · rw [List.concat_eq_append] at *
    have last_mem : last ∈ init ++ [last] := List.mem_append_right _ (List.mem_singleton_self _)
    rw [within.last_after, clocks last last_mem] at paid
    have ended := Nat.sub_le_sub_right (inside last last_mem).2 begins
    have cell_pos : 0 < cell := by decide
    rw [Nat.add_comm, ← Nat.add_mul_div_right _ _ cell_pos, Nat.le_div_iff_mul_le cell_pos]
    calc (init ++ [last]).countP (PollStep.accepts · ip) * cell
      _ ≤ capacity + (last.event.now - begins) := paid
      _ ≤ capacity + (ends - begins) := Nat.add_le_add_left ended capacity
      _ = ends - begins + linkPollBurst * cell := by rw [capacity_eq, Nat.add_comm]

/-! ## Exact refills -/

/-- The meters of the addresses, which lose nothing: an address that is evicted begins anew. -/
def PollStep.meters (step : PollStep) (meters : IpAddr → Option Meter) : IpAddr → Option Meter :=
  fun ip =>
    if (step.after.book.lookup ip).isNone then none
    else if ip = step.event.ip then
      some (((meters ip).getD ⟨capacity, step.event.now⟩).spend capacity cell step.event.now).1
    else meters ip

def meters (steps : List PollStep) : IpAddr → Option Meter :=
  steps.foldl (fun meters step => PollStep.meters step meters) fun _ => none

def meterLevel (steps : List PollStep) (clock : ℕ) (ip : IpAddr) : ℕ :=
  ((meters steps ip).map fun meter => meter.fill capacity clock).getD capacity

/-- The call is accepted just when the meter of its address has a cell. -/
def AsMetered (first : List PollStep) (step : PollStep) : Prop :=
  (PollStep.answer step).isNone = true ↔
    cell ≤ ((meters first step.event.ip).getD ⟨capacity, step.event.now⟩).fill capacity
      step.event.now

def Metered (steps : List PollStep) (gate : LinkPollGate) : Prop :=
  ∀ ip, gate.level ip = meterLevel steps gate.clock ip

/-- No part of a refill is lost, and none is counted twice. -/
def RefillsExactly (steps : List PollStep) : Prop :=
  ∀ first step rest, steps = first ++ step :: rest →
    AsMetered first step ∧ Metered (first ++ [step]) step.after

def PollStep.RefillsInFull (step : PollStep) : Prop :=
  (step.before.bucketOf step.event.ip step.event.now).RefillsInFull step.event.now

instance PollStep.decidableRefillsInFull : DecidablePred PollStep.RefillsInFull :=
  fun _ => inferInstanceAs (Decidable (Bucket.RefillsInFull _ _))

theorem meters_snoc {step : PollStep} :
    meters (steps ++ [step]) = PollStep.meters step (meters steps) := by
  simp [meters]

/-- A meter is from a time that has been. -/
def Past (steps : List PollStep) (gate : LinkPollGate) : Prop :=
  ∀ ip meter, meters steps ip = some meter → meter.since ≤ gate.clock

theorem Past.step (past : Past steps gate) (tracking : Tracking gate)
    (taken : machine.next gate poll = some after) :
    Past (steps ++ [⟨gate, poll, after⟩]) after := by
  have called := tracking.called taken
  intro ip meter found
  rw [meters_snoc, PollStep.meters] at found
  rw [called.clock]
  split at found
  next => cases found
  next =>
    split at found
    next =>
      rcases Option.some.inj found with rfl
      unfold Meter.spend
      split <;> exact le_rfl
    next => exact (past ip meter found).trans called.later

theorem Past.fill (past : Past steps gate) {now : ℕ} (later : gate.clock ≤ now) :
    ((meters steps ip).getD ⟨capacity, now⟩).fill capacity now =
      min capacity (meterLevel steps gate.clock ip + (now - gate.clock)) := by
  unfold meterLevel
  cases found : meters steps ip with
  | none =>
      rw [Option.getD_none, Option.map_none, Option.getD_none, Meter.fill, Nat.sub_self, Nat.add_zero,
        Nat.min_self, Nat.min_eq_left (Nat.le_add_right _ _)]
  | some meter =>
      rw [Option.getD_some, Option.map_some, Option.getD_some,
        fill_later (past ip meter found) later]

/-- The meters go on as the buckets do just when the refill is in full. -/
theorem Metered.step_iff (metered : Metered steps gate) (past : Past steps gate)
    (tracking : Tracking gate) (taken : machine.next gate poll = some after) :
    AsMetered steps ⟨gate, poll, after⟩ ∧ Metered (steps ++ [⟨gate, poll, after⟩]) after ↔
      PollStep.RefillsInFull ⟨gate, poll, after⟩ := by
  have called := tracking.called taken
  have fills (ip) : ((meters steps ip).getD ⟨capacity, poll.now⟩).fill capacity poll.now =
      (gate.bucketOf ip poll.now).level poll.now := by
    rw [past.fill called.later, tracking.bucketOf_level called.later, metered ip]
  have others (ip) (differs : ip ≠ poll.ip) :
      after.level ip = meterLevel (steps ++ [⟨gate, poll, after⟩]) after.clock ip := by
    rw [meterLevel, meters_snoc, PollStep.meters, if_neg differs]
    cases gone : after.book.lookup ip with
    | none => simp [LinkPollGate.level, gone]
    | some bucket =>
        have same : after.book.lookup ip = gate.book.lookup ip := by
          rcases called.others ip differs with same | ⟨-, -, none_left⟩
          · exact same
          · rw [none_left] at gone
            cases gone
        rw [tracking.level_other called same, metered ip, ← past.fill called.later, called.clock,
          Option.isNone_some, if_neg (by simp)]
        cases found : meters steps ip with
        | some meter => rw [Option.map_some, Option.getD_some, Option.getD_some]
        | none =>
            rw [Option.map_none, Option.getD_none, Option.getD_none, Meter.fill, Nat.sub_self,
              Nat.add_zero, Nat.min_self]
  have mine : meterLevel (steps ++ [⟨gate, poll, after⟩]) after.clock poll.ip =
      (((meters steps poll.ip).getD ⟨capacity, poll.now⟩).spend capacity cell poll.now).1.fill
        capacity poll.now := by
    rw [meterLevel, meters_snoc, PollStep.meters, called.mine, called.clock, if_pos rfl,
      Option.isNone_some, if_neg Bool.false_ne_true, Option.map_some, Option.getD_some]
  have takes := take_takes (gate.bucketOf poll.ip poll.now) poll.now
  have spent := @Meter.fill_spent capacity cell
    ((meters steps poll.ip).getD ⟨capacity, poll.now⟩) poll.now
  have allows : ((((meters steps poll.ip).getD ⟨capacity, poll.now⟩).spend capacity cell
      poll.now).2 = true) ↔ cell ≤ (gate.bucketOf poll.ip poll.now).level poll.now := by
    rw [← fills poll.ip, Meter.spend]
    split
    next enough => simp [enough]
    next short => simp [short]
  rw [← mine, fills poll.ip] at spent
  unfold AsMetered PollStep.RefillsInFull
  simp only [called.answer, fills]
  rw [← takes.exact_iff, ← called.level_mine]
  refine and_congr_right fun agrees => ?_
  have same : (((meters steps poll.ip).getD ⟨capacity, poll.now⟩).spend capacity cell
      poll.now).2 = ((gate.bucketOf poll.ip poll.now).take poll.now).2.isNone :=
    Bool.eq_iff_iff.mpr (allows.trans agrees.symm)
  rw [same] at spent
  constructor
  · intro metered
    rw [metered poll.ip]
    exact spent
  · intro level ip
    by_cases differs : ip = poll.ip
    · rcases differs with rfl
      exact Nat.add_right_cancel (level.trans spent.symm)
    · exact others ip differs

theorem refills_exactly_iff {clock : ℕ} (run : machine.Run ⟨∅, clock⟩ steps final) :
    RefillsExactly steps ↔ ∀ step ∈ steps, PollStep.RefillsInFull step := by
  have kept : Past steps final ∧ Tracking final ∧ (RefillsExactly steps → Metered steps final) ∧
      (RefillsExactly steps ↔ ∀ step ∈ steps, PollStep.RefillsInFull step) := by
    apply run.history fun steps gate => Past steps gate ∧ Tracking gate ∧
      (RefillsExactly steps → Metered steps gate) ∧
      (RefillsExactly steps ↔ ∀ step ∈ steps, PollStep.RefillsInFull step)
    · refine ⟨fun ip meter found => ?_, .atStart, fun _ ip => rfl, ?_⟩
      · cases found
      · refine ⟨fun _ => by simp, fun _ first step rest split => ?_⟩
        simp at split
    · intro steps gate poll after taken ⟨past, tracking, metered, iff⟩
      -- The steps before the last are exact in the longer run just when they are in the shorter.
      have split : RefillsExactly (steps ++ [⟨gate, poll, after⟩]) ↔ RefillsExactly steps ∧
          AsMetered steps ⟨gate, poll, after⟩ ∧
            Metered (steps ++ [⟨gate, poll, after⟩]) after := by
        constructor
        · intro exact_run
          refine ⟨fun first step rest split => ?_, exact_run steps _ [] rfl⟩
          exact exact_run first step (rest ++ [⟨gate, poll, after⟩]) (by simp [split])
        · rintro ⟨exact_steps, last⟩ first step rest split
          rcases List.eq_nil_or_concat rest with rfl | ⟨init, tail, rfl⟩
          · rcases List.append_inj' split rfl with ⟨rfl, same⟩
            rcases List.singleton_inj.mp same with rfl
            exact last
          · rw [List.concat_eq_append, ← List.cons_append, ← List.append_assoc] at split
            exact exact_steps first step init (List.append_inj' split rfl).1
      refine ⟨past.step tracking taken, tracking.step taken, fun all => (split.mp all).2.2, ?_⟩
      rw [split]
      constructor
      · rintro ⟨exact_steps, last⟩ step step_mem
        rcases List.mem_append.mp step_mem with earlier | same
        · exact iff.mp exact_steps step earlier
        · rcases List.mem_singleton.mp same with rfl
          exact ((metered exact_steps).step_iff past tracking taken).mp last
      · intro full
        have exact_steps := iff.mpr fun step step_mem => full step (List.mem_append_left _ step_mem)
        exact ⟨exact_steps, ((metered exact_steps).step_iff past tracking taken).mpr
          (full _ (List.mem_append_right _ (List.mem_singleton_self _)))⟩
  exact kept.2.2.2

/-! ## The time to wait -/

/-- A caller that waits as long as a refusal says is accepted, when nobody else used its bucket. -/
def WaitsKept (steps : List PollStep) : Prop :=
  ∀ first refusal middle retry rest, steps = first ++ refusal :: middle ++ retry :: rest →
    ∀ secs, PollStep.answer refusal = some secs → retry.event.ip = refusal.event.ip →
      (∀ step ∈ middle, step.event.ip ≠ refusal.event.ip) →
        refusal.event.now + Duration.fromSecs secs ≤ retry.event.now →
          PollStep.answer retry = none

/-- A bucket that refuses is empty, and stays in the map as it is. -/
theorem refused_cases (tracking : Tracking gate) (taken : machine.next gate poll = some after)
    {secs : ℕ} (refused : PollStep.answer ⟨gate, poll, after⟩ = some secs) :
    secs = 1 ∧ ∃ bucket, after.book.lookup poll.ip = some bucket ∧ bucket.tokens = 0 ∧
      bucket.asOf ≤ poll.now := by
  have called := tracking.called taken
  have takes := take_takes (gate.bucketOf poll.ip poll.now) poll.now
  have mine := called.mine
  have part := (tracking.step taken).part poll.ip _ mine
  rw [called.answer] at refused
  rw [called.clock] at part
  rw [refused] at takes
  generalize ((gate.bucketOf poll.ip poll.now).take poll.now).1 = bucket at takes mine part
  cases takes with
  | refused empty => exact ⟨rfl, _, mine, (Nat.add_eq_zero_iff.mp empty).1, part.2⟩

/-- Nobody else's call changes the bucket of an address, if it does not evict it. -/
theorem bucket_stays (tracking : Tracking start) (run : machine.Run start steps final)
    (others : ∀ step ∈ steps, step.event.ip ≠ ip) :
    final.book.lookup ip = start.book.lookup ip ∨ final.book.lookup ip = none := by
  have kept : Tracking final ∧
      (final.book.lookup ip = start.book.lookup ip ∨ final.book.lookup ip = none) := by
    apply run.invariant_of_forall (fun gate => Tracking gate ∧
      (gate.book.lookup ip = start.book.lookup ip ∨ gate.book.lookup ip = none))
      ⟨tracking, .inl rfl⟩ others
    intro gate poll after taken differs ⟨tracking, kept⟩
    refine ⟨tracking.step taken, ?_⟩
    rcases (tracking.called taken).others ip (Ne.symm differs) with same | ⟨-, -, gone⟩
    · rw [same]
      exact kept
    · exact .inr gone
  exact kept.2

theorem waits_kept (tracking : Tracking start) (run : machine.Run start steps final)
    (full : ∀ step ∈ steps, PollStep.RefillsInFull step) : WaitsKept steps := by
  rintro first refusal middle retry rest rfl secs refused same others waited
  rw [List.append_assoc] at run
  rcases run.exists_middle with ⟨opened, before, later⟩
  rcases Machine.Run.cons_inv later with ⟨rfl, taken, later⟩
  rcases Machine.Run.reaches_before later with ⟨between, retried⟩
  have opening := tracking_of_run tracking before
  have between_tracked := tracking_of_run (opening.step taken) between
  have in_full : PollStep.RefillsInFull retry := full retry (by simp)
  rcases refused_cases opening taken refused with ⟨rfl, bucket, kept, empty, past⟩
  have takes := take_takes (retry.before.bucketOf retry.event.ip retry.event.now) retry.event.now
  have called := between_tracked.called retried
  rw [PollStep.RefillsInFull] at in_full
  rw [called.answer]
  rcases bucket_stays (opening.step taken) between others with stays | gone
  · -- The bucket has no cell, and a second at least has passed since its count.
    have same_bucket : retry.before.bucketOf retry.event.ip retry.event.now = bucket := by
      rw [LinkPollGate.bucketOf, same, stays, kept]
      rfl
    rw [same_bucket] at takes in_full ⊢
    have second : 1 ≤ bucket.seconds retry.event.now := by
      apply (Nat.le_div_iff_mul_le (by decide)).mpr
      apply Nat.le_sub_of_add_le
      calc 1 * cell + bucket.asOf
        _ ≤ 1 * cell + refusal.event.now := Nat.add_le_add_left past _
        _ = refusal.event.now + Duration.fromSecs 1 := by
          rw [Nat.one_mul, Nat.add_comm, cell, linkPollRefillSecs]
        _ ≤ retry.event.now := waited
    cases answer : (bucket.take retry.event.now).2 with
    | none => rfl
    | some secs =>
        rw [answer] at takes
        generalize (bucket.take retry.event.now).1 = left at takes
        cases takes with
        | refused none_found =>
            rcases in_full with enough | ⟨counted, -⟩
            · rw [none_found] at enough
              exact absurd enough (by decide)
            · rw [Bucket.found, gained_eq counted] at none_found
              omega
  · have new : retry.before.bucketOf retry.event.ip retry.event.now =
        ⟨linkPollBurst, retry.event.now⟩ := by
      rw [LinkPollGate.bucketOf, same, gone]
      rfl
    rw [new] at takes ⊢
    cases answer : (Bucket.take ⟨linkPollBurst, retry.event.now⟩ retry.event.now).2 with
    | none => rfl
    | some secs =>
        rw [answer] at takes
        generalize (Bucket.take ⟨linkPollBurst, retry.event.now⟩ retry.event.now).1 = left at takes
        cases takes with
        | refused none_found =>
            have found := (Nat.add_eq_zero_iff.mp none_found).1
            cases found

/-! ## Eviction -/

/-- A bucket that is not full is evicted only when no other one is. -/
def EvictsFullFirst (steps : List PollStep) : Prop :=
  ∀ step ∈ steps, ∀ ip bucket, step.before.book.lookup ip = some bucket →
    step.after.book.lookup ip = none → ¬bucket.Full step.event.now →
      ∀ other rival, step.before.book.lookup other = some rival → ¬rival.Full step.event.now

/-- All the buckets are full at a time, or none is. -/
def LinkPollGate.EvenlyFull (gate : LinkPollGate) (now : ℕ) : Prop :=
  (∀ ip bucket, gate.book.lookup ip = some bucket → bucket.Full now) ∨
    ∀ ip bucket, gate.book.lookup ip = some bucket → ¬bucket.Full now

/-- An address that needs room finds the buckets all full, or none. -/
def PollStep.RoomIsEven (step : PollStep) : Prop :=
  step.before.book.lookup step.event.ip = none → maxIps ≤ step.before.book.len →
    step.before.EvenlyFull step.event.now

theorem evicts_full_first (tracking : Tracking start) (run : machine.Run start steps final)
    (even : ∀ step ∈ steps, PollStep.RoomIsEven step) : EvictsFullFirst steps := by
  intro step step_mem ip bucket found gone part other rival rival_found
  rcases List.append_of_mem step_mem with ⟨first, rest, rfl⟩
  rcases run.reaches_before with ⟨reaches, taken⟩
  have called := (tracking_of_run tracking reaches).called taken
  have differs : ip ≠ step.event.ip := by
    rintro rfl
    rw [called.mine] at gone
    cases gone
  rcases called.others ip differs with same | ⟨untracked, full, -⟩
  · rw [same, found] at gone
    cases gone
  · rcases even step step_mem untracked full with all | none_full
    · exact absurd (all ip bucket found) part
    · exact none_full other rival rival_found

/-- Of a full map whose buckets are not evenly full, the order may put one first that is not full. -/
theorem evicts_part_full (tracking : Tracking gate) {now : ℕ} (later : gate.clock ≤ now)
    (untracked : gate.book.lookup ip = none) (full : maxIps ≤ gate.book.len)
    (uneven : ¬gate.EvenlyFull now) :
    ∃ order after, machine.next gate ⟨ip, now, order⟩ = some after ∧
      ¬EvictsFullFirst [⟨gate, ⟨ip, now, order⟩, after⟩] := by
  rcases not_or.mp uneven with ⟨not_all, not_none⟩
  simp only [not_forall, not_not] at not_all not_none
  rcases not_all with ⟨victim, bucket, found, part⟩
  rcases not_none with ⟨other, rival, rival_found, rival_full⟩
  have listed : (⟨victim, bucket⟩ : Σ _ : IpAddr, Bucket) ∈ gate.book.entries :=
    AList.mem_lookup_iff.mp found
  have orders := (List.perm_cons_erase listed).symm
  have enabled : machine.next gate
      ⟨ip, now, ⟨victim, bucket⟩ :: gate.book.entries.erase ⟨victim, bucket⟩⟩ =
        some ⟨(takeAt gate.book ip now
          (⟨victim, bucket⟩ :: gate.book.entries.erase ⟨victim, bucket⟩)).1, now⟩ := by
    simp only [machine]
    rw [tracking.retained_eq, if_pos ⟨later, orders⟩]
  refine ⟨_, _, enabled, fun evicts => ?_⟩
  have differs : victim ≠ ip := by
    rintro rfl
    rw [untracked] at found
    cases found
  have gone : (takeAt gate.book ip now
      (⟨victim, bucket⟩ :: gate.book.entries.erase ⟨victim, bucket⟩)).1.lookup victim = none := by
    rcases tracking.makeRoom_full orders full untracked with ⟨first, _, head, -, room⟩
    rcases Sigma.mk.inj (Option.some.inj head) with ⟨rfl, -⟩
    simp only [takeAt, room]
    rw [AList.lookup_insert_ne differs, AList.lookup_erase]
  exact evicts _ (List.mem_singleton_self _) victim bucket found gone part other rival rival_found
    rival_full

/-! ## The promises -/

/-- From an empty map: the rate and the size are bounded, nothing of a refill is lost or counted
twice just when every refill is in full, and then the time to wait is right; and buckets that are
not full make room only when none is, if the map is evenly full whenever room is needed, and not
otherwise. -/
theorem link_poll_promises {clock : ℕ} (run : machine.Run ⟨∅, clock⟩ steps final) :
    RateBounded steps ∧ (∀ step ∈ steps, step.after.book.len ≤ maxIps) ∧
      (RefillsExactly steps ↔ ∀ step ∈ steps, PollStep.RefillsInFull step) ∧
      ((∀ step ∈ steps, PollStep.RefillsInFull step) → WaitsKept steps) ∧
      ((∀ step ∈ steps, PollStep.RoomIsEven step) → EvictsFullFirst steps) ∧
      ∀ ip now, final.clock ≤ now → final.book.lookup ip = none → maxIps ≤ final.book.len →
        ¬final.EvenlyFull now → ∃ order after, machine.next final ⟨ip, now, order⟩ = some after ∧
          ¬EvictsFullFirst [⟨final, ⟨ip, now, order⟩, after⟩] := by
  have tracking : Tracking ⟨∅, clock⟩ := .atStart
  refine ⟨rate_bounded tracking run, ?_, refills_exactly_iff run, waits_kept tracking run,
    evicts_full_first tracking run, ?_⟩
  · intro step step_mem
    rcases List.append_of_mem step_mem with ⟨first, rest, rfl⟩
    rcases run.reaches_before with ⟨reaches, taken⟩
    exact ((tracking_of_run tracking reaches).step taken).small
  · intro ip now later untracked full uneven
    exact evicts_part_full (tracking_of_run tracking run) later untracked full uneven

def home : IpAddr := .v4 [203, 0, 113, 10]

/-- Two calls, a second apart. -/
def twoPolls : List Poll := [⟨home, 0, []⟩, ⟨home, 1000000000, [⟨home, ⟨29, 0⟩⟩]⟩]

theorem two_polls_metered : ∃ final, machine.exec ⟨∅, 0⟩ twoPolls = some final ∧
    RateBounded (machine.stepsOf ⟨∅, 0⟩ twoPolls) ∧
    RefillsExactly (machine.stepsOf ⟨∅, 0⟩ twoPolls) ∧
    WaitsKept (machine.stepsOf ⟨∅, 0⟩ twoPolls) ∧
    EvictsFullFirst (machine.stepsOf ⟨∅, 0⟩ twoPolls) := by
  have run : machine.Run ⟨∅, 0⟩ (machine.stepsOf ⟨∅, 0⟩ twoPolls) _ := .of_exec rfl
  have full : ∀ step ∈ machine.stepsOf ⟨∅, 0⟩ twoPolls, PollStep.RefillsInFull step := by decide
  have room : ∀ step ∈ machine.stepsOf ⟨∅, 0⟩ twoPolls, step.before.book.len < maxIps := by decide
  have promises := link_poll_promises run
  refine ⟨_, rfl, promises.1, promises.2.2.1.mpr full, promises.2.2.2.1 full,
    promises.2.2.2.2.1 fun step step_mem _ needs => ?_⟩
  exact absurd needs (Nat.not_le_of_lt (room step step_mem))

/-! ## A bucket that makes room while others are full -/

def host (index : ℕ) : IpAddr := .v4 [10, 0, index / 256, index % 256]

theorem host_inj {index other : ℕ} (same : host index = host other) : index = other := by
  simp only [host, IpAddr.v4.injEq, List.cons.injEq, and_true, true_and] at same
  omega

/-- A map with room only adds the address that calls. -/
theorem Tracking.calls (tracking : Tracking gate) {now : ℕ} (later : gate.clock ≤ now)
    (untracked : gate.book.lookup ip = none) (room : gate.book.len < maxIps) :
    ∃ after, machine.next gate ⟨ip, now, gate.book.entries⟩ = some after ∧ after.clock = now ∧
      after.book.len = gate.book.len + 1 ∧
      ∀ other, after.book.lookup other =
        if other = ip then some (Bucket.take ⟨linkPollBurst, now⟩ now).1
        else gate.book.lookup other := by
  have stays : makeRoom gate.book ip gate.book.entries = gate.book := by
    rw [makeRoom, if_neg (fun both => Nat.not_le_of_lt room both.1)]
  refine ⟨⟨(takeAt gate.book ip now gate.book.entries).1, now⟩, ?_, rfl, ?_, ?_⟩
  · simp only [machine]
    rw [tracking.retained_eq, if_pos ⟨later, List.Perm.refl _⟩]
  · simp only [takeAt, stays, untracked, Option.getD_none]
    exact HashMap.len_insert_of_none untracked
  · intro other
    simp only [takeAt, stays, untracked, Option.getD_none]
    exact HashMap.lookup_insert'

theorem take_new (now : ℕ) : (Bucket.take ⟨linkPollBurst, now⟩ now).1 = ⟨29, now⟩ := by
  have takes := take_takes ⟨linkPollBurst, now⟩ now
  have full : 30 ≤ Bucket.found ⟨linkPollBurst, now⟩ now := Nat.le_add_right _ _
  generalize (Bucket.take ⟨linkPollBurst, now⟩ now).1 = left at takes
  generalize (Bucket.take ⟨linkPollBurst, now⟩ now).2 = answer at takes
  cases takes with
  | refused empty => omega
  | filled => rfl
  | used _ few => omega

/-- So many addresses call at the beginning. -/
theorem run_of_hosts (count : ℕ) (room : count ≤ maxIps) : ∃ steps gate,
    machine.Run ⟨∅, 0⟩ steps gate ∧ gate.clock = 0 ∧ gate.book.len = count ∧
      (∀ index, index < count → gate.book.lookup (host index) = some ⟨29, 0⟩) ∧
      ∀ ip, (∀ index, index < count → ip ≠ host index) → gate.book.lookup ip = none := by
  induction count with
  | zero => exact ⟨[], ⟨∅, 0⟩, .refl, rfl, rfl, by simp, fun ip _ => rfl⟩
  | succ count ih =>
      rcases ih (Nat.le_of_succ_le room) with ⟨steps, gate, run, clock, len, tracked, others⟩
      have untracked : gate.book.lookup (host count) = none := by
        apply others
        intro index below same
        exact Nat.ne_of_lt below (host_inj same).symm
      rcases (tracking_of_run .atStart run).calls (Nat.le_of_eq clock) untracked (len ▸ room) with
        ⟨after, taken, after_clock, after_len, looked⟩
      refine ⟨_, after, run.snoc taken, after_clock, len ▸ after_len, ?_, ?_⟩
      · intro index below
        rw [looked, take_new]
        split
        next => rfl
        next differs =>
          apply tracked
          have : index ≠ count := fun same => differs (congrArg host same)
          omega
      · intro ip absent
        rw [looked, if_neg (absent count (Nat.lt_succ_self _))]
        exact others ip fun index below => absent index (Nat.lt_succ_of_lt below)

/-- The newest bucket makes room, which has just been used, while all others are full again. -/
theorem newest_makes_room : ∃ steps final, machine.Run ⟨∅, 0⟩ steps final ∧
    ¬EvictsFullFirst steps := by
  rcases run_of_hosts 4095 (by decide) with ⟨steps, gate, run, clock, len, tracked, others⟩
  have tracking := tracking_of_run .atStart run
  have untracked : gate.book.lookup (host 4095) = none := by
    apply others
    intro index below same
    exact Nat.ne_of_lt below (host_inj same).symm
  rcases tracking.calls (clock ▸ Nat.zero_le 1000000000) untracked (len ▸ by decide) with
    ⟨filled, taken, filled_clock, filled_len, looked⟩
  have full : maxIps ≤ filled.book.len := by rw [filled_len, len]; decide
  have stranger : filled.book.lookup (host 4096) = none := by
    rw [looked, if_neg (fun same => absurd (host_inj same) (by decide))]
    apply others
    intro index below same
    have := host_inj same
    omega
  have uneven : ¬filled.EvenlyFull 1000000000 := by
    rintro (all | none_full)
    · have newest : filled.book.lookup (host 4095) = some ⟨29, 1000000000⟩ := by
        rw [looked, if_pos rfl, take_new]
      have level := all _ _ newest
      rw [Bucket.Full, level_filled, capacity_eq, cell_eq, linkPollBurst] at level
      omega
    · have oldest : filled.book.lookup (host 0) = some ⟨29, 0⟩ := by
        rw [looked, if_neg (fun same => absurd (host_inj same) (by decide)), tracked 0 (by decide)]
      apply none_full _ _ oldest
      rw [Bucket.Full, level_of_full, capacity_eq, cell_eq, linkPollBurst]
      rw [seconds_eq]
      decide
  rcases evicts_part_full (tracking.step taken) (Nat.le_of_eq filled_clock) stranger full uneven with
    ⟨order, after, evicted, part_full⟩
  refine ⟨_, after, (run.snoc taken).snoc evicted, fun evicts => part_full ?_⟩
  intro step step_mem
  exact evicts step (List.mem_append_right _ step_mem)

/-- The second call comes in the middle of a millisecond, whose rest is lost. -/
def splitPolls : List Poll := [⟨home, 0, []⟩, ⟨home, 500999900, [⟨home, ⟨29, 0⟩⟩]⟩]

theorem promises_broken :
    (∃ steps final, machine.Run ⟨∅, 0⟩ steps final ∧ ¬EvictsFullFirst steps) ∧
      ∃ final, machine.exec ⟨∅, 0⟩ splitPolls = some final ∧
        ¬RefillsExactly (machine.stepsOf ⟨∅, 0⟩ splitPolls) := by
  have run : machine.Run ⟨∅, 0⟩ (machine.stepsOf ⟨∅, 0⟩ splitPolls) _ := .of_exec rfl
  have lost : ¬∀ step ∈ machine.stepsOf ⟨∅, 0⟩ splitPolls, PollStep.RefillsInFull step := by decide
  refine ⟨newest_makes_room, _, rfl, fun refills => lost ?_⟩
  exact (refills_exactly_iff run).mp refills

end ScuffedCrew.LinkPoll
