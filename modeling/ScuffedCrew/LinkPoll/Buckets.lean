import ScuffedCrew.LinkPoll.Gate

/-!
# The buckets of the addresses

A call takes from the bucket of its address, and the other buckets stay, but for
one that makes room.  The count a call leaves is never a full one, so no bucket
is dropped for being full.
-/

namespace ScuffedCrew.LinkPoll

open Rust StateMachine

variable {gate after start final : LinkPollGate} {poll : Poll} {steps : List PollStep} {ip : IpAddr}

/-! ## What a call does -/

structure Tracking (gate : LinkPollGate) : Prop where
  small : gate.book.len ≤ maxIps
  part : ∀ ip bucket, gate.book.lookup ip = some bucket →
    bucket.tokens < linkPollBurst ∧ bucket.asOf ≤ gate.clock

/-- The bucket of an address, which is full when there is none. -/
def LinkPollGate.bucketOf (gate : LinkPollGate) (ip : IpAddr) (now : ℕ) : Bucket :=
  (gate.book.lookup ip).getD ⟨linkPollBurst, now⟩

/-- What a call does to the buckets. -/
structure Called (gate : LinkPollGate) (poll : Poll) (after : LinkPollGate) : Prop where
  later : gate.clock ≤ poll.now
  clock : after.clock = poll.now
  small : after.book.len ≤ maxIps
  answer : PollStep.answer ⟨gate, poll, after⟩ = ((gate.bucketOf poll.ip poll.now).take poll.now).2
  mine : after.book.lookup poll.ip = some ((gate.bucketOf poll.ip poll.now).take poll.now).1
  others : ∀ ip, ip ≠ poll.ip → after.book.lookup ip = gate.book.lookup ip ∨
    gate.book.lookup poll.ip = none ∧ maxIps ≤ gate.book.len ∧ after.book.lookup ip = none

/-- No bucket is dropped for its count. -/
theorem Tracking.retained_eq (tracking : Tracking gate) : retained gate.book = gate.book := by
  apply AList.ext
  apply List.filter_eq_self.mpr
  intro entry entry_mem
  have tracked := tracking.part entry.1 entry.2 (AList.mem_lookup_iff.mpr entry_mem)
  simpa using tracked.1

theorem makeRoom_of_tracked {order : List (Σ _ : IpAddr, Bucket)} {book : Book}
    (tracked : (book.lookup ip).isSome = true) : makeRoom book ip order = book := by
  rw [makeRoom, if_neg]
  rintro ⟨-, untracked⟩
  simp [Option.isNone_iff_eq_none.mp untracked] at tracked

/-- The first bucket of a full map makes room, whatever is in it. -/
theorem Tracking.makeRoom_full (tracking : Tracking gate) {order : List (Σ _ : IpAddr, Bucket)}
    (orders : order.Perm gate.book.entries) (full : maxIps ≤ gate.book.len)
    (untracked : gate.book.lookup ip = none) :
    ∃ victim bucket, order.head? = some ⟨victim, bucket⟩ ∧
      gate.book.lookup victim = some bucket ∧
      makeRoom gate.book ip order = gate.book.erase victim := by
  cases order with
  | nil =>
      have empty : gate.book.len = 0 := orders.length_eq.symm
      rw [empty] at full
      exact absurd full (by decide)
  | cons victim rest =>
      refine ⟨victim.1, victim.2, rfl, AList.mem_lookup_iff.mpr
        (orders.mem_iff.mp List.mem_cons_self), ?_⟩
      rw [makeRoom, tracking.retained_eq, if_pos ⟨full, by simp [untracked]⟩, if_pos full]
      rfl

theorem Tracking.called (tracking : Tracking gate) (taken : machine.next gate poll = some after) :
    Called gate poll after := by
  simp only [machine] at taken
  split at taken
  next enabled =>
    rcases Option.some.inj taken with rfl
    rcases enabled with ⟨later, orders⟩
    rw [tracking.retained_eq] at orders
    cases tracked : gate.book.lookup poll.ip with
    | some bucket =>
        have room : makeRoom gate.book poll.ip poll.order = gate.book :=
          makeRoom_of_tracked (by simp [tracked])
        refine ⟨later, rfl, ?_, ?_, ?_, ?_⟩
        · have same := HashMap.total_insert_of_lookup (fun _ => 1) tracked (bucket.take poll.now).1
          rw [← HashMap.len_eq_total, ← HashMap.len_eq_total] at same
          have small := tracking.small
          simp only [takeAt, room, tracked, Option.getD_some]
          omega
        · simp [PollStep.answer, takeAt, room, LinkPollGate.bucketOf]
        · simp [takeAt, room, LinkPollGate.bucketOf]
        · intro ip differs
          left
          simp [takeAt, room, differs]
    | none =>
        have looked : (makeRoom gate.book poll.ip poll.order).lookup poll.ip = none ∧
            (makeRoom gate.book poll.ip poll.order).len < maxIps ∧
            ∀ ip, (makeRoom gate.book poll.ip poll.order).lookup ip = gate.book.lookup ip ∨
              maxIps ≤ gate.book.len ∧
                (makeRoom gate.book poll.ip poll.order).lookup ip = none := by
          by_cases full : maxIps ≤ gate.book.len
          · rcases tracking.makeRoom_full orders full tracked with ⟨victim, bucket, -, found, room⟩
            have shorter := HashMap.len_erase_of_lookup found
            have small := tracking.small
            rw [room]
            refine ⟨?_, by omega, fun ip => ?_⟩
            · rw [HashMap.lookup_erase', tracked, ite_self]
            · rw [HashMap.lookup_erase']
              split
              next => exact .inr ⟨full, rfl⟩
              next => exact .inl rfl
          · have room : makeRoom gate.book poll.ip poll.order = gate.book := by
              rw [makeRoom, if_neg (fun both => full both.1)]
            rw [room]
            exact ⟨tracked, Nat.lt_of_not_le full, fun ip => .inl rfl⟩
        rcases looked with ⟨absent, room, others⟩
        refine ⟨later, rfl, ?_, ?_, ?_, ?_⟩
        · simp only [takeAt]
          rw [HashMap.len_insert_of_none absent]
          exact room
        · simp [PollStep.answer, takeAt, absent, LinkPollGate.bucketOf, tracked]
        · simp [takeAt, absent, LinkPollGate.bucketOf, tracked]
        · intro ip differs
          simp only [takeAt]
          rw [AList.lookup_insert_ne differs]
          rcases others ip with same | ⟨full, gone⟩
          · exact .inl same
          · exact .inr ⟨tracked, full, gone⟩
  next => cases taken

/-! ## Buckets in a run -/

theorem Tracking.atStart {clock : ℕ} : Tracking ⟨∅, clock⟩ where
  small := Nat.zero_le _
  part ip bucket found := by simp at found

/-- An address without a bucket begins with a full one. -/
theorem bucketOf_takes (tracking : Tracking gate) (later : gate.clock ≤ poll.now) :
    ((gate.bucketOf ip poll.now).take poll.now).1.tokens < linkPollBurst ∧
      ((gate.bucketOf ip poll.now).take poll.now).1.asOf ≤ poll.now := by
  have takes := take_takes (gate.bucketOf ip poll.now) poll.now
  cases found : gate.book.lookup ip with
  | some bucket =>
      have same : gate.bucketOf ip poll.now = bucket := by simp [LinkPollGate.bucketOf, found]
      have part := tracking.part ip bucket found
      rw [same] at takes ⊢
      exact takes.tracked part.1 (part.2.trans later)
  | none =>
      have same : gate.bucketOf ip poll.now = ⟨linkPollBurst, poll.now⟩ := by
        simp [LinkPollGate.bucketOf, found]
      rw [same] at takes ⊢
      generalize (Bucket.take ⟨linkPollBurst, poll.now⟩ poll.now).1 = left at takes ⊢
      generalize (Bucket.take ⟨linkPollBurst, poll.now⟩ poll.now).2 = answer at takes
      cases takes with
      | refused empty =>
          have full : linkPollBurst ≤ Bucket.found ⟨linkPollBurst, poll.now⟩ poll.now :=
            Nat.le_add_right _ _
          rw [empty] at full
          exact absurd full (by decide)
      | filled => exact ⟨Nat.lt_succ_self 29, le_rfl⟩
      | used _ few => exact ⟨Nat.lt_of_le_of_lt (Nat.sub_le _ _) few, Nat.sub_le _ _⟩

theorem Tracking.step (tracking : Tracking gate) (taken : machine.next gate poll = some after) :
    Tracking after := by
  have called := tracking.called taken
  refine ⟨called.small, ?_⟩
  intro ip bucket found
  rw [called.clock]
  by_cases mine : ip = poll.ip
  · rcases mine with rfl
    rcases Option.some.inj (called.mine.symm.trans found) with rfl
    exact bucketOf_takes tracking called.later
  · rcases called.others ip mine with same | ⟨-, -, gone⟩
    · have part := tracking.part ip bucket (same ▸ found)
      exact ⟨part.1, part.2.trans called.later⟩
    · rw [gone] at found
      cases found

theorem tracking_of_run (tracking : Tracking start) (run : machine.Run start steps final) :
    Tracking final :=
  run.invariant Tracking tracking fun taken tracking => tracking.step taken

/-- The level of an address, which is full when it has no bucket. -/
def LinkPollGate.level (gate : LinkPollGate) (ip : IpAddr) : ℕ :=
  ((gate.book.lookup ip).map fun bucket => bucket.level gate.clock).getD capacity

theorem level_new (now : ℕ) : Bucket.level ⟨linkPollBurst, now⟩ now = capacity := by
  unfold Bucket.level Meter.fill Bucket.meter capacity
  simp

theorem LinkPollGate.level_le : gate.level ip ≤ capacity := by
  unfold LinkPollGate.level
  cases gate.book.lookup ip with
  | none => rw [Option.map_none, Option.getD_none]
  | some bucket =>
      rw [Option.map_some, Option.getD_some]
      exact Meter.fill_le _ _

/-- A meter fills by the time that passes. -/
theorem fill_later {meter : Meter} {clock now : ℕ} (before : meter.since ≤ clock)
    (later : clock ≤ now) :
    meter.fill capacity now = min capacity (meter.fill capacity clock + (now - clock)) :=
  (meter.fill_fill capacity before later).symm

theorem Tracking.bucketOf_level (tracking : Tracking gate) {now : ℕ} (later : gate.clock ≤ now) :
    (gate.bucketOf ip now).level now = min capacity (gate.level ip + (now - gate.clock)) := by
  unfold LinkPollGate.bucketOf LinkPollGate.level
  cases found : gate.book.lookup ip with
  | none =>
      rw [Option.getD_none, Option.map_none, Option.getD_none, level_new,
        Nat.min_eq_left (Nat.le_add_right _ _)]
  | some bucket =>
      have past : bucket.meter.since ≤ gate.clock := (tracking.part ip bucket found).2
      rw [Option.getD_some, Option.map_some, Option.getD_some, Bucket.level, Bucket.level,
        fill_later past later]

/-- An address that does not call, and is not evicted, fills by the time that passes. -/
theorem Tracking.level_other (tracking : Tracking gate) (called : Called gate poll after)
    (same : after.book.lookup ip = gate.book.lookup ip) :
    after.level ip = min capacity (gate.level ip + (poll.now - gate.clock)) := by
  rw [← tracking.bucketOf_level called.later]
  unfold LinkPollGate.bucketOf LinkPollGate.level
  rw [same, called.clock]
  cases gate.book.lookup ip with
  | none => rw [Option.map_none, Option.getD_none, Option.getD_none, level_new]
  | some bucket => rw [Option.map_some, Option.getD_some, Option.getD_some]

theorem Called.level_mine (called : Called gate poll after) :
    after.level poll.ip =
      ((gate.bucketOf poll.ip poll.now).take poll.now).1.level poll.now := by
  rw [LinkPollGate.level, called.mine, called.clock, Option.map_some, Option.getD_some]

end ScuffedCrew.LinkPoll
