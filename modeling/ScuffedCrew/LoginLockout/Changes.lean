import ScuffedCrew.LoginLockout.Store

/-!
# What a call does to a name

A call counts a failure of the name, clears it, leaves it as it is, or drops it
to make room: an idle record, or the least valuable one of a full map.
-/

namespace ScuffedCrew.LoginLockout

open Rust (Text HashMap)
open StateMachine (Step)

def Locked (records : Records) (username : Text) (now : ℕ) : Prop :=
  (retryAfterAt records username now).isSome

instance (records : Records) (username : Text) (now : ℕ) : Decidable (Locked records username now) :=
  inferInstanceAs (Decidable (_ = true))

/-- The time of a failure that is counted: one of a name that is not locked. -/
def countedAt (username : Text) (step : Step Lockout Call) : Option ℕ :=
  match step.event with
  | .recordFailure name now _ =>
      if name = username ∧ ¬Locked step.before.records username now then some now else none
  | _ => none

/-- The times at which failures of the name are counted. -/
def counted (username : Text) (steps : List (Step Lockout Call)) : List ℕ :=
  steps.filterMap (countedAt username)

/-- What a call does to the record of a name. -/
inductive Change (username : Text) (step : Step Lockout Call) : Prop where
  | counted {now : ℕ} (time : countedAt username step = some now)
      (later : step.before.clock ≤ now) (clock : step.after.clock = now)
      (unlocked : ¬Locked step.before.records username now)
      (record : step.after.records.lookup username =
        some (((step.before.records.lookup username).getD ⟨[], none⟩).fail now))
  | cleared (event : step.event = .recordSuccess username)
      (gone : step.after.records.lookup username = none)
  | kept (uncounted : countedAt username step = none)
      (later : step.before.clock ≤ step.after.clock)
      (same : step.after.records.lookup username = step.before.records.lookup username)
  | dropped {record : Record} (uncounted : countedAt username step = none)
      (later : step.before.clock ≤ step.after.clock)
      (found : step.before.records.lookup username = some record)
      (idle : isIdle record step.after.clock)
      (gone : step.after.records.lookup username = none)
  | evicted {other : Text} {order : List (Σ _ : Text, Record)} {record : Record}
      (event : step.event = .recordFailure other step.after.clock order)
      (untracked : step.before.records.lookup other = none)
      (found : step.before.records.lookup username = some record)
      (busy : ¬isIdle record step.after.clock)
      (least : ∀ name rival, step.before.records.lookup name = some rival →
        evictionRank record step.after.clock ≤ evictionRank rival step.after.clock)
      (gone : step.after.records.lookup username = none)

section Locks

variable {records : Records} {record : Record} {username : Text} {now : ℕ}

theorem remaining_isSome_iff :
    (remaining record now).isSome ↔ ∃ deadline, record.lockedUntil = some deadline ∧
      now < deadline := by
  unfold remaining
  cases record.lockedUntil with
  | none => simp
  | some deadline =>
      simp only [Option.bind_some, Option.some.injEq, exists_eq_left']
      split
      next past => simpa using past
      next ahead => simpa using ahead

theorem locked_iff : Locked records username now ↔ ∃ record deadline,
    records.lookup username = some record ∧ record.lockedUntil = some deadline ∧
      now < deadline := by
  unfold Locked retryAfterAt
  cases records.lookup username with
  | none => simp
  | some record =>
      rw [Option.bind_some, remaining_isSome_iff]
      simp

theorem isIdle_iff : isIdle record now ↔
    (remaining record now).isSome = false ∧
      ∀ failure ∈ record.failures, failureWindow ≤ now - failure := by
  simp [isIdle]

/-- A lock is as long as the last tier it reaches. -/
theorem lockFor_le {count lock : ℕ} (locks : lockFor count = some lock) : lock ≤ maxLock := by
  unfold lockFor at locks
  rcases Option.map_eq_some_iff.mp locks with ⟨tier, found, rfl⟩
  have listed := List.mem_of_find?_eq_some found
  rw [List.mem_reverse] at listed
  have all : ∀ tier ∈ tiers, tier.lock ≤ maxLock := by decide
  exact all tier listed

theorem lockFor_top {count : ℕ} (many : 12 ≤ count) : lockFor count = some maxLock := by
  simp [lockFor, tiers, many]

end Locks

section Room

variable {records : Records} {username name : Text} {now : ℕ}
  {order : List (Σ _ : Text, Record)}

theorem lookup_retained {record : Record} :
    (retained records now).lookup name = some record ↔
      records.lookup name = some record ∧ ¬isIdle record now := by
  rw [retained, HashMap.lookup_retain, Option.filter_eq_some_iff]
  simp

theorem lookup_of_mem_order (orders : order.Perm (retained records now).entries)
    {entry : Σ _ : Text, Record} (listed : entry ∈ order) :
    (retained records now).lookup entry.1 = some entry.2 :=
  AList.mem_lookup_iff.mpr (orders.mem_iff.mp listed)

/-- The name that makes room, and why it is that one. -/
theorem evict_cases (orders : order.Perm (retained records now).entries)
    (full : maxTrackedAccounts ≤ (retained records now).len) :
    ∃ victim record, (retained records now).lookup victim = some record ∧
      evictLeastValuable (retained records now) now order =
        (retained records now).erase victim ∧
      ∀ name rival, (retained records now).lookup name = some rival →
        evictionRank record now ≤ evictionRank rival now := by
  unfold evictLeastValuable
  split
  next none_left =>
    have empty := List.argmin_eq_none.mp none_left
    have length := orders.length_eq
    rw [empty, List.length_nil] at length
    have none_kept : (retained records now).len = 0 := length.symm
    rw [none_kept] at full
    exact absurd full (by decide)
  next victim found =>
    refine ⟨victim.1, victim.2, lookup_of_mem_order orders (List.argmin_mem found), rfl, ?_⟩
    intro name rival tracked
    have listed : (⟨name, rival⟩ : Σ _ : Text, Record) ∈ order :=
      orders.mem_iff.mpr (AList.mem_lookup_iff.mp tracked)
    exact List.le_of_mem_argmin listed found

theorem makeRoom_of_tracked (tracked : (records.lookup username).isSome) :
    makeRoom records username now order = records := by
  rw [makeRoom, if_neg]
  simp [Option.isSome_iff_ne_none.mp tracked]

/-- The username that needs the room is looked up as before. -/
theorem lookup_makeRoom_self (orders : order.Perm (retained records now).entries) :
    (makeRoom records username now order).lookup username = records.lookup username := by
  cases tracked : records.lookup username with
  | some record =>
      rw [makeRoom_of_tracked (by simp [tracked]), tracked]
  | none =>
      have unkept : (retained records now).lookup username = none := by
        rw [retained, HashMap.lookup_retain, tracked]
        rfl
      unfold makeRoom
      split
      · split
        next full =>
          rcases evict_cases orders full with ⟨victim, record, -, evicts, -⟩
          rw [evicts, HashMap.lookup_erase', unkept, ite_self]
        · exact unkept
      · exact tracked

/-- After room is made, there is a place for a name that is not tracked. -/
theorem len_makeRoom (orders : order.Perm (retained records now).entries)
    (bounded : records.len ≤ maxTrackedAccounts) (untracked : records.lookup username = none) :
    (makeRoom records username now order).len < maxTrackedAccounts := by
  unfold makeRoom
  simp only [untracked, Option.isNone_none, true_and]
  split
  · split
    next full =>
      rcases evict_cases orders full with ⟨victim, record, tracked, evicts, -⟩
      have shorter := HashMap.len_erase_of_lookup tracked
      have kept : (retained records now).len ≤ records.len := HashMap.len_retain_le _ _
      rw [evicts]
      omega
    next room => exact Nat.lt_of_not_le room
  next room => exact Nat.lt_of_not_le room

end Room

theorem len_recordFailureAt {records : Records} {username : Text} {now : ℕ}
    {order : List (Σ _ : Text, Record)} (orders : order.Perm (retained records now).entries)
    (bounded : records.len ≤ maxTrackedAccounts) :
    (recordFailureAt records username now order).1.len ≤ maxTrackedAccounts := by
  unfold recordFailureAt
  split
  next => exact bounded
  next =>
    dsimp only
    cases tracked : records.lookup username with
    | some record =>
        rw [makeRoom_of_tracked (by simp [tracked])]
        have same := HashMap.total_insert_of_lookup (fun _ => 1) tracked
          (((records.lookup username).getD ⟨[], none⟩).fail now)
        rw [← HashMap.len_eq_total, ← HashMap.len_eq_total] at same
        omega
    | none =>
        have room := len_makeRoom orders bounded tracked
        have free : (makeRoom records username now order).lookup username = none := by
          rw [lookup_makeRoom_self orders, tracked]
        rw [HashMap.len_insert_of_none free]
        omega

/-- What making room does to a name. -/
theorem lookup_makeRoom {records : Records} (username name : Text) {now : ℕ}
    {order : List (Σ _ : Text, Record)} (orders : order.Perm (retained records now).entries)
    (bounded : records.len ≤ maxTrackedAccounts) :
    (makeRoom records username now order).lookup name = records.lookup name ∨
      ∃ record, records.lookup name = some record ∧
        (makeRoom records username now order).lookup name = none ∧
        (isIdle record now ∨ records.lookup username = none ∧ ¬isIdle record now ∧
          ∀ other rival, records.lookup other = some rival →
            evictionRank record now ≤ evictionRank rival now) := by
  unfold makeRoom
  split
  next needs =>
    split
    next full =>
      -- A full map has no idle record, so the first round has dropped nothing.
      have same : retained records now = records :=
        HashMap.retain_eq_self (bounded.trans full)
      rcases evict_cases orders full with ⟨victim, record, tracked, evicts, least⟩
      have busy := (lookup_retained.mp tracked).2
      rw [evicts, HashMap.lookup_erase']
      rw [same] at tracked least ⊢
      split
      next here =>
        subst here
        exact .inr ⟨record, tracked, rfl, .inr ⟨Option.isNone_iff_eq_none.mp needs.1, busy, least⟩⟩
      next => exact .inl rfl
    next =>
      rw [retained, HashMap.lookup_retain]
      cases records.lookup name with
      | none => exact .inl rfl
      | some record => cases idle : isIdle record now <;> simp [idle]
  next => exact .inl rfl

/-- A failure during a lock is not recorded. -/
theorem recordFailureAt_of_locked {records : Records} {username : Text} {now : ℕ}
    {order : List (Σ _ : Text, Record)} (locked : Locked records username now) :
    (recordFailureAt records username now order).1 = records := by
  rcases Option.isSome_iff_exists.mp locked with ⟨secs, left⟩
  unfold retryAfterAt at left
  unfold recordFailureAt
  rw [left]

/-- Every call changes a name in one of the ways listed. -/
theorem change_of_next {state after : Lockout} {call : Call} (bounded : state.records.len ≤
      maxTrackedAccounts) (step : machine.next state call = some after) (username : Text) :
    Change username ⟨state, call, after⟩ := by
  cases call with
  | recordFailure name now order =>
      rcases Option.ite_none_right_eq_some.mp step with ⟨⟨later, orders⟩, reached⟩
      rcases Option.some.inj reached with rfl
      by_cases locked : Locked state.records name now
      · have same : (recordFailureAt state.records name now order).1 = state.records :=
          recordFailureAt_of_locked locked
        refine .kept ?_ later ?_
        · simp only [countedAt]
          rw [if_neg]
          rintro ⟨rfl, unlocked⟩
          exact unlocked locked
        · exact congrArg (AList.lookup username) same
      · have left : retryAfterAt state.records name now = none := by
          simpa [Locked] using locked
        have records : (recordFailureAt state.records name now order).1 =
            (makeRoom state.records name now order).insert name
              (((state.records.lookup name).getD ⟨[], none⟩).fail now) := by
          unfold recordFailureAt
          unfold retryAfterAt at left
          rw [left]
          dsimp only
          rw [lookup_makeRoom_self orders]
        by_cases here : username = name
        · subst here
          refine .counted ?_ later rfl locked ?_
          · simp [countedAt, locked]
          · exact (congrArg (AList.lookup username) records).trans (AList.lookup_insert _)
        · have uncounted : countedAt username ⟨state, .recordFailure name now order,
              ⟨(recordFailureAt state.records name now order).1, now⟩⟩ = none := by
            simp [countedAt, Ne.symm here]
          have found : (recordFailureAt state.records name now order).1.lookup username =
              (makeRoom state.records name now order).lookup username := by
            rw [records, AList.lookup_insert_ne here]
          rcases lookup_makeRoom name username orders bounded with
            same | ⟨record, tracked, gone, idle | ⟨untracked, busy, least⟩⟩
          · exact .kept uncounted later (found.trans same)
          · exact .dropped uncounted later tracked idle (found.trans gone)
          · exact .evicted rfl untracked tracked busy least (found.trans gone)
  | recordSuccess name =>
      rcases Option.some.inj step with rfl
      by_cases here : username = name
      · subst here
        exact .cleared rfl (AList.lookup_erase _ _)
      · exact .kept rfl (Nat.le_refl _) (AList.lookup_erase_ne here)
  | retryAfter name now =>
      rcases Option.ite_none_right_eq_some.mp step with ⟨later, reached⟩
      rcases Option.some.inj reached with rfl
      exact .kept rfl later rfl

end ScuffedCrew.LoginLockout
