import ScuffedCrew.LoginLockout.Changes

/-!
# Lockouts over a run

The records are bounded, a lock is left alone until its deadline, and the longest
lock spaces the failures that are counted of a name.
-/

namespace ScuffedCrew.LoginLockout

open Rust (Text HashMap)
open StateMachine (Step Machine)

section Bounded

variable {state after : Lockout} {call : Call}

theorem len_next (step : machine.next state call = some after)
    (bounded : state.records.len ≤ maxTrackedAccounts) :
    after.records.len ≤ maxTrackedAccounts := by
  cases call with
  | recordFailure name now order =>
      rcases Option.ite_none_right_eq_some.mp step with ⟨⟨-, orders⟩, reached⟩
      rcases Option.some.inj reached with rfl
      exact len_recordFailureAt orders bounded
  | recordSuccess name =>
      rcases Option.some.inj step with rfl
      cases tracked : state.records.lookup name with
      | none =>
          have same := HashMap.total_erase_of_none (fun _ => 1) tracked
          rw [← HashMap.len_eq_total, ← HashMap.len_eq_total] at same
          exact same.le.trans bounded
      | some record =>
          have shorter := HashMap.len_erase_of_lookup tracked
          exact Nat.le_of_succ_le (shorter.le.trans bounded)
  | retryAfter name now =>
      rcases Option.ite_none_right_eq_some.mp step with ⟨-, reached⟩
      rcases Option.some.inj reached with rfl
      exact bounded

end Bounded

/-- The least valuable record of a full map is that of the name. -/
def Evicts (step : Step Lockout Call) (username : Text) : Prop :=
  ∃ other now order record, step.event = .recordFailure other now order ∧
    step.before.records.lookup other = none ∧
    step.before.records.lookup username = some record ∧ ¬isIdle record now ∧
    step.after.records.lookup username = none

/-! ## Deadlines -/

section Deadlines

variable {record : Record} {username : Text} {now : ℕ} {steps : List (Step Lockout Call)}
  {state after : Lockout} {call : Call}

theorem remaining_isSome_of_rank_le {rival : Record}
    (locked : (remaining record now).isSome)
    (least : evictionRank record now ≤ evictionRank rival now) :
    (remaining rival now).isSome := by
  have first := Prod.Lex.monotone_fst _ _ least
  change (remaining record now).isSome ≤ (remaining rival now).isSome at first
  rw [locked] at first
  exact top_le_iff.mp first

/-- A lock lasts until its deadline, unless a success ends it or it makes room while all are
locked. -/
theorem lock_kept {step : Step Lockout Call} {deadline : ℕ} (change : Change username step)
    (tracked : step.before.records.lookup username = some record)
    (locked : record.lockedUntil = some deadline) (ahead : step.after.clock < deadline) :
    step.after.records.lookup username = some record ∨ step.event = .recordSuccess username ∨
      Evicts step username ∧ ∀ other rival, step.before.records.lookup other = some rival →
        (remaining rival step.after.clock).isSome := by
  have still : (remaining record step.after.clock).isSome :=
    remaining_isSome_iff.mpr ⟨deadline, locked, ahead⟩
  cases change with
  | counted time later clock unlocked =>
      subst clock
      exact absurd (locked_iff.mpr ⟨record, deadline, tracked, locked, ahead⟩) unlocked
  | cleared event => exact .inr (.inl event)
  | kept uncounted later same => exact .inl (same.trans tracked)
  | dropped uncounted later found idle =>
      rcases Option.some.inj (tracked.symm.trans found) with rfl
      rw [(isIdle_iff.mp idle).1] at still
      cases still
  | @evicted other order _ event untracked found busy least gone =>
      rcases Option.some.inj (tracked.symm.trans found) with rfl
      refine .inr (.inr ⟨⟨other, _, order, record, event, untracked, tracked, busy, gone⟩, ?_⟩)
      intro name rival rival_tracked
      exact remaining_isSome_of_rank_le still (least name rival rival_tracked)

/-- Every lock was set by the last failure counted of its name. -/
def LastCounted (username : Text) (steps : List (Step Lockout Call)) (state : Lockout) : Prop :=
  ∀ record, state.records.lookup username = some record →
    ∃ last, (counted username steps).getLast? = some last ∧
      ∀ deadline, record.lockedUntil = some deadline → deadline ≤ last + maxLock

theorem counted_snoc {step : Step Lockout Call} : counted username (steps ++ [step]) =
    counted username steps ++ (countedAt username step).toList := by
  cases time : countedAt username step <;> simp [counted, time]

theorem LastCounted.next (kept : LastCounted username steps state)
    (change : Change username ⟨state, call, after⟩) :
    LastCounted username (steps ++ [⟨state, call, after⟩]) after := by
  intro record tracked
  rw [counted_snoc]
  cases change with
  | @counted now time later clock unlocked found =>
      refine ⟨now, by simp [time], fun deadline locked => ?_⟩
      rcases Option.some.inj (tracked.symm.trans found) with rfl
      rcases Option.map_eq_some_iff.mp locked with ⟨lock, tier, rfl⟩
      exact Nat.add_le_add_left (lockFor_le tier) now
  | cleared event gone => cases tracked.symm.trans gone
  | kept uncounted later same =>
      rw [uncounted, Option.toList_none, List.append_nil]
      exact kept record (same.symm.trans tracked)
  | dropped uncounted later found idle gone => cases tracked.symm.trans gone
  | evicted event untracked found busy least gone => cases tracked.symm.trans gone

end Deadlines

/-! ## The pace of the failures -/

/-- How many of the times lie in the failure window that begins at a time. -/
def within (start : ℕ) (times : List ℕ) : ℕ :=
  times.countP fun time => decide (start ≤ time ∧ time < start + failureWindow)

/-- The failures stored for a name. -/
def stored (state : Lockout) (username : Text) : List ℕ :=
  ((state.records.lookup username).map Record.failures).getD []

/-- The stored failures account for those counted.  With twelve of them in the window the name
is locked until half of it has passed, and with thirteen until its end. -/
structure Paced (username : Text) (start : ℕ) (steps : List (Step Lockout Call))
    (state : Lockout) : Prop where
  past : ∀ time ∈ counted username steps, time ≤ state.clock
  accounted : ∀ now, state.clock ≤ now →
    (live now (counted username steps)).length ≤ (live now (stored state username)).length
  few : within start (counted username steps) ≤ 13
  twelve : within start (counted username steps) = 12 →
    ∀ now, state.clock ≤ now → ¬Locked state.records username now →
      now < start + failureWindow → start + maxLock ≤ now
  thirteen : within start (counted username steps) = 13 →
    ∀ now, state.clock ≤ now → ¬Locked state.records username now → start + failureWindow ≤ now

section Pace

variable {username : Text} {start now time : ℕ} {times : List ℕ} {steps : List (Step Lockout Call)}
  {state after : Lockout} {call : Call}

theorem live_live (later : time ≤ now) : live now (live time times) = live now times := by
  rw [live, live, List.filter_filter]
  apply List.filter_congr
  intro failure _
  have sooner : now - failure < failureWindow → time - failure < failureWindow := by omega
  by_cases fresh : now - failure < failureWindow
  · simp [fresh, sooner fresh]
  · simp [fresh]

theorem live_append {more : List ℕ} : live now (times ++ more) = live now times ++ live now more :=
  List.filter_append ..

/-- The failures in a window are live until it ends. -/
theorem within_le_live (past : ∀ time ∈ times, time ≤ now) (inside : now < start + failureWindow) :
    within start times ≤ (live now times).length := by
  rw [within, live, ← List.countP_eq_length_filter]
  apply List.countP_mono_left
  intro failure listed window
  have before := past failure listed
  rw [decide_eq_true_eq] at window ⊢
  omega

theorem within_append : within start (times ++ [time]) =
    within start times + if start ≤ time ∧ time < start + failureWindow then 1 else 0 := by
  simp [within, List.countP_append, List.countP_singleton]

theorem within_eq_zero (past : ∀ time ∈ times, time < start) : within start times = 0 := by
  rw [within, List.countP_eq_zero]
  intro failure listed window
  have before := past failure listed
  rw [decide_eq_true_eq] at window
  omega

theorem Paced.init (clock : ℕ) (records : Records) : Paced username start [] ⟨records, clock⟩ where
  past _ listed := by cases listed
  accounted _ _ := Nat.zero_le _
  few := Nat.zero_le _
  twelve none_counted := by cases none_counted
  thirteen none_counted := by cases none_counted

/-- A failure that is counted. -/
theorem Paced.count (paced : Paced username start steps state) (later : state.clock ≤ time)
    (clock : after.clock = time) (unlocked : ¬Locked state.records username time)
    (record : after.records.lookup username =
      some (((state.records.lookup username).getD ⟨[], none⟩).fail time))
    (now_counted : counted username (steps ++ [⟨state, call, after⟩]) =
      counted username steps ++ [time]) :
    Paced username start (steps ++ [⟨state, call, after⟩]) after := by
  subst clock
  have past : ∀ time ∈ counted username steps, time ≤ after.clock :=
    fun time listed => (paced.past time listed).trans later
  have failures : (((state.records.lookup username).getD ⟨[], none⟩).fail after.clock).failures =
      live after.clock (stored state username) ++ [after.clock] := by
    cases tracked : state.records.lookup username <;>
      simp [Record.fail, stored, tracked]
  have stored' : stored after username =
      live after.clock (stored state username) ++ [after.clock] := by
    rw [stored, record]
    exact failures
  -- From the twelfth failure on, the longest lock is set.
  have locks : after.clock < start + failureWindow → 11 ≤ within start (counted username steps) →
      ∀ now, ¬Locked after.records username now → after.clock + maxLock ≤ now := by
    intro inside many now unlocked
    have known := within_le_live past inside
    have accounted := paced.accounted after.clock later
    have top : lockFor (live after.clock (stored state username) ++
        [after.clock]).length = some maxLock := by
      apply lockFor_top
      rw [List.length_append, List.length_singleton]
      omega
    have deadline : (((state.records.lookup username).getD ⟨[], none⟩).fail
        after.clock).lockedUntil = some (after.clock + maxLock) := by
      change (lockFor (Record.fail _ after.clock).failures.length).map _ = _
      rw [failures, top]
      rfl
    by_contra ahead
    exact unlocked (locked_iff.mpr ⟨_, _, record, deadline, by omega⟩)
  have before := paced.few
  have half : failureWindow = maxLock + maxLock := rfl
  refine ⟨?_, ?_, ?_, ?_, ?_⟩
  · rw [now_counted]
    intro time listed
    rcases List.mem_append.mp listed with earlier | last
    · exact past time earlier
    · exact (List.mem_singleton.mp last).le
  · intro now later'
    rw [now_counted, stored', live_append, live_append, live_live later', List.length_append,
      List.length_append]
    exact Nat.add_le_add_right (paced.accounted now (later.trans later')) _
  all_goals
    rw [now_counted, within_append]
    by_cases window : start ≤ after.clock ∧ after.clock < start + failureWindow
  · rw [if_pos window]
    by_contra many
    have thirteen : within start (counted username steps) = 13 := by omega
    have ended := paced.thirteen thirteen after.clock later unlocked
    omega
  · rw [if_neg window]
    exact before
  · rw [if_pos window]
    intro twelve now later' unlocked' _
    have locked := locks window.2 (by omega) now unlocked'
    omega
  · rw [if_neg window]
    intro twelve now later' unlocked' inside
    have earlier : after.clock < start := by omega
    rw [within_eq_zero fun time listed => Nat.lt_of_le_of_lt (past time listed) earlier] at twelve
    cases twelve
  · rw [if_pos window]
    intro thirteen now later' unlocked'
    have twelve : within start (counted username steps) = 12 := by omega
    have half_past := paced.twelve twelve after.clock later unlocked window.2
    have locked := locks window.2 (by omega) now unlocked'
    omega
  · rw [if_neg window]
    intro thirteen now later' unlocked'
    by_contra inside
    have earlier : after.clock < start := by omega
    rw [within_eq_zero fun time listed => Nat.lt_of_le_of_lt (past time listed) earlier] at thirteen
    cases thirteen

/-- A call that counts no failure of the name and leaves its stored failures, or drops them when
they have all aged out. -/
theorem Paced.wait (paced : Paced username start steps state) (later : state.clock ≤ after.clock)
    (uncounted : countedAt username ⟨state, call, after⟩ = none)
    (same : after.records.lookup username = state.records.lookup username ∨
      after.records.lookup username = none ∧
        ∀ failure ∈ stored state username, failureWindow ≤ after.clock - failure) :
    Paced username start (steps ++ [⟨state, call, after⟩]) after := by
  have times : counted username (steps ++ [⟨state, call, after⟩]) = counted username steps := by
    rw [counted_snoc, uncounted, Option.toList_none, List.append_nil]
  have past : ∀ time ∈ counted username steps, time ≤ after.clock :=
    fun time listed => (paced.past time listed).trans later
  rcases same with same | ⟨gone, aged⟩
  · have locked : ∀ now, Locked after.records username now ↔ Locked state.records username now := by
      intro now
      rw [Locked, Locked, retryAfterAt, retryAfterAt, same]
    have stored' : stored after username = stored state username := by
      rw [stored, stored, same]
    refine ⟨?_, ?_, ?_, ?_, ?_⟩ <;> rw [times]
    · exact past
    · rw [stored']
      exact fun now later' => paced.accounted now (later.trans later')
    · exact paced.few
    · exact fun twelve now later' unlocked =>
        paced.twelve twelve now (later.trans later') fun before => unlocked ((locked now).mpr before)
    · exact fun thirteen now later' unlocked =>
        paced.thirteen thirteen now (later.trans later') fun before =>
          unlocked ((locked now).mpr before)
  · -- No failure is live any more, so a window that holds one has passed.
    have none_live : ∀ now, after.clock ≤ now →
        (live now (counted username steps)).length = 0 := by
      intro now later'
      have accounted := paced.accounted now (later.trans later')
      have empty : live now (stored state username) = [] := by
        rw [live, List.filter_eq_nil_iff]
        intro failure listed
        have old := aged failure listed
        rw [decide_eq_true_eq]
        omega
      rw [empty, List.length_nil] at accounted
      exact Nat.le_zero.mp accounted
    have passed : 0 < within start (counted username steps) → ∀ now, after.clock ≤ now →
        start + failureWindow ≤ now := by
      intro some_counted now later'
      by_contra inside
      have known : within start _ ≤ _ :=
        within_le_live past (Nat.lt_of_le_of_lt later' (by omega))
      rw [none_live after.clock (Nat.le_refl _)] at known
      omega
    refine ⟨?_, ?_, ?_, ?_, ?_⟩ <;> rw [times]
    · exact past
    · intro now later'
      rw [none_live now later']
      exact Nat.zero_le _
    · exact paced.few
    · intro twelve now later' _ inside
      have ended := passed (by omega) now later'
      omega
    · exact fun thirteen now later' _ => passed (by omega) now later'

theorem Paced.next (paced : Paced username start steps state)
    (change : Change username ⟨state, call, after⟩) (no_success : call ≠ .recordSuccess username)
    (no_eviction : ¬Evicts ⟨state, call, after⟩ username) :
    Paced username start (steps ++ [⟨state, call, after⟩]) after := by
  cases change with
  | counted time later clock unlocked record =>
      refine paced.count later clock unlocked record ?_
      rw [counted_snoc, time, Option.toList_some]
  | cleared event => exact absurd event no_success
  | kept uncounted later same => exact paced.wait later uncounted (.inl same)
  | dropped uncounted later found idle gone =>
      refine paced.wait later uncounted (.inr ⟨gone, ?_⟩)
      have found : state.records.lookup username = some _ := found
      rw [stored, found]
      exact (isIdle_iff.mp idle).2
  | evicted event untracked found busy least gone =>
      exact absurd ⟨_, _, _, _, event, untracked, found, busy, gone⟩ no_eviction

end Pace

/-! ## Every run -/

/-- What the lockout keeps over the calls made so far. -/
structure Sound (steps : List (Step Lockout Call)) (final : Lockout) : Prop where
  bounded : final.records.len ≤ maxTrackedAccounts
  ignored : ∀ step ∈ steps, ∀ username now order,
    step.event = .recordFailure username now order → Locked step.before.records username now →
      step.after.records.lookup username = step.before.records.lookup username
  capped : ∀ username record deadline, final.records.lookup username = some record →
    record.lockedUntil = some deadline →
      ∃ last, (counted username steps).getLast? = some last ∧ deadline ≤ last + maxLock
  kept : ∀ step ∈ steps, ∀ username record deadline,
    step.before.records.lookup username = some record → record.lockedUntil = some deadline →
      step.after.clock < deadline →
        step.after.records.lookup username = some record ∨ step.event = .recordSuccess username ∨
          Evicts step username ∧ ∀ other rival, step.before.records.lookup other = some rival →
            (remaining rival step.after.clock).isSome
  paced : ∀ first middle last, steps = first ++ middle ++ last → ∀ username,
    (∀ step ∈ middle, step.event ≠ .recordSuccess username ∧ ¬Evicts step username) →
      ∀ start, within start (counted username middle) ≤ 13

section Runs

variable {start state final : Lockout} {steps : List (Step Lockout Call)}

theorem bounded_of_run (run : machine.Run start steps final)
    (bounded : start.records.len ≤ maxTrackedAccounts) :
    final.records.len ≤ maxTrackedAccounts :=
  run.invariant (fun state => state.records.len ≤ maxTrackedAccounts) bounded len_next

theorem change_of_mem (run : machine.Run start steps final)
    (bounded : start.records.len ≤ maxTrackedAccounts) {step : Step Lockout Call}
    (step_mem : step ∈ steps) (username : Text) : Change username step := by
  rcases List.append_of_mem step_mem with ⟨before, later, rfl⟩
  rcases run.reaches_before with ⟨reached, taken⟩
  exact change_of_next (bounded_of_run reached bounded) taken username

theorem lastCounted_of_run (run : machine.Run start steps final)
    (bounded : start.records.len ≤ maxTrackedAccounts) (username : Text)
    (untracked : start.records.lookup username = none) : LastCounted username steps final := by
  induction run with
  | refl =>
      intro record tracked
      cases untracked.symm.trans tracked
  | snoc run step ih =>
      exact ih.next (change_of_next (bounded_of_run run bounded) step username)

theorem paced_of_run (run : machine.Run start steps final)
    (bounded : start.records.len ≤ maxTrackedAccounts) (username : Text) (from_time : ℕ)
    (quiet : ∀ step ∈ steps, step.event ≠ .recordSuccess username ∧ ¬Evicts step username) :
    Paced username from_time steps final := by
  induction run with
  | refl => exact .init _ _
  | @snoc before state after call run step ih =>
      rcases quiet ⟨state, call, after⟩ (by simp) with ⟨no_success, no_eviction⟩
      refine Paced.next (ih fun earlier earlier_mem => ?_)
        (change_of_next (bounded_of_run run bounded) step username) no_success no_eviction
      exact quiet earlier (List.mem_append_left _ earlier_mem)

end Runs

/-- Every run of calls from an empty map. -/
theorem lockout_sound {clock : ℕ} {steps : List (Step Lockout Call)} {final : Lockout}
    (run : machine.Run ⟨∅, clock⟩ steps final) : Sound steps final := by
  have bounded : (⟨∅, clock⟩ : Lockout).records.len ≤ maxTrackedAccounts := Nat.zero_le _
  refine ⟨bounded_of_run run bounded, ?_, ?_, ?_, ?_⟩
  · intro step step_mem username now order event locked
    have taken := run.next_of_mem step step_mem
    rw [event] at taken
    rcases Option.ite_none_right_eq_some.mp taken with ⟨-, reached⟩
    rw [← Option.some.inj reached]
    exact congrArg (AList.lookup username) (recordFailureAt_of_locked locked)
  · intro username record deadline tracked locked
    rcases lastCounted_of_run run bounded username rfl record tracked with ⟨last, found, capped⟩
    exact ⟨last, found, capped deadline locked⟩
  · exact fun step step_mem username record deadline tracked locked ahead =>
      lock_kept (change_of_mem run bounded step_mem username) tracked locked ahead
  · rintro first middle last rfl username quiet from_time
    rcases run.exists_middle with ⟨_, left, -⟩
    rcases left.exists_middle with ⟨_, earlier, part⟩
    exact (paced_of_run part (bounded_of_run earlier bounded) username from_time quiet).few

theorem boss_fails_twice :
    Sound (machine.stepsOf ⟨∅, 0⟩ [.recordFailure "boss".toList 7 [],
        .recordFailure "boss".toList 9 [⟨"boss".toList, ⟨[7], none⟩⟩],
        .retryAfter "boss".toList 12])
      ⟨AList.insert "boss".toList ⟨[7, 9], none⟩ ∅, 12⟩ :=
  lockout_sound (.of_exec rfl)

end ScuffedCrew.LoginLockout
