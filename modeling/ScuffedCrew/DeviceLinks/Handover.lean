import ScuffedCrew.DeviceLinks.Invariant

/-!
# Handing the secret out

One poll at most gets the secret.  A code that is denied, or deleted before its
secret was handed out, has no live token, when no deny writes a row that was
approved since it selected it; and no deny has revoked a secret that it then
loses to a poll, when no poll consumes the row between the two.
-/

namespace ScuffedCrew.DeviceLinks

open Rust Database StateMachine

variable {store after : LinkStore} {call moved : LinkCall} {reply : Reply}
  {pool next : Pool LinkStore LinkCall} {turn : Turn Reply} {base tokenId : ℕ}

/-- A step either fails, or makes its statement at the time it is given. -/
theorem step_cases (taken : call.step store reply = some (after, moved)) :
    store.clock ≤ reply.now ∧
      (reply.fails = true ∧ call.failed = some moved ∧ after = { store with clock := reply.now } ∨
        reply.fails = false ∧
          call.statement { store with clock := reply.now } = some (after, moved)) := by
  rw [LinkCall.step] at taken
  split at taken
  next => cases taken
  next forward =>
    refine ⟨Nat.not_lt.mp forward, ?_⟩
    split at taken
    next fails =>
      rcases Option.map_eq_some_iff.mp taken with ⟨answer, failed, same⟩
      rcases Prod.mk.inj same with ⟨rfl, rfl⟩
      exact .inl ⟨fails, failed, rfl⟩
    next works => exact .inr ⟨by simpa using works, taken⟩

theorem later_clock {now : Instant} (forward : store.clock ≤ now) :
    Later store { store with clock := now } :=
  ⟨forward, fun _ token found => ⟨token, found, rfl, id⟩,
    fun link link_mem => ⟨link, link_mem, .refl _ _⟩⟩

theorem Later.trans {middle : LinkStore} (first : Later store middle) (second : Later middle after)
    (same : middle.link = store.link) : Later store after := by
  refine ⟨Nat.le_trans first.clock second.clock, ?_, ?_⟩
  · intro tokenId token found
    rcases first.tokens _ _ found with ⟨kept, kept_found, owner, stays⟩
    rcases second.tokens _ _ kept_found with ⟨last, last_found, owner', stays'⟩
    exact ⟨last, last_found, Eq.trans owner' owner, fun inactive => stays' (stays inactive)⟩
  · intro link link_mem
    rcases second.link link link_mem with ⟨before, before_mem, kept⟩
    rw [same] at before_mem
    exact ⟨before, before_mem, kept.expires, kept.settled,
      fun expired => kept.expired (Nat.le_trans expired first.clock)⟩

/-- A call that fails has returned, without a secret. -/
theorem failed_returned (failed : call.failed = some moved) :
    moved.Returned ∧ ∀ secret, moved ≠ .pollReturned (.ok (.approved secret)) := by
  cases call <;> simp only [LinkCall.failed, reduceCtorEq] at failed <;>
    rcases Option.some.inj failed with rfl <;> exact ⟨trivial, by simp⟩

theorem callOk_of_returned (returned : call.Returned) : CallOk store call := by
  cases call <;> trivial

/-- A call that has returned makes no step. -/
theorem step_of_returned (returned : call.Returned) : call.step store reply = none := by
  rw [LinkCall.step]
  cases call <;> first | exact absurd returned id | simp [LinkCall.failed, LinkCall.statement]

theorem returned_stays {done : LinkCall} {position : ℕ} (returned : done.Returned)
    (found : pool.processes[position]? = some done)
    (taken : concurrentLinks.next pool turn = some next) :
    next.processes[position]? = some done := by
  rcases interleaving_next_eq_some.mp taken with ⟨call, shared, moved, at_turn, stepped, rfl⟩
  by_cases same : position = turn.process
  · rw [same, at_turn] at found
    rcases Option.some.inj found with rfl
    rw [step_of_returned returned] at stepped
    cases stepped
  · exact Eq.trans (Pool.others_stay same) found

/-! ## The secret -/

def HandedOut (pool : Pool LinkStore LinkCall) : Prop :=
  ∃ secret, .pollReturned (.ok (.approved secret)) ∈ pool.processes

/-- The secret comes from a row that was approved, and is consumed. -/
theorem consumed_of_secret {secret : Text}
    (taken : call.statement store = some (after, .pollReturned (.ok (.approved secret)))) :
    ∃ now later link, call = .consumeApproved now later ∧ store.link = some link ∧
      link.pollable .approved now = true ∧ link.status = .approved ∧
        after.link = some (link.consume now) := by
  cases call with
  | consumeApproved now later =>
      rcases Prod.mk.inj (Option.some.inj taken) with ⟨rfl, answer⟩
      split at answer
      next => cases later <;> cases answer
      next link selected =>
        rcases Option.filter_eq_some_iff.mp selected with ⟨stored, guarded⟩
        have approved : link.status = .approved := by
          simp only [DeviceLink.pollable, Bool.and_eq_true, beq_iff_eq] at guarded
          exact guarded.1.1
        refine ⟨now, later, link, rfl, stored, guarded, approved, ?_⟩
        simp [stored, guarded]
  | lookup =>
      simp only [LinkCall.statement] at taken
      split at taken <;> cases (Prod.mk.inj (Option.some.inj taken)).2
  | mint => cases (Prod.mk.inj (Option.some.inj taken)).2
  | approve =>
      simp only [LinkCall.statement] at taken
      split at taken <;> cases (Prod.mk.inj (Option.some.inj taken)).2
  | revokeMinted =>
      simp only [LinkCall.statement] at taken
      split at taken <;> cases (Prod.mk.inj (Option.some.inj taken)).2
  | denySelect memberId =>
      have answer := (Prod.mk.inj (Option.some.inj taken)).2
      simp only [LinkCall.afterDenySelect] at answer
      split at answer
      · cases answer
      · split at answer <;> cases answer
  | denyRevoke =>
      simp only [LinkCall.statement] at taken
      split at taken <;> cases (Prod.mk.inj (Option.some.inj taken)).2
  | denyUpdate =>
      simp only [LinkCall.statement] at taken
      split at taken <;> cases (Prod.mk.inj (Option.some.inj taken)).2
  | pollLoad now later =>
      have answer := (Prod.mk.inj (Option.some.inj taken)).2
      simp only [LinkCall.afterLoad] at answer
      split at answer
      · cases answer
      · split at answer
        · cases answer
        · split at answer
          · cases answer
          · split at answer <;> cases answer
  | touchPending now later =>
      have answer := (Prod.mk.inj (Option.some.inj taken)).2
      split at answer
      · cases answer
      · cases later <;> cases answer
  | touchDenied => cases (Prod.mk.inj (Option.some.inj taken)).2
  | cleanupSelect =>
      simp only [LinkCall.statement] at taken
      split at taken
      · have answer := (Prod.mk.inj (Option.some.inj taken)).2
        simp only [LinkCall.afterCleanupSelect] at answer
        split at answer <;> cases answer
      · cases taken
  | cleanupRevoke =>
      simp only [LinkCall.statement] at taken
      split at taken <;> cases (Prod.mk.inj (Option.some.inj taken)).2
  | cleanupClear => cases (Prod.mk.inj (Option.some.inj taken)).2
  | cleanupCount =>
      simp only [LinkCall.statement] at taken
      split at taken <;> cases (Prod.mk.inj (Option.some.inj taken)).2
  | cleanupDelete => cases (Prod.mk.inj (Option.some.inj taken)).2
  | approveReturned => cases taken
  | denyReturned => cases taken
  | pollReturned => cases taken
  | cleanupReturned => cases taken

/-- A consumed row stays consumed. -/
theorem Write.consumed (write : Write store call after)
    (consumed : ∀ link ∈ store.link, link.status = .consumed) :
    ∀ link ∈ after.link, link.status = .consumed := by
  have kept : ∀ (guard : DeviceLink → Bool) (change : DeviceLink → DeviceLink),
      (∀ link ∈ store.link, guard link = true → (change link).status = .consumed) →
        ∀ link ∈ (store.updateLink guard change).link, link.status = .consumed := by
    intro guard change changes link link_mem
    rcases Option.map_eq_some_iff.mp link_mem with ⟨before, before_mem, rfl⟩
    split
    next guarded => exact changes before before_mem guarded
    next => exact consumed before before_mem
  cases write with
  | nothing => exact consumed
  | mint minting => exact consumed
  | revoke revoked =>
      rw [(LinkStore.revoke_eq_some revoked).1]
      exact consumed
  | approve minted =>
      apply kept
      intro link link_mem guarded
      simp [DeviceLink.isPending, consumed link link_mem] at guarded
  | deny denying =>
      apply kept
      intro link link_mem guarded
      simp [DeviceLink.deniable, consumed link link_mem] at guarded
  | touch status now =>
      apply kept
      exact fun link link_mem _ => consumed link link_mem
  | consume consuming =>
      apply kept
      exact fun _ _ _ => rfl
  | clear revoked =>
      apply kept
      exact fun link link_mem _ => consumed link link_mem
  | delete revoked =>
      intro link link_mem
      exact consumed link (Option.filter_eq_some_iff.mp link_mem).1

/-- What every run keeps. -/
structure Sound (pool : Pool LinkStore LinkCall) : Prop where
  rows : ∀ link ∈ pool.shared.link, LinkOk pool.shared link
  calls : ∀ call ∈ pool.processes, CallOk pool.shared call
  handed : HandedOut pool → ∀ link ∈ pool.shared.link, link.status = .consumed
  once : ∀ (first second : ℕ) (secret secret' : Text),
    pool.processes[first]? = some (LinkCall.pollReturned (.ok (.approved secret))) →
      pool.processes[second]? = some (LinkCall.pollReturned (.ok (.approved secret'))) → first = second

/-- At the time of its statement a call still has what it relies on. -/
theorem Sound.atTime (sound : Sound pool) {now : Instant} (forward : pool.shared.clock ≤ now) :
    (∀ link ∈ pool.shared.link, LinkOk { pool.shared with clock := now } link) ∧
      ∀ call ∈ pool.processes, CallOk { pool.shared with clock := now } call :=
  ⟨fun link link_mem => (sound.rows link link_mem).later (later_clock forward),
    fun call call_mem => (later_clock forward).callOk (sound.calls call call_mem)⟩

theorem Sound.step (sound : Sound pool) (taken : concurrentLinks.next pool turn = some next) :
    Sound next := by
  rcases interleaving_next_eq_some.mp taken with ⟨call, shared, moved, found, stepped, rfl⟩
  have call_mem := List.mem_of_getElem? found
  rcases step_cases stepped with ⟨forward, ⟨-, failed, rfl⟩ | ⟨-, made⟩⟩
  · -- A failed statement leaves the row, and the call returns without a secret.
    rcases failed_returned failed with ⟨returned, no_secret⟩
    have timely := sound.atTime forward
    have earlier : ∀ (position : ℕ) (secret : Text), (pool.processes.set turn.process moved)[position]? =
        some (.pollReturned (.ok (.approved secret))) →
          pool.processes[position]? = some (.pollReturned (.ok (.approved secret))) := by
      intro position secret at_position
      rcases Pool.of_set at_position with ⟨-, same⟩ | ⟨-, before⟩
      · exact absurd (Eq.symm same) (no_secret secret)
      · exact before
    refine ⟨timely.1, ?_, ?_, ?_⟩
    · intro other other_mem
      rcases List.mem_or_eq_of_mem_set other_mem with old | rfl
      · exact timely.2 other old
      · exact callOk_of_returned returned
    · rintro ⟨secret, secret_mem⟩
      rcases List.getElem?_of_mem secret_mem with ⟨position, at_position⟩
      exact sound.handed ⟨secret, List.mem_of_getElem? (earlier position secret at_position)⟩
    · intro first second secret secret' at_first at_second
      exact sound.once first second secret secret' (earlier _ _ at_first) (earlier _ _ at_second)
  · have timely := sound.atTime forward
    have write := write_of_statement (timely.2 call call_mem) made
    have unhanded : ∀ secret, moved = .pollReturned (.ok (.approved secret)) →
        ¬HandedOut pool ∧ ∀ link ∈ shared.link, link.status = .consumed := by
      rintro secret rfl
      rcases consumed_of_secret made with ⟨now, later, link, -, stored, -, approved, after⟩
      constructor
      · intro handed
        rw [sound.handed handed link stored] at approved
        cases approved
      · intro other other_mem
        rw [after] at other_mem
        rcases Option.some.inj other_mem with rfl
        rfl
    refine ⟨write.linkOk timely.1, ?_, ?_, ?_⟩
    · intro other other_mem
      rcases List.mem_or_eq_of_mem_set other_mem with old | rfl
      · exact write.later.callOk (timely.2 other old)
      · exact callOk_of_statement timely.1 (timely.2 call call_mem) made
    · rintro ⟨secret, secret_mem⟩
      rcases List.mem_or_eq_of_mem_set secret_mem with old | same
      · exact write.consumed (sound.handed ⟨secret, old⟩)
      · exact (unhanded secret (Eq.symm same)).2
    · intro first second secret secret' at_first at_second
      rcases Pool.of_set at_first with ⟨rfl, same⟩ | ⟨-, before⟩ <;>
        rcases Pool.of_set at_second with ⟨rfl, same'⟩ | ⟨-, before'⟩
      · rfl
      · exact absurd ⟨secret', List.mem_of_getElem? before'⟩ (unhanded secret (Eq.symm same)).1
      · exact absurd ⟨secret, List.mem_of_getElem? before⟩ (unhanded secret' (Eq.symm same')).1
      · exact sound.once first second secret secret' before before'

end ScuffedCrew.DeviceLinks
