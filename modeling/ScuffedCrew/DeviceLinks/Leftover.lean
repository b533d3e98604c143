import ScuffedCrew.DeviceLinks.Handover

/-!
# Tokens nobody knows about

The live tokens that were minted for a code: each is in the hands of an approve,
or is that of the approved row, or was handed out.  And the denies that have
revoked a token before a poll has handed it out.
-/

namespace ScuffedCrew.DeviceLinks

open Rust Database StateMachine

variable {store after : LinkStore} {call moved : LinkCall} {pool next : Pool LinkStore LinkCall}
  {turn : Turn Reply} {base tokenId : ℕ} {steps : List LinkStep}

namespace LinkStep

variable (step : LinkStep)

/-- A deny that found no token to revoke does not write a row that its member has approved since. -/
def DeniesWhatItSaw : Prop :=
  ∀ memberId denial,
    step.before.processes[step.event.process]? = some (.denyUpdate memberId denial) →
      step.event.choice.fails = false → denial.daemonTokenId = none →
        ∀ link ∈ step.before.shared.link, link.status = .approved →
          link.deniable memberId step.event.choice.now = false

/-- After the mint, the statements of an approve do not fail. -/
def ApprovesThrough : Prop :=
  ∀ approval tokenId,
    step.before.processes[step.event.process]? = some (.approve approval tokenId) ∨
      step.before.processes[step.event.process]? = some (.revokeMinted approval tokenId) →
    step.event.choice.fails = false

/-- A poll does not consume the row while a deny that has revoked its token is yet to write it. -/
def ConsumesAlone : Prop :=
  ∀ now later, step.before.processes[step.event.process]? = some (.consumeApproved now later) →
    step.event.choice.fails = false →
      (∃ link ∈ step.before.shared.link, link.pollable .approved now = true) →
        ∀ memberId denial, .denyUpdate memberId denial ∈ step.before.processes →
          denial.daemonTokenId = none

structure Meets : Prop where
  denies : DeniesWhatItSaw step
  approves : ApprovesThrough step
  consumes : ConsumesAlone step

/-- A deny revokes the token. -/
def Revokes (index : ℕ) : Prop :=
  step.event.process = index ∧ ∃ memberId denial tokenId owner,
    step.before.processes[index]? = some (.denyRevoke memberId denial tokenId owner) ∧
      step.after.processes[index]? = some (.denyUpdate memberId denial)

/-- A poll returns the secret. -/
def HandsOut : Prop :=
  ∃ secret, step.after.processes[step.event.process]? =
    some (.pollReturned (.ok (.approved secret)))

/-- The row is no longer one that the deny can write. -/
def LosesDeny (index : ℕ) : Prop :=
  step.event.process = index ∧ ∃ memberId denial,
    step.before.processes[index]? = some (.denyUpdate memberId denial) ∧
      step.after.processes[index]? = some (.denyReturned (.ok none))

end LinkStep

/-- A deny revokes a token, a poll hands its secret out, and the deny then loses. -/
def LosesAfterRevoking (steps : List LinkStep) : Prop :=
  ∃ index first revoke second hand third lose rest,
    steps = first ++ revoke :: second ++ hand :: third ++ lose :: rest ∧
      LinkStep.Revokes revoke index ∧ LinkStep.HandsOut hand ∧ LinkStep.LosesDeny lose index

/-! ## Where a live token is -/

/-- An approve has minted the token and is yet to decide about it. -/
def Held (tokenId : ℕ) (pool : Pool LinkStore LinkCall) : Prop :=
  ∃ approval, .approve approval tokenId ∈ pool.processes ∨
    .revokeMinted approval tokenId ∈ pool.processes

def ApprovedWith (tokenId : ℕ) (store : LinkStore) : Prop :=
  ∃ link ∈ store.link, link.status = .approved ∧ link.daemonTokenId = some tokenId

def Accounted (base : ℕ) (pool : Pool LinkStore LinkCall) : Prop :=
  ∀ tokenId, base ≤ tokenId → pool.shared.Live tokenId →
    Held tokenId pool ∨ ApprovedWith tokenId pool.shared ∨ HandedOut pool

/-- A token that becomes live is the one that is minted. -/
theorem Write.live (write : Write store call after) (live : after.Live tokenId) :
    store.Live tokenId ∨ (∃ approval, call = .mint approval) ∧ tokenId = store.tokens.nextId := by
  cases write with
  | @mint approval minting =>
      rcases live with ⟨token, found, active⟩
      have found : (store.tokens.create ⟨approval.memberId, true⟩).get? tokenId = some token := found
      rw [Table.get?_create] at found
      split at found
      next fresh => exact .inr ⟨⟨approval, minting⟩, fresh⟩
      next => exact .inl ⟨token, found, active⟩
  | nothing => exact .inl live
  | revoke revoked => exact .inl (LinkStore.live_of_revoke revoked live).2
  | approve minted => exact .inl live
  | deny denying => exact .inl live
  | touch status now => exact .inl live
  | consume consuming => exact .inl live
  | clear revoked => exact .inl live
  | delete revoked => exact .inl live

/-- The approved row of a live token stays approved, is consumed, or is denied by a deny that does
not know of the token. -/
theorem Write.approvedWith (write : Write store call after) (rows : ∀ link ∈ store.link, LinkOk store link)
    (live : after.Live tokenId) (approved : ApprovedWith tokenId store) :
    ApprovedWith tokenId after ∨
      (∃ now later, call = .consumeApproved now later ∧
        ∃ link ∈ store.link, link.pollable .approved now = true ∧ link.handoverToken ≠ none) ∨
      ∃ memberId denial, call = .denyUpdate memberId denial ∧
        ∃ link ∈ store.link, link.status = .approved ∧ link.deniable memberId store.clock = true ∧
          link.daemonTokenId = some tokenId := by
  rcases approved with ⟨link, stored, approved, has⟩
  have kept : ∀ (guard : DeviceLink → Bool) (change : DeviceLink → DeviceLink),
      (change link).status = .approved ∧ (change link).daemonTokenId = some tokenId ∨
          guard link = false →
        ApprovedWith tokenId (store.updateLink guard change) := by
    intro guard change changes
    refine ⟨if guard link then change link else link, ?_, ?_⟩
    · rw [LinkStore.link_updateLink, stored]
      rfl
    · rcases changes with changed | unguarded
      · split
        · exact changed
        · exact ⟨approved, has⟩
      · rw [unguarded]
        exact ⟨approved, has⟩
  cases write with
  | nothing => exact .inl ⟨link, stored, approved, has⟩
  | mint minting => exact .inl ⟨link, stored, approved, has⟩
  | revoke revoked =>
      rw [← (LinkStore.revoke_eq_some revoked).1] at stored
      exact .inl ⟨link, stored, approved, has⟩
  | approve minted =>
      left
      apply kept
      right
      simp [DeviceLink.isPending, approved]
  | @deny memberId denial denying =>
      cases denies : link.deniable memberId store.clock with
      | false => exact .inl (kept _ _ (.inr denies))
      | true => exact .inr (.inr ⟨memberId, denial, denying, link, stored, approved, denies, has⟩)
  | touch status now =>
      left
      apply kept
      exact .inl ⟨approved, has⟩
  | @consume now later consuming =>
      cases polls : link.pollable .approved now with
      | false => exact .inl (kept _ _ (.inr polls))
      | true =>
          refine .inr (.inl ⟨now, later, consuming, link, stored, polls, ?_⟩)
          intro cleared
          exact LinkStore.not_live_of_dead
            ((rows link stored).cleared approved cleared tokenId has) live
  | clear revoked =>
      left
      apply kept
      exact .inl ⟨approved, has⟩
  | @delete cutoff revoked =>
      by_cases expired : link.expiresAt ≤ cutoff
      · rcases (rows link stored).owned tokenId has with ⟨token, -, owner⟩
        have dead := revoked.2 link stored expired (tokenId, token.memberId)
          (by simp [DeviceLink.uncollected, has, owner, approved])
        exact absurd live (LinkStore.not_live_of_dead dead)
      · left
        refine ⟨link, ?_, approved, has⟩
        exact Option.filter_eq_some_iff.mpr ⟨stored, by simpa using expired⟩

/-- The approve that holds a live token writes the row with it, or still holds it. -/
theorem held_after {approval : Approval} (ok : CallOk store call)
    (holds : call = .approve approval tokenId ∨ call = .revokeMinted approval tokenId)
    (made : call.statement store = some (after, moved)) (live : after.Live tokenId) :
    moved = .revokeMinted approval tokenId ∨ ApprovedWith tokenId after := by
  rcases holds with rfl | rfl
  · simp only [LinkCall.statement] at made
    split at made <;> rcases Prod.mk.inj (Option.some.inj made) with ⟨rfl, rfl⟩
    next pending =>
      right
      rcases (Option.any_eq_true _ _).mp pending with ⟨link, stored, pending⟩
      refine ⟨link.approve approval.memberId tokenId approval.secret, ?_, rfl, rfl⟩
      rw [LinkStore.link_updateLink, stored, Option.map_some, if_pos pending]
      rfl
    next => exact .inl rfl
  · rcases ok with ⟨token, found, owner⟩
    rcases LinkStore.exists_revoke found owner with ⟨revokedStore, revoked⟩
    simp only [LinkCall.statement, revoked] at made
    rcases Prod.mk.inj (Option.some.inj made) with ⟨rfl, rfl⟩
    exact absurd rfl (LinkStore.live_of_revoke revoked live).1

theorem Accounted.step (accounted : Accounted base pool) (sound : Sound pool)
    (taken : concurrentLinks.next pool turn = some next)
    (meets : LinkStep.Meets ⟨pool, turn, next⟩) : Accounted base next := by
  rcases interleaving_next_eq_some.mp taken with ⟨call, shared, moved, found, stepped, rfl⟩
  intro tokenId minted live
  have stays : ∀ {other : LinkCall}, other ∈ pool.processes → other ≠ call →
      other ∈ pool.processes.set turn.process moved := by
    intro other other_mem differs
    rcases List.getElem?_of_mem other_mem with ⟨position, at_position⟩
    by_cases same : position = turn.process
    · rw [same, found] at at_position
      exact absurd (Eq.symm (Option.some.inj at_position)) differs
    · exact List.mem_of_getElem? (Eq.trans (Pool.others_stay same) at_position)
  have moved_mem : moved ∈ pool.processes.set turn.process moved :=
    List.mem_of_getElem? (Pool.moved_at found)
  have handed : HandedOut pool → HandedOut ⟨shared, pool.processes.set turn.process moved⟩ := by
    rintro ⟨secret, secret_mem⟩
    rcases List.getElem?_of_mem secret_mem with ⟨position, at_position⟩
    exact ⟨secret, List.mem_of_getElem? (returned_stays trivial at_position taken)⟩
  rcases step_cases stepped with ⟨forward, ⟨fails, -, rfl⟩ | ⟨works, made⟩⟩
  · rcases accounted tokenId minted live with ⟨approval, holds⟩ | approved | done
    · have apart : ∀ {other : LinkCall}, (other = .approve approval tokenId ∨
          other = .revokeMinted approval tokenId) → other ≠ call := by
        rintro other holder rfl
        have through : turn.choice.fails = false := by
          apply meets.approves approval tokenId
          rcases holder with rfl | rfl
          · exact .inl found
          · exact .inr found
        rw [fails] at through
        cases through
      exact .inl ⟨approval, holds.imp (fun mem => stays mem (apart (.inl rfl)))
        (fun mem => stays mem (apart (.inr rfl)))⟩
    · exact .inr (.inl approved)
    · exact .inr (.inr (handed done))
  · have timely := sound.atTime forward
    have ok := timely.2 call (List.mem_of_getElem? found)
    have write := write_of_statement ok made
    rcases write.live live with before | ⟨⟨approval, rfl⟩, fresh⟩
    · rcases accounted tokenId minted before with ⟨approval, holds⟩ | approved | done
      · by_cases mine : call = .approve approval tokenId ∨ call = .revokeMinted approval tokenId
        · rcases held_after ok mine made live with rfl | approved
          · exact .inl ⟨approval, .inr moved_mem⟩
          · exact .inr (.inl approved)
        · left
          refine ⟨approval, holds.imp (fun mem => stays mem ?_) (fun mem => stays mem ?_)⟩
          · exact fun same => mine (.inl (Eq.symm same))
          · exact fun same => mine (.inr (Eq.symm same))
      · rcases write.approvedWith timely.1 live approved with kept |
          ⟨now, later, rfl, link, stored, polls, secret⟩ |
          ⟨memberId, denial, rfl, link, stored, approved, denies, has⟩
        · exact .inr (.inl kept)
        · right
          right
          have selected : pool.shared.link.filter (DeviceLink.pollable · .approved now) =
              some link := Option.filter_eq_some_iff.mpr ⟨stored, polls⟩
          rcases Prod.mk.inj (Option.some.inj made) with ⟨-, rfl⟩
          simp only [selected, LinkCall.handOver] at moved_mem
          cases handover : link.handoverToken with
          | none => exact absurd handover secret
          | some secret =>
              have nonempty := (sound.rows link stored).secret secret handover
              simp only [handover, List.isEmpty_iff, nonempty, if_false] at moved_mem
              refine ⟨secret, ?_⟩
              simpa only [selected, LinkCall.handOver, handover, List.isEmpty_iff, nonempty,
                if_false] using moved_mem
        · -- The deny saw the token of the row and has revoked it, or its condition is not met.
          exfalso
          cases saw : denial.daemonTokenId with
          | none =>
              have refused := meets.denies memberId denial found works saw link stored approved
              have denies : link.deniable memberId turn.choice.now = true := denies
              rw [refused] at denies
              cases denies
          | some seen =>
              rcases ok seen saw with ⟨dead, rows⟩
              rcases Option.some.inj (Eq.trans (Eq.symm (rows link stored).2) has) with rfl
              exact LinkStore.not_live_of_dead dead before
      · exact .inr (.inr (handed done))
    · rcases Prod.mk.inj (Option.some.inj made) with ⟨-, rfl⟩
      left
      refine ⟨approval, .inl ?_⟩
      rw [fresh]
      exact moved_mem

/-! ## Losing a token that is revoked -/

/-- A deny that has revoked a token is before its write and nothing was handed out since, or it has
returned. -/
def Guarding (steps : List LinkStep) (pool : Pool LinkStore LinkCall) : Prop :=
  ∀ index, (∃ step ∈ steps, LinkStep.Revokes step index) →
    (∃ memberId denial, pool.processes[index]? = some (.denyUpdate memberId denial) ∧
      denial.daemonTokenId ≠ none ∧
        ¬∃ first hand rest, steps = first ++ hand :: rest ∧ LinkStep.HandsOut hand ∧
          ∃ revoke ∈ first, LinkStep.Revokes revoke index) ∨
      ∃ answer, pool.processes[index]? = some (.denyReturned answer)

/-- The write of a deny is its last statement. -/
theorem returned_of_denyUpdate {memberId : Text} {denial : DeviceLinkDenial} {reply : Reply}
    (stepped : (LinkCall.denyUpdate memberId denial).step store reply = some (after, moved)) :
    ∃ answer, moved = .denyReturned answer := by
  rcases (step_cases stepped).2 with ⟨-, failed, -⟩ | ⟨-, made⟩
  · rcases Option.some.inj failed with rfl
    exact ⟨_, rfl⟩
  · simp only [LinkCall.statement] at made
    split at made <;> rcases Prod.mk.inj (Option.some.inj made) with ⟨-, rfl⟩
    · exact ⟨_, rfl⟩
    · exact ⟨_, rfl⟩

theorem split_concat {α : Type} {steps first rest : List α} {last middle : α}
    (split : steps ++ [last] = first ++ middle :: rest) :
    first = steps ∧ middle = last ∨ ∃ rest', steps = first ++ middle :: rest' := by
  rcases List.eq_nil_or_concat rest with rfl | ⟨init, tail, rfl⟩
  · rcases List.append_inj' split rfl with ⟨same, one⟩
    exact .inl ⟨Eq.symm same, Eq.symm (List.singleton_inj.mp one)⟩
  · rw [List.concat_eq_append, ← List.cons_append, ← List.append_assoc] at split
    exact .inr ⟨init, (List.append_inj' split rfl).1⟩

theorem Guarding.step (guarding : Guarding steps pool) (sound : Sound pool)
    (taken : concurrentLinks.next pool turn = some next)
    (meets : LinkStep.Meets ⟨pool, turn, next⟩) :
    Guarding (steps ++ [⟨pool, turn, next⟩]) next := by
  rintro index ⟨revoke, revoke_mem, revokes⟩
  by_cases earlier : ∃ step ∈ steps, LinkStep.Revokes step index
  · rcases guarding index earlier with ⟨memberId, denial, at_index, knows, unhanded⟩ |
      ⟨answer, at_index⟩
    · rcases interleaving_next_eq_some.mp taken with ⟨call, shared, moved, found, stepped, rfl⟩
      by_cases same : index = turn.process
      · rw [same, found] at at_index
        rcases Option.some.inj at_index with rfl
        rcases returned_of_denyUpdate stepped with ⟨answer, rfl⟩
        exact .inr ⟨answer, by rw [same]; exact Pool.moved_at found⟩
      · left
        refine ⟨memberId, denial, Eq.trans (Pool.others_stay same) at_index, knows, ?_⟩
        rintro ⟨first, hand, rest, split, handsOut, revoked⟩
        rcases split_concat split with ⟨rfl, rfl⟩ | ⟨rest', split⟩
        · -- The poll would consume the row while this deny is before its write.
          rcases handsOut with ⟨secret, returned⟩
          have returned := Eq.trans (Eq.symm (Pool.moved_at found)) returned
          rcases Option.some.inj returned with rfl
          rcases step_cases stepped with ⟨forward, ⟨-, failed, -⟩ | ⟨works, made⟩⟩
          · exact (failed_returned failed).2 secret rfl
          · rcases consumed_of_secret made with ⟨now, later, link, rfl, stored, polls, -⟩
            exact knows (meets.consumes now later found works ⟨link, stored, polls⟩ memberId denial
              (List.mem_of_getElem? at_index))
        · exact unhanded ⟨first, hand, rest', split, handsOut, revoked⟩
    · exact .inr ⟨answer, returned_stays trivial at_index taken⟩
  · have last : revoke = ⟨pool, turn, next⟩ := by
      rcases List.mem_append.mp revoke_mem with old | new
      · exact absurd ⟨revoke, old, revokes⟩ earlier
      · exact List.mem_singleton.mp new
    subst last
    rcases revokes with ⟨-, memberId, denial, tokenId, owner, before, now⟩
    left
    refine ⟨memberId, denial, now, ?_, ?_⟩
    · have ok := sound.calls _ (List.mem_of_getElem? before)
      rw [ok.1]
      exact Option.some_ne_none _
    · rintro ⟨first, hand, rest, split, -, other, other_mem, revoked⟩
      apply earlier
      rcases split_concat split with ⟨rfl, -⟩ | ⟨rest', rfl⟩
      · exact ⟨other, other_mem, revoked⟩
      · exact ⟨other, List.mem_append_left _ other_mem, revoked⟩

theorem not_losesAfterRevoking_snoc (guarding : Guarding steps pool)
    (kept : ¬LosesAfterRevoking steps) :
    ¬LosesAfterRevoking (steps ++ [⟨pool, turn, next⟩]) := by
  rintro ⟨index, first, revoke, second, hand, third, lose, rest, split, revokes, handsOut, loses⟩
  rcases split_concat split with ⟨whole, rfl⟩ | ⟨rest', split⟩
  · have revoked : ∃ step ∈ steps, LinkStep.Revokes step index :=
      ⟨revoke, by rw [← whole]; simp, revokes⟩
    rcases loses with ⟨-, memberId, denial, before, -⟩
    rcases guarding index revoked with ⟨-, -, -, -, unhanded⟩ | ⟨answer, returned⟩
    · exact unhanded ⟨first ++ revoke :: second, hand, third, by rw [← whole], handsOut,
        revoke, by simp, revokes⟩
    · have before : pool.processes[index]? = some (.denyUpdate memberId denial) := before
      rw [before] at returned
      cases returned
  · exact kept ⟨index, first, revoke, second, hand, third, lose, rest', split, revokes, handsOut,
      loses⟩

/-! ## The calls on one code -/

/-- A code that has been inserted, before any call on it. -/
structure Started (start : Pool LinkStore LinkCall) : Prop where
  link : ∃ expiresAt, start.shared.link = some (.inserted expiresAt)
  calls : ∀ call ∈ start.processes, call.Fresh

theorem Started.sound {start : Pool LinkStore LinkCall} (started : Started start) : Sound start := by
  rcases started.link with ⟨expiresAt, inserted⟩
  have unhanded : ∀ secret, .pollReturned (.ok (.approved secret)) ∉ start.processes :=
    fun secret secret_mem => started.calls _ secret_mem
  refine ⟨?_, ?_, ?_, ?_⟩
  · intro link link_mem
    rcases Option.some.inj (Eq.trans (Eq.symm inserted) link_mem) with rfl
    exact ⟨fun _ => rfl, by simp [DeviceLink.inserted], by simp [DeviceLink.inserted],
      by simp [DeviceLink.inserted], by simp [DeviceLink.inserted]⟩
  · intro call call_mem
    have fresh := started.calls call call_mem
    cases call <;> trivial
  · rintro ⟨secret, secret_mem⟩
    exact absurd secret_mem (unhanded secret)
  · intro first second secret secret' at_first
    exact absurd (List.mem_of_getElem? at_first) (unhanded secret)

theorem Started.accounted {start : Pool LinkStore LinkCall} :
    Accounted start.shared.tokens.nextId start := by
  rintro tokenId minted ⟨token, found, -⟩
  exact absurd (Table.lt_nextId_of_get? found) (Nat.not_lt.mpr minted)

/-- At most one poll gets the secret.  When the steps meet the condition, a code that is denied, or
deleted before its secret was handed out, has no live token once all calls have returned, and no
deny has revoked a secret that it then lost to a poll. -/
theorem secret_handed_out_safely {start final : Pool LinkStore LinkCall} (started : Started start)
    (run : concurrentLinks.Run start steps final) :
    (∀ (first second : ℕ) (secret secret' : Text),
      final.processes[first]? = some (.pollReturned (.ok (.approved secret))) →
        final.processes[second]? = some (.pollReturned (.ok (.approved secret'))) →
          first = second) ∧
      ((∀ step ∈ steps, LinkStep.Meets step) →
        ((∀ call ∈ final.processes, call.Returned) →
          (∃ link ∈ final.shared.link, link.status = .denied) ∨
              final.shared.link = none ∧ ¬HandedOut final →
            ∀ tokenId, start.shared.tokens.nextId ≤ tokenId → ¬final.shared.Live tokenId) ∧
          ¬LosesAfterRevoking steps) := by
  have sound : Sound final := run.invariant Sound started.sound fun taken sound => sound.step taken
  refine ⟨sound.once, ?_⟩
  intro meets
  have both : Sound final ∧ Accounted start.shared.tokens.nextId final :=
    run.invariant_of_forall
      (fun pool => Sound pool ∧ Accounted start.shared.tokens.nextId pool)
      ⟨started.sound, Started.accounted⟩ meets
      fun taken meets before => ⟨before.1.step taken, before.2.step before.1 taken meets⟩
  constructor
  · intro returned outcome tokenId minted live
    rcases both.2 tokenId minted live with ⟨approval, holds | holds⟩ |
      ⟨link, stored, approved, -⟩ | handed
    · exact returned _ holds
    · exact returned _ holds
    · rcases outcome with ⟨other, stored', denied⟩ | ⟨none, -⟩
      · rcases Option.some.inj (Eq.trans (Eq.symm stored) stored') with rfl
        rw [approved] at denied
        cases denied
      · rw [none] at stored
        cases stored
    · rcases outcome with ⟨link, stored, denied⟩ | ⟨-, unhanded⟩
      · rw [sound.handed handed link stored] at denied
        cases denied
      · exact unhanded handed
  · have history : (∀ step ∈ steps, LinkStep.Meets step) →
        Sound final ∧ Guarding steps final ∧ ¬LosesAfterRevoking steps := by
      apply run.history (fun steps pool => (∀ step ∈ steps, LinkStep.Meets step) →
        Sound pool ∧ Guarding steps pool ∧ ¬LosesAfterRevoking steps)
      · intro _
        refine ⟨started.sound, ?_, ?_⟩
        · rintro index ⟨step, step_mem, -⟩
          cases step_mem
        · rintro ⟨index, first, revoke, second, hand, third, lose, rest, split, -⟩
          simp at split
      · intro steps state event after taken before meets
        rcases before fun step step_mem => meets step (List.mem_append_left _ step_mem) with
          ⟨sound, guarding, kept⟩
        exact ⟨sound.step taken, guarding.step sound taken (meets _ (by simp)),
          not_losesAfterRevoking_snoc guarding kept⟩
    exact (history meets).2.2

/-! ## One code -/

def captain : Text := "captain".toList

def approval : Approval := ⟨captain, "secret".toList, by simp⟩

/-- A new code that is live until noon, and the calls on it. -/
def newCode (calls : List LinkCall) : Pool LinkStore LinkCall :=
  ⟨⟨some (.inserted 12), .empty, 0⟩, calls⟩

/-- The turns of the calls, all at the same time. -/
def inOrder (processes : List ℕ) : List (Turn Reply) :=
  processes.map fun process => ⟨process, 1, false⟩

/-- The call neither consumes the row, nor writes one in which it has found no token. -/
def LinkCall.knows : LinkCall → Bool
  | consumeApproved _ _ => false
  | denyUpdate _ denial => denial.daemonTokenId.isSome
  | _ => true

theorem meets_of_knows {step : LinkStep} (works : step.event.choice.fails = false)
    (knows : ∀ call ∈ step.before.processes[step.event.process]?, call.knows = true) :
    step.Meets := by
  refine ⟨?_, fun _ _ _ => works, ?_⟩
  · intro memberId denial at_turn _ unknown
    have knows : denial.daemonTokenId.isSome = true := knows _ at_turn
    rw [unknown] at knows
    cases knows
  · intro now later at_turn
    cases knows _ at_turn

/-- A deny that comes after the approve revokes the token. -/
theorem approved_then_denied : ∃ final,
    concurrentLinks.exec (newCode [.lookup approval, .denySelect captain])
        (inOrder [0, 0, 0, 1, 1, 1]) = some final ∧
      final.shared.link.map DeviceLink.status = some .denied ∧ ¬final.shared.Live 0 := by
  have run : concurrentLinks.Run _ (concurrentLinks.stepsOf
      (newCode [.lookup approval, .denySelect captain]) (inOrder [0, 0, 0, 1, 1, 1])) _ :=
    .of_exec rfl
  have started : Started (newCode [.lookup approval, .denySelect captain]) := by
    refine ⟨⟨12, rfl⟩, ?_⟩
    intro call call_mem
    rcases List.mem_pair.mp call_mem with rfl | rfl <;> trivial
  have known : ∀ step ∈ concurrentLinks.stepsOf
      (newCode [.lookup approval, .denySelect captain]) (inOrder [0, 0, 0, 1, 1, 1]),
      step.event.choice.fails = false ∧
        ∀ call ∈ step.before.processes[step.event.process]?, call.knows = true := by
    decide
  have safe := ((secret_handed_out_safely started run).2 fun step step_mem =>
    meets_of_knows (known step step_mem).1 (known step step_mem).2).1
  refine ⟨_, rfl, rfl, safe ?_ (.inl ⟨_, rfl, rfl⟩) 0 (Nat.le_refl _)⟩
  intro call call_mem
  rcases List.mem_pair.mp call_mem with rfl | rfl <;> trivial

/-- A deny that has found the code pending writes it after the approve of the same member, and the
token stays live; a token is revoked by a deny that then loses to the poll that hands it out; and
the write of an approve fails, and the token it has minted stays live. -/
theorem secret_left_over :
    (∃ final, concurrentLinks.exec (newCode [.lookup approval, .denySelect captain])
        (inOrder [1, 0, 0, 0, 1]) = some final ∧
      final.shared.link.map DeviceLink.status = some .denied ∧ final.shared.Live 0) ∧
    (∃ final, concurrentLinks.exec
        (newCode [.lookup approval, .denySelect captain, .pollLoad 1 1])
        (inOrder [0, 0, 0, 1, 1, 2, 2, 1]) = some final ∧
      LosesAfterRevoking (concurrentLinks.stepsOf
        (newCode [.lookup approval, .denySelect captain, .pollLoad 1 1])
        (inOrder [0, 0, 0, 1, 1, 2, 2, 1]))) ∧
    ∃ final, concurrentLinks.exec (newCode [.lookup approval, .denySelect captain])
        (inOrder [0, 0] ++ [⟨0, 1, true⟩] ++ inOrder [1, 1]) = some final ∧
      final.shared.link.map DeviceLink.status = some .denied ∧ final.shared.Live 0 := by
  refine ⟨⟨_, rfl, rfl, ⟨captain, true⟩, rfl, rfl⟩, ⟨_, rfl, ?_⟩,
    ⟨_, rfl, rfl, ⟨captain, true⟩, rfl, rfl⟩⟩
  exact ⟨1, [_, _, _, _], _, [_], _, [], _, [], rfl, ⟨rfl, _, _, _, _, rfl, rfl⟩, ⟨_, rfl⟩,
    ⟨rfl, _, _, rfl, rfl⟩⟩

end ScuffedCrew.DeviceLinks
