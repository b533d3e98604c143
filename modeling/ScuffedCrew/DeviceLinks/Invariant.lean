import ScuffedCrew.DeviceLinks.Calls

/-!
# What the statements keep

A row that is approved has a token of the member who approved it, and a token
that is revoked stays so.  A call that is about to write relies on what it has
read, and `Later` says that the other statements leave it so.
-/

namespace ScuffedCrew.DeviceLinks

open Rust Database StateMachine

/-- The token is revoked. -/
def LinkStore.Dead (store : LinkStore) (tokenId : ℕ) : Prop :=
  ∃ token ∈ store.tokens.get? tokenId, token.isActive = false

theorem LinkStore.not_live_of_dead {store : LinkStore} {tokenId : ℕ} (dead : store.Dead tokenId) :
    ¬store.Live tokenId := by
  rintro ⟨token, found, active⟩
  rcases dead with ⟨other, found', inactive⟩
  rcases Option.some.inj (Eq.trans (Eq.symm found) found') with rfl
  rw [active] at inactive
  cases inactive

theorem LinkStore.dead_of_revoke {store after : LinkStore} {tokenId : ℕ} {memberId : Text}
    (revoked : store.revokeDaemonToken tokenId memberId = some after) : after.Dead tokenId := by
  rw [revokeDaemonToken] at revoked
  split at revoked
  next found =>
    rcases Option.some.inj revoked with rfl
    cases stored : store.tokens.get? tokenId with
    | none =>
        rw [stored] at found
        cases found
    | some token =>
        refine ⟨{ token with isActive := false }, ?_, rfl⟩
        simp [Table.get?_update, stored]
  next => cases revoked

/-- The calls made so far have this row. -/
structure LinkOk (store : LinkStore) (link : DeviceLink) : Prop where
  bare : link.status = .pending → link.daemonTokenId = none
  token : link.status = .approved → ∃ tokenId, link.daemonTokenId = some tokenId
  owned : ∀ tokenId, link.daemonTokenId = some tokenId →
    ∃ token ∈ store.tokens.get? tokenId, link.memberId = some token.memberId
  secret : ∀ secret, link.handoverToken = some secret → secret ≠ []
  cleared : link.status = .approved → link.handoverToken = none →
    ∀ tokenId, link.daemonTokenId = some tokenId → store.Dead tokenId

/-- The codes a cleanup takes out have no token left that it should revoke. -/
def Revoked (store : LinkStore) (cutoff : Instant) : Prop :=
  cutoff ≤ store.clock ∧ ∀ link ∈ store.link, link.expiresAt ≤ cutoff →
    ∀ uncollected, link.uncollected = some uncollected → store.Dead uncollected.1

/-- What a call relies on. -/
def CallOk (store : LinkStore) : LinkCall → Prop
  | .approve approval tokenId | .revokeMinted approval tokenId =>
      ∃ token ∈ store.tokens.get? tokenId, token.memberId = approval.memberId
  | .denyRevoke _ denial tokenId _ => denial.daemonTokenId = some tokenId ∧
      ∀ link ∈ store.link, link.status ≠ .pending ∧ link.daemonTokenId = some tokenId
  | .denyUpdate _ denial => ∀ tokenId, denial.daemonTokenId = some tokenId →
      store.Dead tokenId ∧
        ∀ link ∈ store.link, link.status ≠ .pending ∧ link.daemonTokenId = some tokenId
  | .cleanupRevoke cutoff tokenId owner => cutoff ≤ store.clock ∧
      ∀ link ∈ store.link, link.expiresAt ≤ cutoff →
        ∀ uncollected, link.uncollected = some uncollected → uncollected = (tokenId, owner)
  | .cleanupClear cutoff | .cleanupCount cutoff | .cleanupDelete cutoff => Revoked store cutoff
  | _ => True

/-! ## The writes -/

/-- What the statement of a call writes. -/
inductive Write (store : LinkStore) (call : LinkCall) : LinkStore → Prop
  | nothing : Write store call store
  | mint {approval : Approval} (minting : call = .mint approval) :
      Write store call (store.createDaemonToken approval.memberId).2
  | revoke {tokenId : ℕ} {owner : Text} {after : LinkStore}
      (revoked : store.revokeDaemonToken tokenId owner = some after) : Write store call after
  | approve {approval : Approval} {tokenId : ℕ}
      (minted : ∃ token ∈ store.tokens.get? tokenId, token.memberId = approval.memberId) :
      Write store call (store.updateLink (DeviceLink.isPending · store.clock)
        (DeviceLink.approve · approval.memberId tokenId approval.secret))
  | deny {memberId : Text} {denial : DeviceLinkDenial} (denying : call = .denyUpdate memberId denial) :
      Write store call
        (store.updateLink (DeviceLink.deniable · memberId store.clock) DeviceLink.deny)
  | touch (status : LinkStatus) (now : Instant) :
      Write store call (store.updateLink (DeviceLink.pollable · status now) (DeviceLink.touch · now))
  | consume {now : Instant} {later : ℕ} (consuming : call = .consumeApproved now later) :
      Write store call
        (store.updateLink (DeviceLink.pollable · .approved now) (DeviceLink.consume · now))
  | clear {cutoff : Instant} (revoked : Revoked store cutoff) :
      Write store call
        (store.updateLink (fun link => decide (link.expiresAt ≤ cutoff)) DeviceLink.clear)
  | delete {cutoff : Instant} (revoked : Revoked store cutoff) :
      Write store call
        { store with link := store.link.filter fun link => !decide (link.expiresAt ≤ cutoff) }

variable {store after : LinkStore} {call moved : LinkCall} {tokenId : ℕ}

theorem write_of_statement (ok : CallOk store call)
    (taken : call.statement store = some (after, moved)) : Write store call after := by
  cases call with
  | lookup approval =>
      simp only [LinkCall.statement] at taken
      split at taken <;> rcases Prod.mk.inj (Option.some.inj taken) with ⟨rfl, rfl⟩ <;>
        exact .nothing
  | mint approval =>
      rcases Prod.mk.inj (Option.some.inj taken) with ⟨rfl, rfl⟩
      exact .mint rfl
  | approve approval tokenId =>
      simp only [LinkCall.statement] at taken
      split at taken <;> rcases Prod.mk.inj (Option.some.inj taken) with ⟨rfl, rfl⟩
      · exact .approve ok
      · exact .nothing
  | revokeMinted approval tokenId =>
      simp only [LinkCall.statement] at taken
      split at taken <;> rcases Prod.mk.inj (Option.some.inj taken) with ⟨rfl, rfl⟩
      · exact .nothing
      next revoked => exact .revoke revoked
  | denySelect memberId =>
      rcases Prod.mk.inj (Option.some.inj taken) with ⟨rfl, rfl⟩
      exact .nothing
  | denyRevoke memberId denial tokenId owner =>
      simp only [LinkCall.statement] at taken
      split at taken <;> rcases Prod.mk.inj (Option.some.inj taken) with ⟨rfl, rfl⟩
      · exact .nothing
      next revoked => exact .revoke revoked
  | denyUpdate memberId denial =>
      simp only [LinkCall.statement] at taken
      split at taken <;> rcases Prod.mk.inj (Option.some.inj taken) with ⟨rfl, rfl⟩
      · exact .deny rfl
      · exact .nothing
  | pollLoad now later =>
      rcases Prod.mk.inj (Option.some.inj taken) with ⟨rfl, rfl⟩
      exact .nothing
  | touchPending now later =>
      rcases Prod.mk.inj (Option.some.inj taken) with ⟨rfl, rfl⟩
      exact .touch _ _
  | touchDenied now =>
      rcases Prod.mk.inj (Option.some.inj taken) with ⟨rfl, rfl⟩
      exact .touch _ _
  | consumeApproved now later =>
      rcases Prod.mk.inj (Option.some.inj taken) with ⟨rfl, rfl⟩
      exact .consume rfl
  | cleanupSelect cutoff =>
      simp only [LinkCall.statement] at taken
      split at taken
      · rcases Prod.mk.inj (Option.some.inj taken) with ⟨rfl, rfl⟩
        exact .nothing
      · cases taken
  | cleanupRevoke cutoff tokenId owner =>
      simp only [LinkCall.statement] at taken
      split at taken <;> rcases Prod.mk.inj (Option.some.inj taken) with ⟨rfl, rfl⟩
      · exact .nothing
      next revoked => exact .revoke revoked
  | cleanupClear cutoff =>
      rcases Prod.mk.inj (Option.some.inj taken) with ⟨rfl, rfl⟩
      exact .clear ok
  | cleanupCount cutoff =>
      simp only [LinkCall.statement] at taken
      split at taken <;> rcases Prod.mk.inj (Option.some.inj taken) with ⟨rfl, rfl⟩ <;>
        exact .nothing
  | cleanupDelete cutoff =>
      rcases Prod.mk.inj (Option.some.inj taken) with ⟨rfl, rfl⟩
      exact .delete ok
  | approveReturned => cases taken
  | denyReturned => cases taken
  | pollReturned => cases taken
  | cleanupReturned => cases taken

/-! ## Later states -/

/-- What every statement leaves of the row. -/
structure LinkLater (clock : Instant) (before after : DeviceLink) : Prop where
  expires : after.expiresAt = before.expiresAt
  settled : before.status ≠ .pending → after.status ≠ .pending ∧
    after.daemonTokenId = before.daemonTokenId
  expired : before.expiresAt ≤ clock → ∀ uncollected, after.uncollected = some uncollected →
    before.uncollected = some uncollected

/-- What every statement leaves of the store. -/
structure Later (store after : LinkStore) : Prop where
  clock : store.clock ≤ after.clock
  tokens : ∀ tokenId token, store.tokens.get? tokenId = some token →
    ∃ kept ∈ after.tokens.get? tokenId, kept.memberId = token.memberId ∧
      (token.isActive = false → kept.isActive = false)
  link : ∀ link ∈ after.link, ∃ before ∈ store.link, LinkLater store.clock before link

theorem LinkLater.refl (clock : Instant) (link : DeviceLink) : LinkLater clock link link :=
  ⟨rfl, fun settled => ⟨settled, rfl⟩, fun _ _ found => found⟩

/-- A guarded change of the row, and nothing else. -/
theorem later_updateLink {guard : DeviceLink → Bool} {change : DeviceLink → DeviceLink}
    (changes : ∀ link ∈ store.link, guard link = true → LinkLater store.clock link (change link)) :
    Later store (store.updateLink guard change) := by
  refine ⟨Nat.le_refl _, fun tokenId token found => ⟨token, found, rfl, id⟩, ?_⟩
  intro link link_mem
  rcases Option.map_eq_some_iff.mp link_mem with ⟨before, before_mem, rfl⟩
  refine ⟨before, before_mem, ?_⟩
  split
  next guarded => exact changes before before_mem guarded
  next => exact .refl _ _

theorem Write.later (write : Write store call after) : Later store after := by
  cases write with
  | nothing =>
      exact ⟨Nat.le_refl _, fun tokenId token found => ⟨token, found, rfl, id⟩,
        fun link link_mem => ⟨link, link_mem, .refl _ _⟩⟩
  | mint minting =>
      refine ⟨Nat.le_refl _, ?_, fun link link_mem => ⟨link, link_mem, .refl _ _⟩⟩
      intro tokenId token found
      refine ⟨token, ?_, rfl, id⟩
      have old := Table.lt_nextId_of_get? found
      rw [LinkStore.createDaemonToken, Table.get?_create, if_neg (Nat.ne_of_lt old)]
      exact found
  | @revoke tokenId owner after revoked =>
      rcases LinkStore.revoke_eq_some revoked with ⟨link, clock, -⟩
      refine ⟨Nat.le_of_eq (Eq.symm clock), ?_, ?_⟩
      · intro other token found
        rcases LinkStore.owner_of_revoke revoked found with ⟨kept, kept_found, owner⟩
        refine ⟨kept, kept_found, owner, ?_⟩
        intro inactive
        cases active : kept.isActive with
        | false => rfl
        | true =>
            have live := (LinkStore.live_of_revoke revoked ⟨kept, kept_found, active⟩).2
            exact absurd live (LinkStore.not_live_of_dead ⟨token, found, inactive⟩)
      · rw [link]
        exact fun link link_mem => ⟨link, link_mem, .refl _ _⟩
  | approve minted =>
      apply later_updateLink
      intro link _ guarded
      have pending : link.status = .pending ∧ store.clock < link.expiresAt := by
        simpa [DeviceLink.isPending] using guarded
      refine ⟨rfl, fun settled => absurd pending.1 settled, ?_⟩
      intro expired
      exact absurd pending.2 (Nat.not_lt.mpr expired)
  | deny denying =>
      apply later_updateLink
      intro link _ guarded
      refine ⟨rfl, fun _ => ⟨by simp [DeviceLink.deny], rfl⟩, ?_⟩
      intro expired
      simp only [DeviceLink.deniable, Bool.and_eq_true, decide_eq_true_eq] at guarded
      exact absurd guarded.1 (Nat.not_lt.mpr expired)
  | touch status now =>
      apply later_updateLink
      intro link _ _
      exact ⟨rfl, fun settled => ⟨settled, rfl⟩, fun _ _ found => found⟩
  | consume consuming =>
      apply later_updateLink
      intro link _ _
      refine ⟨rfl, fun _ => ⟨by simp [DeviceLink.consume], rfl⟩, ?_⟩
      intro _ uncollected found
      simp only [DeviceLink.uncollected, DeviceLink.consume] at found
      split at found <;> simp at found
  | clear revoked =>
      apply later_updateLink
      intro link _ _
      exact ⟨rfl, fun settled => ⟨settled, rfl⟩, fun _ _ found => found⟩
  | delete revoked =>
      refine ⟨Nat.le_refl _, fun tokenId token found => ⟨token, found, rfl, id⟩, ?_⟩
      intro link link_mem
      exact ⟨link, (Option.filter_eq_some_iff.mp link_mem).1, .refl _ _⟩

theorem Later.dead (later : Later store after) (dead : store.Dead tokenId) :
    after.Dead tokenId := by
  rcases dead with ⟨token, found, inactive⟩
  rcases later.tokens _ _ found with ⟨kept, kept_found, -, stays⟩
  exact ⟨kept, kept_found, stays inactive⟩

theorem Later.owner (later : Later store after) {memberId : Text}
    (owned : ∃ token ∈ store.tokens.get? tokenId, token.memberId = memberId) :
    ∃ token ∈ after.tokens.get? tokenId, token.memberId = memberId := by
  rcases owned with ⟨token, found, rfl⟩
  rcases later.tokens _ _ found with ⟨kept, kept_found, same, -⟩
  exact ⟨kept, kept_found, same⟩

/-- A row that a deny has seen with its token still has it. -/
theorem Later.seen (later : Later store after)
    (seen : ∀ link ∈ store.link, link.status ≠ .pending ∧ link.daemonTokenId = some tokenId) :
    ∀ link ∈ after.link, link.status ≠ .pending ∧ link.daemonTokenId = some tokenId := by
  intro link link_mem
  rcases later.link link link_mem with ⟨before, before_mem, same⟩
  rcases seen before before_mem with ⟨settled, token⟩
  rcases same.settled settled with ⟨settled', token'⟩
  exact ⟨settled', Eq.trans token' token⟩

/-- What the codes past a cutoff have to be revoked, they had before. -/
theorem Later.uncollected (later : Later store after) {cutoff : Instant}
    (past : cutoff ≤ store.clock) {link : DeviceLink} (link_mem : link ∈ after.link)
    (expired : link.expiresAt ≤ cutoff) {uncollected : ℕ × Text}
    (found : link.uncollected = some uncollected) :
    ∃ before ∈ store.link, before.expiresAt ≤ cutoff ∧ before.uncollected = some uncollected := by
  rcases later.link link link_mem with ⟨before, before_mem, same⟩
  rw [same.expires] at expired
  exact ⟨before, before_mem, expired, same.expired (Nat.le_trans expired past) _ found⟩

theorem Later.revoked (later : Later store after) {cutoff : Instant}
    (revoked : Revoked store cutoff) : Revoked after cutoff := by
  refine ⟨Nat.le_trans revoked.1 later.clock, ?_⟩
  intro link link_mem expired uncollected found
  rcases later.uncollected revoked.1 link_mem expired found with ⟨before, before_mem, past, found'⟩
  exact later.dead (revoked.2 before before_mem past _ found')

/-- What a call relies on, the statements of the other calls leave so. -/
theorem Later.callOk (later : Later store after) (ok : CallOk store call) : CallOk after call := by
  cases call with
  | approve approval tokenId => exact later.owner ok
  | revokeMinted approval tokenId => exact later.owner ok
  | denyRevoke memberId denial tokenId owner => exact ⟨ok.1, later.seen ok.2⟩
  | denyUpdate memberId denial =>
      intro tokenId saw
      exact ⟨later.dead (ok tokenId saw).1, later.seen (ok tokenId saw).2⟩
  | cleanupRevoke cutoff tokenId owner =>
      refine ⟨Nat.le_trans ok.1 later.clock, ?_⟩
      intro link link_mem expired uncollected found
      rcases later.uncollected ok.1 link_mem expired found with ⟨before, before_mem, past, found'⟩
      exact ok.2 before before_mem past _ found'
  | cleanupClear cutoff => exact later.revoked ok
  | cleanupCount cutoff => exact later.revoked ok
  | cleanupDelete cutoff => exact later.revoked ok
  | lookup => trivial
  | mint => trivial
  | approveReturned => trivial
  | denySelect => trivial
  | denyReturned => trivial
  | pollLoad => trivial
  | touchPending => trivial
  | touchDenied => trivial
  | consumeApproved => trivial
  | pollReturned => trivial
  | cleanupSelect => trivial
  | cleanupReturned => trivial

/-! ## The row -/

/-- The row relies on its tokens only in what the statements keep. -/
theorem LinkOk.later {link : DeviceLink} (later : Later store after) (ok : LinkOk store link) :
    LinkOk after link where
  bare := ok.bare
  token := ok.token
  owned := by
    intro tokenId has
    rcases ok.owned tokenId has with ⟨token, found, owner⟩
    rcases later.tokens _ _ found with ⟨kept, kept_found, same, -⟩
    exact ⟨kept, kept_found, by rw [owner, same]⟩
  secret := ok.secret
  cleared := fun approved none tokenId has => later.dead (ok.cleared approved none tokenId has)

/-- A guarded change of a good row. -/
theorem linkOk_updateLink {guard : DeviceLink → Bool} {change : DeviceLink → DeviceLink}
    (ok : ∀ link ∈ store.link, LinkOk store link)
    (changes : ∀ link ∈ store.link, guard link = true → LinkOk store link →
      LinkOk store (change link)) :
    ∀ link ∈ (store.updateLink guard change).link, LinkOk store link := by
  intro link link_mem
  rcases Option.map_eq_some_iff.mp link_mem with ⟨before, before_mem, rfl⟩
  split
  next guarded => exact changes before before_mem guarded (ok before before_mem)
  next => exact ok before before_mem

theorem Write.linkOk (write : Write store call after) (ok : ∀ link ∈ store.link, LinkOk store link) :
    ∀ link ∈ after.link, LinkOk after link := by
  suffices kept : ∀ link ∈ after.link, LinkOk store link by
    intro link link_mem
    exact (kept link link_mem).later write.later
  cases write with
  | nothing => exact ok
  | mint minting => exact ok
  | revoke revoked =>
      rw [(LinkStore.revoke_eq_some revoked).1]
      exact ok
  | @approve approval tokenId minted =>
      apply linkOk_updateLink ok
      intro link _ _ _
      rcases minted with ⟨token, found, owner⟩
      refine ⟨by simp [DeviceLink.approve], fun _ => ⟨tokenId, rfl⟩, ?_, ?_, ?_⟩
      · intro other has
        rcases Option.some.inj has with rfl
        exact ⟨token, found, congrArg some (Eq.symm owner)⟩
      · intro secret has
        rcases Option.some.inj has with rfl
        exact approval.secret_nonempty
      · intro _ none
        cases none
  | deny denying =>
      apply linkOk_updateLink ok
      intro link _ _ ok
      exact ⟨by simp [DeviceLink.deny], by simp [DeviceLink.deny], ok.owned,
        by simp [DeviceLink.deny], by simp [DeviceLink.deny]⟩
  | touch status now =>
      apply linkOk_updateLink ok
      intro link _ _ ok
      exact ⟨ok.bare, ok.token, ok.owned, ok.secret, ok.cleared⟩
  | consume consuming =>
      apply linkOk_updateLink ok
      intro link _ _ ok
      exact ⟨by simp [DeviceLink.consume], by simp [DeviceLink.consume], ok.owned,
        by simp [DeviceLink.consume], by simp [DeviceLink.consume]⟩
  | @clear cutoff revoked =>
      apply linkOk_updateLink ok
      intro link link_mem past ok
      refine ⟨ok.bare, ok.token, ok.owned, by simp [DeviceLink.clear], ?_⟩
      intro approved _ tokenId has
      have approved : link.status = .approved := approved
      have has : link.daemonTokenId = some tokenId := has
      rcases ok.owned tokenId has with ⟨token, -, owner⟩
      apply revoked.2 link link_mem (by simpa using past) (tokenId, token.memberId)
      simp [DeviceLink.uncollected, has, owner, approved]
  | delete revoked =>
      intro link link_mem
      exact ok link (Option.filter_eq_some_iff.mp link_mem).1

/-! ## The call that moves -/

/-- The next statement of a call relies on what this one has read. -/
theorem callOk_of_statement (rows : ∀ link ∈ store.link, LinkOk store link)
    (ok : CallOk store call) (taken : call.statement store = some (after, moved)) :
    CallOk after moved := by
  have later := (write_of_statement ok taken).later
  cases call with
  | lookup approval =>
      simp only [LinkCall.statement] at taken
      split at taken <;> rcases Prod.mk.inj (Option.some.inj taken) with ⟨rfl, rfl⟩ <;> trivial
  | mint approval =>
      rcases Prod.mk.inj (Option.some.inj taken) with ⟨rfl, rfl⟩
      refine ⟨⟨approval.memberId, true⟩, ?_, rfl⟩
      simp [Table.get?_create]
  | approve approval tokenId =>
      simp only [LinkCall.statement] at taken
      split at taken <;> rcases Prod.mk.inj (Option.some.inj taken) with ⟨rfl, rfl⟩
      · trivial
      · exact ok
  | revokeMinted approval tokenId =>
      simp only [LinkCall.statement] at taken
      split at taken <;> rcases Prod.mk.inj (Option.some.inj taken) with ⟨rfl, rfl⟩ <;> trivial
  | denySelect memberId =>
      rcases Prod.mk.inj (Option.some.inj taken) with ⟨rfl, rfl⟩
      cases selected : store.link.filter (DeviceLink.deniable · memberId store.clock) with
      | none => trivial
      | some link =>
          have link_mem := (Option.filter_eq_some_iff.mp selected).1
          have settled : ∀ tokenId, link.daemonTokenId = some tokenId →
              ∀ other ∈ store.link, other.status ≠ .pending ∧
                other.daemonTokenId = some tokenId := by
            intro tokenId has other other_mem
            rcases Option.some.inj (Eq.trans (Eq.symm link_mem) other_mem) with rfl
            refine ⟨?_, has⟩
            intro pending
            rw [(rows link link_mem).bare pending] at has
            cases has
          simp only [LinkCall.afterDenySelect]
          split
          next tokenId owner has _ => exact ⟨has, settled tokenId has⟩
          next incomplete =>
            intro tokenId has
            rcases (rows link link_mem).owned tokenId has with ⟨token, -, owner⟩
            exact absurd owner (incomplete tokenId token.memberId has)
  | denyRevoke memberId denial tokenId owner =>
      simp only [LinkCall.statement] at taken
      split at taken <;> rcases Prod.mk.inj (Option.some.inj taken) with ⟨rfl, rfl⟩
      · trivial
      next revoked =>
        intro other saw
        rw [ok.1] at saw
        rcases Option.some.inj saw with rfl
        exact ⟨LinkStore.dead_of_revoke revoked, later.seen ok.2⟩
  | denyUpdate memberId denial =>
      simp only [LinkCall.statement] at taken
      split at taken <;> rcases Prod.mk.inj (Option.some.inj taken) with ⟨rfl, rfl⟩ <;> trivial
  | pollLoad now again =>
      rcases Prod.mk.inj (Option.some.inj taken) with ⟨rfl, rfl⟩
      cases store.link with
      | none => trivial
      | some link =>
          simp only [LinkCall.afterLoad]
          split
          · trivial
          · split
            · trivial
            · cases link.status <;> trivial
  | touchPending now again =>
      rcases Prod.mk.inj (Option.some.inj taken) with ⟨rfl, rfl⟩
      split
      · trivial
      · cases again <;> trivial
  | touchDenied now =>
      rcases Prod.mk.inj (Option.some.inj taken) with ⟨rfl, rfl⟩
      trivial
  | consumeApproved now again =>
      rcases Prod.mk.inj (Option.some.inj taken) with ⟨rfl, rfl⟩
      split
      · cases again <;> trivial
      · trivial
  | cleanupSelect cutoff =>
      simp only [LinkCall.statement] at taken
      split at taken
      next past =>
        rcases Prod.mk.inj (Option.some.inj taken) with ⟨rfl, rfl⟩
        rw [LinkCall.afterCleanupSelect]
        have selected : ∀ link ∈ store.link, link.expiresAt ≤ cutoff →
            (store.link.filter fun link => decide (link.expiresAt ≤ cutoff)) = some link := by
          intro link link_mem expired
          exact Option.filter_eq_some_iff.mpr ⟨link_mem, by simpa using expired⟩
        split
        next none =>
          refine ⟨past, ?_⟩
          intro link link_mem expired uncollected found
          rw [selected link link_mem expired, Option.bind_some, found] at none
          cases none
        next tokenId owner some =>
          refine ⟨past, ?_⟩
          intro link link_mem expired uncollected found
          rw [selected link link_mem expired, Option.bind_some, found] at some
          exact Option.some.inj some
      next => cases taken
  | cleanupRevoke cutoff tokenId owner =>
      simp only [LinkCall.statement] at taken
      split at taken <;> rcases Prod.mk.inj (Option.some.inj taken) with ⟨rfl, rfl⟩
      next refused =>
        refine ⟨ok.1, ?_⟩
        intro link link_mem expired uncollected found
        -- The token of the row is that of its owner, so the revoke was not refused.
        rcases ok.2 link link_mem expired uncollected found with rfl
        exfalso
        rw [DeviceLink.uncollected] at found
        split at found
        next has owner' =>
          split at found
          next =>
            rcases Prod.mk.inj (Option.some.inj found) with ⟨rfl, rfl⟩
            rcases (rows link link_mem).owned _ has with ⟨token, token_found, same⟩
            rw [owner'] at same
            rcases LinkStore.exists_revoke token_found (Eq.symm (Option.some.inj same)) with
              ⟨after, revoked⟩
            rw [refused] at revoked
            cases revoked
          next => cases found
        next => cases found
      next revoked =>
        refine ⟨Nat.le_trans ok.1 later.clock, ?_⟩
        intro link link_mem expired uncollected found
        rcases later.uncollected ok.1 link_mem expired found with
          ⟨before, before_mem, past, found'⟩
        rcases ok.2 before before_mem past _ found' with rfl
        exact LinkStore.dead_of_revoke revoked
  | cleanupClear cutoff =>
      have kept := later.revoked ok
      rcases Prod.mk.inj (Option.some.inj taken) with ⟨rfl, rfl⟩
      exact kept
  | cleanupCount cutoff =>
      simp only [LinkCall.statement] at taken
      split at taken <;> rcases Prod.mk.inj (Option.some.inj taken) with ⟨rfl, rfl⟩
      · exact ok
      · trivial
  | cleanupDelete cutoff =>
      rcases Prod.mk.inj (Option.some.inj taken) with ⟨rfl, rfl⟩
      trivial
  | approveReturned => cases taken
  | denyReturned => cases taken
  | pollReturned => cases taken
  | cleanupReturned => cases taken

end ScuffedCrew.DeviceLinks
