import ScuffedCrew.Database.Table
import ScuffedCrew.Rust.Numeric
import ScuffedCrew.Rust.Text

/-!
# Device-link codes

One code: its row, the daemon tokens, and the statements that read and write
them.  A statement on the row changes it only where its guard holds.
-/

namespace ScuffedCrew.DeviceLinks

open Rust Database

inductive LinkStatus
  | pending
  | approved
  | denied
  | consumed
  deriving DecidableEq

structure DeviceLink where
  status : LinkStatus
  memberId : Option Text
  daemonTokenId : Option ℕ
  handoverToken : Option Text
  expiresAt : Instant
  lastPollAt : Option Instant
  deriving DecidableEq

structure DaemonToken where
  memberId : Text
  isActive : Bool
  deriving DecidableEq

/-- `DEVICE_LINK_INTERVAL_SECS`. -/
def pollInterval : Duration := Duration.fromSecs 5

/-- `insert_device_link`. -/
def DeviceLink.inserted (expiresAt : Instant) : DeviceLink :=
  ⟨.pending, none, none, none, expiresAt, none⟩

namespace DeviceLink

variable (link : DeviceLink)

def isPending (now : Instant) : Bool := link.status == .pending && now < link.expiresAt

/-- A code that the member may deny. -/
def deniable (memberId : Text) (now : Instant) : Bool :=
  now < link.expiresAt &&
    (link.status == .pending || link.status == .approved && link.memberId == some memberId)

def polledTooFast (now : Instant) : Bool :=
  link.lastPollAt.any fun last => now < last + pollInterval

/-- The guard of the writes of a poll. -/
def pollable (status : LinkStatus) (now : Instant) : Bool :=
  link.status == status && now < link.expiresAt && !link.polledTooFast now

def approve (memberId : Text) (tokenId : ℕ) (secret : Text) : DeviceLink :=
  { link with
    status := .approved
    memberId := some memberId
    daemonTokenId := some tokenId
    handoverToken := some secret }

def deny : DeviceLink := { link with status := .denied, handoverToken := none }

def touch (now : Instant) : DeviceLink := { link with lastPollAt := some now }

def consume (now : Instant) : DeviceLink :=
  { link with status := .consumed, handoverToken := none, lastPollAt := some now }

def clear : DeviceLink := { link with handoverToken := none }

/-- The token and its owner, where `cleanup` revokes them. -/
def uncollected : Option (ℕ × Text) :=
  match link.daemonTokenId, link.memberId with
  | some tokenId, some owner =>
      if link.status = .approved ∨ link.status = .denied then some (tokenId, owner) else none
  | _, _ => none

end DeviceLink

/-- The row of the code, the tokens, and the time of the database. -/
structure LinkStore where
  link : Option DeviceLink
  tokens : Table DaemonToken
  clock : Instant

namespace LinkStore

variable (store : LinkStore)

/-- `UPDATE device_link … WHERE`. -/
def updateLink (guard : DeviceLink → Bool) (change : DeviceLink → DeviceLink) : LinkStore :=
  { store with link := store.link.map fun link => if guard link then change link else link }

def createDaemonToken (memberId : Text) : ℕ × LinkStore :=
  (store.tokens.nextId, { store with tokens := store.tokens.create ⟨memberId, true⟩ })

/-- The revoke of a token of another member finds nothing. -/
def revokeDaemonToken (tokenId : ℕ) (memberId : Text) : Option LinkStore :=
  if (store.tokens.get? tokenId).any fun token => token.memberId = memberId then
    some { store with
      tokens := store.tokens.update tokenId fun token => { token with isActive := false } }
  else none

/-- The token can be used. -/
def Live (tokenId : ℕ) : Prop := ∃ token ∈ store.tokens.get? tokenId, token.isActive = true

variable {store} {after : LinkStore} {tokenId : ℕ} {memberId : Text}

@[simp]
theorem link_updateLink (guard : DeviceLink → Bool) (change : DeviceLink → DeviceLink) :
    (store.updateLink guard change).link =
      store.link.map fun link => if guard link then change link else link := rfl

theorem revoke_eq_some (revoked : store.revokeDaemonToken tokenId memberId = some after) :
    after.link = store.link ∧ after.clock = store.clock ∧
      after.tokens.nextId = store.tokens.nextId := by
  rw [revokeDaemonToken] at revoked
  split at revoked
  next =>
    rcases Option.some.inj revoked with rfl
    exact ⟨rfl, rfl, rfl⟩
  next => cases revoked

/-- A revoke leaves the owners of the tokens. -/
theorem owner_of_revoke {other : ℕ} {token : DaemonToken}
    (revoked : store.revokeDaemonToken tokenId memberId = some after)
    (found : store.tokens.get? other = some token) :
    ∃ kept, after.tokens.get? other = some kept ∧ kept.memberId = token.memberId := by
  rw [revokeDaemonToken] at revoked
  split at revoked
  next =>
    rcases Option.some.inj revoked with rfl
    simp only [Table.get?_update, found]
    split
    next => exact ⟨_, rfl, rfl⟩
    next => exact ⟨_, rfl, rfl⟩
  next => cases revoked

/-- What is live after a revoke was live, and is not the revoked token. -/
theorem live_of_revoke {other : ℕ}
    (revoked : store.revokeDaemonToken tokenId memberId = some after) (live : after.Live other) :
    other ≠ tokenId ∧ store.Live other := by
  rw [revokeDaemonToken] at revoked
  split at revoked
  next =>
    rcases Option.some.inj revoked with rfl
    rcases live with ⟨token, found, active⟩
    rcases Table.get?_of_update found with ⟨old, old_found, ⟨same, rfl⟩ | rfl⟩
    · cases active
    · refine ⟨?_, token, old_found, active⟩
      rintro rfl
      have found : (store.tokens.update other fun token => { token with isActive := false }).get? other
          = some token := found
      rw [Table.get?_update, if_pos rfl] at found
      rcases Option.map_eq_some_iff.mp found with ⟨before, -, rfl⟩
      cases active
  next => cases revoked

/-- A revoke of a token of its owner is done. -/
theorem exists_revoke {token : DaemonToken} (found : store.tokens.get? tokenId = some token)
    (owner : token.memberId = memberId) :
    ∃ after, store.revokeDaemonToken tokenId memberId = some after := by
  rw [revokeDaemonToken, if_pos]
  · exact ⟨_, rfl⟩
  · simp [found, owner]

end LinkStore

end ScuffedCrew.DeviceLinks
