import ScuffedCrew.DeviceLinks.Link
import ScuffedCrew.StateMachine.Pool

/-!
# Approve, deny, poll and cleanup

The calls on one code, by the statement each makes next.  `approve` mints its
token before it writes the row; `deny` decides from the row it has selected
whether there is a token to revoke.
-/

namespace ScuffedCrew.DeviceLinks

open Rust Database StateMachine

/-- A member, and the secret that is generated for the token. -/
structure Approval where
  memberId : Text
  secret : Text
  secret_nonempty : secret ≠ []

inductive ApproveAnswer
  | ok
  | invalidCode
  | internal
  deriving DecidableEq

/-- The row that `deny` has selected. -/
structure DeviceLinkDenial where
  memberId : Option Text
  daemonTokenId : Option ℕ
  deriving DecidableEq

inductive DeviceLinkPoll
  | pending
  | slowDown
  | denied
  | expired
  | approved (secret : Text)
  deriving DecidableEq

/-- A call, by the statement it makes next.  A poll has read its clock, and may start over `later`
times. -/
inductive LinkCall
  | lookup (approval : Approval)
  | mint (approval : Approval)
  | approve (approval : Approval) (tokenId : ℕ)
  | revokeMinted (approval : Approval) (tokenId : ℕ)
  | approveReturned (answer : ApproveAnswer)
  | denySelect (memberId : Text)
  | denyRevoke (memberId : Text) (denial : DeviceLinkDenial) (tokenId : ℕ) (owner : Text)
  | denyUpdate (memberId : Text) (denial : DeviceLinkDenial)
  | denyReturned (answer : Except Unit (Option DeviceLinkDenial))
  | pollLoad (now : Instant) (later : ℕ)
  | touchPending (now : Instant) (later : ℕ)
  | touchDenied (now : Instant)
  | consumeApproved (now : Instant) (later : ℕ)
  | pollReturned (answer : Except Unit DeviceLinkPoll)
  | cleanupSelect (cutoff : Instant)
  | cleanupRevoke (cutoff : Instant) (tokenId : ℕ) (owner : Text)
  | cleanupClear (cutoff : Instant)
  | cleanupCount (cutoff : Instant)
  | cleanupDelete (cutoff : Instant)
  | cleanupReturned (answer : Except Unit ℕ)

namespace LinkCall

/-- The call has made no statement. -/
def Fresh : LinkCall → Prop
  | lookup _ | denySelect _ | cleanupSelect _ => True
  | pollLoad _ later => later = 1
  | _ => False

def Returned : LinkCall → Prop
  | approveReturned _ | denyReturned _ | pollReturned _ | cleanupReturned _ => True
  | _ => False

/-- What a call returns when its statement fails. -/
def failed : LinkCall → Option LinkCall
  | lookup _ | mint _ | approve _ _ => some (approveReturned .internal)
  | revokeMinted _ _ => some (approveReturned .invalidCode)
  | denySelect _ | denyRevoke .. | denyUpdate _ _ => some (denyReturned (.error ()))
  | pollLoad _ _ | touchPending _ _ | touchDenied _ | consumeApproved _ _ =>
      some (pollReturned (.error ()))
  | cleanupSelect _ | cleanupRevoke .. | cleanupClear _ | cleanupCount _ | cleanupDelete _ =>
      some (cleanupReturned (.error ()))
  | _ => none

/-- The loop of `poll_device_link` runs twice. -/
def pollAgain (now : Instant) : ℕ → LinkCall
  | 0 => pollReturned (.ok .expired)
  | later + 1 => pollLoad now later

def afterLoad (now : Instant) (later : ℕ) : Option DeviceLink → LinkCall
  | none => pollReturned (.ok .expired)
  | some link =>
      if link.expiresAt ≤ now ∨ link.status = .consumed then pollReturned (.ok .expired)
      else if link.polledTooFast now then pollReturned (.ok .slowDown)
      else
        match link.status with
        | .pending => touchPending now later
        | .denied => touchDenied now
        | .approved => consumeApproved now later
        | .consumed => pollReturned (.ok .expired)

/-- What a poll that has consumed the row returns. -/
def handOver (link : DeviceLink) : DeviceLinkPoll :=
  match link.handoverToken with
  | some secret => if secret.isEmpty then .expired else .approved secret
  | none => .expired

def afterDenySelect (memberId : Text) : Option DeviceLink → LinkCall
  | none => denyReturned (.ok none)
  | some link =>
      let denial : DeviceLinkDenial := ⟨link.memberId, link.daemonTokenId⟩
      match denial.daemonTokenId, denial.memberId with
      | some tokenId, some owner => denyRevoke memberId denial tokenId owner
      | _, _ => denyUpdate memberId denial

def afterCleanupSelect (cutoff : Instant) (link : Option DeviceLink) : LinkCall :=
  match (link.filter fun link => decide (link.expiresAt ≤ cutoff)).bind DeviceLink.uncollected with
  | none => cleanupClear cutoff
  | some (tokenId, owner) => cleanupRevoke cutoff tokenId owner

/-- A statement that does not fail, at the time of the store. -/
def statement (store : LinkStore) : LinkCall → Option (LinkStore × LinkCall)
  | lookup approval =>
      if store.link.any (DeviceLink.isPending · store.clock) then some (store, mint approval)
      else some (store, approveReturned .invalidCode)
  | mint approval =>
      let (tokenId, store) := store.createDaemonToken approval.memberId
      some (store, approve approval tokenId)
  | approve approval tokenId =>
      if store.link.any (DeviceLink.isPending · store.clock) then
        some (store.updateLink (DeviceLink.isPending · store.clock)
          (DeviceLink.approve · approval.memberId tokenId approval.secret), approveReturned .ok)
      else some (store, revokeMinted approval tokenId)
  | revokeMinted approval tokenId =>
      match store.revokeDaemonToken tokenId approval.memberId with
      | none => some (store, approveReturned .invalidCode)
      | some store => some (store, approveReturned .invalidCode)
  | denySelect memberId =>
      some (store, afterDenySelect memberId
        (store.link.filter (DeviceLink.deniable · memberId store.clock)))
  | denyRevoke memberId denial tokenId owner =>
      match store.revokeDaemonToken tokenId owner with
      | none => some (store, denyReturned (.error ()))
      | some store => some (store, denyUpdate memberId denial)
  | denyUpdate memberId denial =>
      if store.link.any (DeviceLink.deniable · memberId store.clock) then
        some (store.updateLink (DeviceLink.deniable · memberId store.clock) DeviceLink.deny,
          denyReturned (.ok (some denial)))
      else some (store, denyReturned (.ok none))
  | pollLoad now later => some (store, afterLoad now later store.link)
  | touchPending now later =>
      some (store.updateLink (DeviceLink.pollable · .pending now) (DeviceLink.touch · now),
        if store.link.any (DeviceLink.pollable · .pending now) then pollReturned (.ok .pending)
        else pollAgain now later)
  | touchDenied now =>
      some (store.updateLink (DeviceLink.pollable · .denied now) (DeviceLink.touch · now),
        pollReturned (.ok .denied))
  | consumeApproved now later =>
      some (store.updateLink (DeviceLink.pollable · .approved now) (DeviceLink.consume · now),
        match store.link.filter (DeviceLink.pollable · .approved now) with
        | none => pollAgain now later
        | some link => pollReturned (.ok (handOver link)))
  | cleanupSelect cutoff =>
      -- The cutoff is a reading of the clock that the call has taken.
      if cutoff ≤ store.clock then some (store, afterCleanupSelect cutoff store.link) else none
  | cleanupRevoke cutoff tokenId owner =>
      match store.revokeDaemonToken tokenId owner with
      | none => some (store, cleanupClear cutoff)
      | some store => some (store, cleanupClear cutoff)
  | cleanupClear cutoff =>
      some (store.updateLink (fun link => decide (link.expiresAt ≤ cutoff)) DeviceLink.clear,
        cleanupCount cutoff)
  | cleanupCount cutoff =>
      if store.link.any fun link => decide (link.expiresAt ≤ cutoff) then
        some (store, cleanupDelete cutoff)
      else some (store, cleanupReturned (.ok 0))
  | cleanupDelete cutoff =>
      some ({ store with link := store.link.filter fun link => !decide (link.expiresAt ≤ cutoff) },
        cleanupReturned (.ok 1))
  | approveReturned _ | denyReturned _ | pollReturned _ | cleanupReturned _ => none

end LinkCall

/-- The time of a statement, and whether it fails. -/
structure Reply where
  now : Instant
  fails : Bool

/-- The clock does not go back, and a statement that fails changes nothing. -/
def LinkCall.step (store : LinkStore) (call : LinkCall) (reply : Reply) :
    Option (LinkStore × LinkCall) :=
  if reply.now < store.clock then none
  else if reply.fails then call.failed.map fun answer => ({ store with clock := reply.now }, answer)
  else call.statement { store with clock := reply.now }

def concurrentLinks : Machine (Pool LinkStore LinkCall) (Turn Reply) :=
  interleaving LinkCall.step

abbrev LinkStep := Step (Pool LinkStore LinkCall) (Turn Reply)

end ScuffedCrew.DeviceLinks
