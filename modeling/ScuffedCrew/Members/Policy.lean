import ScuffedCrew.Rust.Text

/-!
# The policy of roles

What a member may do to another one, from what has been read of both.
-/

namespace ScuffedCrew.Members

open Rust

inductive OrgRole
  | admin
  | officer
  | member
  | recruit
  deriving DecidableEq

namespace OrgRole

def level : OrgRole → ℕ
  | admin => 3
  | officer => 2
  | member => 1
  | recruit => 0

def isAtLeast (role required : OrgRole) : Bool := required.level ≤ role.level

def canAccessOfficerChannel : OrgRole → Bool
  | admin | officer => true
  | member | recruit => false

def officerMayModerate : OrgRole → Bool
  | member | recruit => true
  | admin | officer => false

end OrgRole

inductive ModerationActionType
  | note
  | warning
  | suspension
  | ban
  deriving DecidableEq

/-- `moderation_revokes_sessions`. -/
def ModerationActionType.revokesSessions : ModerationActionType → Bool
  | suspension | ban => true
  | note | warning => false

inductive PolicyDenial
  | badRequest (message : Text)
  | forbidden (message : Text)
  deriving DecidableEq

/-- The member that makes a request, as its extractor has read it. -/
structure Caller where
  memberId : Text
  userId : Text
  orgRole : OrgRole

def canModerate (actor target : OrgRole) (actorId targetId : Text) : Option PolicyDenial :=
  if actorId = targetId then some (.forbidden "Cannot moderate yourself".toList)
  else
    match actor with
    | .admin => none
    | .officer =>
        if target.officerMayModerate then none
        else some (.forbidden "Officers cannot moderate admins or other officers".toList)
    | .member | .recruit => some (.forbidden "Insufficient role to moderate".toList)

def canChangeRole (targetRole : OrgRole) (targetIsActive : Bool) (newRole : OrgRole)
    (actionableAdminCount : ℕ) (targetIsActionableAdmin : Bool) : Option PolicyDenial :=
  if targetRole = newRole then some (.badRequest "Member already has this role".toList)
  else if (targetIsActionableAdmin && targetIsActive && targetRole == .admin && newRole != .admin) &&
      actionableAdminCount ≤ 1 then
    some (.forbidden "Cannot demote the last active admin".toList)
  else none

def canSetIsActive (actor : Caller) (targetId : Text) (targetRole : OrgRole)
    (targetIsActive newActive : Bool) (actionableAdminCount : ℕ)
    (targetIsActionableAdmin : Bool) : Option PolicyDenial :=
  if actor.memberId = targetId then
    some (.forbidden "Cannot change your own active status".toList)
  else if !actor.orgRole.isAtLeast .officer then
    some (.forbidden "Only officers or admins can change active status".toList)
  else if actor.orgRole = .officer ∧ !targetRole.officerMayModerate then
    some (.forbidden "Officers cannot deactivate admins or other officers".toList)
  else if (targetIsActionableAdmin && targetIsActive && !newActive && targetRole == .admin) &&
      actionableAdminCount ≤ 1 then
    some (.forbidden "Cannot deactivate the last active admin".toList)
  else none

def canSuspendOrBanAdmin (targetRole : OrgRole) (targetIsActive : Bool)
    (action : ModerationActionType) (actionableAdminCount : ℕ) (targetIsActionableAdmin : Bool) :
    Option PolicyDenial :=
  if !action.revokesSessions then none
  else if (targetIsActionableAdmin && targetIsActive && targetRole == .admin) &&
      actionableAdminCount ≤ 1 then
    some (.forbidden "Cannot suspend or ban the last active admin".toList)
  else none

end ScuffedCrew.Members
