import ScuffedCrew.Members.Admins
import ScuffedCrew.StateMachine.Pool

/-!
# Editing, promoting and moderating a member

The handlers, by the statement each makes next.  Each decides from what it has
read of the member whether it counts the admins again after its write, and takes
the write back when none is left.
-/

namespace ScuffedCrew.Members

open Rust Database StateMachine

/-- `PUT /api/members/:id`; of the other fields, the check that fails. -/
structure ProfileEdit where
  caller : Caller
  id : Text
  isActive : Option Bool
  fieldError : Option Text

/-- `PATCH /api/members/:id/role`. -/
structure RoleChange where
  id : Text
  role : OrgRole

/-- `POST /api/moderation`. -/
structure ActionRequest where
  caller : Caller
  memberId : Text
  actionType : ModerationActionType
  reason : Text
  expiresAt : Option ℕ

def ActionRequest.action (request : ActionRequest) : ModerationAction :=
  ⟨request.memberId, request.actionType, request.expiresAt, true⟩

inductive OrgError
  | notFound (message : Text)
  | denied (denial : PolicyDenial)
  | badRequest (message : Text)
  | conflict (message : Text)
  deriving DecidableEq

def noAdminLeft : OrgError := .conflict "Would leave org without an actionable admin".toList

/-- What a handler has read of its member makes it an admin that can use the admin tools. -/
def targetIsActionable (target : Member) (suspended : Bool) : Bool :=
  target.isActive && target.orgRole == .admin && !suspended

/-- A call, by the statement it makes next. -/
inductive OrgCall
  | editSelect (edit : ProfileEdit)
  | editCount (edit : ProfileEdit) (target : Member) (active : Bool)
  | editSuspended (edit : ProfileEdit) (target : Member) (active : Bool) (adminCount : ℕ)
  | editWrite (edit : ProfileEdit) (active : Option Bool) (rechecks : Bool)
  | editAssert (edit : ProfileEdit)
  | editRestore (edit : ProfileEdit)
  | roleSelect (change : RoleChange)
  | roleCount (change : RoleChange) (target : Member)
  | roleSuspended (change : RoleChange) (target : Member) (adminCount : ℕ)
  | roleCas (change : RoleChange) (target : Member) (rechecks : Bool)
  | roleAssert (change : RoleChange) (target : Member)
  | roleRestore (change : RoleChange) (target : Member)
  | actionSelect (request : ActionRequest)
  | actionCount (request : ActionRequest) (target : Member)
  | actionSuspended (request : ActionRequest) (target : Member) (adminCount : ℕ)
  | banWrite (request : ActionRequest) (rechecks : Bool)
  | banAssert (request : ActionRequest)
  | banRestore (request : ActionRequest)
  | actionCreate (request : ActionRequest) (rechecks : Bool)
  | actionAssert (request : ActionRequest) (actionId : ℕ)
  | lift (request : ActionRequest) (actionId : ℕ)
  | returned (answer : Except OrgError Unit)

namespace OrgCall

def afterEditChecks (edit : ProfileEdit) (active : Option Bool) (rechecks : Bool) : OrgCall :=
  match edit.fieldError with
  | some message => returned (.error (.badRequest message))
  | none => editWrite edit active rechecks

def afterEditSelect (edit : ProfileEdit) : Option Member → OrgCall
  | none => returned (.error (.notFound "Member not found".toList))
  | some target =>
      if target.userId ≠ edit.caller.userId ∧ !edit.caller.orgRole.isAtLeast .officer then
        returned (.error (.denied (.forbidden "Can only edit your own profile".toList)))
      else
        match edit.isActive with
        | none => afterEditChecks edit none false
        | some active =>
            if active = target.isActive then afterEditChecks edit none false
            else editCount edit target active

def afterEditSuspended (edit : ProfileEdit) (target : Member) (active : Bool) (adminCount : ℕ)
    (suspended : Bool) : OrgCall :=
  let actionable := targetIsActionable target suspended
  match canSetIsActive edit.caller edit.id target.orgRole target.isActive active adminCount
    actionable with
  | some denial => returned (.error (.denied denial))
  | none => afterEditChecks edit (some active) (!active && actionable)

def afterRoleSuspended (change : RoleChange) (target : Member) (adminCount : ℕ)
    (suspended : Bool) : OrgCall :=
  let actionable := targetIsActionable target suspended
  match canChangeRole target.orgRole target.isActive change.role adminCount actionable with
  | some denial => returned (.error (.denied denial))
  | none => roleCas change target (actionable && change.role != .admin)

def afterActionSelect (request : ActionRequest) : Option Member → OrgCall
  | none => returned (.error (.notFound "Target member not found".toList))
  | some target =>
      match canModerate request.caller.orgRole target.orgRole request.caller.memberId
        request.memberId with
      | some denial => returned (.error (.denied denial))
      | none => actionCount request target

def afterActionSuspended (request : ActionRequest) (target : Member) (adminCount : ℕ)
    (suspended : Bool) : OrgCall :=
  let actionable := targetIsActionable target suspended
  match canSuspendOrBanAdmin target.orgRole target.isActive request.actionType adminCount
    actionable with
  | some denial => returned (.error (.denied denial))
  | none =>
      if request.actionType = .ban ∧ target.isActive then banWrite request actionable
      else actionCreate request (request.actionType == .suspension && actionable)

/-- `assert_has_actionable_admin`, and where the call goes on either answer. -/
def recount (store : OrgStore) (held broken : OrgCall) : OrgCall :=
  if store.countActionableAdmins = 0 then broken else held

/-- The row a handler has found is still there when it is updated. -/
def step (store : OrgStore) : OrgCall → Unit → Option (OrgStore × OrgCall)
  | editSelect edit, _ => some (store, afterEditSelect edit (store.members.select edit.id))
  | editCount edit target active, _ =>
      some (store, editSuspended edit target active store.countActionableAdmins)
  | editSuspended edit target active adminCount, _ =>
      some (store, afterEditSuspended edit target active adminCount
        (store.isMemberSuspendedOrBanned edit.id))
  | editWrite edit active rechecks, _ =>
      some (match active with | none => store | some active => store.setActive edit.id active,
        if rechecks then editAssert edit else returned (.ok ()))
  | editAssert edit, _ => some (store, recount store (returned (.ok ())) (editRestore edit))
  | editRestore edit, _ => some (store.setActive edit.id true, returned (.error noAdminLeft))
  | roleSelect change, _ =>
      some (store, match store.members.select change.id with
        | none => returned (.error (.notFound "Member not found".toList))
        | some target => roleCount change target)
  | roleCount change target, _ =>
      some (store, roleSuspended change target store.countActionableAdmins)
  | roleSuspended change target adminCount, _ =>
      some (store, afterRoleSuspended change target adminCount
        (store.isMemberSuspendedOrBanned change.id))
  | roleCas change target rechecks, _ =>
      match store.changeMemberRoleCas change.id target.orgRole change.role with
      | none =>
          some (store, returned (.error (.conflict "Member role changed concurrently".toList)))
      | some store =>
          some (store, if rechecks then roleAssert change target else returned (.ok ()))
  | roleAssert change target, _ =>
      some (store, recount store (returned (.ok ())) (roleRestore change target))
  | roleRestore change target, _ =>
      some ((store.changeMemberRoleCas change.id change.role target.orgRole).getD store,
        returned (.error noAdminLeft))
  | actionSelect request, _ =>
      some (store,
        if request.reason.trim.isEmpty then
          returned (.error (.badRequest "Reason is required".toList))
        else afterActionSelect request (store.members.select request.memberId))
  | actionCount request target, _ =>
      some (store, actionSuspended request target store.countActionableAdmins)
  | actionSuspended request target adminCount, _ =>
      some (store, afterActionSuspended request target adminCount
        (store.isMemberSuspendedOrBanned request.memberId))
  | banWrite request rechecks, _ =>
      some (store.setActive request.memberId false,
        if rechecks then banAssert request else actionCreate request false)
  | banAssert request, _ =>
      some (store, recount store (actionCreate request false) (banRestore request))
  | banRestore request, _ =>
      some (store.setActive request.memberId true, returned (.error noAdminLeft))
  | actionCreate request rechecks, _ =>
      let (actionId, store) := store.createModerationAction request.action
      some (store, if rechecks then actionAssert request actionId else returned (.ok ()))
  | actionAssert request actionId, _ =>
      some (store, recount store (returned (.ok ())) (lift request actionId))
  | lift _ actionId, _ => some (store.liftModerationAction actionId, returned (.error noAdminLeft))
  | returned _, _ => none

/-- The call has made no statement. -/
def Fresh : OrgCall → Prop
  | editSelect _ | roleSelect _ | actionSelect _ => True
  | _ => False

def Returned : OrgCall → Prop
  | returned _ => True
  | _ => False

end OrgCall

def concurrentHandlers : Machine (Pool OrgStore OrgCall) (Turn Unit) :=
  interleaving OrgCall.step

abbrev OrgStep := Step (Pool OrgStore OrgCall) (Turn Unit)

end ScuffedCrew.Members
