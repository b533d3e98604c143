import ScuffedCrew.Applications.Status
import ScuffedCrew.StateMachine.Pool

/-!
# Submitting, withdrawing and deciding an application

The handlers, by the statement each makes next.  A trial or an acceptance writes
the member before the compare-and-swap of the status, a rejection or a withdrawal
after it, and a submission counts the open applications after it has created its own.
-/

namespace ScuffedCrew.Applications

open Rust Database Members StateMachine

inductive ApplicationError
  | notFound (message : Text)
  | badRequest (message : Text)
  | forbidden (message : Text)
  | conflict (message : Text)
  | internal
  deriving DecidableEq

/-- What a handler has done to the member for its application. -/
inductive Provision
  | nothing
  | reactivated
  | created
  | promoted
  deriving DecidableEq

/-- `updateSelect` is `update_application`, `withdrawSelect` is `withdraw_my_application` and
`submitSettings` is `submit_application`. -/
inductive ApplicationCall
  | updateSelect (id : ℕ) (target : ApplicationStatus)
  | withdrawSelect
  | withdrawActor (id : ℕ) (status : ApplicationStatus)
  | ensureSelect (id : ℕ) (status target : ApplicationStatus)
  | ensureBan (id : ℕ) (status target : ApplicationStatus) (member : Applicant)
  | reactivate (id : ℕ) (status target : ApplicationStatus)
  | promote (id : ℕ) (status target : ApplicationStatus)
  | findUser (id : ℕ) (status target : ApplicationStatus)
  | createMember (id : ℕ) (status target : ApplicationStatus)
  | cas (id : ℕ) (status target : ApplicationStatus) (did : Provision)
  | casSelect (id : ℕ) (status : ApplicationStatus)
  | revokeSelect (id : ℕ) (target : ApplicationStatus)
  | revoke (id : ℕ) (target : ApplicationStatus)
  | submitSettings
  | submitMember
  | submitBan (member : Applicant)
  | submitLatest
  | submitCreate
  | submitCount (id : ℕ)
  | submitDelete (id : ℕ)
  | returned (answer : Except ApplicationError (Record ApplicationStatus))

namespace ApplicationCall

def failed (error : ApplicationError) : ApplicationCall := returned (.error error)

def done (id : ℕ) (status : ApplicationStatus) : ApplicationCall := returned (.ok ⟨id, status⟩)

/-- Where `apply_application_transition` begins. -/
def transition (id : ℕ) (status target : ApplicationStatus) : ApplicationCall :=
  if target.ensuresMember then ensureSelect id status target else cas id status target .nothing

def afterUpdateSelect (id : ℕ) (target : ApplicationStatus) :
    Option ApplicationStatus → ApplicationCall
  | none => failed (.notFound "Application not found".toList)
  | some status =>
      if status.isValidTransition target then transition id status target
      else failed (.badRequest
        ("Invalid transition: ".toList ++ status.text ++ " → ".toList ++ target.text))

def afterWithdrawSelect : Option (Record ApplicationStatus) → ApplicationCall
  | none => failed (.notFound "No application found".toList)
  | some row =>
      if row.value.maySelfWithdraw then withdrawActor row.id row.value
      else failed (.badRequest ("Cannot withdraw application in status ".toList ++ row.value.text))

/-- The member is active; its role is written when the outcome asks for another one. -/
def afterActive (id : ℕ) (status target : ApplicationStatus) (did : Provision)
    (member : Applicant) : ApplicationCall :=
  if member.promotes status target then promote id status target else cas id status target did

def afterEnsureBan (id : ℕ) (status target : ApplicationStatus) (member : Applicant)
    (banned : Bool) : ApplicationCall :=
  if banned then failed (.conflict "An active ban blocks this application".toList)
  else if member.isActive then afterActive id status target .nothing member
  else reactivate id status target

def afterReactivate (id : ℕ) (status target : ApplicationStatus) :
    Option Applicant → ApplicationCall
  | none => failed .internal
  | some member => afterActive id status target .reactivated member

/-- `update_application_status` tells a missing row from a status that has changed. -/
def lost (expected : ApplicationStatus) : Option ApplicationStatus → ApplicationCall
  | none => failed .internal
  | some current =>
      failed (.conflict ("Application status changed concurrently (expected ".toList ++
        expected.text ++ ", found ".toList ++ current.text ++ ")".toList))

def afterSubmitBan (member : Applicant) (banned : Bool) : ApplicationCall :=
  if banned then failed (.forbidden "Banned members cannot apply".toList)
  else if member.isActive then failed (.conflict "Already an active org member".toList)
  else submitLatest

def alreadyOpen : Text := "You already have an open application".toList

def afterSubmitLatest : Option (Record ApplicationStatus) → ApplicationCall
  | none => submitCreate
  | some row =>
      if row.value.blocksResubmit then
        failed (.conflict (alreadyOpen ++ " (".toList ++ row.value.text ++ ")".toList))
      else submitCreate

/-- The choice is what the statement finds in the other tables: recruitment is open, the user
exists, its name is not taken. -/
def step (store : ApplicantStore) :
    ApplicationCall → Bool → Option (ApplicantStore × ApplicationCall)
  | updateSelect id target, _ =>
      some (store, afterUpdateSelect id target (store.applications.get? id))
  | withdrawSelect, _ => some (store, afterWithdrawSelect store.latest)
  | withdrawActor id status, _ => some (store, transition id status .withdrawn)
  | ensureSelect id status target, _ =>
      match store.member with
      | none => some (store, findUser id status target)
      | some member => some (store, ensureBan id status target member)
  | ensureBan id status target member, _ =>
      some (store, afterEnsureBan id status target member (store.member.any Applicant.isBanned))
  | reactivate id status target, _ =>
      let member := store.member.map (Applicant.setActive true)
      some ({ store with member }, afterReactivate id status target member)
  | promote id status target, _ =>
      some ({ store with member := store.member.map (.setRole (status.desiredRole target)) },
        cas id status target .promoted)
  | findUser id status target, userExists =>
      if userExists then some (store, createMember id status target)
      else some (store, failed (.badRequest "Application user no longer exists".toList))
  | createMember id status target, nameFree =>
      -- A second row is refused by the index on the user or by the one on the name.
      if nameFree then
        match store.member with
        | none =>
            some ({ store with member := some (.created (status.desiredRole target)) },
              cas id status target .created)
        | some _ => some (store, failed .internal)
      else some (store, failed (.conflict "display_name_taken".toList))
  | cas id status target _, _ =>
      if store.applications.get? id = some status then
        some ({ store with applications := store.applications.update id fun _ => target },
          if target.deactivatesMember then revokeSelect id target else done id target)
      else some (store, casSelect id status)
  | casSelect id status, _ => some (store, lost status (store.applications.get? id))
  | revokeSelect id target, _ =>
      some (store,
        if store.member.any Applicant.revocable then revoke id target else done id target)
  | revoke id target, _ =>
      some ({ store with member := store.member.map (Applicant.setActive false) }, done id target)
  | submitSettings, recruitmentOpen =>
      if recruitmentOpen then some (store, submitMember)
      else some (store, failed (.forbidden "recruitment is currently closed".toList))
  | submitMember, _ =>
      match store.member with
      | none => some (store, submitLatest)
      | some member => some (store, submitBan member)
  | submitBan member, _ => some (store, afterSubmitBan member (store.member.any Applicant.isBanned))
  | submitLatest, _ => some (store, afterSubmitLatest store.latest)
  | submitCreate, _ =>
      some ({ store with applications := store.applications.create .pending },
        submitCount store.applications.nextId)
  | submitCount id, _ =>
      some (store, if 1 < store.countOpen then submitDelete id else done id .pending)
  | submitDelete id, _ =>
      some ({ store with applications := store.applications.deleteWhere fun row => row.id == id },
        failed (.conflict alreadyOpen))
  | returned _, _ => none

/-- The call has made no statement. -/
def Fresh : ApplicationCall → Prop
  | updateSelect .. | withdrawSelect | submitSettings => True
  | _ => False

def Returned : ApplicationCall → Prop
  | returned _ => True
  | _ => False

end ApplicationCall

def concurrentApplications : Machine (Pool ApplicantStore ApplicationCall) (Turn Bool) :=
  interleaving ApplicationCall.step

abbrev ApplicationStep := Step (Pool ApplicantStore ApplicationCall) (Turn Bool)

end ScuffedCrew.Applications
