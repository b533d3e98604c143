import Mathlib.Data.List.MinMax
import ScuffedCrew.Database.Table
import ScuffedCrew.Members.Policy

/-!
# Applications and the member they are for

The status machine of an application, and what an outcome does to the member row
of its applicant when nobody else writes.
-/

namespace ScuffedCrew.Applications

open Rust Database Members

inductive ApplicationStatus
  | pending
  | trial
  | accepted
  | rejected
  | withdrawn
  deriving DecidableEq

namespace ApplicationStatus

def text : ApplicationStatus → Text
  | pending => "pending".toList
  | trial => "trial".toList
  | accepted => "accepted".toList
  | rejected => "rejected".toList
  | withdrawn => "withdrawn".toList

def isValidTransition (status target : ApplicationStatus) : Bool :=
  match status, target with
  | pending, trial | pending, accepted | pending, rejected | pending, withdrawn => true
  | trial, accepted | trial, rejected | trial, withdrawn => true
  | _, _ => false

def maySelfWithdraw : ApplicationStatus → Bool
  | pending | trial => true
  | accepted | rejected | withdrawn => false

def blocksResubmit : ApplicationStatus → Bool
  | pending | trial => true
  | accepted | rejected | withdrawn => false

def roleOnAccept : ApplicationStatus → OrgRole
  | trial => .member
  | _ => .recruit

def ensuresMember : ApplicationStatus → Bool
  | trial | accepted => true
  | pending | rejected | withdrawn => false

def deactivatesMember : ApplicationStatus → Bool
  | rejected | withdrawn => true
  | pending | trial | accepted => false

/-- The application is still in the pipeline. -/
abbrev Open (status : ApplicationStatus) : Prop := status.blocksResubmit = true

/-- The role that `ensure_member_for_application` asks for. -/
def desiredRole (status target : ApplicationStatus) : OrgRole :=
  if target = accepted then status.roleOnAccept else .recruit

variable {status target : ApplicationStatus}

theorem deactivatesMember_iff : status.deactivatesMember = true ↔
    ¬status.Open ∧ status.ensuresMember = false := by
  cases status <;> decide

theorem open_of_isValidTransition (valid : status.isValidTransition target = true) :
    status.Open := by
  cases status <;> cases target <;> first | rfl | cases valid

theorem open_iff : status.Open ↔ status = pending ∨ status = trial := by
  cases status <;> decide

theorem ensuresMember_iff : status.ensuresMember = true ↔ status = trial ∨ status = accepted := by
  cases status <;> decide

/-- A transition either ensures the member or deactivates it. -/
theorem target_of_isValidTransition (valid : status.isValidTransition target = true) :
    target.ensuresMember = true ∨ target.deactivatesMember = true := by
  cases status <;> cases target <;> first | exact .inl rfl | exact .inr rfl | cases valid

/-- A trial that does not end without a member ends with an acceptance. -/
theorem eq_accepted_of_trial (valid : trial.isValidTransition target = true)
    (ensures : target.ensuresMember = true) : target = accepted := by
  cases target <;> first | rfl | exact absurd valid (by decide) | exact absurd ensures (by decide)

theorem ne_pending_of_isValidTransition (valid : status.isValidTransition target = true) :
    target ≠ pending := by
  rintro rfl
  cases status <;> cases valid

end ApplicationStatus

/-- The member row of the applicant; `isBanned` says that a ban on it is in force. -/
structure Applicant where
  orgRole : OrgRole
  isActive : Bool
  isBanned : Bool
  deriving DecidableEq

namespace Applicant

def setActive (active : Bool) (member : Applicant) : Applicant :=
  { member with isActive := active }

def setRole (role : OrgRole) (member : Applicant) : Applicant :=
  { member with orgRole := role }

/-- `ensure_member_for_application` writes the role. -/
def promotes (member : Applicant) (status target : ApplicationStatus) : Bool :=
  target == .accepted && member.orgRole != status.desiredRole target &&
    !member.orgRole.isAtLeast .officer

/-- The auto-deactivation takes the member out. -/
def revocable (member : Applicant) : Bool := member.isActive && member.orgRole == .recruit

/-- What `create_member` writes. -/
def created (role : OrgRole) : Applicant := ⟨role, true, false⟩

end Applicant

/-- There is a member row and it is active. -/
def Active (member : Option Applicant) : Prop := ∃ row ∈ member, row.isActive = true

/-- What a transition leaves of the member row when nobody else writes to it. -/
def outcome (status target : ApplicationStatus) : Option Applicant → Option Applicant
  | none => if target.ensuresMember then some (.created (status.desiredRole target)) else none
  | some member =>
      if target.ensuresMember then
        let member := member.setActive true
        some (if member.promotes status target then member.setRole (status.desiredRole target)
          else member)
      else if target.deactivatesMember && member.revocable then some (member.setActive false)
      else some member

/-- The applications of one user, in the order of their creation, and its member row. -/
structure ApplicantStore where
  applications : Table ApplicationStatus
  member : Option Applicant

namespace ApplicantStore

variable (store : ApplicantStore)

/-- `ORDER BY created_at DESC LIMIT 1`. -/
def latest : Option (Record ApplicationStatus) := store.applications.rows.argmax Record.id

def countOpen : ℕ := (store.applications.rows.filter fun row => row.value.blocksResubmit).length

/-- Some application of the user other than this one is open. -/
def OtherOpen (id : ℕ) : Prop :=
  ∃ row ∈ store.applications.rows, row.id ≠ id ∧ row.value.Open

variable {store} {row : Record ApplicationStatus} {id : ℕ} {status : ApplicationStatus}

theorem latest_eq_some_iff : store.latest = some row ↔
    store.applications.get? row.id = some row.value ∧
      ∀ other ∈ store.applications.rows, other.id ≤ row.id := by
  rw [latest, List.argmax_eq_some_iff, Table.mem_rows_iff]
  constructor
  · rintro ⟨found, most, -⟩
    exact ⟨found, most⟩
  · rintro ⟨found, most⟩
    refine ⟨found, most, ?_⟩
    intro other other_mem least
    have same := Nat.le_antisymm least (most other other_mem)
    have row_mem := Table.mem_rows_iff.mpr found
    rw [List.inj_on_of_nodup_map store.applications.distinct row_mem other_mem same]

theorem eq_of_not_otherOpen {other : ℕ} (alone : ¬store.OtherOpen id)
    (found : store.applications.get? other = some status) (opened : status.Open) : other = id := by
  by_contra differs
  exact alone ⟨⟨other, status⟩, Table.get?_eq_some_iff.mp found, differs, opened⟩

end ApplicantStore

end ScuffedCrew.Applications
