import ScuffedCrew.Database.Indexed
import ScuffedCrew.Database.Table
import ScuffedCrew.Members.Policy

/-!
# Members and moderation actions

The rows, and who of them is an admin that can use the admin tools.
-/

namespace ScuffedCrew.Members

open Rust Database

structure Member where
  userId : Text
  orgRole : OrgRole
  isActive : Bool
  deriving DecidableEq

structure ModerationAction where
  memberId : Text
  actionType : ModerationActionType
  expiresAt : Option ℕ
  isActive : Bool
  deriving DecidableEq

/-- The action suspends or bans its member at a time. -/
def ModerationAction.blocks (action : ModerationAction) (now : ℕ) : Bool :=
  action.isActive && action.actionType.revokesSessions &&
    action.expiresAt.all fun expiresAt => now < expiresAt

/-- Members are never deleted. -/
structure OrgStore where
  members : Keyed Text Member
  distinct : members.keys.Nodup
  actions : Table ModerationAction
  now : ℕ

namespace OrgStore

variable (store : OrgStore)

def isMemberSuspendedOrBanned (id : Text) : Bool :=
  store.actions.rows.any fun row => row.value.memberId == id && row.value.blocks store.now

def isActionable (id : Text) : Bool :=
  (store.members.row id).isActive && (store.members.row id).orgRole == .admin &&
    !store.isMemberSuspendedOrBanned id

def countActionableAdmins : ℕ := (store.members.keys.filter store.isActionable).length

def setMember (id : Text) (member : Member) : OrgStore :=
  { store with members := store.members.replace id member, distinct := store.distinct }

/-- `UPDATE $rid SET is_active`. -/
def setActive (id : Text) (active : Bool) : OrgStore :=
  store.setMember id { store.members.row id with isActive := active }

/-- `UPDATE $rid SET org_role … WHERE org_role = $expected`. -/
def changeMemberRoleCas (id : Text) (expected role : OrgRole) : Option OrgStore :=
  if (store.members.row id).orgRole = expected then
    some (store.setMember id { store.members.row id with orgRole := role })
  else none

def createModerationAction (action : ModerationAction) : ℕ × OrgStore :=
  (store.actions.nextId, { store with actions := store.actions.create action })

def liftModerationAction (actionId : ℕ) : OrgStore :=
  { store with
    actions := store.actions.update actionId fun action => { action with isActive := false } }

/-- Some admin can use the admin tools. -/
def HasAdmin : Prop := ∃ id ∈ store.members.keys, store.isActionable id = true

variable {store} {id other : Text}

theorem countActionableAdmins_eq_zero_iff : store.countActionableAdmins = 0 ↔ ¬store.HasAdmin := by
  rw [countActionableAdmins, List.length_eq_zero_iff, List.filter_eq_nil_iff, HasAdmin]
  simp

theorem isActionable_eq_true_iff : store.isActionable id = true ↔
    (store.members.row id).isActive = true ∧ (store.members.row id).orgRole = .admin ∧
      store.isMemberSuspendedOrBanned id = false := by
  simp [isActionable, and_assoc]

/-- A write to a member leaves the others. -/
theorem isActionable_setMember (member : Member) (differs : other ≠ id) :
    (store.setMember id member).isActionable other = store.isActionable other := by
  simp only [isActionable, setMember, Keyed.row_replace, if_neg differs]
  rfl

theorem row_setMember (member : Member) : (store.setMember id member).members.row id = member := by
  simp [setMember]

theorem blocked_setMember (member : Member) :
    (store.setMember id member).isMemberSuspendedOrBanned other =
      store.isMemberSuspendedOrBanned other := rfl

/-- An action leaves the members it is not about. -/
theorem blocked_createModerationAction {action : ModerationAction}
    (differs : other ≠ action.memberId) :
    (store.createModerationAction action).2.isMemberSuspendedOrBanned other =
      store.isMemberSuspendedOrBanned other := by
  have unmatched : (action.memberId == other) = false := by simpa using Ne.symm differs
  simp [isMemberSuspendedOrBanned, createModerationAction, Table.create, unmatched]

/-- A lifted action blocks nobody. -/
theorem blocked_liftModerationAction {actionId : ℕ}
    (free : store.isMemberSuspendedOrBanned other = false) :
    (store.liftModerationAction actionId).isMemberSuspendedOrBanned other = false := by
  simp only [isMemberSuspendedOrBanned, liftModerationAction, Table.update, Table.updateWhere,
    List.any_map, List.any_eq_false] at free ⊢
  intro row row_mem
  have blocked := free row row_mem
  simp only [Function.comp_apply]
  split
  · simp [ModerationAction.blocks]
  · exact blocked

/-- More of the members stay actionable. -/
theorem HasAdmin.of_le {after : OrgStore} (admin : store.HasAdmin)
    (keys : after.members.keys = store.members.keys)
    (kept : ∀ id, store.isActionable id = true → after.isActionable id = true) :
    after.HasAdmin := by
  rcases admin with ⟨id, id_mem, actionable⟩
  exact ⟨id, keys ▸ id_mem, kept id actionable⟩

/-- When another admin is left, one member may be taken out. -/
theorem HasAdmin.of_others {after : OrgStore} (admin : ∃ other ∈ store.members.keys,
      other ≠ id ∧ store.isActionable other = true)
    (keys : after.members.keys = store.members.keys)
    (kept : ∀ other, other ≠ id → after.isActionable other = store.isActionable other) :
    after.HasAdmin := by
  rcases admin with ⟨other, other_mem, differs, actionable⟩
  exact ⟨other, keys ▸ other_mem, by rw [kept other differs, actionable]⟩

end OrgStore

end ScuffedCrew.Members
