import ScuffedCrew.Members.Handlers

/-!
# The last admin

When no handler takes the last admin out without counting again, and what a
handler takes back is still that of an admin, an admin that can use the admin
tools is left once all handlers have returned.
-/

namespace ScuffedCrew.Members

open Rust Database StateMachine

variable {store after : OrgStore} {call moved : OrgCall} {pool next : Pool OrgStore OrgCall}
  {turn : Turn Unit} {id other : Text}

namespace OrgCall

/-- The member that a write takes out of the admins when the handler does not count again. -/
def takesOut (store : OrgStore) : OrgCall → Option Text
  | editWrite edit (some false) false => some edit.id
  | roleCas change target false =>
      if (store.members.row change.id).orgRole = target.orgRole ∧ change.role ≠ .admin then
        some change.id
      else none
  | banWrite request false => some request.memberId
  | actionCreate request false =>
      if request.action.blocks store.now then some request.memberId else none
  | _ => none

/-- The member a handler restores is otherwise an admin that can use the admin tools. -/
def Restores (store : OrgStore) : OrgCall → Prop
  | editRestore edit => (store.members.row edit.id).orgRole = .admin ∧
      store.isMemberSuspendedOrBanned edit.id = false
  | banRestore request => (store.members.row request.memberId).orgRole = .admin ∧
      store.isMemberSuspendedOrBanned request.memberId = false
  | roleRestore change _ => (store.members.row change.id).orgRole = change.role ∧
      (store.members.row change.id).isActive = true ∧
        store.isMemberSuspendedOrBanned change.id = false
  | lift request actionId => (store.members.row request.memberId).orgRole = .admin ∧
      (store.members.row request.memberId).isActive = true ∧
        ∀ row ∈ store.actions.rows, row.id ≠ actionId → row.value.memberId = request.memberId →
          row.value.blocks store.now = false
  | _ => True

/-- The handler has yet to count the admins, or to take its write back. -/
def Rechecks : OrgCall → Prop
  | editAssert _ | editRestore _ | roleAssert _ _ | roleRestore _ _ | banAssert _ | banRestore _
  | actionAssert _ _ | lift _ _ => True
  | _ => False

/-- The member the handler has found. -/
def member : OrgCall → Option Text
  | editCount edit _ _ | editSuspended edit _ _ _ | editWrite edit _ _ | editAssert edit
  | editRestore edit => some edit.id
  | roleCount change _ | roleSuspended change _ _ | roleCas change _ _ | roleAssert change _
  | roleRestore change _ => some change.id
  | actionCount request _ | actionSuspended request _ _ | banWrite request _ | banAssert request
  | banRestore request | actionCreate request _ | actionAssert request _ | lift request _ =>
      some request.memberId
  | _ => none

/-- A handler that counts again has taken the role of an admin away. -/
def Demotes : OrgCall → Prop
  | roleCas change target rechecks =>
      rechecks = true → target.orgRole = .admin ∧ change.role ≠ .admin
  | roleAssert change target | roleRestore change target =>
      target.orgRole = .admin ∧ change.role ≠ .admin
  | _ => True

end OrgCall

namespace OrgStep

variable (step : OrgStep)

/-- A handler that does not count the admins again does not take the last one out. -/
def KeepsAnother : Prop :=
  ∀ call ∈ step.before.processes[step.event.process]?,
    ∀ id, call.takesOut step.before.shared = some id → step.before.shared.isActionable id = true →
      ∃ other ∈ step.before.shared.members.keys, other ≠ id ∧
        step.before.shared.isActionable other = true

/-- When no admin is left, a handler takes back what it has taken from an admin. -/
def RestoresAdmin : Prop :=
  ∀ call ∈ step.before.processes[step.event.process]?,
    step.before.shared.HasAdmin ∨ call.Restores step.before.shared

structure Meets : Prop where
  keeps : KeepsAnother step
  restores : RestoresAdmin step

end OrgStep

/-! ## The writes -/

theorem keys_of_changeMemberRoleCas {expected role : OrgRole}
    (changed : store.changeMemberRoleCas id expected role = some after) :
    (store.members.row id).orgRole = expected ∧
      after = store.setMember id { store.members.row id with orgRole := role } := by
  rw [OrgStore.changeMemberRoleCas] at changed
  split at changed
  next same => exact ⟨same, Eq.symm (Option.some.inj changed)⟩
  next => cases changed

/-- A write to one member leaves an admin, when there is another one or the member stays one. -/
theorem hasAdmin_setMember {member : Member} (admin : store.HasAdmin)
    (kept : (store.setMember id member).isActionable id = true ∨
      (store.isActionable id = true → ∃ other ∈ store.members.keys, other ≠ id ∧
        store.isActionable other = true)) :
    (store.setMember id member).HasAdmin := by
  rcases admin with ⟨other, other_mem, actionable⟩
  by_cases same : other = id
  · subst same
    rcases kept with stays | others
    · exact ⟨other, other_mem, stays⟩
    · refine OrgStore.HasAdmin.of_others (others actionable) ?_ ?_
      · rfl
      · intro other differs
        exact OrgStore.isActionable_setMember member differs
  · refine ⟨other, other_mem, ?_⟩
    rw [OrgStore.isActionable_setMember member same, actionable]

/-- A member that is made active again is an admin if it was one. -/
theorem isActionable_setActive_true (admin : (store.members.row id).orgRole = .admin)
    (free : store.isMemberSuspendedOrBanned id = false) :
    (store.setActive id true).isActionable id = true := by
  rw [OrgStore.isActionable_eq_true_iff, OrgStore.setActive, OrgStore.row_setMember]
  exact ⟨rfl, admin, free⟩

theorem hasAdmin_setActive_true (found : id ∈ store.members.keys)
    (good : store.HasAdmin ∨ (store.members.row id).orgRole = .admin ∧
      store.isMemberSuspendedOrBanned id = false) :
    (store.setActive id true).HasAdmin := by
  rcases good with admin | ⟨role, free⟩
  · apply hasAdmin_setMember admin
    by_cases actionable : store.isActionable id = true
    · have good := OrgStore.isActionable_eq_true_iff.mp actionable
      exact .inl (isActionable_setActive_true good.2.1 good.2.2)
    · exact .inr fun was => absurd was actionable
  · exact ⟨id, found, isActionable_setActive_true role free⟩

theorem hasAdmin_createModerationAction {action : ModerationAction} (admin : store.HasAdmin)
    (others : action.blocks store.now = true → store.isActionable action.memberId = true →
      ∃ other ∈ store.members.keys, other ≠ action.memberId ∧ store.isActionable other = true) :
    (store.createModerationAction action).2.HasAdmin := by
  have kept : ∀ other, other ≠ action.memberId →
      (store.createModerationAction action).2.isActionable other = store.isActionable other := by
    intro other differs
    simp only [OrgStore.isActionable, OrgStore.blocked_createModerationAction differs]
    rfl
  rcases admin with ⟨other, other_mem, actionable⟩
  by_cases same : other = action.memberId
  · subst same
    cases blocks : action.blocks store.now with
    | true => exact OrgStore.HasAdmin.of_others (others blocks actionable) rfl kept
    | false =>
        refine ⟨action.memberId, other_mem, ?_⟩
        have free := OrgStore.isActionable_eq_true_iff.mp actionable
        refine OrgStore.isActionable_eq_true_iff.mpr ⟨free.1, free.2.1, ?_⟩
        have unblocked := free.2.2
        simp only [OrgStore.isMemberSuspendedOrBanned] at unblocked
        simp [OrgStore.isMemberSuspendedOrBanned, OrgStore.createModerationAction, Table.create,
          unblocked, blocks]
  · exact ⟨other, other_mem, by rw [kept other same, actionable]⟩

theorem hasAdmin_liftModerationAction {actionId : ℕ} (found : id ∈ store.members.keys)
    (good : store.HasAdmin ∨ (store.members.row id).orgRole = .admin ∧
      (store.members.row id).isActive = true ∧
        ∀ row ∈ store.actions.rows, row.id ≠ actionId → row.value.memberId = id →
          row.value.blocks store.now = false) :
    (store.liftModerationAction actionId).HasAdmin := by
  rcases good with admin | ⟨role, active, free⟩
  · refine admin.of_le ?_ ?_
    · rfl
    · intro other actionable
      have good := OrgStore.isActionable_eq_true_iff.mp actionable
      exact OrgStore.isActionable_eq_true_iff.mpr
        ⟨good.1, good.2.1, OrgStore.blocked_liftModerationAction good.2.2⟩
  · refine ⟨id, found, OrgStore.isActionable_eq_true_iff.mpr ⟨active, role, ?_⟩⟩
    simp only [OrgStore.isMemberSuspendedOrBanned, OrgStore.liftModerationAction, Table.update,
      Table.updateWhere, List.any_map, List.any_eq_false, Function.comp_apply, Bool.and_eq_true,
      beq_iff_eq, not_and, Bool.not_eq_true]
    intro row row_mem
    split
    · simp [ModerationAction.blocks]
    next differs => exact free row row_mem (by simpa using differs)

/-! ## One statement -/

/-- What a statement leaves of what the handlers rely on. -/
structure Leaves (store : OrgStore) (call : OrgCall) (after : OrgStore) (moved : OrgCall) : Prop where
  keys : after.members.keys = store.members.keys
  found : ∀ id, moved.member = some id → id ∈ store.members.keys
  demotes : moved.Demotes
  admin : store.HasAdmin ∨ call.Rechecks → after.HasAdmin ∨ moved.Rechecks

/-- A statement that only reads. -/
theorem Leaves.of_read (found : ∀ id, moved.member = some id → id ∈ store.members.keys)
    (demotes : moved.Demotes) (reads : ¬call.Rechecks) : Leaves store call store moved :=
  ⟨rfl, found, demotes, fun admin => .inl (admin.resolve_right reads)⟩

/-- A handler that returns, with an admin left. -/
theorem Leaves.of_returned {answer : Except OrgError Unit}
    (keys : after.members.keys = store.members.keys)
    (admin : store.HasAdmin ∨ call.Rechecks → after.HasAdmin) :
    Leaves store call after (.returned answer) :=
  ⟨keys, by simp [OrgCall.member], trivial, fun before => .inl (admin before)⟩

/-- The count decides whether the write is taken back. -/
theorem Leaves.of_recount {held broken : OrgCall}
    (found : ∀ id, held.member = some id ∨ broken.member = some id → id ∈ store.members.keys)
    (demotes : held.Demotes ∧ broken.Demotes) (rechecks : broken.Rechecks) :
    Leaves store call store (.recount store held broken) := by
  rw [OrgCall.recount]
  split
  next none => exact ⟨rfl, fun id at_id => found id (.inr at_id), demotes.2, fun _ => .inr rechecks⟩
  next some =>
    have admin : store.HasAdmin := by
      by_contra none
      exact some (OrgStore.countActionableAdmins_eq_zero_iff.mpr none)
    exact ⟨rfl, fun id at_id => found id (.inl at_id), demotes.1, fun _ => .inl admin⟩

/-- A read by a handler that has found its member, or returns. -/
theorem Leaves.of_found (found : id ∈ store.members.keys) (reads : ¬call.Rechecks)
    (next : (∃ answer, moved = .returned answer) ∨ moved.member = some id ∧ moved.Demotes) :
    Leaves store call store moved := by
  rcases next with ⟨answer, rfl⟩ | ⟨same, demotes⟩
  · exact .of_read (by simp [OrgCall.member]) trivial reads
  · refine .of_read ?_ demotes reads
    intro other at_other
    rcases Option.some.inj (Eq.trans (Eq.symm same) at_other) with rfl
    exact found

theorem next_of_afterEditChecks {edit : ProfileEdit} {active : Option Bool} {rechecks : Bool} :
    (∃ answer, OrgCall.afterEditChecks edit active rechecks = .returned answer) ∨
      (OrgCall.afterEditChecks edit active rechecks).member = some edit.id ∧
        (OrgCall.afterEditChecks edit active rechecks).Demotes := by
  rw [OrgCall.afterEditChecks]
  split
  next message _ => exact .inl ⟨_, rfl⟩
  next => exact .inr ⟨rfl, trivial⟩

theorem next_of_afterEditSelect {edit : ProfileEdit} {target : Member} :
    (∃ answer, OrgCall.afterEditSelect edit (some target) = .returned answer) ∨
      (OrgCall.afterEditSelect edit (some target)).member = some edit.id ∧
        (OrgCall.afterEditSelect edit (some target)).Demotes := by
  simp only [OrgCall.afterEditSelect]
  split
  next => exact .inl ⟨_, rfl⟩
  next =>
    split
    next => exact next_of_afterEditChecks
    next active _ =>
      split
      next => exact next_of_afterEditChecks
      next => exact .inr ⟨rfl, trivial⟩

theorem next_of_afterEditSuspended {edit : ProfileEdit} {target : Member} {active : Bool}
    {adminCount : ℕ} {suspended : Bool} :
    (∃ answer,
        OrgCall.afterEditSuspended edit target active adminCount suspended = .returned answer) ∨
      (OrgCall.afterEditSuspended edit target active adminCount suspended).member =
          some edit.id ∧
        (OrgCall.afterEditSuspended edit target active adminCount suspended).Demotes := by
  simp only [OrgCall.afterEditSuspended]
  split
  next denial _ => exact .inl ⟨_, rfl⟩
  next => exact next_of_afterEditChecks

theorem next_of_afterRoleSuspended {change : RoleChange} {target : Member} {adminCount : ℕ}
    {suspended : Bool} :
    (∃ answer,
        OrgCall.afterRoleSuspended change target adminCount suspended = .returned answer) ∨
      (OrgCall.afterRoleSuspended change target adminCount suspended).member = some change.id ∧
        (OrgCall.afterRoleSuspended change target adminCount suspended).Demotes := by
  simp only [OrgCall.afterRoleSuspended]
  split
  next denial _ => exact .inl ⟨_, rfl⟩
  next =>
    refine .inr ⟨rfl, ?_⟩
    intro rechecks
    simp only [targetIsActionable, Bool.and_eq_true, beq_iff_eq, bne_iff_ne] at rechecks
    exact ⟨rechecks.1.1.2, rechecks.2⟩

theorem next_of_afterActionSelect {request : ActionRequest} {target : Member} :
    (∃ answer, OrgCall.afterActionSelect request (some target) = .returned answer) ∨
      (OrgCall.afterActionSelect request (some target)).member = some request.memberId ∧
        (OrgCall.afterActionSelect request (some target)).Demotes := by
  simp only [OrgCall.afterActionSelect]
  split
  next denial _ => exact .inl ⟨_, rfl⟩
  next => exact .inr ⟨rfl, trivial⟩

theorem next_of_afterActionSuspended {request : ActionRequest} {target : Member}
    {adminCount : ℕ} {suspended : Bool} :
    (∃ answer,
        OrgCall.afterActionSuspended request target adminCount suspended = .returned answer) ∨
      (OrgCall.afterActionSuspended request target adminCount suspended).member =
          some request.memberId ∧
        (OrgCall.afterActionSuspended request target adminCount suspended).Demotes := by
  simp only [OrgCall.afterActionSuspended]
  split
  next denial _ => exact .inl ⟨_, rfl⟩
  next => split <;> exact .inr ⟨rfl, trivial⟩

theorem keys_editWrite (store : OrgStore) (id : Text) (active : Option Bool) :
    (match active with
      | none => store
      | some active => store.setActive id active).members.keys = store.members.keys := by
  cases active <;> rfl

theorem leaves_of_step (taken : call.step store () = some (after, moved))
    (found : ∀ id, call.member = some id → id ∈ store.members.keys) (demotes : call.Demotes)
    (keeps : ∀ id, call.takesOut store = some id → store.isActionable id = true →
      ∃ other ∈ store.members.keys, other ≠ id ∧ store.isActionable other = true)
    (restores : store.HasAdmin ∨ call.Restores store) : Leaves store call after moved := by
  cases call with
  | editSelect edit =>
      rcases Prod.mk.inj (Option.some.inj taken) with ⟨rfl, rfl⟩
      cases selected : store.members.select edit.id with
      | none => exact .of_read (by simp [OrgCall.afterEditSelect, OrgCall.member]) trivial id
      | some target =>
          exact .of_found (Keyed.select_eq_some.mp selected).1 id next_of_afterEditSelect
  | editCount edit target active =>
      rcases Prod.mk.inj (Option.some.inj taken) with ⟨rfl, rfl⟩
      exact .of_found (found edit.id rfl) id (.inr ⟨rfl, trivial⟩)
  | editSuspended edit target active adminCount =>
      rcases Prod.mk.inj (Option.some.inj taken) with ⟨rfl, rfl⟩
      exact .of_found (found edit.id rfl) id next_of_afterEditSuspended
  | editWrite edit active rechecks =>
      rcases Prod.mk.inj (Option.some.inj taken) with ⟨rfl, rfl⟩
      have keys := keys_editWrite store edit.id active
      cases rechecks with
      | true => exact ⟨keys, fun other at_other => found other at_other, trivial, fun _ => .inr trivial⟩
      | false =>
          apply Leaves.of_returned keys
          intro before
          have admin := before.resolve_right id
          clear before
          cases active with
          | none => exact admin
          | some active =>
              cases active with
              | true => exact hasAdmin_setActive_true (found edit.id rfl) (.inl admin)
              | false => exact hasAdmin_setMember admin (.inr (keeps edit.id rfl))
  | editAssert edit =>
      rcases Prod.mk.inj (Option.some.inj taken) with ⟨rfl, rfl⟩
      apply Leaves.of_recount
      · rintro other (at_other | at_other)
        · cases at_other
        · exact found other at_other
      · exact ⟨trivial, trivial⟩
      · trivial
  | editRestore edit =>
      rcases Prod.mk.inj (Option.some.inj taken) with ⟨rfl, rfl⟩
      apply Leaves.of_returned
      · rfl
      intro _
      exact hasAdmin_setActive_true (found edit.id rfl) restores
  | roleSelect change =>
      rcases Prod.mk.inj (Option.some.inj taken) with ⟨rfl, rfl⟩
      cases selected : store.members.select change.id with
      | none => exact .of_read (by simp [OrgCall.member]) trivial id
      | some target =>
          exact .of_found (Keyed.select_eq_some.mp selected).1 id (.inr ⟨rfl, trivial⟩)
  | roleCount change target =>
      rcases Prod.mk.inj (Option.some.inj taken) with ⟨rfl, rfl⟩
      exact .of_found (found change.id rfl) id (.inr ⟨rfl, trivial⟩)
  | roleSuspended change target adminCount =>
      rcases Prod.mk.inj (Option.some.inj taken) with ⟨rfl, rfl⟩
      exact .of_found (found change.id rfl) id next_of_afterRoleSuspended
  | roleCas change target rechecks =>
      simp only [OrgCall.step] at taken
      split at taken <;> rcases Prod.mk.inj (Option.some.inj taken) with ⟨rfl, rfl⟩
      next => exact .of_returned rfl fun admin => admin.resolve_right id
      next changed =>
        rcases keys_of_changeMemberRoleCas changed with ⟨same, rfl⟩
        cases rechecks with
        | true =>
            exact ⟨rfl, fun other at_other => found other at_other, demotes rfl, fun _ => .inr trivial⟩
        | false =>
            apply Leaves.of_returned
            · rfl
            intro admin
            apply hasAdmin_setMember (admin.resolve_right id)
            by_cases promoted : change.role = .admin
            · by_cases actionable : store.isActionable change.id = true
              · left
                have good := OrgStore.isActionable_eq_true_iff.mp actionable
                rw [OrgStore.isActionable_eq_true_iff, OrgStore.row_setMember]
                exact ⟨good.1, promoted, good.2.2⟩
              · exact .inr fun was => absurd was actionable
            · exact .inr (keeps change.id (if_pos ⟨same, promoted⟩))
  | roleAssert change target =>
      rcases Prod.mk.inj (Option.some.inj taken) with ⟨rfl, rfl⟩
      apply Leaves.of_recount
      · rintro other (at_other | at_other)
        · cases at_other
        · exact found other at_other
      · exact ⟨trivial, demotes⟩
      · trivial
  | roleRestore change target =>
      rcases Prod.mk.inj (Option.some.inj taken) with ⟨rfl, rfl⟩
      cases changed : store.changeMemberRoleCas change.id change.role target.orgRole with
      | none =>
          apply Leaves.of_returned
          · rfl
          intro _
          rcases restores with admin | ⟨same, -⟩
          · exact admin
          · rw [OrgStore.changeMemberRoleCas, if_pos same] at changed
            cases changed
      | some restored =>
          rcases keys_of_changeMemberRoleCas changed with ⟨same, rfl⟩
          apply Leaves.of_returned
          · rfl
          intro _
          have demoted : store.isActionable change.id = true → False := by
            intro actionable
            rw [(OrgStore.isActionable_eq_true_iff.mp actionable).2.1] at same
            exact demotes.2 (Eq.symm same)
          rcases restores with admin | ⟨-, active, free⟩
          · exact hasAdmin_setMember admin (.inr fun was => absurd was demoted)
          · refine ⟨change.id, found change.id rfl, ?_⟩
            rw [Option.getD_some, OrgStore.isActionable_eq_true_iff, OrgStore.row_setMember]
            exact ⟨active, demotes.1, free⟩
  | actionSelect request =>
      rcases Prod.mk.inj (Option.some.inj taken) with ⟨rfl, rfl⟩
      split
      next => exact .of_read (by simp [OrgCall.member]) trivial id
      next =>
        cases selected : store.members.select request.memberId with
        | none => exact .of_read (by simp [OrgCall.afterActionSelect, OrgCall.member]) trivial id
        | some target =>
            exact .of_found (Keyed.select_eq_some.mp selected).1 id next_of_afterActionSelect
  | actionCount request target =>
      rcases Prod.mk.inj (Option.some.inj taken) with ⟨rfl, rfl⟩
      exact .of_found (found request.memberId rfl) id (.inr ⟨rfl, trivial⟩)
  | actionSuspended request target adminCount =>
      rcases Prod.mk.inj (Option.some.inj taken) with ⟨rfl, rfl⟩
      exact .of_found (found request.memberId rfl) id next_of_afterActionSuspended
  | banWrite request rechecks =>
      rcases Prod.mk.inj (Option.some.inj taken) with ⟨rfl, rfl⟩
      cases rechecks with
      | true =>
          exact ⟨rfl, fun other at_other => found other at_other, trivial, fun _ => .inr trivial⟩
      | false =>
          refine ⟨rfl, fun other at_other => found other at_other, trivial, ?_⟩
          intro admin
          exact .inl (hasAdmin_setMember (admin.resolve_right id) (.inr (keeps _ rfl)))
  | banAssert request =>
      rcases Prod.mk.inj (Option.some.inj taken) with ⟨rfl, rfl⟩
      apply Leaves.of_recount
      · rintro other (at_other | at_other)
        · exact found other at_other
        · exact found other at_other
      · exact ⟨trivial, trivial⟩
      · trivial
  | banRestore request =>
      rcases Prod.mk.inj (Option.some.inj taken) with ⟨rfl, rfl⟩
      apply Leaves.of_returned
      · rfl
      intro _
      exact hasAdmin_setActive_true (found request.memberId rfl) restores
  | actionCreate request rechecks =>
      rcases Prod.mk.inj (Option.some.inj taken) with ⟨rfl, rfl⟩
      cases rechecks with
      | true =>
          exact ⟨rfl, fun other at_other => found other at_other, trivial, fun _ => .inr trivial⟩
      | false =>
          apply Leaves.of_returned
          · rfl
          intro admin
          apply hasAdmin_createModerationAction (admin.resolve_right id)
          intro blocks
          exact keeps request.memberId (if_pos blocks)
  | actionAssert request actionId =>
      rcases Prod.mk.inj (Option.some.inj taken) with ⟨rfl, rfl⟩
      apply Leaves.of_recount
      · rintro other (at_other | at_other)
        · cases at_other
        · exact found other at_other
      · exact ⟨trivial, trivial⟩
      · trivial
  | lift request actionId =>
      rcases Prod.mk.inj (Option.some.inj taken) with ⟨rfl, rfl⟩
      apply Leaves.of_returned
      · rfl
      intro _
      exact hasAdmin_liftModerationAction (found request.memberId rfl) restores
  | returned answer => cases taken

/-! ## Every run of the handlers -/

/-- An admin is left, or a handler has yet to look whether one is. -/
structure Guarded (pool : Pool OrgStore OrgCall) : Prop where
  found : ∀ call ∈ pool.processes, ∀ id, call.member = some id → id ∈ pool.shared.members.keys
  demotes : ∀ call ∈ pool.processes, call.Demotes
  admin : pool.shared.HasAdmin ∨ ∃ call ∈ pool.processes, call.Rechecks

theorem Guarded.atStart (called : ∀ call ∈ pool.processes, call.Fresh)
    (admin : pool.shared.HasAdmin) : Guarded pool := by
  refine ⟨?_, ?_, .inl admin⟩
  · intro call call_mem key at_key
    have fresh := called call call_mem
    cases call <;> first | exact absurd fresh id | cases at_key
  · intro call call_mem
    have fresh := called call call_mem
    cases call <;> trivial

theorem Guarded.step (guarded : Guarded pool) (taken : concurrentHandlers.next pool turn = some next)
    (meets : OrgStep.Meets ⟨pool, turn, next⟩) : Guarded next := by
  rcases interleaving_next_eq_some.mp taken with ⟨call, shared, moved, found, stepped, rfl⟩
  have call_mem := List.mem_of_getElem? found
  have leaves := leaves_of_step stepped (guarded.found call call_mem) (guarded.demotes call call_mem)
    (meets.keeps call found) (meets.restores call found)
  have moved_mem : moved ∈ pool.processes.set turn.process moved :=
    List.mem_of_getElem? (Pool.moved_at found)
  refine ⟨?_, ?_, ?_⟩
  · intro other other_mem id at_id
    rw [leaves.keys]
    rcases List.mem_or_eq_of_mem_set other_mem with old | rfl
    · exact guarded.found other old id at_id
    · exact leaves.found id at_id
  · intro other other_mem
    rcases List.mem_or_eq_of_mem_set other_mem with old | rfl
    · exact guarded.demotes other old
    · exact leaves.demotes
  · have mine : pool.shared.HasAdmin ∨ call.Rechecks → shared.HasAdmin ∨
        ∃ other ∈ pool.processes.set turn.process moved, other.Rechecks :=
      fun before => (leaves.admin before).imp_right fun rechecks => ⟨moved, moved_mem, rechecks⟩
    rcases guarded.admin with admin | ⟨other, other_mem, rechecks⟩
    · exact mine (.inl admin)
    · rcases List.getElem?_of_mem other_mem with ⟨position, at_position⟩
      by_cases same : position = turn.process
      · rw [same, found] at at_position
        rcases Option.some.inj at_position with rfl
        exact mine (.inr rechecks)
      · exact .inr ⟨other, List.mem_of_getElem? (Eq.trans (Pool.others_stay same) at_position),
          rechecks⟩

/-- When the steps of a run meet the condition, an admin that can use the admin tools is left in
every state in which no handler has yet to look, and so once all of them have returned. -/
theorem admin_remains {start final : Pool OrgStore OrgCall} {steps : List OrgStep}
    (called : ∀ call ∈ start.processes, call.Fresh) (admin : start.shared.HasAdmin)
    (run : concurrentHandlers.Run start steps final) (meets : ∀ step ∈ steps, step.Meets) :
    (final.shared.HasAdmin ∨ ∃ call ∈ final.processes, call.Rechecks) ∧
      ((∀ call ∈ final.processes, call.Returned) → final.shared.HasAdmin) := by
  have guarded : Guarded final :=
    run.invariant_of_forall Guarded (.atStart called admin) meets
      fun taken meets guarded => guarded.step taken meets
  refine ⟨guarded.admin, ?_⟩
  intro returned
  rcases guarded.admin with admin | ⟨call, call_mem, rechecks⟩
  · exact admin
  · have returned := returned call call_mem
    cases call <;> first | exact absurd rechecks id | exact absurd returned id

/-! ## Two members -/

instance (store : OrgStore) : Decidable store.HasAdmin :=
  inferInstanceAs (Decidable (∃ id ∈ store.members.keys, _))

instance (store : OrgStore) (call : OrgCall) : Decidable (call.Restores store) :=
  match call with
  | .editRestore _ | .banRestore _ => inferInstanceAs (Decidable (_ ∧ _))
  | .roleRestore .. | .lift .. => inferInstanceAs (Decidable (_ ∧ _ ∧ _))
  | .editSelect .. | .editCount .. | .editSuspended .. | .editWrite .. | .editAssert ..
  | .roleSelect .. | .roleCount .. | .roleSuspended .. | .roleCas .. | .roleAssert ..
  | .actionSelect .. | .actionCount .. | .actionSuspended .. | .banWrite .. | .banAssert ..
  | .actionCreate .. | .actionAssert .. | .returned .. => .isTrue trivial

instance (step : OrgStep) : Decidable (OrgStep.KeepsAnother step) :=
  inferInstanceAs (Decidable (∀ call ∈ step.before.processes[step.event.process]?,
    ∀ id ∈ call.takesOut step.before.shared, _ → _))

instance (step : OrgStep) : Decidable (OrgStep.RestoresAdmin step) :=
  inferInstanceAs (Decidable (∀ call ∈ step.before.processes[step.event.process]?, _))

def ana : Text := "ana".toList

def kiri : Text := "kiri".toList

/-- Two members, of whom the first is an admin. -/
def twoMembers (role : OrgRole) : OrgStore where
  members := ⟨[ana, kiri], fun id => ⟨id, if id = ana then .admin else role, true⟩⟩
  distinct := (by decide : [ana, kiri].Nodup)
  actions := .empty
  now := 0

def turns (process count : ℕ) : List (Turn Unit) := List.replicate count ⟨process, ()⟩

def deactivates (caller id : Text) : OrgCall :=
  .editSelect ⟨⟨caller, caller, .admin⟩, id, some false, none⟩

def suspends (caller id : Text) : OrgCall :=
  .actionSelect ⟨⟨caller, caller, .admin⟩, id, .suspension, "afk".toList, none⟩

/-- Both admins are demoted, and the one that is counted first is restored. -/
theorem both_demoted : ∃ final, concurrentHandlers.exec
    ⟨twoMembers .admin, [.roleSelect ⟨ana, .officer⟩, .roleSelect ⟨kiri, .officer⟩]⟩
      (turns 0 3 ++ turns 1 4 ++ turns 0 1 ++ turns 0 2 ++ turns 1 1) = some final ∧
    final.shared.HasAdmin := by
  have run : concurrentHandlers.Run _ (concurrentHandlers.stepsOf
      ⟨twoMembers .admin, [.roleSelect ⟨ana, .officer⟩, .roleSelect ⟨kiri, .officer⟩]⟩
      (turns 0 3 ++ turns 1 4 ++ turns 0 1 ++ turns 0 2 ++ turns 1 1)) _ := .of_exec rfl
  have meets : ∀ step ∈ concurrentHandlers.stepsOf
      ⟨twoMembers .admin, [.roleSelect ⟨ana, .officer⟩, .roleSelect ⟨kiri, .officer⟩]⟩
      (turns 0 3 ++ turns 1 4 ++ turns 0 1 ++ turns 0 2 ++ turns 1 1),
      OrgStep.KeepsAnother step ∧ OrgStep.RestoresAdmin step := by
    decide
  have called : ∀ call ∈ [OrgCall.roleSelect ⟨ana, .officer⟩, .roleSelect ⟨kiri, .officer⟩],
      call.Fresh := by
    intro call call_mem
    rcases List.mem_pair.mp call_mem with rfl | rfl <;> trivial
  have admin : (twoMembers .admin).HasAdmin := by decide
  refine ⟨_, rfl, (admin_remains called admin run ?_).2 ?_⟩
  · exact fun step step_mem => ⟨(meets step step_mem).1, (meets step step_mem).2⟩
  · intro call call_mem
    rcases List.mem_pair.mp call_mem with rfl | rfl <;> trivial

/-- A member is deactivated by a handler that has read it before it was promoted, after the only
other admin has stepped down; and an admin is restored who was demoted while it was inactive. -/
theorem last_admin_lost :
    (∃ final, concurrentHandlers.exec
        ⟨twoMembers .member,
          [deactivates ana kiri, .roleSelect ⟨kiri, .admin⟩, .roleSelect ⟨ana, .member⟩]⟩
        (turns 0 3 ++ turns 1 4 ++ turns 2 5 ++ turns 0 1) = some final ∧
      (twoMembers .member).HasAdmin ∧
        final.processes = [.returned (.ok ()), .returned (.ok ()), .returned (.ok ())] ∧
        ¬final.shared.HasAdmin) ∧
    ∃ final, concurrentHandlers.exec
        ⟨twoMembers .admin, [deactivates kiri ana, suspends ana kiri, .roleSelect ⟨ana, .officer⟩]⟩
        (turns 0 3 ++ turns 1 5 ++ turns 0 1 ++ turns 2 4 ++ turns 0 2) = some final ∧
      (twoMembers .admin).HasAdmin ∧
        final.processes = [.returned (.error noAdminLeft), .returned (.ok ()), .returned (.ok ())] ∧
        ¬final.shared.HasAdmin := by
  exact ⟨⟨_, rfl, by decide, rfl, by decide⟩, _, rfl, by decide, rfl, by decide⟩

end ScuffedCrew.Members
