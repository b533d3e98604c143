import ScuffedCrew.Applications.Agreement

/-!
# What the writes keep

When a write may be made, and that it then keeps the invariant.  A statement that
only reads keeps it when its call relies on nothing new.
-/

namespace ScuffedCrew.Applications

open Rust Database Members StateMachine

namespace ApplicationCall

/-- The call has written the member for the application and is before its compare-and-swap. -/
def Wrote (id : ℕ) : ApplicationCall → Prop
  | cas other _ _ did => other = id ∧ did ≠ .nothing
  | _ => False

/-- The same, with a write that a deactivation does not take back. -/
def Provides (id : ℕ) : ApplicationCall → Prop
  | cas other _ _ did => other = id ∧ (did = .created ∨ did = .promoted)
  | _ => False

/-- The write of the call is not made on a reading that has since become false: the member is
provided for an application that has the status the handler has read; a status is written while
no other application is open, and a rejection or a withdrawal while no handler has created or
promoted the member for the application; a member is deactivated for the latest application; and a
submission creates its application while the member is not active, and takes it back while it is
pending and the member has not been written for it. -/
def Timely (pool : Pool ApplicantStore ApplicationCall) : ApplicationCall → Prop
  | reactivate id status _ => ¬Active pool.shared.member →
      pool.shared.applications.get? id = some status
  | createMember id status _ => pool.shared.member = none →
      pool.shared.applications.get? id = some status
  | promote id status target =>
      (∃ row ∈ pool.shared.member, row.orgRole ≠ status.desiredRole target) →
        pool.shared.applications.get? id = some status
  | cas id status target _ => pool.shared.applications.get? id = some status →
      ¬pool.shared.OtherOpen id ∧
        (target.deactivatesMember = true → ∀ other ∈ pool.processes, ¬other.Provides id)
  | revoke id _ => ∃ row ∈ pool.shared.latest, row.id = id
  | submitCreate => ¬Active pool.shared.member
  | submitDelete id => ¬Active pool.shared.member ∨
      pool.shared.applications.get? id = some .pending ∧ ∀ other ∈ pool.processes, ¬other.Wrote id
  | _ => True

end ApplicationCall

variable {base id index : ℕ} {first : Table ApplicationStatus} {expected after : Option Applicant}
  {pool : Pool ApplicantStore ApplicationCall} {later : ApplicantStore}
  {call moved other : ApplicationCall} {status target : ApplicationStatus} {did : Provision}

/-- The pool after one of its calls has made a statement. -/
abbrev moveTo (pool : Pool ApplicantStore ApplicationCall) (index : ℕ) (later : ApplicantStore)
    (moved : ApplicationCall) : Pool ApplicantStore ApplicationCall :=
  ⟨later, pool.processes.set index moved⟩

theorem mem_set_of_ne (found : pool.processes[index]? = some call)
    (other_mem : other ∈ pool.processes) (differs : other ≠ call) :
    other ∈ pool.processes.set index moved := by
  rcases List.getElem?_of_mem other_mem with ⟨position, at_position⟩
  have elsewhere : position ≠ index := by
    rintro rfl
    rw [found] at at_position
    exact differs (Eq.symm (Option.some.inj at_position))
  exact List.mem_of_getElem? (Eq.trans (Pool.others_stay elsewhere) at_position)

theorem moved_mem (found : pool.processes[index]? = some call) :
    moved ∈ pool.processes.set index moved :=
  List.mem_of_getElem? (Pool.moved_at found)

theorem Later.refl {store : ApplicantStore} : Later base expected expected store store := by
  refine ⟨Nat.le_refl _, fun id current _ found => ⟨current, found, .inl rfl⟩, fun _ _ _ _ _ => id,
    fun _ _ _ _ => id, ?_⟩
  intro id _ last rely
  exact rely last

/-- Neither a compare-and-swap nor a statement of a revocation. -/
def ApplicationCall.plain : ApplicationCall → Bool
  | .cas .. | .revokeSelect .. | .revoke .. => false
  | _ => true

namespace Agreed

theorem move (agreed : Agreed base first expected pool)
    (filed : Filed first (moveTo pool index later moved))
    (change : Later base expected after pool.shared later)
    (settled : Settled base after later.applications)
    (stands : Stands after (moveTo pool index later moved)) (mine : Relies base after later moved) :
    Agreed base first after (moveTo pool index later moved) := by
  refine ⟨filed, agreed.reached, settled, stands, ?_⟩
  intro other other_mem
  rcases List.mem_or_eq_of_mem_set other_mem with old | rfl
  · exact change.relies (agreed.relies other old)
  · exact mine

/-- A statement that writes nothing. -/
theorem read (agreed : Agreed base first expected pool)
    (filed : Filed first (moveTo pool index pool.shared moved))
    (found : pool.processes[index]? = some call)
    (uncas : ∀ id status target did, call = .cas id status target did →
      pool.shared.applications.get? id ≠ some status)
    (unrevoked : ∀ id target, call = .revokeSelect id target →
      moved = .revoke id target ∨ revoked pool.shared.member = pool.shared.member)
    (unrevoking : ∀ id target, call ≠ .revoke id target)
    (mine : Relies base expected pool.shared moved) :
    Agreed base first expected (moveTo pool index pool.shared moved) := by
  refine agreed.move filed Later.refl agreed.settled ?_ mine
  cases agreed.stands with
  | same same => exact .same same
  | @provided id status target did provider current ensures stands wrote creates promotes =>
      refine .provided (mem_set_of_ne found provider ?_) current ensures stands wrote creates
        promotes
      rintro rfl
      exact uncas id status target did rfl current
  | @revoking id target revoker last stands =>
      by_cases mover : call = .revokeSelect id target
      · rcases unrevoked id target mover with rfl | unchanged
        · exact .revoking (.inr (moved_mem found)) last stands
        · exact .same (Eq.trans (Eq.symm unchanged) stands)
      · rcases revoker with at_select | at_revoke
        · exact .revoking (.inl (mem_set_of_ne found at_select (Ne.symm mover))) last stands
        · exact .revoking (.inr (mem_set_of_ne found at_revoke (Ne.symm (unrevoking id target))))
            last stands

/-- A statement that is neither a settling write nor part of a revocation. -/
theorem read_of_plain (agreed : Agreed base first expected pool)
    (filed : Filed first (moveTo pool index pool.shared moved))
    (found : pool.processes[index]? = some call) (plain : call.plain = true)
    (mine : Relies base expected pool.shared moved) :
    Agreed base first expected (moveTo pool index pool.shared moved) := by
  refine agreed.read filed found ?_ ?_ ?_ mine
  · rintro id status target did rfl
    cases plain
  · rintro id target rfl
    cases plain
  · rintro id target rfl
    cases plain

/-- An application that is on trial or accepted has an active member. -/
theorem active_of_ensures (agreed : Agreed base first expected pool) (reached : base ≤ id)
    (found : pool.shared.applications.get? id = some status)
    (ensures : status.ensuresMember = true) : Active pool.shared.member := by
  cases agreed.stands with
  | same same =>
      rw [same]
      exact agreed.settled.active.mpr ⟨id, status, reached, found, ensures⟩
  | provided _ _ ensures stands =>
      rw [stands]
      exact active_outcome ensures
  | revoking _ last _ =>
      have closed := agreed.settled.deactivates_of_last last reached found
      rw [(ApplicationStatus.deactivatesMember_iff.mp closed).2] at ensures
      cases ensures

/-- While the member is not active it is the expected one. -/
theorem same_of_not_active (agreed : Agreed base first expected pool)
    (inactive : ¬Active pool.shared.member) : pool.shared.member = expected := by
  cases agreed.stands with
  | same same => exact same
  | provided _ _ ensures stands =>
      rw [stands] at inactive
      exact absurd (active_outcome ensures) inactive
  | revoking _ _ stands =>
      rw [revoked_of_not_active inactive] at stands
      exact stands

theorem not_last (agreed : Agreed base first expected pool) (reached : base ≤ id)
    (found : pool.shared.applications.get? id = some status) (opened : status.Open) {other : ℕ} :
    ¬Last pool.shared.applications other := by
  intro last
  have closed := agreed.settled.deactivates_of_last last reached found
  exact (ApplicationStatus.deactivatesMember_iff.mp closed).1 opened

/-! ## Providing the member -/

/-- The member of a pending application is written as its outcome would leave it. -/
theorem provide (agreed : Agreed base first expected pool) {member : Option Applicant}
    (filed : Filed first (moveTo pool index { pool.shared with member }
      (.cas id .pending target did)))
    (found : pool.processes[index]? = some call)
    (current : pool.shared.applications.get? id = some .pending)
    (seen : Seen base pool.shared.applications id .pending) (ensures : target.ensuresMember = true)
    (written : member = outcome .pending target expected) (wrote : did ≠ .nothing)
    (creates : expected = none → did = .created) :
    Agreed base first expected (moveTo pool index { pool.shared with member }
      (.cas id .pending target did)) := by
  have active : Active member := by
    rw [written]
    exact active_outcome ensures
  refine agreed.move filed ?_ agreed.settled ?_ ?_
  · refine ⟨Nat.le_refl _, fun id current _ found => ⟨current, found, .inl rfl⟩,
      fun _ _ _ _ _ _ => active, ?_, ?_⟩
    · intro other reached trial
      have expected_active := agreed.settled.active.mpr ⟨other, .trial, reached, trial, rfl⟩
      exact absurd expected_active (agreed.settled.not_active_of_pending seen.reached current)
    · intro other _ last
      exact absurd last (agreed.not_last seen.reached current rfl)
  · exact .provided (moved_mem found) current ensures written wrote creates nofun
  · exact ⟨seen, fun _ => ⟨fun _ _ _ => active, nofun⟩⟩

/-- Once the member is active the call goes on, to write the role or to its compare-and-swap. -/
theorem relies_afterActive {store : ApplicantStore} {member : Applicant}
    (provided : Provided store id)
    (promoted : status = .trial → member.orgRole ≠ .recruit → Promoted store id)
    (valid : status.isValidTransition target = true) (ensures : target.ensuresMember = true)
    (seen : Seen base store.applications id status) :
    Relies base expected store (.afterActive id status target did member) := by
  unfold ApplicationCall.afterActive
  split
  next => exact ⟨seen, provided⟩
  next unpromoted =>
    refine ⟨seen, fun _ => ⟨provided, ?_⟩⟩
    rintro rfl
    obtain rfl := ApplicationStatus.eq_accepted_of_trial valid ensures
    apply promoted rfl
    intro recruit
    apply unpromoted
    rw [Applicant.promotes, recruit]
    rfl

theorem reactivate (agreed : Agreed base first expected pool)
    (filed : Filed first (moveTo pool index
      { pool.shared with member := pool.shared.member.map (Applicant.setActive true) }
      (.afterReactivate id status target (pool.shared.member.map (Applicant.setActive true)))))
    (found : pool.processes[index]? = some (.reactivate id status target))
    (timely : (ApplicationCall.reactivate id status target).Timely pool) :
    Agreed base first expected (moveTo pool index
      { pool.shared with member := pool.shared.member.map (Applicant.setActive true) }
      (.afterReactivate id status target (pool.shared.member.map (Applicant.setActive true)))) := by
  have call_mem := List.mem_of_getElem? found
  have seen := agreed.relies _ call_mem
  rcases agreed.filed.proper _ call_mem with ⟨valid, ensures⟩
  by_cases active : Active pool.shared.member
  · rw [setActive_of_active active] at filed ⊢
    refine agreed.read_of_plain filed found rfl ?_
    rcases active with ⟨row, at_row, is_active⟩
    obtain at_row : pool.shared.member = some row := at_row
    rw [at_row]
    apply relies_afterActive ?_ ?_ valid ensures seen
    · intro _ _ _
      rw [at_row]
      exact active_some.mpr is_active
    · intro _ differs _ other at_other
      rw [at_row] at at_other
      rcases Option.some.inj at_other with rfl
      exact differs
  · have current := timely active
    have same := agreed.same_of_not_active active
    obtain rfl : status = .pending := by
      rcases ApplicationStatus.open_iff.mp (ApplicationStatus.open_of_isValidTransition valid) with
        rfl | rfl
      · rfl
      · exact absurd (agreed.active_of_ensures seen.reached current rfl) active
    cases stored : pool.shared.member with
    | none =>
        rw [stored] at filed
        have unchanged : ({ pool.shared with member := none } : ApplicantStore) = pool.shared := by
          rw [← stored]
        simp only [Option.map_none, unchanged] at filed ⊢
        exact agreed.read_of_plain filed found rfl trivial
    | some row =>
        rw [stored] at same active filed
        rw [same] at active
        have written : outcome .pending target expected = _ :=
          outcome_pending ensures agreed.settled.plain active
        rw [← same] at written active
        have is_recruit := agreed.settled.plain row (Eq.symm same) (by simpa using active)
        have goes : ApplicationCall.afterReactivate id .pending target
            ((some row).map (Applicant.setActive true)) = .cas id .pending target .reactivated := by
          simp [ApplicationCall.afterReactivate, ApplicationCall.afterActive, Applicant.promotes,
            Applicant.setActive, is_recruit, desiredRole_pending]
        rw [goes] at filed ⊢
        apply agreed.provide filed found current seen ensures
        · rw [← same]
          exact Eq.symm written
        · simp
        · intro none
          rw [none] at same
          cases same

theorem createMember (agreed : Agreed base first expected pool)
    (filed : Filed first (moveTo pool index
      { pool.shared with member := some (.created (status.desiredRole target)) }
      (.cas id status target .created)))
    (found : pool.processes[index]? = some (.createMember id status target))
    (absent : pool.shared.member = none)
    (timely : (ApplicationCall.createMember id status target).Timely pool) :
    Agreed base first expected (moveTo pool index
      { pool.shared with member := some (.created (status.desiredRole target)) }
      (.cas id status target .created)) := by
  have call_mem := List.mem_of_getElem? found
  have seen := agreed.relies _ call_mem
  rcases agreed.filed.proper _ call_mem with ⟨valid, ensures⟩
  have current := timely absent
  have inactive : ¬Active pool.shared.member := by
    rw [absent]
    exact not_active_none
  obtain rfl : none = expected := Eq.trans (Eq.symm absent) (agreed.same_of_not_active inactive)
  obtain rfl : status = .pending := by
    rcases ApplicationStatus.open_iff.mp (ApplicationStatus.open_of_isValidTransition valid) with
      rfl | rfl
    · rfl
    · exact absurd (agreed.active_of_ensures seen.reached current rfl) inactive
  apply agreed.provide filed found current seen ensures
  · simp [outcome, ensures]
  · simp
  · exact fun _ => rfl

/-- What a member that is written but not yet decided on looks like, by the open status. -/
theorem of_provided {status : ApplicationStatus} (agreed : Agreed base first expected pool)
    (reached : base ≤ id) (current : pool.shared.applications.get? id = some status)
    (ensures : target.ensuresMember = true) (valid : status.isValidTransition target = true) :
    status = .pending ∧ ¬Active expected ∨
      status = .trial ∧ target = .accepted ∧
        ∃ row, expected = some row ∧ row.isActive = true ∧ row.orgRole = .recruit := by
  rcases ApplicationStatus.open_iff.mp (ApplicationStatus.open_of_isValidTransition valid) with
    rfl | rfl
  · exact .inl ⟨rfl, agreed.settled.not_active_of_pending reached current⟩
  · right
    obtain rfl := ApplicationStatus.eq_accepted_of_trial valid ensures
    rcases agreed.settled.active.mpr ⟨id, .trial, reached, current, rfl⟩ with ⟨row, at_row, active⟩
    exact ⟨rfl, rfl, row, at_row, active, agreed.settled.trial id reached current row at_row⟩

theorem promote (agreed : Agreed base first expected pool)
    (filed : Filed first (moveTo pool index
      { pool.shared with member := pool.shared.member.map (.setRole (status.desiredRole target)) }
      (.cas id status target .promoted)))
    (found : pool.processes[index]? = some (.promote id status target))
    (timely : (ApplicationCall.promote id status target).Timely pool) :
    Agreed base first expected (moveTo pool index
      { pool.shared with member := pool.shared.member.map (.setRole (status.desiredRole target)) }
      (.cas id status target .promoted)) := by
  have call_mem := List.mem_of_getElem? found
  rcases agreed.relies _ call_mem with ⟨seen, provided⟩
  rcases agreed.filed.proper _ call_mem with ⟨valid, ensures⟩
  by_cases changes : ∃ row ∈ pool.shared.member, row.orgRole ≠ status.desiredRole target
  · have current := timely changes
    have active : Active pool.shared.member := by
      apply provided status current
      rcases ApplicationStatus.open_iff.mp (ApplicationStatus.open_of_isValidTransition valid) with
        rfl | rfl <;> rfl
    rcases agreed.of_provided seen.reached current ensures valid with
      ⟨rfl, inactive⟩ | ⟨rfl, rfl, row, rfl, is_active, is_recruit⟩
    · -- A member provided for a pending application is a recruit already.
      exfalso
      rcases changes with ⟨row, at_row, differs⟩
      rw [desiredRole_pending] at differs
      have at_row : pool.shared.member = some row := at_row
      cases agreed.stands with
      | same same =>
          rw [same] at active
          exact inactive active
      | @provided other status' target' did provider current' ensures' stands =>
          have reached' := (agreed.relies _ provider).1.reached
          rcases agreed.of_provided reached' current' ensures' (agreed.filed.proper _ provider) with
            ⟨rfl, -⟩ | ⟨-, -, row, rfl, is_active, -⟩
          · rw [outcome_pending ensures' agreed.settled.plain inactive, at_row] at stands
            cases expected with
            | none =>
                rcases Option.some.inj stands with rfl
                exact differs rfl
            | some old =>
                rcases Option.some.inj stands with rfl
                exact differs (agreed.settled.plain old rfl (by simpa using inactive))
          · exact inactive (active_some.mpr is_active)
      | revoking _ last _ => exact agreed.not_last seen.reached current rfl last
    · have written : pool.shared.member = some row := by
        cases agreed.stands with
        | same same => exact same
        | @provided other status' target' did provider current' ensures' stands =>
            exfalso
            have reached' := (agreed.relies _ provider).1.reached
            rcases agreed.of_provided reached' current' ensures' (agreed.filed.proper _ provider)
              with ⟨-, inactive⟩ | ⟨rfl, rfl, -⟩
            · exact inactive (active_some.mpr is_active)
            · rw [outcome_trial is_active is_recruit] at stands
              rcases changes with ⟨old, at_old, differs⟩
              rw [stands] at at_old
              rcases Option.some.inj at_old with rfl
              exact differs rfl
        | revoking _ last _ => exact absurd last (agreed.not_last seen.reached current rfl)
      have promoted :
          pool.shared.member.map (.setRole (ApplicationStatus.desiredRole .trial .accepted)) =
            outcome .trial .accepted (some row) := by
        rw [written, outcome_trial is_active is_recruit]
        rfl
      have member_of_promoted : ∀ {new : Applicant},
          new ∈ pool.shared.member.map (.setRole (ApplicationStatus.desiredRole .trial .accepted)) →
            new = row.setRole .member := by
        intro new at_new
        rw [written] at at_new
        exact Eq.symm (Option.some.inj at_new)
      have stays_active : Active
          (pool.shared.member.map (.setRole (ApplicationStatus.desiredRole .trial .accepted))) := by
        rw [promoted]
        exact active_outcome rfl
      refine agreed.move filed ?_ agreed.settled ?_ ?_
      · refine ⟨Nat.le_refl _, fun id current _ found => ⟨current, found, .inl rfl⟩,
          fun _ _ _ _ _ _ => stays_active, ?_, ?_⟩
        · intro _ _ _ _ _ new at_new
          rw [member_of_promoted at_new]
          nofun
        · intro other _ last
          exact absurd last (agreed.not_last seen.reached current rfl)
      · exact .provided (moved_mem found) current rfl promoted nofun nofun fun _ => rfl
      · refine ⟨seen, fun _ => ⟨fun _ _ _ => stays_active, ?_⟩⟩
        intro _ _ new at_new
        rw [member_of_promoted at_new]
        nofun
  · have unchanged :
        pool.shared.member.map (.setRole (status.desiredRole target)) = pool.shared.member := by
      cases stored : pool.shared.member with
      | none => rfl
      | some row =>
          have same : row.orgRole = status.desiredRole target := by
            by_contra differs
            exact changes ⟨row, stored, differs⟩
          simp [Applicant.setRole, ← same]
    rw [unchanged] at filed ⊢
    refine agreed.read_of_plain filed found rfl ⟨seen, fun _ => ⟨provided, ?_⟩⟩
    rintro rfl - row at_row recruit
    obtain rfl := ApplicationStatus.eq_accepted_of_trial valid ensures
    exact changes ⟨row, at_row, by rw [recruit]; nofun⟩

/-! ## Deciding on an application -/

/-- The row that the transition leaves. -/
theorem settled_outcome (agreed : Agreed base first expected pool)
    (seen : Seen base pool.shared.applications id status)
    (valid : status.isValidTransition target = true)
    (current : pool.shared.applications.get? id = some status)
    (alone : ¬pool.shared.OtherOpen id) :
    Settled base (outcome status target expected)
      (pool.shared.applications.update id fun _ => target) := by
  have opened := ApplicationStatus.open_of_isValidTransition valid
  have elsewhere : ∀ {other : ℕ}, other ≠ id →
      (pool.shared.applications.update id fun _ => target).get? other =
        pool.shared.applications.get? other := by
    intro other differs
    rw [Table.get?_update, if_neg differs]
  have at_id : (pool.shared.applications.update id fun _ => target).get? id = some target := by
    rw [Table.get?_update, if_pos rfl, current]
    rfl
  refine ⟨?_, ?_, ?_, ?_, ?_⟩
  · intro other now found opened'
    by_cases same : other = id
    · rw [same]
      exact seen.reached
    · rw [elsewhere same] at found
      exact agreed.settled.closed other now found opened'
  · intro earlier later old now reached before at_earlier at_later
    by_cases is_earlier : earlier = id
    · rw [elsewhere (by omega)] at at_later
      rcases agreed.settled.ordered id later status now seen.reached (by omega) current at_later
        with closed | ⟨-, rfl⟩
      · exact absurd opened (ApplicationStatus.deactivatesMember_iff.mp closed).1
      · have same := ApplicantStore.eq_of_not_otherOpen alone at_later rfl
        omega
    · rw [elsewhere is_earlier] at at_earlier
      by_cases is_later : later = id
      · rw [is_later] at before
        rcases agreed.settled.ordered earlier id old status reached before at_earlier current with
          closed | ⟨rfl, -⟩
        · exact .inl closed
        · exact absurd (ApplicantStore.eq_of_not_otherOpen alone at_earlier rfl) is_earlier
      · rw [elsewhere is_later] at at_later
        exact agreed.settled.ordered earlier later old now reached before at_earlier at_later
  · rcases ApplicationStatus.target_of_isValidTransition valid with ensures | deactivates
    · exact ⟨fun _ => ⟨id, target, seen.reached, at_id, ensures⟩, fun _ => active_outcome ensures⟩
    · have closed := ApplicationStatus.deactivatesMember_iff.mp deactivates
      have inactive : ¬Active (outcome status target expected) := by
        rw [outcome_eq_revoked deactivates]
        rcases ApplicationStatus.open_iff.mp opened with rfl | rfl
        · have inactive := agreed.settled.not_active_of_pending seen.reached current
          rwa [revoked_of_not_active inactive]
        · exact not_active_revoked (agreed.settled.trial id seen.reached current)
      refine iff_of_false inactive ?_
      rintro ⟨other, now, reached, found, ensures⟩
      by_cases same : other = id
      · rw [same, at_id] at found
        rcases Option.some.inj found with rfl
        rw [closed.2] at ensures
        cases ensures
      · rw [elsewhere same] at found
        have kept : status.deactivatesMember ≠ true :=
          fun done => (ApplicationStatus.deactivatesMember_iff.mp done).1 opened
        exact same (Eq.symm
          (agreed.settled.eq_of_ensures reached found ensures seen.reached current kept))
  · intro other reached found
    by_cases same : other = id
    · rw [same, at_id] at found
      rcases Option.some.inj found with rfl
      obtain rfl : status = .pending := by cases status <;> first | rfl | cases valid
      exact recruit_of_outcome_pending rfl agreed.settled.plain
        (agreed.settled.not_active_of_pending seen.reached current)
    · rw [elsewhere same] at found
      exact absurd (ApplicantStore.eq_of_not_otherOpen alone found rfl) same
  · rcases ApplicationStatus.target_of_isValidTransition valid with ensures | deactivates
    · rintro row at_row inactive
      have active : Active (outcome status target expected) := active_outcome ensures
      rcases active with ⟨other, found, active⟩
      rcases Option.some.inj (Eq.trans (Eq.symm found) at_row) with rfl
      rw [inactive] at active
      cases active
    · rw [outcome_eq_revoked deactivates]
      exact plain_revoked agreed.settled.plain

/-- The row is the expected one once a trial or an acceptance has won. -/
theorem eq_outcome_of_ensures (agreed : Agreed base first expected pool)
    (reached : base ≤ id) (current : pool.shared.applications.get? id = some status)
    (ensures : target.ensuresMember = true) (valid : status.isValidTransition target = true)
    (provided : Active pool.shared.member)
    (promoted : status = .trial → ∀ row ∈ pool.shared.member, row.orgRole ≠ .recruit) :
    pool.shared.member = outcome status target expected := by
  have opened := ApplicationStatus.open_of_isValidTransition valid
  have mine := agreed.of_provided reached current ensures valid
  cases agreed.stands with
  | same same =>
      exfalso
      rcases mine with ⟨-, inactive⟩ | ⟨rfl, -, row, rfl, -, recruit⟩
      · rw [same] at provided
        exact inactive provided
      · exact promoted rfl row same recruit
  | @provided other status' target' did provider current' ensures' stands =>
      rw [stands]
      have reached' := (agreed.relies _ provider).1.reached
      have theirs := agreed.of_provided reached' current' ensures' (agreed.filed.proper _ provider)
      rcases mine with ⟨rfl, inactive⟩ | ⟨rfl, rfl, row, rfl, active, -⟩
      · rcases theirs with ⟨rfl, -⟩ | ⟨-, -, row, rfl, active, -⟩
        · rw [outcome_pending ensures agreed.settled.plain inactive,
            outcome_pending ensures' agreed.settled.plain inactive]
        · exact absurd (active_some.mpr active) inactive
      · rcases theirs with ⟨-, inactive⟩ | ⟨rfl, rfl, -⟩
        · exact absurd (active_some.mpr active) inactive
        · rfl
  | revoking _ last _ => exact absurd last (agreed.not_last reached current opened)

/-- The deactivation that follows a rejection leaves the expected row. -/
theorem revoked_eq_outcome (agreed : Agreed base first expected pool)
    (reached : base ≤ id) (current : pool.shared.applications.get? id = some status)
    (opened : status.Open) (deactivates : target.deactivatesMember = true)
    (alone : ¬pool.shared.OtherOpen id)
    (unprovided : ∀ other ∈ pool.processes, ¬other.Provides id) :
    revoked pool.shared.member = outcome status target expected := by
  rw [outcome_eq_revoked deactivates]
  cases agreed.stands with
  | same same => rw [same]
  | @provided other status' target' did provider current' ensures stands wrote creates promotes =>
      have valid' := agreed.filed.proper _ provider
      have same := ApplicantStore.eq_of_not_otherOpen alone current'
        (ApplicationStatus.open_of_isValidTransition valid')
      have kept := unprovided _ provider
      rcases agreed.of_provided (agreed.relies _ provider).1.reached current' ensures valid' with
        ⟨rfl, inactive⟩ | ⟨rfl, -⟩
      · cases expected with
        | none => exact absurd ⟨same, .inl (creates rfl)⟩ kept
        | some row =>
            -- The member was only reactivated, and the deactivation takes that back.
            have unset : row.isActive = false := Bool.eq_false_iff.mpr (by simpa using inactive)
            have recruit := agreed.settled.plain row rfl unset
            rw [revoked_of_not_active inactive, stands,
              outcome_pending ensures agreed.settled.plain inactive]
            rcases row with ⟨role, isActive, isBanned⟩
            obtain rfl : role = .recruit := recruit
            obtain rfl : isActive = false := unset
            rfl
      · exact absurd ⟨same, .inr (promotes rfl)⟩ kept
  | revoking _ last _ => exact absurd last (agreed.not_last reached current opened)

theorem settle (agreed : Agreed base first expected pool)
    (filed : Filed first (moveTo pool index
      { pool.shared with applications := pool.shared.applications.update id fun _ => target }
      (if target.deactivatesMember then .revokeSelect id target else .done id target)))
    (found : pool.processes[index]? = some (.cas id status target did))
    (current : pool.shared.applications.get? id = some status)
    (timely : (ApplicationCall.cas id status target did).Timely pool) :
    Agreed base first (outcome status target expected) (moveTo pool index
      { pool.shared with applications := pool.shared.applications.update id fun _ => target }
      (if target.deactivatesMember then .revokeSelect id target else .done id target)) := by
  have call_mem := List.mem_of_getElem? found
  rcases agreed.relies _ call_mem with ⟨seen, provided⟩
  have valid : status.isValidTransition target = true := agreed.filed.proper _ call_mem
  have opened := ApplicationStatus.open_of_isValidTransition valid
  rcases timely current with ⟨alone, unprovided⟩
  have elsewhere : ∀ {other : ℕ}, other ≠ id →
      (pool.shared.applications.update id fun _ => target).get? other =
        pool.shared.applications.get? other := by
    intro other differs
    rw [Table.get?_update, if_neg differs]
  have at_id : (pool.shared.applications.update id fun _ => target).get? id = some target := by
    rw [Table.get?_update, if_pos rfl, current]
    rfl
  have change : Later base expected (outcome status target expected) pool.shared
      { pool.shared with applications := pool.shared.applications.update id fun _ => target } := by
    refine ⟨Nat.le_refl _, ?_, fun _ _ _ _ _ => fun active => active, fun _ _ _ _ kept => kept, ?_⟩
    · intro other now _ found
      rcases Table.get?_of_update found with ⟨old, at_other, ⟨rfl, rfl⟩ | rfl⟩
      · rw [current] at at_other
        rcases Option.some.inj at_other with rfl
        exact ⟨status, current,
          .inr ⟨opened, ApplicationStatus.ne_pending_of_isValidTransition valid⟩⟩
      · exact ⟨now, at_other, .inl rfl⟩
    · intro other closed last
      exfalso
      have differs : other ≠ id := by
        rintro rfl
        exact (ApplicationStatus.deactivatesMember_iff.mp (closed.closed status current)).1 opened
      -- The other application was the latest one before this one was decided.
      have before : Last pool.shared.applications other := by
        rcases last with ⟨⟨now, at_other, deactivates⟩, most⟩
        rw [elsewhere differs] at at_other
        refine ⟨⟨now, at_other, deactivates⟩, ?_⟩
        intro third old at_third
        by_cases same : third = id
        · rw [same]
          exact most id target at_id
        · exact most third old (by rw [elsewhere same, at_third])
      exact agreed.not_last seen.reached current opened before
  refine agreed.move filed change (agreed.settled_outcome seen valid current alone) ?_ ?_
  · rcases ApplicationStatus.target_of_isValidTransition valid with ensures | deactivates
    · rcases provided ensures with ⟨provided, promoted⟩
      apply Stands.same
      refine agreed.eq_outcome_of_ensures seen.reached current ensures valid ?_ ?_
      · apply provided status current
        rcases ApplicationStatus.open_iff.mp opened with rfl | rfl <;> rfl
      · rintro rfl
        exact promoted rfl current
    · apply Stands.revoking
      · rw [if_pos deactivates]
        exact .inl (moved_mem found)
      · refine ⟨⟨target, at_id, deactivates⟩, ?_⟩
        intro other now at_other
        by_cases same : other = id
        · rw [same]
        · rw [elsewhere same] at at_other
          by_contra after
          rcases agreed.settled.ordered id other status now seen.reached (by omega) current at_other
            with closed | ⟨-, rfl⟩
          · exact (ApplicationStatus.deactivatesMember_iff.mp closed).1 opened
          · exact same (ApplicantStore.eq_of_not_otherOpen alone at_other rfl)
      · exact agreed.revoked_eq_outcome seen.reached current opened deactivates alone
          (unprovided deactivates)
  · split
    next deactivates =>
      refine ⟨seen.reached, seen.made, ?_⟩
      intro now found
      rcases Option.some.inj (Eq.trans (Eq.symm at_id) found) with rfl
      exact deactivates
    next => trivial

/-! ## Deactivating the member -/

theorem revoke (agreed : Agreed base first expected pool)
    (filed : Filed first (moveTo pool index
      { pool.shared with member := pool.shared.member.map (Applicant.setActive false) }
      (.done id target)))
    (found : pool.processes[index]? = some (.revoke id target))
    (timely : (ApplicationCall.revoke id target).Timely pool) :
    Agreed base first expected (moveTo pool index
      { pool.shared with member := pool.shared.member.map (Applicant.setActive false) }
      (.done id target)) := by
  rcases agreed.relies _ (List.mem_of_getElem? found) with ⟨closed, leaves⟩
  rcases timely with ⟨row, latest, rfl⟩
  rcases ApplicantStore.latest_eq_some_iff.mp latest with ⟨current, most⟩
  have last : Last pool.shared.applications row.id := by
    refine ⟨⟨row.value, current, closed.closed _ current⟩, ?_⟩
    intro other status at_other
    exact most ⟨other, status⟩ (Table.get?_eq_some_iff.mp at_other)
  have written := leaves last
  refine agreed.move filed ?_ agreed.settled (.same written) trivial
  refine ⟨Nat.le_refl _, fun id current _ found => ⟨current, found, .inl rfl⟩, ?_, ?_, ?_⟩
  · intro other status reached found kept
    rw [agreed.settled.deactivates_of_last last reached found] at kept
    cases kept
  · intro other reached trial
    cases agreed.settled.deactivates_of_last last reached trial
  · intro other _ last' _
    simp only [written]
    exact setActive_of_not_active (agreed.settled.not_active_of_last last)

/-! ## Submitting -/

theorem create (agreed : Agreed base first expected pool)
    (filed : Filed first (moveTo pool index
      { pool.shared with applications := pool.shared.applications.create .pending }
      (.submitCount pool.shared.applications.nextId)))
    (inactive : ¬Active pool.shared.member) :
    Agreed base first expected (moveTo pool index
      { pool.shared with applications := pool.shared.applications.create .pending }
      (.submitCount pool.shared.applications.nextId)) := by
  have old : ∀ {other : ℕ} {status : ApplicationStatus},
      (pool.shared.applications.create .pending).get? other = some status →
        other = pool.shared.applications.nextId ∧ status = .pending ∨
          other < pool.shared.applications.nextId ∧
            pool.shared.applications.get? other = some status := by
    intro other status found
    rw [Table.get?_create] at found
    split at found
    next new => exact .inl ⟨new, Eq.symm (Option.some.inj found)⟩
    next => exact .inr ⟨Table.lt_nextId_of_get? found, found⟩
  have new : (pool.shared.applications.create ApplicationStatus.pending).get?
      pool.shared.applications.nextId = some .pending := by
    rw [Table.get?_create, if_pos rfl]
  have same := agreed.same_of_not_active inactive
  refine agreed.move filed ?_ ?_ (.same same) trivial
  · refine ⟨Nat.le_succ _, ?_, fun _ _ _ _ _ => fun active => active, fun _ _ _ _ kept => kept, ?_⟩
    · intro other status made found
      rcases old found with ⟨rfl, -⟩ | ⟨-, found⟩
      · exact absurd made (Nat.lt_irrefl _)
      · exact ⟨status, found, .inl rfl⟩
    · intro other closed last
      exact absurd closed.made (Nat.not_lt.mpr (last.most _ _ new))
  · refine ⟨?_, ?_, ?_, ?_, agreed.settled.plain⟩
    · intro other status found opened
      rcases old found with ⟨rfl, -⟩ | ⟨-, found⟩
      · exact Nat.le_trans agreed.reached agreed.filed.grown
      · exact agreed.settled.closed other status found opened
    · intro earlier later status current reached before at_earlier at_later
      rcases old at_earlier with ⟨rfl, -⟩ | ⟨-, at_earlier⟩
      · rcases old at_later with ⟨rfl, -⟩ | ⟨small, -⟩ <;> omega
      · rcases old at_later with ⟨-, rfl⟩ | ⟨-, at_later⟩
        · cases status with
          | pending => exact .inr ⟨rfl, rfl⟩
          | trial | accepted =>
              exact absurd (agreed.active_of_ensures reached at_earlier rfl) inactive
          | rejected | withdrawn => exact .inl rfl
        · exact agreed.settled.ordered earlier later status current reached before at_earlier
            at_later
    · rw [agreed.settled.active]
      constructor
      · rintro ⟨other, status, reached, found, ensures⟩
        refine ⟨other, status, reached, ?_, ensures⟩
        rw [Table.get?_create, if_neg (Nat.ne_of_lt (Table.lt_nextId_of_get? found)), found]
      · rintro ⟨other, status, reached, found, ensures⟩
        rcases old found with ⟨-, rfl⟩ | ⟨-, found⟩
        · cases ensures
        · exact ⟨other, status, reached, found, ensures⟩
    · intro other reached found
      rcases old found with ⟨-, pending⟩ | ⟨-, found⟩
      · cases pending
      · exact agreed.settled.trial other reached found

theorem delete (agreed : Agreed base first expected pool)
    (filed : Filed first (moveTo pool index
      { pool.shared with
        applications := pool.shared.applications.deleteWhere fun row => row.id == id }
      (.failed (.conflict ApplicationCall.alreadyOpen))))
    (found : pool.processes[index]? = some (.submitDelete id))
    (timely : (ApplicationCall.submitDelete id).Timely pool) :
    Agreed base first expected (moveTo pool index
      { pool.shared with
        applications := pool.shared.applications.deleteWhere fun row => row.id == id }
      (.failed (.conflict ApplicationCall.alreadyOpen))) := by
  have reached : base ≤ id := Nat.le_trans agreed.reached
    (agreed.filed.made _ (List.mem_of_getElem? found) id rfl)
  have old : ∀ {other : ℕ} {status : ApplicationStatus},
      (pool.shared.applications.deleteWhere fun row => row.id == id).get? other = some status →
        pool.shared.applications.get? other = some status := Table.get?_of_deleteWhere
  have inactive : ¬Active expected := by
    rcases timely with inactive | ⟨pending, -⟩
    · rw [← agreed.same_of_not_active inactive]
      exact inactive
    · exact agreed.settled.not_active_of_pending reached pending
  have settled : Settled base expected
      (pool.shared.applications.deleteWhere fun row => row.id == id) := by
    refine ⟨fun other status found => agreed.settled.closed other status (old found), ?_, ?_,
      fun other reached found => agreed.settled.trial other reached (old found),
      agreed.settled.plain⟩
    · intro earlier later status current reached before at_earlier at_later
      exact agreed.settled.ordered earlier later status current reached before (old at_earlier)
        (old at_later)
    · refine iff_of_false inactive ?_
      rintro ⟨other, status, reached, found, ensures⟩
      exact inactive (agreed.settled.active.mpr ⟨other, status, reached, old found, ensures⟩)
  have both : Stands expected (moveTo pool index
      { pool.shared with
        applications := pool.shared.applications.deleteWhere fun row => row.id == id }
      (.failed (.conflict ApplicationCall.alreadyOpen))) ∧
      (pool.shared.member = expected ∨
        ∀ other, ¬Last (pool.shared.applications.deleteWhere fun row => row.id == id) other) := by
    by_cases active : Active pool.shared.member
    · rcases timely.resolve_left (not_not.mpr active) with ⟨pending, unwritten⟩
      cases agreed.stands with
      | same same =>
          rw [same] at active
          exact absurd active inactive
      | @provided other status target did provider current ensures stands wrote creates promotes =>
          have differs : other ≠ id := fun same => unwritten _ provider ⟨same, wrote⟩
          have current' :
              (pool.shared.applications.deleteWhere fun row => row.id == id).get? other =
                some status := by
            simp [Table.get?_deleteWhere, current, differs]
          refine ⟨.provided (mem_set_of_ne found provider nofun) current' ensures stands wrote
            creates promotes, .inr ?_⟩
          intro third last
          have closed :=
            settled.deactivates_of_last last (agreed.relies _ provider).1.reached current'
          exact (ApplicationStatus.deactivatesMember_iff.mp closed).1
            (ApplicationStatus.open_of_isValidTransition (agreed.filed.proper _ provider))
      | revoking _ last _ => exact absurd last (agreed.not_last reached pending rfl)
    · have same := agreed.same_of_not_active active
      exact ⟨.same same, .inl same⟩
  refine agreed.move filed ?_ settled both.1 trivial
  refine ⟨Nat.le_refl _, fun other status _ found => ⟨status, old found, .inl rfl⟩,
    fun _ _ _ _ _ => fun active => active, fun _ _ _ _ kept => kept, ?_⟩
  intro other closed last _
  rcases both.2 with same | none
  · rw [same]
    exact setActive_of_not_active inactive
  · exact absurd last (none other)

end Agreed

end ScuffedCrew.Applications
