import ScuffedCrew.Applications.OneOpen

/-!
# What the handlers rely on

`expected` is the member row that the transitions which have won would leave alone.
The row differs from it only while a handler has provided the member and is before
its compare-and-swap, or has won a rejection and is before its deactivation.
-/

namespace ScuffedCrew.Applications

open Rust Database Members StateMachine

/-! ## Outcomes -/

/-- What a rejection or a withdrawal leaves of the member. -/
def revoked (member : Option Applicant) : Option Applicant :=
  member.map fun row => if row.revocable then row.setActive false else row

variable {member expected : Option Applicant} {status target : ApplicationStatus} {row : Applicant}

@[simp]
theorem not_active_none : ¬Active none := by
  rintro ⟨row, found, -⟩
  cases found

@[simp]
theorem active_some : Active (some row) ↔ row.isActive = true := by
  simp [Active]

theorem outcome_eq_revoked (deactivates : target.deactivatesMember = true) :
    outcome status target member = revoked member := by
  have ensures := (ApplicationStatus.deactivatesMember_iff.mp deactivates).2
  cases member with
  | none => simp [outcome, revoked, ensures]
  | some row =>
      simp only [outcome, ensures, deactivates, revoked, Option.map_some, Bool.true_and,
        Bool.false_eq_true, if_false]
      split <;> rfl

theorem active_outcome (ensures : target.ensuresMember = true) :
    Active (outcome status target member) := by
  cases member with
  | none => simp [outcome, ensures, Applicant.created]
  | some row =>
      simp only [outcome, ensures, if_true, active_some]
      split <;> rfl

theorem desiredRole_pending : ApplicationStatus.pending.desiredRole target = .recruit := by
  unfold ApplicationStatus.desiredRole
  split <;> rfl

/-- The member of a pending application becomes an active recruit. -/
theorem outcome_pending (ensures : target.ensuresMember = true)
    (plain : ∀ row ∈ expected, row.isActive = false → row.orgRole = .recruit)
    (inactive : ¬Active expected) :
    outcome .pending target expected = expected.elim (some (.created .recruit))
      fun row => some (row.setActive true) := by
  cases expected with
  | none => simp [outcome, ensures, desiredRole_pending]
  | some row =>
      have recruit := plain row rfl (by simpa using inactive)
      simp [outcome, ensures, Applicant.promotes, desiredRole_pending, Applicant.setActive, recruit]

theorem recruit_of_outcome_pending (ensures : target.ensuresMember = true)
    (plain : ∀ row ∈ expected, row.isActive = false → row.orgRole = .recruit)
    (inactive : ¬Active expected) :
    ∀ row ∈ outcome .pending target expected, row.orgRole = .recruit := by
  intro row at_row
  rw [outcome_pending ensures plain inactive] at at_row
  cases expected with
  | none =>
      rcases Option.some.inj at_row with rfl
      rfl
  | some old =>
      rcases Option.some.inj at_row with rfl
      exact plain old rfl (by simpa using inactive)

/-- The recruit of a trial is promoted. -/
theorem outcome_trial (active : row.isActive = true) (recruit : row.orgRole = .recruit) :
    outcome .trial .accepted (some row) = some (row.setRole .member) := by
  rcases row with ⟨role, isActive, isBanned⟩
  obtain rfl : role = .recruit := recruit
  obtain rfl : isActive = true := active
  rfl

theorem revoked_of_not_active (inactive : ¬Active member) : revoked member = member := by
  cases member with
  | none => rfl
  | some row =>
      have unset : row.isActive = false := Bool.eq_false_iff.mpr (by simpa using inactive)
      simp [revoked, Applicant.revocable, unset]

theorem setActive_of_not_active (inactive : ¬Active member) :
    member.map (Applicant.setActive false) = member := by
  cases member with
  | none => rfl
  | some row =>
      have unset : row.isActive = false := Bool.eq_false_iff.mpr (by simpa using inactive)
      simp [Applicant.setActive, ← unset]

theorem setActive_of_active (active : Active member) :
    member.map (Applicant.setActive true) = member := by
  rcases active with ⟨row, found, active⟩
  obtain rfl : member = some row := found
  simp [Applicant.setActive, ← active]

theorem plain_revoked (plain : ∀ row ∈ member, row.isActive = false → row.orgRole = .recruit) :
    ∀ row ∈ revoked member, row.isActive = false → row.orgRole = .recruit := by
  intro row at_row inactive
  rcases Option.map_eq_some_iff.mp at_row with ⟨old, at_old, rfl⟩
  by_cases revocable : old.revocable = true
  · rw [if_pos revocable]
    simp only [Applicant.revocable, Bool.and_eq_true, beq_iff_eq] at revocable
    exact revocable.2
  · rw [if_neg revocable] at inactive ⊢
    exact plain old at_old inactive

theorem not_active_revoked (recruit : ∀ row ∈ member, row.orgRole = .recruit) :
    ¬Active (revoked member) := by
  cases member with
  | none => exact not_active_none
  | some row =>
      simp only [revoked, Option.map_some, active_some, Applicant.revocable, recruit row rfl]
      cases active : row.isActive <;> simp [Applicant.setActive, active]

/-! ## The invariant -/

/-- The applications from `base` on, and the row their winning transitions would leave. -/
structure Settled (base : ℕ) (expected : Option Applicant)
    (applications : Table ApplicationStatus) : Prop where
  closed : ∀ id status, applications.get? id = some status → status.Open → base ≤ id
  ordered : ∀ (earlier later : ℕ) (status current : ApplicationStatus), base ≤ earlier →
    earlier < later → applications.get? earlier = some status →
      applications.get? later = some current →
        status.deactivatesMember = true ∨ status = .pending ∧ current = .pending
  active : Active expected ↔ ∃ id status, base ≤ id ∧ applications.get? id = some status ∧
    status.ensuresMember = true
  trial : ∀ id, base ≤ id → applications.get? id = some .trial →
    ∀ row ∈ expected, row.orgRole = .recruit
  plain : ∀ row ∈ expected, row.isActive = false → row.orgRole = .recruit

/-- The application is the latest one and has been rejected or withdrawn. -/
structure Last (applications : Table ApplicationStatus) (id : ℕ) : Prop where
  closed : ∃ status, applications.get? id = some status ∧ status.deactivatesMember = true
  most : ∀ other status, applications.get? other = some status → other ≤ id

/-- How the member row stands to the expected one. -/
inductive Stands (expected : Option Applicant) (pool : Pool ApplicantStore ApplicationCall) : Prop
  | same (same : pool.shared.member = expected)
  | provided {id : ℕ} {status target : ApplicationStatus} {did : Provision}
      (provider : .cas id status target did ∈ pool.processes)
      (current : pool.shared.applications.get? id = some status)
      (ensures : target.ensuresMember = true)
      (stands : pool.shared.member = outcome status target expected) (wrote : did ≠ .nothing)
      (creates : expected = none → did = .created) (promotes : status = .trial → did = .promoted)
  | revoking {id : ℕ} {target : ApplicationStatus}
      (revoker : .revokeSelect id target ∈ pool.processes ∨ .revoke id target ∈ pool.processes)
      (last : Last pool.shared.applications id) (stands : revoked pool.shared.member = expected)

/-- The status a handler has read may have changed since, but not back. -/
structure Seen (base : ℕ) (applications : Table ApplicationStatus) (id : ℕ)
    (status : ApplicationStatus) : Prop where
  reached : base ≤ id
  made : id < applications.nextId
  forward : status = .trial → applications.get? id ≠ some .pending

/-- Unless the application has been rejected or withdrawn, the member is active. -/
def Provided (store : ApplicantStore) (id : ℕ) : Prop :=
  ∀ status, store.applications.get? id = some status → status.deactivatesMember = false →
    Active store.member

/-- On trial, the member is a recruit no longer. -/
def Promoted (store : ApplicantStore) (id : ℕ) : Prop :=
  store.applications.get? id = some .trial → ∀ row ∈ store.member, row.orgRole ≠ .recruit

structure Closed (base : ℕ) (applications : Table ApplicationStatus) (id : ℕ) : Prop where
  reached : base ≤ id
  made : id < applications.nextId
  closed : ∀ status, applications.get? id = some status → status.deactivatesMember = true

/-- What a call relies on. -/
def Relies (base : ℕ) (expected : Option Applicant) (store : ApplicantStore) :
    ApplicationCall → Prop
  | .withdrawActor id status | .ensureSelect id status _ | .reactivate id status _
  | .findUser id status _ | .createMember id status _ => Seen base store.applications id status
  | .ensureBan id status _ member => Seen base store.applications id status ∧
      (member.isActive = true → Provided store id) ∧
        (status = .trial → member.orgRole ≠ .recruit → Promoted store id)
  | .promote id status _ => Seen base store.applications id status ∧ Provided store id
  | .cas id status target _ => Seen base store.applications id status ∧
      (target.ensuresMember = true → Provided store id ∧ (status = .trial → Promoted store id))
  | .revokeSelect id _ => Closed base store.applications id
  | .revoke id _ => Closed base store.applications id ∧
      (Last store.applications id → store.member.map (Applicant.setActive false) = expected)
  | _ => True

/-- The invariant of the runs whose steps meet the condition. -/
structure Agreed (base : ℕ) (first : Table ApplicationStatus) (expected : Option Applicant)
    (pool : Pool ApplicantStore ApplicationCall) : Prop where
  filed : Filed first pool
  reached : base ≤ first.nextId
  settled : Settled base expected pool.shared.applications
  stands : Stands expected pool
  relies : ∀ call ∈ pool.processes, Relies base expected pool.shared call

/-! ## What follows from it -/

namespace Settled

variable {applications : Table ApplicationStatus} {base id other : ℕ}
  {current : ApplicationStatus}

/-- Nothing is left open behind a latest application that is closed. -/
theorem deactivates_of_last (settled : Settled base expected applications)
    (last : Last applications other) (reached : base ≤ id)
    (found : applications.get? id = some status) : status.deactivatesMember = true := by
  rcases last.closed with ⟨current, at_other, closed⟩
  rcases Nat.lt_or_eq_of_le (last.most id status found) with before | rfl
  · rcases settled.ordered id other status current reached before found at_other with
      done | ⟨-, rfl⟩
    · exact done
    · cases closed
  · rw [found] at at_other
    rcases Option.some.inj at_other with rfl
    exact closed

theorem not_active_of_last (settled : Settled base expected applications)
    (last : Last applications other) : ¬Active expected := by
  intro active
  rcases settled.active.mp active with ⟨id, status, reached, found, ensures⟩
  have closed := settled.deactivates_of_last last reached found
  rw [(ApplicationStatus.deactivatesMember_iff.mp closed).2] at ensures
  cases ensures

/-- An application on trial or accepted is the only one that is not rejected or withdrawn. -/
theorem eq_of_ensures (settled : Settled base expected applications)
    (reached : base ≤ id) (found : applications.get? id = some status)
    (ensures : status.ensuresMember = true) (reached' : base ≤ other)
    (found' : applications.get? other = some current) (kept : current.deactivatesMember ≠ true) :
    other = id := by
  have unpending : status ≠ .pending := by
    rintro rfl
    cases ensures
  have unclosed : status.deactivatesMember ≠ true := by
    intro closed
    rw [(ApplicationStatus.deactivatesMember_iff.mp closed).2] at ensures
    cases ensures
  rcases Nat.lt_trichotomy other id with before | same | after
  · rcases settled.ordered other id current status reached' before found' found with
      closed | ⟨-, pending⟩
    · exact absurd closed kept
    · exact absurd pending unpending
  · exact same
  · rcases settled.ordered id other status current reached after found found' with
      closed | ⟨pending, -⟩
    · exact absurd closed unclosed
    · exact absurd pending unpending

/-- No member is expected to be active while an application is pending. -/
theorem not_active_of_pending (settled : Settled base expected applications)
    (reached : base ≤ id) (found : applications.get? id = some .pending) : ¬Active expected := by
  intro active
  rcases settled.active.mp active with ⟨other, status, reached', found', ensures⟩
  obtain rfl := settled.eq_of_ensures reached' found' ensures reached found nofun
  rw [found] at found'
  rcases Option.some.inj found' with rfl
  cases ensures

end Settled

/-! ## What the other statements leave -/

variable {base id : ℕ} {before after : Option Applicant} {store later : ApplicantStore}
  {call : ApplicationCall}

/-- A statement has left what the other calls rely on. -/
structure Later (base : ℕ) (before after : Option Applicant) (store later : ApplicantStore) :
    Prop where
  grown : store.applications.nextId ≤ later.applications.nextId
  forward : ∀ id current, id < store.applications.nextId →
    later.applications.get? id = some current → ∃ status, store.applications.get? id = some status ∧
      (current = status ∨ status.Open ∧ current ≠ .pending)
  active : ∀ id status, base ≤ id → later.applications.get? id = some status →
    status.deactivatesMember = false → Active store.member → Active later.member
  role : ∀ id, base ≤ id → store.applications.get? id = some .trial →
    later.applications.get? id = some .trial →
      (∀ row ∈ store.member, row.orgRole ≠ .recruit) → ∀ row ∈ later.member, row.orgRole ≠ .recruit
  revoke : ∀ id, Closed base store.applications id → Last later.applications id →
    (Last store.applications id → store.member.map (Applicant.setActive false) = before) →
      later.member.map (Applicant.setActive false) = after

namespace Later

theorem seen (change : Later base before after store later)
    (seen : Seen base store.applications id status) : Seen base later.applications id status := by
  refine ⟨seen.reached, Nat.lt_of_lt_of_le seen.made change.grown, ?_⟩
  intro trial found
  rcases change.forward id .pending seen.made found with ⟨old, at_id, rfl | ⟨-, moved⟩⟩
  · exact seen.forward trial at_id
  · exact moved rfl

theorem provided (change : Later base before after store later) (reached : base ≤ id)
    (made : id < store.applications.nextId) (provided : Provided store id) : Provided later id := by
  intro status found open_still
  apply change.active id status reached found open_still
  rcases change.forward id status made found with ⟨old, at_id, rfl | ⟨opened, -⟩⟩
  · exact provided _ at_id open_still
  · apply provided old at_id
    cases old <;> first | rfl | cases opened

theorem closed (change : Later base before after store later)
    (closed : Closed base store.applications id) : Closed base later.applications id := by
  refine ⟨closed.reached, Nat.lt_of_lt_of_le closed.made change.grown, ?_⟩
  intro status found
  rcases change.forward id status closed.made found with ⟨old, at_id, rfl | ⟨opened, -⟩⟩
  · exact closed.closed _ at_id
  · exact absurd opened (ApplicationStatus.deactivatesMember_iff.mp (closed.closed old at_id)).1

theorem promoted (change : Later base before after store later)
    (seen : Seen base store.applications id .trial) (promoted : Promoted store id) :
    Promoted later id := by
  intro found
  rcases change.forward id .trial seen.made found with ⟨old, at_id, same | ⟨opened, -⟩⟩
  · rw [← same] at at_id
    exact change.role id seen.reached at_id found (promoted at_id)
  · -- The status was read as a trial, so it is not the pending one that has moved on.
    rcases ApplicationStatus.open_iff.mp opened with rfl | rfl
    · exact absurd at_id (seen.forward rfl)
    · exact change.role id seen.reached at_id found (promoted at_id)

theorem relies (change : Later base before after store later)
    (relies : Relies base before store call) : Relies base after later call := by
  cases call with
  | withdrawActor | ensureSelect | reactivate | findUser | createMember => exact change.seen relies
  | ensureBan id status target member =>
      rcases relies with ⟨seen, provided, promoted⟩
      refine ⟨change.seen seen, ?_, ?_⟩
      · intro active
        exact change.provided seen.reached seen.made (provided active)
      · rintro rfl differs
        exact change.promoted seen (promoted rfl differs)
  | promote id status target =>
      exact ⟨change.seen relies.1, change.provided relies.1.reached relies.1.made relies.2⟩
  | cas id status target did =>
      rcases relies with ⟨seen, provided⟩
      refine ⟨change.seen seen, ?_⟩
      intro ensures
      refine ⟨change.provided seen.reached seen.made (provided ensures).1, ?_⟩
      rintro rfl
      exact change.promoted seen ((provided ensures).2 rfl)
  | revokeSelect id target => exact change.closed relies
  | revoke id target =>
      exact ⟨change.closed relies.1, fun last => change.revoke id relies.1 last relies.2⟩
  | updateSelect | withdrawSelect | casSelect | submitSettings | submitMember | submitBan
  | submitLatest | submitCreate | submitCount | submitDelete | returned => trivial

end Later

end ScuffedCrew.Applications
