import ScuffedCrew.Applications.Keeping

/-!
# Applications and memberships agree

When no handler writes on a reading that has since become false, a user whose
latest application is on trial or accepted has an active member row once all calls
have returned, one whose latest application is rejected or withdrawn has none, and
the row is what the winning transitions alone would have left.
-/

namespace ScuffedCrew.Applications

open Rust Database Members StateMachine

/-- The write of the step is timely. -/
def ApplicationStep.Meets (step : ApplicationStep) : Prop :=
  ∀ call ∈ step.before.processes[step.event.process]?, call.Timely step.before

/-- What a transition that wins its compare-and-swap in the step leaves of the member. -/
def ApplicationStep.leaves (step : ApplicationStep) (member : Option Applicant) :
    Option Applicant :=
  match step.before.processes[step.event.process]? with
  | some (.cas id status target _) =>
      if step.before.shared.applications.get? id = some status then outcome status target member
      else member
  | _ => member

/-- What the winning transitions of a run leave of the member, one after the other. -/
def leavesAll (steps : List ApplicationStep) (member : Option Applicant) : Option Applicant :=
  steps.foldl (fun member step => step.leaves member) member

variable {base id : ℕ} {first : Table ApplicationStatus} {expected : Option Applicant}
  {pool next start final : Pool ApplicantStore ApplicationCall} {turn : Turn Bool}
  {call : ApplicationCall} {status target : ApplicationStatus} {steps : List ApplicationStep}

/-! ## One step -/

/-- A status that is read as open stands for an application of the run. -/
theorem Agreed.seen (agreed : Agreed base first expected pool)
    (found : pool.shared.applications.get? id = some status) (opened : status.Open) :
    Seen base pool.shared.applications id status := by
  refine ⟨agreed.settled.closed id status found opened, Table.lt_nextId_of_get? found, ?_⟩
  rintro rfl pending
  rw [found] at pending
  cases pending

theorem relies_transition {store : ApplicantStore} (seen : Seen base store.applications id status) :
    Relies base expected store (.transition id status target) := by
  unfold ApplicationCall.transition
  split
  next => exact seen
  next unsure => exact ⟨seen, fun ensures => absurd ensures unsure⟩

theorem Agreed.step (agreed : Agreed base first expected pool)
    (taken : concurrentApplications.next pool turn = some next)
    (meets : ApplicationStep.Meets ⟨pool, turn, next⟩) :
    Agreed base first (ApplicationStep.leaves ⟨pool, turn, next⟩ expected) next := by
  have filed := agreed.filed.step taken
  rcases interleaving_next_eq_some.mp taken with ⟨call, shared, moved, found, stepped, rfl⟩
  have call_mem := List.mem_of_getElem? found
  have relies := agreed.relies call call_mem
  have proper := agreed.filed.proper call call_mem
  have timely := meets call found
  simp only [ApplicationStep.leaves, found]
  cases call with
  | updateSelect id target =>
      rcases Prod.mk.inj (Option.some.inj stepped) with ⟨rfl, rfl⟩
      refine agreed.read_of_plain filed found rfl ?_
      cases selected : pool.shared.applications.get? id with
      | none => trivial
      | some status =>
          simp only [ApplicationCall.afterUpdateSelect]
          split
          next valid =>
            exact relies_transition
              (agreed.seen selected (ApplicationStatus.open_of_isValidTransition valid))
          next => trivial
  | withdrawSelect =>
      rcases Prod.mk.inj (Option.some.inj stepped) with ⟨rfl, rfl⟩
      refine agreed.read_of_plain filed found rfl ?_
      cases selected : pool.shared.latest with
      | none => trivial
      | some row =>
          simp only [ApplicationCall.afterWithdrawSelect]
          split
          next may =>
            apply agreed.seen (ApplicantStore.latest_eq_some_iff.mp selected).1
            cases status : row.value <;> rw [status] at may <;> first | rfl | cases may
          next => trivial
  | withdrawActor id status =>
      rcases Prod.mk.inj (Option.some.inj stepped) with ⟨rfl, rfl⟩
      exact agreed.read_of_plain filed found rfl (relies_transition relies)
  | ensureSelect id status target =>
      simp only [ApplicationCall.step] at stepped
      split at stepped <;> rcases Prod.mk.inj (Option.some.inj stepped) with ⟨rfl, rfl⟩
      · exact agreed.read_of_plain filed found rfl relies
      next row at_row =>
        refine agreed.read_of_plain filed found rfl ⟨relies, ?_, ?_⟩
        · intro active _ _ _
          exact ⟨row, at_row, active⟩
        · intro _ differs _ other at_other
          rw [at_row] at at_other
          rcases Option.some.inj at_other with rfl
          exact differs
  | ensureBan id status target member =>
      rcases Prod.mk.inj (Option.some.inj stepped) with ⟨rfl, rfl⟩
      refine agreed.read_of_plain filed found rfl ?_
      unfold ApplicationCall.afterEnsureBan
      split
      · trivial
      · split
        next active =>
          exact relies_afterActive (relies.2.1 active) relies.2.2 proper.1 proper.2 relies.1
        next => exact relies.1
  | reactivate id status target =>
      rcases Prod.mk.inj (Option.some.inj stepped) with ⟨rfl, rfl⟩
      exact agreed.reactivate filed found timely
  | promote id status target =>
      rcases Prod.mk.inj (Option.some.inj stepped) with ⟨rfl, rfl⟩
      exact agreed.promote filed found timely
  | findUser id status target =>
      simp only [ApplicationCall.step] at stepped
      split at stepped <;> rcases Prod.mk.inj (Option.some.inj stepped) with ⟨rfl, rfl⟩
      · exact agreed.read_of_plain filed found rfl relies
      · exact agreed.read_of_plain filed found rfl trivial
  | createMember id status target =>
      simp only [ApplicationCall.step] at stepped
      split at stepped
      · split at stepped <;> rcases Prod.mk.inj (Option.some.inj stepped) with ⟨rfl, rfl⟩
        next absent => exact agreed.createMember filed found absent timely
        next => exact agreed.read_of_plain filed found rfl trivial
      · rcases Prod.mk.inj (Option.some.inj stepped) with ⟨rfl, rfl⟩
        exact agreed.read_of_plain filed found rfl trivial
  | cas id status target did =>
      simp only [ApplicationCall.step] at stepped
      split at stepped <;> rcases Prod.mk.inj (Option.some.inj stepped) with ⟨rfl, rfl⟩
      next current =>
        simp only [if_pos current]
        exact agreed.settle filed found current timely
      next stale =>
        simp only [if_neg stale]
        refine agreed.read filed found ?_ ?_ ?_ trivial
        · rintro id' status' target' did' same
          rcases ApplicationCall.cas.inj same with ⟨rfl, rfl, -⟩
          exact stale
        · intro id' target' same
          cases same
        · intro id' target' same
          cases same
  | casSelect id status =>
      rcases Prod.mk.inj (Option.some.inj stepped) with ⟨rfl, rfl⟩
      refine agreed.read_of_plain filed found rfl ?_
      unfold ApplicationCall.lost
      split <;> trivial
  | revokeSelect id target =>
      rcases Prod.mk.inj (Option.some.inj stepped) with ⟨rfl, rfl⟩
      refine agreed.read filed found ?_ ?_ ?_ ?_
      · intro id' status' target' did' same
        cases same
      · rintro id' target' same
        rcases ApplicationCall.revokeSelect.inj same with ⟨rfl, rfl⟩
        cases stored : pool.shared.member with
        | none => exact .inr rfl
        | some row =>
            by_cases revocable : row.revocable = true
            · exact .inl (by simp [revocable])
            · exact .inr (by simp [revoked, revocable])
      · intro id' target' same
        cases same
      · split
        next revocable =>
          refine ⟨relies, ?_⟩
          intro last
          have inactive := agreed.settled.not_active_of_last last
          obtain ⟨row, at_row, revocable⟩ : ∃ row, pool.shared.member = some row ∧
              row.revocable = true := by
            cases stored : pool.shared.member with
            | none =>
                rw [stored] at revocable
                cases revocable
            | some row =>
                rw [stored] at revocable
                exact ⟨row, rfl, revocable⟩
          cases agreed.stands with
          | same same =>
              rw [← same, at_row, active_some] at inactive
              simp only [Applicant.revocable, Bool.and_eq_true] at revocable
              exact absurd revocable.1 inactive
          | provided provider current =>
              exact absurd last (agreed.not_last (agreed.relies _ provider).1.reached current
                (ApplicationStatus.open_of_isValidTransition (agreed.filed.proper _ provider)))
          | revoking _ _ stands =>
              rw [← stands, at_row]
              simp [revoked, revocable]
        next => trivial
  | revoke id target =>
      rcases Prod.mk.inj (Option.some.inj stepped) with ⟨rfl, rfl⟩
      exact agreed.revoke filed found timely
  | submitSettings =>
      simp only [ApplicationCall.step] at stepped
      split at stepped <;> rcases Prod.mk.inj (Option.some.inj stepped) with ⟨rfl, rfl⟩ <;>
        exact agreed.read_of_plain filed found rfl trivial
  | submitMember =>
      simp only [ApplicationCall.step] at stepped
      split at stepped <;> rcases Prod.mk.inj (Option.some.inj stepped) with ⟨rfl, rfl⟩ <;>
        exact agreed.read_of_plain filed found rfl trivial
  | submitBan member =>
      rcases Prod.mk.inj (Option.some.inj stepped) with ⟨rfl, rfl⟩
      refine agreed.read_of_plain filed found rfl ?_
      unfold ApplicationCall.afterSubmitBan
      split
      · trivial
      · split <;> trivial
  | submitLatest =>
      rcases Prod.mk.inj (Option.some.inj stepped) with ⟨rfl, rfl⟩
      refine agreed.read_of_plain filed found rfl ?_
      unfold ApplicationCall.afterSubmitLatest
      split
      · trivial
      · split <;> trivial
  | submitCreate =>
      rcases Prod.mk.inj (Option.some.inj stepped) with ⟨rfl, rfl⟩
      exact agreed.create filed timely
  | submitCount id =>
      rcases Prod.mk.inj (Option.some.inj stepped) with ⟨rfl, rfl⟩
      refine agreed.read_of_plain filed found rfl ?_
      split <;> trivial
  | submitDelete id =>
      rcases Prod.mk.inj (Option.some.inj stepped) with ⟨rfl, rfl⟩
      exact agreed.delete filed found timely
  | returned answer => cases stepped

/-! ## Every run -/

/-- A user without a member row, or with an inactive recruit that is not banned, and with one open
application at most, before any call. -/
structure Started (start : Pool ApplicantStore ApplicationCall) : Prop where
  member : ∀ row ∈ start.shared.member,
    row.isActive = false ∧ row.orgRole = .recruit ∧ row.isBanned = false
  pending : ∀ id status, start.shared.applications.get? id = some status → status.Open →
    status = .pending
  single : ∀ (earlier later : ℕ) (status current : ApplicationStatus),
    start.shared.applications.get? earlier = some status →
      start.shared.applications.get? later = some current → status.Open → current.Open →
        earlier = later
  called : ∀ call ∈ start.processes, call.Fresh

/-- The latest application is not an accepted one, and no other one is open. -/
structure Coherent (store : ApplicantStore) : Prop where
  unaccepted : ∀ row ∈ store.latest, row.value ≠ .accepted
  open_last : ∀ id status, store.applications.get? id = some status → status.Open →
    ∃ row ∈ store.latest, row.id = id

theorem Started.not_active (started : Started start) : ¬Active start.shared.member := by
  rintro ⟨row, at_row, active⟩
  rw [(started.member row at_row).1] at active
  cases active

/-- The applications of the run begin with the one that is open at the start. -/
theorem Started.agreed (started : Started start) (coherent : Coherent start.shared) :
    ∃ base, Agreed base start.shared.applications start.shared.member start ∧
      (base = start.shared.applications.nextId ∧
          (∀ id status, start.shared.applications.get? id = some status → ¬status.Open) ∨
        start.shared.applications.get? base = some .pending) := by
  have filed : Filed start.shared.applications start := .atStart started.called started.single
  have plain : ∀ row ∈ start.shared.member, row.isActive = false → row.orgRole = .recruit :=
    fun row at_row _ => (started.member row at_row).2.1
  have relies : ∀ base, ∀ call ∈ start.processes,
      Relies base start.shared.member start.shared call := by
    intro base call call_mem
    have fresh := started.called call call_mem
    cases call <;> trivial
  by_cases opened : ∃ id status, start.shared.applications.get? id = some status ∧ status.Open
  · rcases opened with ⟨base, status, found, opened⟩
    obtain rfl := started.pending base status found opened
    rcases coherent.open_last base .pending found rfl with ⟨row, latest, rfl⟩
    have most := (ApplicantStore.latest_eq_some_iff.mp latest).2
    have only : ∀ {id : ℕ} {status : ApplicationStatus}, row.id ≤ id →
        start.shared.applications.get? id = some status → id = row.id := by
      intro id status reached found
      exact Nat.le_antisymm (most ⟨id, status⟩ (Table.get?_eq_some_iff.mp found)) reached
    refine ⟨row.id, ⟨filed, Nat.le_of_lt (Table.lt_nextId_of_get? found), ?_, .same rfl,
      relies row.id⟩, .inr found⟩
    refine ⟨?_, ?_, ?_, fun id _ _ other at_other => (started.member other at_other).2.1, plain⟩
    · intro id status at_id opened'
      exact Nat.le_of_eq (started.single row.id id .pending status found at_id opened opened')
    · intro earlier later status current reached before at_earlier at_later
      have same := only (Nat.le_trans reached (Nat.le_of_lt before)) at_later
      omega
    · refine iff_of_false started.not_active ?_
      rintro ⟨id, status, reached, at_id, ensures⟩
      obtain rfl := only reached at_id
      rw [found] at at_id
      rcases Option.some.inj at_id with rfl
      cases ensures
  · have closed : ∀ id status, start.shared.applications.get? id = some status → ¬status.Open :=
      fun id status found opened' => opened ⟨id, status, found, opened'⟩
    refine ⟨start.shared.applications.nextId, ⟨filed, Nat.le_refl _, ?_, .same rfl, relies _⟩,
      .inl ⟨rfl, closed⟩⟩
    refine ⟨fun id status found opened' => absurd opened' (closed id status found), ?_, ?_,
      fun id _ _ other at_other => (started.member other at_other).2.1, plain⟩
    · intro earlier later status current reached before at_earlier at_later
      exact absurd (Table.lt_nextId_of_get? at_earlier) (Nat.not_lt.mpr reached)
    · refine iff_of_false started.not_active ?_
      rintro ⟨id, status, reached, at_id, -⟩
      exact absurd (Table.lt_nextId_of_get? at_id) (Nat.not_lt.mpr reached)

/-- Once all calls have returned, a latest application from before the run is still the latest one
of the start. -/
theorem latest_of_lt (coherent : Coherent start.shared)
    (filed : Filed start.shared.applications final)
    (base_at : base = start.shared.applications.nextId ∧
        (∀ id status, start.shared.applications.get? id = some status → ¬status.Open) ∨
      start.shared.applications.get? base = some .pending)
    {row : Record ApplicationStatus} (latest : final.shared.latest = some row)
    (before : row.id < base) : row.value.deactivatesMember = true := by
  rcases ApplicantStore.latest_eq_some_iff.mp latest with ⟨at_row, most⟩
  rcases base_at with ⟨rfl, closed⟩ | pending
  · cases at_start : start.shared.applications.get? row.id with
    | none =>
        rw [filed.absent row.id before at_start] at at_row
        cases at_row
    | some status =>
        cases at_latest : start.shared.latest with
        | none =>
            have empty := List.argmax_eq_none.mp at_latest
            have row_mem := Table.get?_eq_some_iff.mp at_start
            rw [empty] at row_mem
            cases row_mem
        | some last =>
            rcases ApplicantStore.latest_eq_some_iff.mp at_latest with ⟨at_last, most'⟩
            have above := most' _ (Table.get?_eq_some_iff.mp at_start)
            rcases filed.stays last.id last.value at_last with ⟨current, still, kept⟩
            have below := most _ (Table.get?_eq_some_iff.mp still)
            have same : last.id = row.id := Nat.le_antisymm below above
            have unopened := closed last.id last.value at_last
            have unaccepted := coherent.unaccepted last at_latest
            rw [same, at_row] at still
            rw [Option.some.inj still, kept unopened]
            cases value : last.value with
            | pending | trial =>
                rw [value] at unopened
                exact absurd rfl unopened
            | accepted => exact absurd value unaccepted
            | rejected | withdrawn => rfl
  · rcases filed.stays base .pending pending with ⟨current, still, -⟩
    exact absurd (most _ (Table.get?_eq_some_iff.mp still)) (Nat.not_le.mpr before)

theorem exec_cons {store shared : ApplicantStore} {moved : ApplicationCall}
    {turns : List (Turn Bool)}
    (stepped : call.step store true = some (shared, moved))
    (rest : concurrentApplications.exec ⟨shared, [moved]⟩ turns = some final) :
    concurrentApplications.exec ⟨store, [call]⟩ (⟨0, true⟩ :: turns) = some final := by
  simp [Machine.exec, concurrentApplications, interleaving, stepped]
  exact rest

theorem exec_nil : concurrentApplications.exec pool [] = some pool := rfl

/-- `outcome` is what an update that nobody disturbs leaves of the member. -/
theorem update_alone {store : ApplicantStore} (found : store.applications.get? id = some status)
    (valid : status.isValidTransition target = true)
    (unbanned : ∀ row ∈ store.member, row.isBanned = false) :
    ∃ turns, concurrentApplications.exec ⟨store, [.updateSelect id target]⟩ turns =
      some ⟨⟨store.applications.update id fun _ => target, outcome status target store.member⟩,
        [.done id target]⟩ := by
  suffices rest : ∃ turns,
      concurrentApplications.exec ⟨store, [.transition id status target]⟩ turns =
        some ⟨⟨store.applications.update id fun _ => target, outcome status target store.member⟩,
          [.done id target]⟩ by
    rcases rest with ⟨turns, rest⟩
    exact ⟨_, exec_cons (by simp [ApplicationCall.step, ApplicationCall.afterUpdateSelect, found,
      valid]) rest⟩
  have cas : ∀ did member, target.ensuresMember = true →
      concurrentApplications.exec ⟨{ store with member }, [.cas id status target did]⟩ [⟨0, true⟩] =
        some ⟨⟨store.applications.update id fun _ => target, member⟩, [.done id target]⟩ := by
    intro did member ensures
    have kept : target.deactivatesMember = false := by
      cases target <;> first | rfl | cases ensures
    exact exec_cons (by simp [ApplicationCall.step, found, kept]) rfl
  rcases store with ⟨applications, member⟩
  rcases ApplicationStatus.target_of_isValidTransition valid with ensures | deactivates
  · have begins : ApplicationCall.transition id status target = .ensureSelect id status target := by
      simp [ApplicationCall.transition, ensures]
    rw [begins]
    cases member with
    | none =>
        have outcome_eq :
            outcome status target none = some (.created (status.desiredRole target)) := by
          simp [outcome, ensures]
        rw [outcome_eq]
        exact ⟨_, exec_cons rfl (exec_cons rfl (exec_cons rfl (cas _ _ ensures)))⟩
    | some row =>
        have free := unbanned row rfl
        -- The role is written after the member is active, or the call goes straight on.
        have active : ∀ did (row : Applicant), row.isActive = true → ∃ turns,
            concurrentApplications.exec ⟨⟨applications, some row⟩,
              [.afterActive id status target did row]⟩ turns =
                some ⟨⟨applications.update id fun _ => target, outcome status target (some row)⟩,
                  [.done id target]⟩ := by
          intro did row active
          have same : row.setActive true = row := by simp [Applicant.setActive, ← active]
          simp only [outcome, ensures, if_true, same, ApplicationCall.afterActive]
          split
          · exact ⟨_, exec_cons rfl (cas _ _ ensures)⟩
          · exact ⟨_, cas _ _ ensures⟩
        by_cases is_active : row.isActive = true
        · rcases active .nothing row is_active with ⟨turns, rest⟩
          refine ⟨_, exec_cons rfl (exec_cons ?_ rest)⟩
          simp [ApplicationCall.step, ApplicationCall.afterEnsureBan, free, is_active]
        · rcases active .reactivated (row.setActive true) rfl with ⟨turns, rest⟩
          have same : outcome status target (some (row.setActive true)) =
              outcome status target (some row) := by
            simp only [outcome, ensures, if_true]
            rfl
          rw [same] at rest
          have goes : (ApplicationCall.ensureBan id status target row).step ⟨applications, some row⟩
              true = some (⟨applications, some row⟩, .reactivate id status target) := by
            simp [ApplicationCall.step, ApplicationCall.afterEnsureBan, free, is_active]
          exact ⟨_, exec_cons rfl (exec_cons goes (exec_cons rfl rest))⟩
  · have closed := ApplicationStatus.deactivatesMember_iff.mp deactivates
    have begins : ApplicationCall.transition id status target = .cas id status target .nothing := by
      simp [ApplicationCall.transition, closed.2]
    have settles :
        (ApplicationCall.cas id status target .nothing).step ⟨applications, member⟩ true =
          some (⟨applications.update id fun _ => target, member⟩, .revokeSelect id target) := by
      simp [ApplicationCall.step, found, deactivates]
    rw [begins, outcome_eq_revoked deactivates]
    cases member with
    | none => exact ⟨_, exec_cons settles (exec_cons rfl exec_nil)⟩
    | some row =>
        by_cases revocable : row.revocable = true
        · have selects : (ApplicationCall.revokeSelect id target).step
              ⟨applications.update id fun _ => target, some row⟩ true =
                some (⟨applications.update id fun _ => target, some row⟩, .revoke id target) := by
            simp [ApplicationCall.step, revocable]
          simp only [revoked, Option.map_some, if_pos revocable]
          exact ⟨_, exec_cons settles (exec_cons selects (exec_cons rfl exec_nil))⟩
        · have selects : (ApplicationCall.revokeSelect id target).step
              ⟨applications.update id fun _ => target, some row⟩ true =
                some (⟨applications.update id fun _ => target, some row⟩, .done id target) := by
            simp [ApplicationCall.step, revocable]
          simp only [revoked, Option.map_some, if_neg revocable]
          exact ⟨_, exec_cons settles (exec_cons selects exec_nil)⟩

/-! ## One application -/

/-- The user has one application, which is pending, and the calls are about to start. -/
def onePending (member : Option Applicant) (calls : List ApplicationCall) :
    Pool ApplicantStore ApplicationCall :=
  ⟨⟨Table.empty.create .pending, member⟩, calls⟩

theorem of_onePending {member : Option Applicant} {calls : List ApplicationCall}
    (found : (onePending member calls).shared.applications.get? id = some status) :
    id = 0 ∧ status = .pending := by
  rw [onePending, Table.get?_create] at found
  split at found
  next same => exact ⟨same, Eq.symm (Option.some.inj found)⟩
  next => cases found

theorem started_onePending {member : Option Applicant} {calls : List ApplicationCall}
    (outside : ∀ row ∈ member, row.isActive = false ∧ row.orgRole = .recruit ∧ row.isBanned = false)
    (called : ∀ call ∈ calls, call.Fresh) : Started (onePending member calls) := by
  refine ⟨outside, fun id status found _ => (of_onePending found).2, ?_, called⟩
  intro earlier later status current at_earlier at_later _ _
  rw [(of_onePending at_earlier).1, (of_onePending at_later).1]

/-- The call of each turn; every statement on the other tables finds what it looks for. -/
def inOrder (processes : List ℕ) : List (Turn Bool) := processes.map fun process => ⟨process, true⟩

instance (member : Option Applicant) : Decidable (Active member) :=
  match member with
  | none => .isFalse not_active_none
  | some row => decidable_of_iff (row.isActive = true) active_some.symm

instance (call : ApplicationCall) (id : ℕ) : Decidable (call.Provides id) := by
  unfold ApplicationCall.Provides
  split <;> infer_instance

instance (call : ApplicationCall) (id : ℕ) : Decidable (call.Wrote id) := by
  unfold ApplicationCall.Wrote
  split <;> infer_instance

instance (store : ApplicantStore) (id : ℕ) : Decidable (store.OtherOpen id) :=
  inferInstanceAs (Decidable (∃ row ∈ store.applications.rows, _))

instance (pool : Pool ApplicantStore ApplicationCall) (call : ApplicationCall) :
    Decidable (call.Timely pool) := by
  unfold ApplicationCall.Timely
  split <;> infer_instance

instance (step : ApplicationStep) : Decidable step.Meets :=
  inferInstanceAs (Decidable (∀ call ∈ step.before.processes[step.event.process]?, _))

end ScuffedCrew.Applications
