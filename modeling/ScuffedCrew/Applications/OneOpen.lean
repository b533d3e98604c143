import Mathlib.Data.Finset.Card
import ScuffedCrew.Applications.Handlers

/-!
# One open application

Of two open applications the later one belongs to a submission that has yet to
count, and will take it back.  The applications that were there at the start are
never taken back, and those that were closed stay as they are.
-/

namespace ScuffedCrew.Applications

open Rust Database StateMachine

namespace ApplicationCall

/-- A handler writes a status only after it has checked the transition. -/
def Proper : ApplicationCall → Prop
  | withdrawActor _ status => status.Open
  | ensureSelect _ status target | ensureBan _ status target _ | reactivate _ status target
  | promote _ status target | findUser _ status target | createMember _ status target =>
      status.isValidTransition target = true ∧ target.ensuresMember = true
  | cas _ status target _ => status.isValidTransition target = true
  | _ => True

/-- The application that a submission has created and may yet take back. -/
def made : ApplicationCall → Option ℕ
  | submitCount id | submitDelete id => some id
  | _ => none

variable {store after : ApplicantStore} {call moved : ApplicationCall} {choice : Bool}
  {id : ℕ} {status target : ApplicationStatus}

theorem proper_transition (valid : status.isValidTransition target = true) :
    (transition id status target).Proper := by
  unfold transition
  split
  next ensures => exact ⟨valid, ensures⟩
  next => exact valid

theorem proper_afterActive {did : Provision} {member : Applicant}
    (valid : status.isValidTransition target = true) (ensures : target.ensuresMember = true) :
    (afterActive id status target did member).Proper := by
  unfold afterActive
  split
  · exact ⟨valid, ensures⟩
  · exact valid

theorem proper_of_step (proper : call.Proper)
    (taken : call.step store choice = some (after, moved)) :
    moved.Proper := by
  cases call with
  | updateSelect id target =>
      rcases Prod.mk.inj (Option.some.inj taken) with ⟨rfl, rfl⟩
      unfold afterUpdateSelect
      split
      · trivial
      · split
        next valid => exact proper_transition valid
        next => trivial
  | withdrawSelect =>
      rcases Prod.mk.inj (Option.some.inj taken) with ⟨rfl, rfl⟩
      unfold afterWithdrawSelect
      split
      · trivial
      next row found =>
        split
        next may =>
          show row.value.Open
          cases status : row.value <;> rw [status] at may <;> first | rfl | cases may
        next => trivial
  | withdrawActor id status =>
      rcases Prod.mk.inj (Option.some.inj taken) with ⟨rfl, rfl⟩
      apply proper_transition
      rcases ApplicationStatus.open_iff.mp proper with rfl | rfl <;> rfl
  | ensureSelect id status target =>
      simp only [step] at taken
      split at taken <;> rcases Prod.mk.inj (Option.some.inj taken) with ⟨rfl, rfl⟩ <;> exact proper
  | ensureBan id status target member =>
      rcases Prod.mk.inj (Option.some.inj taken) with ⟨rfl, rfl⟩
      unfold afterEnsureBan
      split
      · trivial
      · split
        · exact proper_afterActive proper.1 proper.2
        · exact proper
  | reactivate id status target =>
      rcases Prod.mk.inj (Option.some.inj taken) with ⟨rfl, rfl⟩
      unfold afterReactivate
      split
      · trivial
      · exact proper_afterActive proper.1 proper.2
  | promote id status target =>
      rcases Prod.mk.inj (Option.some.inj taken) with ⟨rfl, rfl⟩
      exact proper.1
  | findUser id status target =>
      simp only [step] at taken
      split at taken <;> rcases Prod.mk.inj (Option.some.inj taken) with ⟨rfl, rfl⟩
      · exact proper
      · trivial
  | createMember id status target =>
      simp only [step] at taken
      split at taken
      · split at taken <;> rcases Prod.mk.inj (Option.some.inj taken) with ⟨rfl, rfl⟩
        · exact proper.1
        · trivial
      · rcases Prod.mk.inj (Option.some.inj taken) with ⟨rfl, rfl⟩
        trivial
  | cas id status target did =>
      simp only [step] at taken
      split at taken <;> rcases Prod.mk.inj (Option.some.inj taken) with ⟨rfl, rfl⟩
      · split <;> trivial
      · trivial
  | casSelect id status =>
      rcases Prod.mk.inj (Option.some.inj taken) with ⟨rfl, rfl⟩
      unfold lost
      split <;> trivial
  | revokeSelect id target =>
      rcases Prod.mk.inj (Option.some.inj taken) with ⟨rfl, rfl⟩
      split <;> trivial
  | revoke id target =>
      rcases Prod.mk.inj (Option.some.inj taken) with ⟨rfl, rfl⟩
      trivial
  | submitSettings =>
      simp only [step] at taken
      split at taken <;> rcases Prod.mk.inj (Option.some.inj taken) with ⟨rfl, rfl⟩ <;> trivial
  | submitMember =>
      simp only [step] at taken
      split at taken <;> rcases Prod.mk.inj (Option.some.inj taken) with ⟨rfl, rfl⟩ <;> trivial
  | submitBan member =>
      rcases Prod.mk.inj (Option.some.inj taken) with ⟨rfl, rfl⟩
      unfold afterSubmitBan
      split
      · trivial
      · split <;> trivial
  | submitLatest =>
      rcases Prod.mk.inj (Option.some.inj taken) with ⟨rfl, rfl⟩
      unfold afterSubmitLatest
      split
      · trivial
      · split <;> trivial
  | submitCreate =>
      rcases Prod.mk.inj (Option.some.inj taken) with ⟨rfl, rfl⟩
      trivial
  | submitCount id =>
      rcases Prod.mk.inj (Option.some.inj taken) with ⟨rfl, rfl⟩
      split <;> trivial
  | submitDelete id =>
      rcases Prod.mk.inj (Option.some.inj taken) with ⟨rfl, rfl⟩
      trivial
  | returned answer => cases taken

/-- What a statement does to the applications. -/
inductive Files (store : ApplicantStore) (call : ApplicationCall) :
    Table ApplicationStatus → ApplicationCall → Prop
  | same {moved : ApplicationCall} (made : moved.made = none ∨ moved.made = call.made)
      (keeps : 1 < store.countOpen → moved.made = call.made) :
      Files store call store.applications moved
  | settle {id : ℕ} {status target : ApplicationStatus} {moved : ApplicationCall}
      (valid : status.isValidTransition target = true)
      (current : store.applications.get? id = some status) (unmade : call.made = none)
      (made : moved.made = none) :
      Files store call (store.applications.update id fun _ => target) moved
  | create (unmade : call.made = none) : Files store call (store.applications.create .pending)
      (submitCount store.applications.nextId)
  | delete {id : ℕ} {moved : ApplicationCall} (made : call.made = some id)
      (unmade : moved.made = none) :
      Files store call (store.applications.deleteWhere fun row => row.id == id) moved

theorem Files.of_unmade (unmade : call.made = none) (made : moved.made = none) :
    Files store call store.applications moved :=
  .same (.inl made) fun _ => by rw [unmade, made]

theorem made_transition : (transition id status target).made = none := by
  unfold transition
  split <;> rfl

theorem made_afterActive {did : Provision} {member : Applicant} :
    (afterActive id status target did member).made = none := by
  unfold afterActive
  split <;> rfl

theorem files_of_step (proper : call.Proper)
    (taken : call.step store choice = some (after, moved)) :
    Files store call after.applications moved := by
  cases call with
  | updateSelect id target =>
      rcases Prod.mk.inj (Option.some.inj taken) with ⟨rfl, rfl⟩
      apply Files.of_unmade rfl
      unfold afterUpdateSelect
      split
      · rfl
      · split
        · exact made_transition
        · rfl
  | withdrawSelect =>
      rcases Prod.mk.inj (Option.some.inj taken) with ⟨rfl, rfl⟩
      apply Files.of_unmade rfl
      unfold afterWithdrawSelect
      split
      · rfl
      · split <;> rfl
  | withdrawActor id status =>
      rcases Prod.mk.inj (Option.some.inj taken) with ⟨rfl, rfl⟩
      exact .of_unmade rfl made_transition
  | ensureSelect id status target =>
      simp only [step] at taken
      split at taken <;> rcases Prod.mk.inj (Option.some.inj taken) with ⟨rfl, rfl⟩ <;>
        exact .of_unmade rfl rfl
  | ensureBan id status target member =>
      rcases Prod.mk.inj (Option.some.inj taken) with ⟨rfl, rfl⟩
      apply Files.of_unmade rfl
      unfold afterEnsureBan
      split
      · rfl
      · split
        · exact made_afterActive
        · rfl
  | reactivate id status target =>
      rcases Prod.mk.inj (Option.some.inj taken) with ⟨rfl, rfl⟩
      apply Files.of_unmade rfl
      unfold afterReactivate
      split
      · rfl
      · exact made_afterActive
  | promote id status target =>
      rcases Prod.mk.inj (Option.some.inj taken) with ⟨rfl, rfl⟩
      exact .of_unmade rfl rfl
  | findUser id status target =>
      simp only [step] at taken
      split at taken <;> rcases Prod.mk.inj (Option.some.inj taken) with ⟨rfl, rfl⟩ <;>
        exact .of_unmade rfl rfl
  | createMember id status target =>
      simp only [step] at taken
      split at taken
      · split at taken <;> rcases Prod.mk.inj (Option.some.inj taken) with ⟨rfl, rfl⟩ <;>
          exact .of_unmade rfl rfl
      · rcases Prod.mk.inj (Option.some.inj taken) with ⟨rfl, rfl⟩
        exact .of_unmade rfl rfl
  | cas id status target did =>
      simp only [step] at taken
      split at taken <;> rcases Prod.mk.inj (Option.some.inj taken) with ⟨rfl, rfl⟩
      next current =>
        apply Files.settle proper current rfl
        split <;> rfl
      next => exact .of_unmade rfl rfl
  | casSelect id status =>
      rcases Prod.mk.inj (Option.some.inj taken) with ⟨rfl, rfl⟩
      apply Files.of_unmade rfl
      unfold lost
      split <;> rfl
  | revokeSelect id target =>
      rcases Prod.mk.inj (Option.some.inj taken) with ⟨rfl, rfl⟩
      apply Files.of_unmade rfl
      split <;> rfl
  | revoke id target =>
      rcases Prod.mk.inj (Option.some.inj taken) with ⟨rfl, rfl⟩
      exact .of_unmade rfl rfl
  | submitSettings =>
      simp only [step] at taken
      split at taken <;> rcases Prod.mk.inj (Option.some.inj taken) with ⟨rfl, rfl⟩ <;>
        exact .of_unmade rfl rfl
  | submitMember =>
      simp only [step] at taken
      split at taken <;> rcases Prod.mk.inj (Option.some.inj taken) with ⟨rfl, rfl⟩ <;>
        exact .of_unmade rfl rfl
  | submitBan member =>
      rcases Prod.mk.inj (Option.some.inj taken) with ⟨rfl, rfl⟩
      apply Files.of_unmade rfl
      unfold afterSubmitBan
      split
      · rfl
      · split <;> rfl
  | submitLatest =>
      rcases Prod.mk.inj (Option.some.inj taken) with ⟨rfl, rfl⟩
      apply Files.of_unmade rfl
      unfold afterSubmitLatest
      split
      · rfl
      · split <;> rfl
  | submitCreate =>
      rcases Prod.mk.inj (Option.some.inj taken) with ⟨rfl, rfl⟩
      exact .create rfl
  | submitCount id =>
      rcases Prod.mk.inj (Option.some.inj taken) with ⟨rfl, rfl⟩
      apply Files.same
      · split
        · exact .inr rfl
        · exact .inl rfl
      · intro several
        rw [if_pos several]
        rfl
  | submitDelete id =>
      rcases Prod.mk.inj (Option.some.inj taken) with ⟨rfl, rfl⟩
      exact .delete rfl rfl
  | returned answer => cases taken

end ApplicationCall

/-! ## The applications along a run -/

/-- The applications, the ones at the start, and the submissions that may take one back. -/
structure Filed (first : Table ApplicationStatus) (pool : Pool ApplicantStore ApplicationCall) :
    Prop where
  proper : ∀ call ∈ pool.processes, call.Proper
  grown : first.nextId ≤ pool.shared.applications.nextId
  made : ∀ call ∈ pool.processes, ∀ id, call.made = some id → first.nextId ≤ id
  stays : ∀ id status, first.get? id = some status →
    ∃ current, pool.shared.applications.get? id = some current ∧ (¬status.Open → current = status)
  absent : ∀ id, id < first.nextId → first.get? id = none → pool.shared.applications.get? id = none
  one : ∀ (earlier later : ℕ) (status current : ApplicationStatus), earlier < later →
    pool.shared.applications.get? earlier = some status →
      pool.shared.applications.get? later = some current → status.Open → current.Open →
        ∃ call ∈ pool.processes, call.made = some later

namespace ApplicantStore

variable {store : ApplicantStore} {earlier later : ℕ} {status current : ApplicationStatus}

/-- Two open applications are counted. -/
theorem one_lt_countOpen (differ : earlier ≠ later)
    (first : store.applications.get? earlier = some status) (opened : status.Open)
    (second : store.applications.get? later = some current) (opened' : current.Open) :
    1 < store.countOpen := by
  have member : ∀ {id : ℕ} {status : ApplicationStatus},
      store.applications.get? id = some status → status.Open →
        (⟨id, status⟩ : Record ApplicationStatus) ∈
          store.applications.rows.filter fun row => row.value.blocksResubmit := by
    intro id status found opened
    exact List.mem_filter.mpr ⟨Table.get?_eq_some_iff.mp found, opened⟩
  rw [countOpen, ← List.toFinset_card_of_nodup
    ((List.Nodup.of_map _ store.applications.distinct).filter _), Finset.one_lt_card]
  refine ⟨⟨earlier, status⟩, List.mem_toFinset.mpr (member first opened), ⟨later, current⟩,
    List.mem_toFinset.mpr (member second opened'), ?_⟩
  intro same
  exact differ (congrArg Record.id same)

end ApplicantStore

variable {first : Table ApplicationStatus} {pool next : Pool ApplicantStore ApplicationCall}
  {turn : Turn Bool}

theorem Filed.atStart (called : ∀ call ∈ pool.processes, call.Fresh)
    (single : ∀ (earlier later : ℕ) (status current : ApplicationStatus),
      pool.shared.applications.get? earlier = some status →
        pool.shared.applications.get? later = some current → status.Open → current.Open →
          earlier = later) : Filed pool.shared.applications pool := by
  refine ⟨?_, Nat.le_refl _, ?_, fun id status found => ⟨status, found, fun _ => rfl⟩,
    fun id _ absent => absent, ?_⟩
  · intro call call_mem
    have fresh := called call call_mem
    cases call <;> trivial
  · intro call call_mem id made
    have fresh := called call call_mem
    cases call <;> first | exact absurd fresh (fun no => no) | cases made
  · intro earlier later status current before found found' opened opened'
    exact absurd (single earlier later status current found found' opened opened')
      (Nat.ne_of_lt before)

/-- A call that may take an application back is still there after the turn of another one. -/
theorem made_stays {shared : ApplicantStore} {call moved : ApplicationCall} {id : ℕ}
    (found : pool.processes[turn.process]? = some call)
    (kept : call.made = some id → moved.made = some id)
    (some_made : ∃ other ∈ pool.processes, other.made = some id) :
    ∃ other ∈ (⟨shared, pool.processes.set turn.process moved⟩ :
      Pool ApplicantStore ApplicationCall).processes, other.made = some id := by
  rcases some_made with ⟨other, other_mem, made⟩
  rcases List.getElem?_of_mem other_mem with ⟨position, at_position⟩
  by_cases same : position = turn.process
  · rw [same, found] at at_position
    rcases Option.some.inj at_position with rfl
    exact ⟨moved, List.mem_of_getElem? (Pool.moved_at found), kept made⟩
  · exact ⟨other, List.mem_of_getElem? (Eq.trans (Pool.others_stay same) at_position), made⟩

theorem Filed.step (filed : Filed first pool)
    (taken : concurrentApplications.next pool turn = some next) : Filed first next := by
  rcases interleaving_next_eq_some.mp taken with ⟨call, shared, moved, found, stepped, rfl⟩
  have call_mem := List.mem_of_getElem? found
  have files := ApplicationCall.files_of_step (filed.proper call call_mem) stepped
  have proper : ∀ other ∈ pool.processes.set turn.process moved, other.Proper := by
    intro other other_mem
    rcases List.mem_or_eq_of_mem_set other_mem with old | rfl
    · exact filed.proper other old
    · exact ApplicationCall.proper_of_step (filed.proper call call_mem) stepped
  have made : (∀ id, moved.made = some id → first.nextId ≤ id) →
      ∀ other ∈ pool.processes.set turn.process moved, ∀ id, other.made = some id →
        first.nextId ≤ id := by
    intro mine other other_mem
    rcases List.mem_or_eq_of_mem_set other_mem with old | rfl
    · exact filed.made other old
    · exact mine
  clear stepped
  obtain ⟨table, same⟩ : ∃ table, shared.applications = table := ⟨_, rfl⟩
  rw [same] at files
  cases files with
  | same copied keeps =>
      refine ⟨proper, ?_, made ?_, ?_, ?_, ?_⟩
      · rw [same]
        exact filed.grown
      · intro id made
        rcases copied with none | old
        · rw [none] at made
          cases made
        · exact filed.made call call_mem id (Eq.trans (Eq.symm old) made)
      · rw [same]
        exact filed.stays
      · rw [same]
        exact filed.absent
      · rw [same]
        intro earlier later status current before at_earlier at_later opened opened'
        apply made_stays found
        · intro made
          rw [keeps (ApplicantStore.one_lt_countOpen (Nat.ne_of_lt before) at_earlier opened
            at_later opened'), made]
        · exact filed.one earlier later status current before at_earlier at_later opened opened'
  | @settle id status target _ valid current unmade moved_made =>
      have was : ∀ {other : ℕ} {now : ApplicationStatus},
          (pool.shared.applications.update id fun _ => target).get? other = some now →
            now.Open → ∃ old, pool.shared.applications.get? other = some old ∧ old.Open := by
        intro other now at_other opened
        rcases Table.get?_of_update at_other with ⟨old, at_old, ⟨rfl, -⟩ | rfl⟩
        · rw [current] at at_old
          rcases Option.some.inj at_old with rfl
          exact ⟨status, current, ApplicationStatus.open_of_isValidTransition valid⟩
        · exact ⟨_, at_old, opened⟩
      refine ⟨proper, ?_, made ?_, ?_, ?_, ?_⟩
      · rw [same]
        exact filed.grown
      · intro id made
        rw [moved_made] at made
        cases made
      · intro other old at_first
        rcases filed.stays other old at_first with ⟨now, at_now, kept⟩
        rw [same, Table.get?_update]
        split
        next is_id =>
          refine ⟨target, by rw [at_now]; rfl, ?_⟩
          intro closed
          rw [is_id, current] at at_now
          rcases Option.some.inj at_now with rfl
          rw [kept closed] at valid
          exact absurd (ApplicationStatus.open_of_isValidTransition valid) closed
        next => exact ⟨now, at_now, kept⟩
      · intro other small absent
        rw [same, Table.get?_update, filed.absent other small absent]
        split <;> rfl
      · rw [same]
        intro earlier later status' current' before at_earlier at_later opened opened'
        rcases was at_earlier opened with ⟨old, at_earlier, opened⟩
        rcases was at_later opened' with ⟨old', at_later, opened'⟩
        apply made_stays found
        · intro made
          rw [unmade] at made
          cases made
        · exact filed.one earlier later old old' before at_earlier at_later opened opened'
  | create unmade =>
      refine ⟨proper, ?_, made ?_, ?_, ?_, ?_⟩
      · rw [same]
        exact Nat.le_succ_of_le filed.grown
      · intro id made
        rcases Option.some.inj made with rfl
        exact filed.grown
      · intro other old at_first
        rcases filed.stays other old at_first with ⟨now, at_now, kept⟩
        rw [same, Table.get?_create, if_neg (Nat.ne_of_lt (Table.lt_nextId_of_get? at_now))]
        exact ⟨now, at_now, kept⟩
      · intro other small absent
        rw [same, Table.get?_create, if_neg (Nat.ne_of_lt (Nat.lt_of_lt_of_le small filed.grown))]
        exact filed.absent other small absent
      · rw [same]
        intro earlier later status current before at_earlier at_later opened opened'
        rw [Table.get?_create] at at_earlier at_later
        by_cases new : later = pool.shared.applications.nextId
        · exact ⟨_, List.mem_of_getElem? (Pool.moved_at found), by rw [new]; rfl⟩
        · rw [if_neg new] at at_later
          have small := Table.lt_nextId_of_get? at_later
          rw [if_neg (Nat.ne_of_lt (Nat.lt_trans before small))] at at_earlier
          apply made_stays found
          · intro made
            rw [unmade] at made
            cases made
          · exact filed.one earlier later status current before at_earlier at_later opened opened'
  | @delete id _ call_made moved_made =>
      have old := filed.made call call_mem id call_made
      refine ⟨proper, ?_, made ?_, ?_, ?_, ?_⟩
      · rw [same]
        exact filed.grown
      · intro id made
        rw [moved_made] at made
        cases made
      · intro other status at_first
        rcases filed.stays other status at_first with ⟨now, at_now, kept⟩
        refine ⟨now, ?_, kept⟩
        have differs : other ≠ id := Nat.ne_of_lt
          (Nat.lt_of_lt_of_le (Table.lt_nextId_of_get? at_first) old)
        simp [same, Table.get?_deleteWhere, at_now, differs]
      · intro other small absent
        simp [same, Table.get?_deleteWhere, filed.absent other small absent]
      · rw [same]
        intro earlier later status current before at_earlier at_later opened opened'
        have differs : later ≠ id := by
          rintro rfl
          simp [Table.get?_deleteWhere] at at_later
        apply made_stays found
        · intro made
          rw [call_made] at made
          exact absurd (Eq.symm (Option.some.inj made)) differs
        · exact filed.one earlier later status current before (Table.get?_of_deleteWhere at_earlier)
            (Table.get?_of_deleteWhere at_later) opened opened'

end ScuffedCrew.Applications
