import ScuffedCrew.Packs.Tries
import ScuffedCrew.StateMachine.Progress

/-!
# One bad pack and the others

A pack the site lists and serves as listed, while the downloads of the other
packs fail in any way that concerns them alone.  The job's kept list is followed
until it is too old; from then on a paced job asks for one pack a try, and what
is left open before the pack only shrinks.
-/

namespace ScuffedCrew.Packs

open Rust StateMachine

/-- The site's list, and a pack it has an entry for. -/
structure Offer where
  serverUrl : Text
  entries : List PackListEntry
  before : List PackSpec
  spec : PackSpec
  after : List PackSpec
  entry : PackListEntry
  split : packs = before ++ spec :: after
  selected : selectPack entries spec = .ok entry

namespace Offer

variable {unpacking : Unpacking} {jitter : Duration} {offer : Offer}

theorem spec_mem : offer.spec ∈ packs := by simp [offer.split]

theorem name_ne_of_before {other : PackSpec} (other_mem : other ∈ offer.before) :
    other.name ≠ offer.spec.name := by
  have distinct := nodup_packs
  simp only [offer.split, List.map_append, List.map_cons, List.nodup_append, List.mem_map,
    List.mem_cons] at distinct
  exact distinct.2.2 _ ⟨other, other_mem, rfl⟩ _ (.inl rfl)

theorem eq_of_name {other : PackSpec} (other_mem : other ∈ packs)
    (same : other.name = offer.spec.name) : other = offer.spec :=
  List.inj_on_of_nodup_map nodup_packs other_mem spec_mem same

/-- A try with the credentials in place and the site answering with its list,
and to a download with what concerns that pack alone. -/
structure Answered (offer : Offer) (env : TryEnv) : Prop where
  credentials : env.credentials = some offer.serverUrl
  access : env.access.refusal = none
  list : env.server.list = .ok offer.entries
  answers : ∀ name, (env.server.pack name).perPack = true

/-- The pack is served as listed.  A paced job gets the packs before it as
bytes, right or wrong, or refused for good. -/
structure Fair (offer : Offer) (unpacking : Unpacking) (paced : Bool) (env : TryEnv) : Prop
    extends offer.Answered env where
  served : ∃ body manifestSha256, env.server.pack offer.spec.name = .ok body ∧
    unpacking.installPack offer.spec offer.entry body = .ok manifestSha256
  lasting : paced = true → ∀ other ∈ offer.before, (env.server.pack other.name).lasting = true

/-- The pack is in place with its listed version. -/
def current (offer : Offer) (disk : Disk) : Bool := isCurrent disk offer.spec offer.entry

/-- The pack's own entry is not among the refused. -/
def unrefused (offer : Offer) (refused : Refused) : Prop := knownRefusal refused offer.entry = none

/-- The job has no list, or the site's. -/
def Known (offer : Offer) (keeper : PackKeeper) : Prop :=
  ∀ kept, keeper.list = some kept → kept.entries = offer.entries

/-! ## The loop and the pack -/

theorem syncOne_served {paced : Bool} {env : TryEnv} (fair : offer.Fair unpacking paced env) :
    ∃ manifestSha256,
      unpacking.syncOne env.server offer.spec offer.entry = .installed manifestSha256 := by
  rcases fair.served with ⟨body, manifestSha256, answered, installed⟩
  exact ⟨manifestSha256, by simp [Unpacking.syncOne, answered, installed]⟩

theorem accepted_of_fair {paced : Bool} {env : TryEnv} (fair : offer.Fair unpacking paced env)
    (refusal : FixedRefusal) :
    unpacking.syncOne env.server offer.spec offer.entry ≠ .done (.fixed refusal) := by
  rcases syncOne_served fair with ⟨manifestSha256, arrived⟩
  simp [arrived]

section loop

variable {server : Server} {entries : List PackListEntry} {refused : Refused} {loop : Loop}
  {spec : PackSpec}

/-- A pack that is in place stays so while the site's list is followed. -/
theorem current_visit (placed : offer.current loop.disk = true) (spec_mem : spec ∈ packs) :
    offer.current (loop.visit unpacking server offer.entries refused spec).disk = true := by
  rcases Loop.visit_changes unpacking server offer.entries refused loop spec with
    ⟨same, -⟩ | ⟨entry, wanted, ⟨manifestSha256, installed, -⟩ | ⟨refusal, -, same, -⟩⟩
  · rwa [same]
  · have different : spec.name ≠ offer.spec.name := by
      intro same
      rcases offer.eq_of_name spec_mem same with rfl
      rcases wants_eq_some.mp wanted with ⟨selected, absent, -⟩
      rcases Except.ok.inj (offer.selected.symm.trans selected) with rfl
      simp [current, absent] at placed
    rwa [installed, current, isCurrent_install entry.version manifestSha256 different]
  · rwa [same]

theorem current_foldl {specs : List PackSpec} (placed : offer.current loop.disk = true)
    (specs_mem : ∀ spec ∈ specs, spec ∈ packs) :
    offer.current (specs.foldl (Loop.visit unpacking server offer.entries refused) loop).disk =
      true := by
  induction specs generalizing loop with
  | nil => exact placed
  | cons spec specs ih =>
      rw [List.foldl_cons]
      refine ih (current_visit placed (specs_mem spec List.mem_cons_self)) ?_
      exact fun other other_mem => specs_mem other (List.mem_cons_of_mem _ other_mem)

/-- The pack's own entry is not refused in a run that does not refuse its download. -/
theorem refused_foldl {specs : List PackSpec}
    (accepted : ∀ refusal, unpacking.syncOne server offer.spec offer.entry ≠ .done (.fixed refusal))
    (specs_mem : ∀ spec ∈ specs, spec ∈ packs)
    (others : ∀ was ∈ loop.refused, was.1 ≠ offer.entry) :
    ∀ was ∈ (specs.foldl (Loop.visit unpacking server entries refused) loop).refused,
      was.1 ≠ offer.entry := by
  induction specs generalizing loop with
  | nil => exact others
  | cons spec specs ih =>
      rw [List.foldl_cons]
      refine ih (fun other other_mem => specs_mem other (List.mem_cons_of_mem _ other_mem)) ?_
      rcases Loop.visit_changes unpacking server entries refused loop spec with
        ⟨-, same⟩ | ⟨entry, wanted, ⟨manifestSha256, -, same⟩ | ⟨refusal, came, -, added⟩⟩
      · rwa [same]
      · rwa [same]
      · rw [added]
        intro was was_mem
        rcases List.mem_append.mp was_mem with earlier | last
        · exact others was earlier
        · rcases List.mem_singleton.mp last with rfl
          rintro rfl
          have named := name_of_selectPack (wants_eq_some.mp wanted).1
          rw [name_of_selectPack offer.selected] at named
          rcases offer.eq_of_name (specs_mem spec List.mem_cons_self) named.symm with rfl
          exact accepted refusal came

/-- Without a budget the pack arrives in the run that lists it. -/
theorem current_of_unpaced {paced : Bool} {env : TryEnv} (fair : offer.Fair unpacking paced env)
    {disk : Disk} (unrefused : offer.unrefused refused) :
    offer.current (runLoop unpacking env.server disk packs offer.entries none refused).disk =
      true := by
  have later_mem : ∀ other ∈ offer.after, other ∈ packs := by
    intro other other_mem
    simp [offer.split, other_mem]
  rw [runLoop, offer.split, List.foldl_append, List.foldl_cons]
  apply current_foldl _ later_mem
  generalize reached : offer.before.foldl (Loop.visit unpacking env.server offer.entries refused)
    (.begin disk none) = loop
  have going : loop.stopped = none := by
    rw [← reached]
    exact (Loop.clean_foldl _ (Loop.clean_begin disk none) fair.answers).going
  have unlimited : loop.requestsLeft = none := by
    rw [← reached]
    exact Loop.unlimited_foldl _ rfl
  cases placed : offer.current loop.disk with
  | true => exact current_visit placed spec_mem
  | false =>
      have wanted : wants loop.disk refused offer.entries offer.spec = some offer.entry :=
        wants_eq_some.mpr ⟨offer.selected, placed, unrefused⟩
      rcases syncOne_served fair with ⟨manifestSha256, arrived⟩
      rw [Loop.visit_of_wanted wanted going, unlimited]
      simp only [takeRequest, arrived]
      exact isCurrent_install_self manifestSha256

end loop

/-! ## One try of the job -/

section attempt

variable {keeper : PackKeeper} {paced : Bool} {env : TryEnv}

/-- The list a try follows. -/
def listFor (offer : Offer) (keeper : PackKeeper) : KeptList :=
  (keeper.usable offer.serverUrl).getD ⟨offer.serverUrl, offer.entries, 0⟩

/-- The downloads a try may make. -/
def budget (offer : Offer) (keeper : PackKeeper) : Option ℕ :=
  if keeper.paced then some (if (keeper.usable offer.serverUrl).isSome then 1 else 0) else none

/-- The loop of a try. -/
def loopOf (offer : Offer) (unpacking : Unpacking) (env : TryEnv) (keeper : PackKeeper) : Loop :=
  runLoop unpacking env.server keeper.disk packs (offer.listFor keeper).entries
    (offer.budget keeper) keeper.refused

theorem serverUrl_listFor : (offer.listFor keeper).serverUrl = offer.serverUrl := by
  unfold listFor
  cases found : keeper.usable offer.serverUrl with
  | none => rfl
  | some kept =>
      simp only [PackKeeper.usable, Option.filter_eq_some_iff, Bool.and_eq_true,
        decide_eq_true_eq] at found
      exact found.2.1

theorem clean_loopOf (answered : offer.Answered env) :
    (offer.loopOf unpacking env keeper).Clean :=
  Loop.clean_foldl _ (Loop.clean_begin _ _) answered.answers

theorem attempt_of_answered (answered : offer.Answered env) :
    keeper.attempt unpacking env .all =
      (⟨(offer.loopOf unpacking env keeper).report, (offer.loopOf unpacking env keeper).heldBack⟩,
        ⟨(offer.loopOf unpacking env keeper).disk,
          if (offer.loopOf unpacking env keeper).stale then none else some (offer.listFor keeper),
          learnt keeper.refused (offer.loopOf unpacking env keeper).refused, keeper.paced⟩) := by
  have clean := @clean_loopOf unpacking offer keeper env answered
  have unlimited := clean.unlimited
  have url := @serverUrl_listFor offer keeper
  unfold loopOf budget listFor at *
  unfold PackKeeper.attempt
  cases found : keeper.usable offer.serverUrl with
  | none =>
      cases limit : keeper.paced <;>
        simp_all [runSync, answered.credentials, answered.access, answered.list, PackKeeper.plan,
          PackKeeper.learn, takeRequest, Scope.specs, learnt]
  | some kept =>
      rcases kept with ⟨serverUrl, entries, age⟩
      cases limit : keeper.paced <;>
        simp_all [runSync, answered.credentials, answered.access, PackKeeper.plan,
          PackKeeper.learn, Scope.specs, learnt]

/-- The pack's own entry stays out of what is refused. -/
theorem unrefused_attempt (answered : offer.Answered env)
    (accepted : ∀ refusal,
      unpacking.syncOne env.server offer.spec offer.entry ≠ .done (.fixed refusal))
    (unrefused : offer.unrefused keeper.refused) :
    offer.unrefused (keeper.attempt unpacking env .all).2.refused := by
  rw [attempt_of_answered answered]
  have others := @refused_foldl unpacking offer env.server (offer.listFor keeper).entries
    keeper.refused (.begin keeper.disk (offer.budget keeper)) packs accepted (fun _ => id)
    (by simp [Loop.begin])
  exact knownRefusal_learnt others unrefused

theorem known_attempt (answered : offer.Answered env)
    (follows : (offer.listFor keeper).entries = offer.entries) :
    offer.Known (keeper.attempt unpacking env .all).2 := by
  rw [attempt_of_answered answered]
  intro kept listed
  dsimp only at listed
  split_ifs at listed
  rcases Option.some.inj listed with rfl
  exact follows

theorem paced_attempt (answered : offer.Answered env) :
    (keeper.attempt unpacking env .all).2.paced = keeper.paced := by
  rw [attempt_of_answered answered]

/-- A pack in place stays so, and a job that is not paced brings it. -/
theorem current_attempt (fair : offer.Fair unpacking paced env)
    (follows : (offer.listFor keeper).entries = offer.entries)
    (unrefused : offer.unrefused keeper.refused)
    (here : offer.current keeper.disk = true ∨ keeper.paced = false) :
    offer.current (keeper.attempt unpacking env .all).2.disk = true := by
  rw [attempt_of_answered fair.toAnswered]
  dsimp only [loopOf]
  rw [follows]
  rcases here with placed | unlimited
  · exact current_foldl placed fun _ => id
  · simp only [budget, unlimited, Bool.false_eq_true, if_false]
    exact current_of_unpaced fair unrefused

/-- What is left open before the pack. -/
def openBefore (offer : Offer) (disk : Disk) (refused : Refused) : ℕ :=
  offer.before.countP fun other => (wants disk refused offer.entries other).isSome

theorem wants_of_install {disk : Disk} {refused : Refused} {entries : List PackListEntry}
    {spec other : PackSpec} {entry listed : PackListEntry} {manifestSha256 : Text}
    (wanted : wants disk refused entries spec = some entry) (spec_mem : spec ∈ packs)
    (other_mem : other ∈ packs)
    (still : wants (disk.install spec entry.version manifestSha256) refused entries other =
      some listed) : other ≠ spec ∧ wants disk refused entries other = some listed := by
  rcases wants_eq_some.mp still with ⟨selected, absent, unknown⟩
  have different : other ≠ spec := by
    rintro rfl
    rcases Except.ok.inj ((wants_eq_some.mp wanted).1.symm.trans selected) with rfl
    rw [isCurrent_install_self] at absent
    cases absent
  have names : spec.name ≠ other.name := fun same =>
    different (List.inj_on_of_nodup_map nodup_packs spec_mem other_mem same).symm
  rw [isCurrent_install entry.version manifestSha256 names] at absent
  exact ⟨different, wants_eq_some.mpr ⟨selected, absent, unknown⟩⟩

theorem wants_of_refusal {disk : Disk} {refused : Refused} {entries : List PackListEntry}
    {spec other : PackSpec} {entry listed : PackListEntry} {refusal : FixedRefusal}
    (wanted : wants disk refused entries spec = some entry) (spec_mem : spec ∈ packs)
    (other_mem : other ∈ packs)
    (still : wants disk (learnt refused [(entry, refusal)]) entries other = some listed) :
    other ≠ spec ∧ wants disk refused entries other = some listed := by
  rcases wants_eq_some.mp still with ⟨selected, absent, unknown⟩
  have listed_name := name_of_selectPack selected
  have entry_name := name_of_selectPack (wants_eq_some.mp wanted).1
  have different : other ≠ spec := by
    rintro rfl
    rcases Except.ok.inj ((wants_eq_some.mp wanted).1.symm.trans selected) with rfl
    simp only [learnt, List.foldl_cons, List.foldl_nil] at unknown
    rw [knownRefusal_insert_self] at unknown
    cases unknown
  have names : listed.name ≠ entry.name := by
    rw [listed_name, entry_name]
    exact fun same => different (List.inj_on_of_nodup_map nodup_packs other_mem spec_mem same)
  simp only [learnt, List.foldl_cons, List.foldl_nil, knownRefusal_insert_of_name names] at unknown
  exact ⟨different, wants_eq_some.mpr ⟨selected, absent, unknown⟩⟩

/-- The first wanted pack is this one, or one before it. -/
theorem mem_before {earlier later : List PackSpec} {spec : PackSpec}
    (split : packs = earlier ++ spec :: later) (passed : offer.spec ∉ earlier)
    (different : spec ≠ offer.spec) : spec ∈ offer.before ∧ offer.spec ∈ later := by
  have both := split.symm.trans offer.split
  rcases List.append_eq_append_iff.mp both with ⟨front, before_eq, rest⟩ | ⟨front, earlier_eq, rest⟩
  · rcases List.cons_eq_append_iff.mp rest with ⟨rfl, same⟩ | ⟨tail, rfl, later_eq⟩
    · exact absurd (List.cons.inj same).1.symm different
    · exact ⟨by simp [before_eq], by simp [later_eq]⟩
  · rcases List.cons_eq_append_iff.mp rest with ⟨rfl, same⟩ | ⟨tail, rfl, -⟩
    · exact absurd (List.cons.inj same).1 different
    · exact absurd (by simp [earlier_eq]) passed

theorem openBefore_lt {disk disk' : Disk} {refused refused' : Refused} {spec : PackSpec}
    {entry : PackListEntry} (spec_before : spec ∈ offer.before)
    (wanted : wants disk refused offer.entries spec = some entry)
    (fewer : ∀ other ∈ packs, ∀ listed, wants disk' refused' offer.entries other = some listed →
      other ≠ spec ∧ wants disk refused offer.entries other = some listed) :
    offer.openBefore disk' refused' < offer.openBefore disk refused := by
  have in_packs : ∀ other ∈ offer.before, other ∈ packs := by
    intro other other_mem
    simp [offer.split, other_mem]
  have still_open : ∀ other ∈ offer.before,
      (wants disk' refused' offer.entries other).isSome = true →
        (wants disk refused offer.entries other).isSome = true := by
    intro other other_mem is_open
    rcases Option.isSome_iff_exists.mp is_open with ⟨listed, still⟩
    simp [(fewer other (in_packs other other_mem) listed still).2]
  have closed : wants disk' refused' offer.entries spec = none := by
    rw [Option.eq_none_iff_forall_ne_some]
    intro listed still
    exact (fewer spec (in_packs spec spec_before) listed still).1 rfl
  unfold openBefore
  rcases List.append_of_mem spec_before with ⟨first, last, split⟩
  rw [split] at still_open ⊢
  have front := List.countP_mono_left (l := first)
    fun other other_mem => still_open other (by simp [other_mem])
  have back := List.countP_mono_left (l := last)
    fun other other_mem => still_open other (by simp [other_mem])
  simp only [List.countP_append, List.countP_cons, closed, wanted, Option.isSome_none,
    Option.isSome_some, Bool.false_eq_true, if_false, if_true]
  omega

/-- A paced try that reads the list again changes nothing else. -/
theorem attempt_of_read (answered : offer.Answered env) (limit : keeper.paced = true)
    (unread : keeper.usable offer.serverUrl = none) (unrefused : offer.unrefused keeper.refused)
    (absent : offer.current keeper.disk = false) :
    let tried := keeper.attempt unpacking env .all
    0 < tried.1.heldBack ∧ (∀ status ∈ tried.1.report, status.outcome.Quiet) ∧
      tried.2.disk = keeper.disk ∧ tried.2.refused = keeper.refused ∧
      tried.2.list = some ⟨offer.serverUrl, offer.entries, 0⟩ := by
  have list_eq : offer.listFor keeper = ⟨offer.serverUrl, offer.entries, 0⟩ := by
    simp [listFor, unread]
  have spent : offer.budget keeper = some 0 := by simp [budget, limit, unread]
  have loop_eq : offer.loopOf unpacking env keeper = packs.foldl
      (Loop.visit unpacking env.server offer.entries keeper.refused)
      (.begin keeper.disk (some 0)) := by
    simp only [loopOf, runLoop, list_eq, spent]
  have idle : Loop.Idle (.begin keeper.disk (some 0)) (offer.loopOf unpacking env keeper) := by
    rw [loop_eq]
    exact Loop.idle_foldl_of_spent packs rfl rfl
  have wanted : wants keeper.disk keeper.refused offer.entries offer.spec = some offer.entry :=
    wants_eq_some.mpr ⟨offer.selected, absent, unrefused⟩
  have held : 0 < (offer.loopOf unpacking env keeper).heldBack := by
    rw [loop_eq]
    exact Loop.held_of_spent rfl rfl spec_mem wanted
  have fresh : (offer.loopOf unpacking env keeper).stale = false := idle.stale
  have nothing : (offer.loopOf unpacking env keeper).refused = [] := idle.refused
  rw [attempt_of_answered answered]
  refine ⟨held, idle.quiet (by simp [Loop.begin]), idle.disk, ?_, ?_⟩
  · simp [nothing, learnt]
  · simp [fresh, list_eq]

/-- The rest of a run whose budget is spent leaves the pack for the next try. -/
theorem rest_of_spent {server : Server} {refused : Refused} {loop : Loop} {later : List PackSpec}
    (spent : loop.requestsLeft = some 0) (going : loop.stopped = none)
    (quiet : ∀ status ∈ loop.report, status.outcome.Quiet) (later_mem : offer.spec ∈ later)
    (wanted : wants loop.disk refused offer.entries offer.spec = some offer.entry) :
    let rest := later.foldl (Loop.visit unpacking server offer.entries refused) loop
    0 < rest.heldBack ∧ (∀ status ∈ rest.report, status.outcome.Quiet) ∧
      rest.disk = loop.disk ∧ rest.refused = loop.refused := by
  have idle := @Loop.idle_foldl_of_spent unpacking server offer.entries refused loop later
    spent going
  exact ⟨Loop.held_of_spent spent going later_mem wanted, idle.quiet quiet, idle.disk,
    idle.refused⟩

theorem quiet_snoc {report : PackReport} {status : PackStatus}
    (quiet : ∀ status ∈ report, status.outcome.Quiet) (last : status.outcome.Quiet) :
    ∀ other ∈ report ++ [status], other.outcome.Quiet := by
  intro other other_mem
  rcases List.mem_append.mp other_mem with earlier | same
  · exact quiet other earlier
  · rcases List.mem_singleton.mp same with rfl
    exact last

/-- A paced try that follows the list brings the pack, or settles one before it. -/
theorem attempt_of_send (fair : offer.Fair unpacking true env) (limit : keeper.paced = true)
    (read : (keeper.usable offer.serverUrl).isSome = true)
    (follows : (offer.listFor keeper).entries = offer.entries)
    (unrefused : offer.unrefused keeper.refused) (absent : offer.current keeper.disk = false) :
    let tried := keeper.attempt unpacking env .all
    offer.current tried.2.disk = true ∨
      0 < tried.1.heldBack ∧ (∀ status ∈ tried.1.report, status.outcome.Quiet) ∧
        offer.openBefore tried.2.disk tried.2.refused <
          offer.openBefore keeper.disk keeper.refused := by
  have one : offer.budget keeper = some 1 := by simp [budget, limit, read]
  have loop_eq : offer.loopOf unpacking env keeper = packs.foldl
      (Loop.visit unpacking env.server offer.entries keeper.refused)
      (.begin keeper.disk (some 1)) := by
    simp only [loopOf, runLoop, follows, one]
  have wanted : wants keeper.disk keeper.refused offer.entries offer.spec = some offer.entry :=
    wants_eq_some.mpr ⟨offer.selected, absent, unrefused⟩
  rw [attempt_of_answered fair.toAnswered, loop_eq]
  rcases @Loop.foldl_of_one unpacking env.server offer.entries keeper.refused
    (.begin keeper.disk (some 1)) packs rfl rfl with ⟨none_wanted, -⟩ |
      ⟨earlier, spec, later, entry, middle, split, unwanted, found, idle, folded⟩
  · have unwanted := none_wanted offer.spec spec_mem
    simp [Loop.begin, wanted] at unwanted
  · rw [folded]
    have spec_in : spec ∈ packs := by simp [split]
    have passed : offer.spec ∉ earlier := by
      intro earlier_mem
      have none_wanted := unwanted offer.spec earlier_mem
      simp [Loop.begin, wanted] at none_wanted
    have middle_disk : middle.disk = keeper.disk := idle.disk
    have middle_refused : middle.refused = [] := idle.refused
    have middle_quiet := idle.quiet (by simp [Loop.begin])
    rcases eq_or_ne spec offer.spec with rfl | different
    · left
      rcases Except.ok.inj ((wants_eq_some.mp found).1.symm.trans offer.selected) with rfl
      rcases syncOne_served fair with ⟨manifestSha256, arrived⟩
      rw [arrived]
      have rest := @Loop.idle_foldl_of_spent unpacking env.server offer.entries keeper.refused
        (Loop.take { middle with requestsLeft := some 0 } offer.spec offer.entry
          (.installed manifestSha256)) later rfl idle.stopped
      dsimp only
      rw [rest.disk]
      exact isCurrent_install_self manifestSha256
    · right
      rcases mem_before split passed different with ⟨spec_before, later_mem⟩
      have found' : wants keeper.disk keeper.refused offer.entries spec = some entry := found
      rcases @syncOne_of_lasting unpacking env.server spec entry
        (fair.lasting rfl spec spec_before) with ⟨manifestSha256, came⟩ | ⟨refusal, came⟩
      · have still : wants (keeper.disk.install spec entry.version manifestSha256) keeper.refused
            offer.entries offer.spec = some offer.entry := by
          refine wants_eq_some.mpr ⟨offer.selected, ?_, unrefused⟩
          rw [isCurrent_install entry.version manifestSha256 (name_ne_of_before spec_before)]
          exact absent
        rw [came]
        have rest := @rest_of_spent unpacking offer env.server keeper.refused
          (Loop.take { middle with requestsLeft := some 0 } spec entry (.installed manifestSha256))
          later rfl idle.stopped (quiet_snoc middle_quiet (.inl rfl)) later_mem
          (by simpa [Loop.take, Loop.status, middle_disk] using still)
        refine ⟨rest.1, rest.2.1, ?_⟩
        simp only [rest.2.2.1, rest.2.2.2]
        apply openBefore_lt spec_before found'
        intro other other_mem listed still_wanted
        simp only [Loop.take, Loop.status, middle_disk, middle_refused, learnt,
          List.foldl_nil] at still_wanted
        exact wants_of_install found' spec_in other_mem still_wanted
      · rw [came]
        have rest := @rest_of_spent unpacking offer env.server keeper.refused
          (Loop.take { middle with requestsLeft := some 0 } spec entry (.done (.fixed refusal)))
          later rfl idle.stopped (quiet_snoc middle_quiet (.inr ⟨refusal, rfl⟩)) later_mem
          (by simpa [Loop.take, Loop.status, middle_disk] using wanted)
        refine ⟨rest.1, rest.2.1, ?_⟩
        simp only [rest.2.2.1, rest.2.2.2]
        apply openBefore_lt spec_before found'
        intro other other_mem listed still_wanted
        simp only [Loop.take, Loop.status, middle_disk, middle_refused,
          List.nil_append] at still_wanted
        exact wants_of_refusal found' spec_in other_mem still_wanted

/-! ## Behind a pack that fails -/

/-- The download of the pack itself fails without a refusal. -/
structure Failing (offer : Offer) (env : TryEnv) : Prop extends offer.Answered env where
  fails : env.server.pack offer.spec.name = .failed .download ∨
    env.server.pack offer.spec.name = .unsupported

theorem syncOne_failing (failing : offer.Failing env) :
    unpacking.syncOne env.server offer.spec offer.entry = .done .download ∨
      unpacking.syncOne env.server offer.spec offer.entry = .gone := by
  unfold Unpacking.syncOne
  rcases failing.fails with broken | gone
  · simp [broken]
  · simp [gone]

theorem accepted_of_failing (failing : offer.Failing env) (refusal : FixedRefusal) :
    unpacking.syncOne env.server offer.spec offer.entry ≠ .done (.fixed refusal) := by
  rcases @syncOne_failing unpacking offer env failing with broken | gone
  · simp [broken]
  · simp [gone]

theorem name_ne_of_after {other later : PackSpec} (other_mem : other ∈ offer.before)
    (later_mem : later ∈ offer.spec :: offer.after) : other.name ≠ later.name := by
  have distinct := nodup_packs
  simp only [offer.split, List.map_append, List.nodup_append] at distinct
  exact distinct.2.2 _ (List.mem_map_of_mem other_mem) _ (List.mem_map_of_mem later_mem)

/-- The one request of a paced try goes to this pack, or to one before it. -/
theorem untouched_of_failing (failing : offer.Failing env) (limit : keeper.paced = true)
    (follows : (offer.listFor keeper).entries = offer.entries)
    (unrefused : offer.unrefused keeper.refused) (absent : offer.current keeper.disk = false)
    {later : PackSpec} (later_mem : later ∈ offer.spec :: offer.after) (entry : PackListEntry) :
    isCurrent (keeper.attempt unpacking env .all).2.disk later entry =
      isCurrent keeper.disk later entry := by
  cases read : keeper.usable offer.serverUrl with
  | none => rw [(attempt_of_read failing.toAnswered limit read unrefused absent).2.2.1]
  | some kept =>
      have one : offer.budget keeper = some 1 := by simp [budget, limit, read]
      have wanted : wants keeper.disk keeper.refused offer.entries offer.spec = some offer.entry :=
        wants_eq_some.mpr ⟨offer.selected, absent, unrefused⟩
      rw [attempt_of_answered failing.toAnswered]
      simp only [loopOf, runLoop, follows, one]
      rcases @Loop.foldl_of_one unpacking env.server offer.entries keeper.refused
        (.begin keeper.disk (some 1)) packs rfl rfl with ⟨-, idle⟩ |
          ⟨earlier, spec, rest, found_entry, middle, split, unwanted, found, idle, folded⟩
      · rw [idle.disk]
        rfl
      · have passed : offer.spec ∉ earlier := by
          intro earlier_mem
          have none_wanted := unwanted offer.spec earlier_mem
          simp [Loop.begin, wanted] at none_wanted
        have goes_on : ∀ outcome,
            unpacking.syncOne env.server spec found_entry ≠ .stop outcome := by
          intro outcome
          rcases @syncOne_of_perPack unpacking env.server spec found_entry
            (failing.answers spec.name) with ⟨_, came⟩ | ⟨_, came⟩ | came | came <;> simp [came]
        have after_take := @Loop.take_stopped { middle with requestsLeft := some 0 } spec
          found_entry _ idle.stopped goes_on
        have spent := Loop.take_requestsLeft { middle with requestsLeft := some 0 } spec
          found_entry (unpacking.syncOne env.server spec found_entry)
        rw [folded, (Loop.idle_foldl_of_spent rest spent after_take).disk]
        rcases Loop.take_disk { middle with requestsLeft := some 0 } spec found_entry
          (unpacking.syncOne env.server spec found_entry) with
          same | ⟨manifestSha256, came, installed⟩
        · rw [same, idle.disk]
          rfl
        · have different : spec ≠ offer.spec := by
            rintro rfl
            rcases Except.ok.inj ((wants_eq_some.mp found).1.symm.trans offer.selected) with rfl
            rcases @syncOne_failing unpacking offer env failing with broken | gone
            · simp [broken] at came
            · simp [gone] at came
          have names := name_ne_of_after (mem_before split passed different).1 later_mem
          rw [installed, isCurrent_install _ _ names, idle.disk]
          rfl

end attempt

end Offer

end ScuffedCrew.Packs
