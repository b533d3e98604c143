import ScuffedCrew.Packs.Sync

/-!
# What the loop over the packs does

A pack is wanted when the list has an entry for it that is neither on disk nor
refused before.  The loop sends requests for wanted packs only, and stops asking
when its budget is spent.
-/

namespace ScuffedCrew.Packs

open Rust

/-- The entry a run has to download the pack for. -/
def wants (disk : Disk) (refused : Refused) (entries : List PackListEntry) (spec : PackSpec) :
    Option PackListEntry :=
  match selectPack entries spec with
  | .error _ => none
  | .ok entry =>
      if isCurrent disk spec entry || (knownRefusal refused entry).isSome then none else some entry

/-- An answer about one pack only. -/
def Get.perPack : Get → Bool
  | .ok _ | .unsupported | .failed .download | .failed (.fixed _) => true
  | _ => false

/-- The bytes, right or wrong, or a refusal that the same bytes would get again. -/
def Get.lasting : Get → Bool
  | .ok _ | .failed (.fixed _) => true
  | _ => false

namespace PackSync

/-- Settled, or refused for a fixed reason. -/
def Quiet (outcome : PackSync) : Prop :=
  outcome.isSettled = true ∨ ∃ refusal, outcome = .failed (.fixed refusal)

/-- Not a stop, and not a 429. -/
def Mild (outcome : PackSync) : Prop := outcome.Quiet ∨ outcome = .failed .download

end PackSync

section wants

variable {disk : Disk} {refused : Refused} {entries : List PackListEntry} {spec other : PackSpec}
  {entry : PackListEntry}

theorem wants_eq_some : wants disk refused entries spec = some entry ↔
    selectPack entries spec = .ok entry ∧ isCurrent disk spec entry = false ∧
      knownRefusal refused entry = none := by
  unfold wants
  cases selected : selectPack entries spec with
  | error outcome => simp
  | ok listed =>
      simp only [Except.ok.injEq, Option.ite_none_left_eq_some, Bool.or_eq_true, not_or,
        Bool.not_eq_true, Option.some.injEq]
      constructor
      · rintro ⟨⟨absent, unknown⟩, rfl⟩
        exact ⟨rfl, absent, by simpa using unknown⟩
      · rintro ⟨rfl, absent, unknown⟩
        exact ⟨⟨absent, by simp [unknown]⟩, rfl⟩

theorem isCurrent_install (version manifestSha256 : Text) (different : spec.name ≠ other.name) :
    isCurrent (disk.install spec version manifestSha256) other entry =
      isCurrent disk other entry := by
  simp [isCurrent, Disk.install, AList.lookup_insert_ne (Ne.symm different),
    Function.update_of_ne (Ne.symm different)]

theorem isCurrent_install_self (manifestSha256 : Text) :
    isCurrent (disk.install spec entry.version manifestSha256) spec entry = true := by
  simp [isCurrent, Disk.install]

end wants

namespace Loop

variable {unpacking : Unpacking} {server : Server} {entries : List PackListEntry}
  {refused : Refused} {loop : Loop} {spec : PackSpec} {entry : PackListEntry}

/-- A pack that is not wanted is reported, and nothing else changes. -/
theorem visit_of_unwanted (unwanted : wants loop.disk refused entries spec = none) :
    ∃ outcome : PackSync, outcome.Quiet ∧
      loop.visit unpacking server entries refused spec = loop.status spec outcome := by
  unfold wants at unwanted
  unfold visit
  cases selected : selectPack entries spec with
  | error outcome =>
      refine ⟨outcome, (selectPack_error selected).imp_right fun same => ⟨_, same⟩, rfl⟩
  | ok listed =>
      simp only [selected] at unwanted ⊢
      cases current : isCurrent loop.disk spec listed with
      | true => exact ⟨.current, .inl rfl, rfl⟩
      | false =>
          cases known : knownRefusal refused listed with
          | some refusal => exact ⟨_, .inr ⟨refusal, rfl⟩, rfl⟩
          | none => simp [current, known] at unwanted

theorem visit_of_wanted (wanted : wants loop.disk refused entries spec = some entry)
    (going : loop.stopped = none) :
    loop.visit unpacking server entries refused spec =
      match takeRequest loop.requestsLeft with
      | none => { loop with heldBack := loop.heldBack + 1 }
      | some left =>
          take { loop with requestsLeft := left } spec entry
            (unpacking.syncOne server spec entry) := by
  rcases wants_eq_some.mp wanted with ⟨selected, absent, unknown⟩
  cases taken : takeRequest loop.requestsLeft with
  | none => simp [visit, selected, absent, unknown, going, taken]
  | some left => simp [visit, selected, absent, unknown, going, taken]

/-- What one pack changes: its folder, or what is remembered of its entry. -/
theorem visit_changes (unpacking : Unpacking) (server : Server) (entries : List PackListEntry)
    (refused : Refused) (loop : Loop) (spec : PackSpec) :
    ((loop.visit unpacking server entries refused spec).disk = loop.disk ∧
        (loop.visit unpacking server entries refused spec).refused = loop.refused) ∨
      ∃ entry, wants loop.disk refused entries spec = some entry ∧
        ((∃ manifestSha256,
            (loop.visit unpacking server entries refused spec).disk =
              loop.disk.install spec entry.version manifestSha256 ∧
            (loop.visit unpacking server entries refused spec).refused = loop.refused) ∨
          ∃ refusal, unpacking.syncOne server spec entry = .done (.fixed refusal) ∧
            (loop.visit unpacking server entries refused spec).disk = loop.disk ∧
            (loop.visit unpacking server entries refused spec).refused =
              loop.refused ++ [(entry, refusal)]) := by
  cases wanted : wants loop.disk refused entries spec with
  | none =>
      rcases @visit_of_unwanted unpacking server entries refused loop spec wanted with
        ⟨outcome, -, visited⟩
      rw [visited]
      exact .inl ⟨rfl, rfl⟩
  | some entry =>
      rcases wants_eq_some.mp wanted with ⟨selected, absent, unknown⟩
      simp only [visit, selected, absent, unknown, Bool.false_eq_true, if_false]
      cases loop.stopped with
      | some stop => exact .inl ⟨rfl, rfl⟩
      | none =>
          cases takeRequest loop.requestsLeft with
          | none => exact .inl ⟨rfl, rfl⟩
          | some left =>
              cases came : unpacking.syncOne server spec entry with
              | installed manifestSha256 =>
                  exact .inr ⟨entry, rfl, .inl ⟨manifestSha256, rfl, rfl⟩⟩
              | done failure =>
                  cases failure with
                  | fixed refusal => exact .inr ⟨entry, rfl, .inr ⟨refusal, came, rfl, rfl⟩⟩
                  | _ => exact .inl ⟨rfl, rfl⟩
              | gone => exact .inl ⟨rfl, rfl⟩
              | stop outcome => exact .inl ⟨rfl, rfl⟩

theorem take_requestsLeft (loop : Loop) (spec : PackSpec) (entry : PackListEntry) (came : Step) :
    (loop.take spec entry came).requestsLeft = loop.requestsLeft := by
  cases came with
  | done failure => cases failure <;> rfl
  | _ => rfl

theorem take_disk (loop : Loop) (spec : PackSpec) (entry : PackListEntry) (came : Step) :
    (loop.take spec entry came).disk = loop.disk ∨ ∃ manifestSha256,
      came = .installed manifestSha256 ∧
        (loop.take spec entry came).disk = loop.disk.install spec entry.version manifestSha256 := by
  cases came with
  | installed manifestSha256 => exact .inr ⟨manifestSha256, rfl, rfl⟩
  | done failure => cases failure <;> exact .inl rfl
  | gone => exact .inl rfl
  | stop outcome => exact .inl rfl

/-- Only a stop ends the downloads. -/
theorem take_stopped (spec : PackSpec) (entry : PackListEntry) (came : Step)
    (going : loop.stopped = none) (goes_on : ∀ outcome, came ≠ .stop outcome) :
    (loop.take spec entry came).stopped = none := by
  cases came with
  | done failure => cases failure <;> exact going
  | stop outcome => exact absurd rfl (goes_on outcome)
  | _ => exact going

/-- A run without a budget never gets one. -/
theorem unlimited_visit (unlimited : loop.requestsLeft = none) :
    (loop.visit unpacking server entries refused spec).requestsLeft = none := by
  cases wanted : wants loop.disk refused entries spec with
  | none =>
      rcases @visit_of_unwanted unpacking server entries refused loop spec wanted with
        ⟨outcome, -, visited⟩
      rw [visited]
      exact unlimited
  | some entry =>
      rcases wants_eq_some.mp wanted with ⟨selected, absent, unknown⟩
      simp only [visit, selected, absent, unknown, Bool.false_eq_true, if_false]
      cases loop.stopped with
      | some stop => exact unlimited
      | none => simp [unlimited, takeRequest, take_requestsLeft]

theorem unlimited_foldl (specs : List PackSpec) (unlimited : loop.requestsLeft = none) :
    (specs.foldl (visit unpacking server entries refused) loop).requestsLeft = none := by
  induction specs generalizing loop with
  | nil => exact unlimited
  | cons spec specs ih => exact ih (unlimited_visit unlimited)

/-! ## Nothing left to ask for -/

/-- A stretch of the loop that sent no request. -/
structure Idle (before after : Loop) : Prop where
  disk : after.disk = before.disk
  requestsLeft : after.requestsLeft = before.requestsLeft
  stopped : after.stopped = before.stopped
  stale : after.stale = before.stale
  refused : after.refused = before.refused
  heldBack : before.heldBack ≤ after.heldBack
  quiet : (∀ status ∈ before.report, status.outcome.Quiet) →
    ∀ status ∈ after.report, status.outcome.Quiet

theorem Idle.refl (loop : Loop) : Idle loop loop :=
  ⟨rfl, rfl, rfl, rfl, rfl, le_rfl, id⟩

theorem Idle.trans {first second third : Loop} (left : Idle first second)
    (right : Idle second third) : Idle first third where
  disk := right.disk.trans left.disk
  requestsLeft := right.requestsLeft.trans left.requestsLeft
  stopped := right.stopped.trans left.stopped
  stale := right.stale.trans left.stale
  refused := right.refused.trans left.refused
  heldBack := left.heldBack.trans right.heldBack
  quiet := right.quiet ∘ left.quiet

theorem idle_status {outcome : PackSync} (quiet : outcome.Quiet) :
    Idle loop (loop.status spec outcome) where
  disk := rfl
  requestsLeft := rfl
  stopped := rfl
  stale := rfl
  refused := rfl
  heldBack := le_rfl
  quiet before status status_mem := by
    rcases List.mem_append.mp status_mem with earlier | new
    · exact before status earlier
    · rcases List.mem_singleton.mp new with rfl
      exact quiet

theorem idle_of_unwanted (unwanted : wants loop.disk refused entries spec = none) :
    Idle loop (loop.visit unpacking server entries refused spec) := by
  rcases visit_of_unwanted unwanted with ⟨outcome, quiet, visited⟩
  rw [visited]
  exact idle_status quiet

theorem idle_of_spent (spent : loop.requestsLeft = some 0) (going : loop.stopped = none) :
    Idle loop (loop.visit unpacking server entries refused spec) := by
  cases wanted : wants loop.disk refused entries spec with
  | none => exact idle_of_unwanted wanted
  | some entry =>
      rw [visit_of_wanted wanted going, spent]
      exact ⟨rfl, spent.symm, rfl, rfl, rfl, Nat.le_succ _, id⟩

theorem idle_foldl_of_spent (specs : List PackSpec) (spent : loop.requestsLeft = some 0)
    (going : loop.stopped = none) :
    Idle loop (specs.foldl (visit unpacking server entries refused) loop) := by
  induction specs generalizing loop with
  | nil => exact .refl loop
  | cons spec specs ih =>
      have here : Idle loop (loop.visit unpacking server entries refused spec) :=
        idle_of_spent spent going
      exact here.trans (ih (here.requestsLeft.trans spent) (here.stopped.trans going))

theorem held_of_spent {specs : List PackSpec} (spent : loop.requestsLeft = some 0)
    (going : loop.stopped = none) (spec_mem : spec ∈ specs)
    (wanted : wants loop.disk refused entries spec = some entry) :
    0 < (specs.foldl (visit unpacking server entries refused) loop).heldBack := by
  rcases List.append_of_mem spec_mem with ⟨earlier, later, rfl⟩
  rw [List.foldl_append, List.foldl_cons]
  have first := @idle_foldl_of_spent unpacking server entries refused loop earlier spent going
  have spent' := first.requestsLeft.trans spent
  have going' := first.stopped.trans going
  rw [← first.disk] at wanted
  have held : 0 < ((earlier.foldl (visit unpacking server entries refused) loop).visit unpacking
      server entries refused spec).heldBack := by
    rw [visit_of_wanted wanted going', spent']
    exact Nat.succ_pos _
  have here := @idle_of_spent unpacking server entries refused _ spec spent' going'
  have rest := @idle_foldl_of_spent unpacking server entries refused _ later
    (here.requestsLeft.trans spent') (here.stopped.trans going')
  exact lt_of_lt_of_le held rest.heldBack

/-- With one request left, it goes to the first wanted pack. -/
theorem foldl_of_one (specs : List PackSpec) (one : loop.requestsLeft = some 1)
    (going : loop.stopped = none) :
    ((∀ spec ∈ specs, wants loop.disk refused entries spec = none) ∧
        Idle loop (specs.foldl (visit unpacking server entries refused) loop)) ∨
      ∃ earlier spec later entry middle, specs = earlier ++ spec :: later ∧
        (∀ other ∈ earlier, wants loop.disk refused entries other = none) ∧
        wants loop.disk refused entries spec = some entry ∧ Idle loop middle ∧
        specs.foldl (visit unpacking server entries refused) loop =
          later.foldl (visit unpacking server entries refused)
            (take { middle with requestsLeft := some 0 } spec entry
              (unpacking.syncOne server spec entry)) := by
  induction specs generalizing loop with
  | nil => exact .inl ⟨by simp, .refl loop⟩
  | cons spec specs ih =>
      cases wanted : wants loop.disk refused entries spec with
      | some entry =>
          refine .inr ⟨[], spec, specs, entry, loop, rfl, by simp, wanted, .refl loop, ?_⟩
          rw [List.foldl_cons, visit_of_wanted wanted going, one]
          rfl
      | none =>
          have here : Idle loop (loop.visit unpacking server entries refused spec) :=
            idle_of_unwanted wanted
          have rest := ih (here.requestsLeft.trans one) (here.stopped.trans going)
          rw [here.disk] at rest
          rcases rest with ⟨none_wanted, idle⟩ | ⟨earlier, other, later, entry, middle, rfl,
            unwanted, found, idle, folded⟩
          · left
            refine ⟨?_, here.trans idle⟩
            intro other other_mem
            rcases List.mem_cons.mp other_mem with rfl | later
            · exact wanted
            · exact none_wanted other later
          · right
            refine ⟨spec :: earlier, other, later, entry, middle, rfl, ?_, found,
              here.trans idle, folded⟩
            intro before before_mem
            rcases List.mem_cons.mp before_mem with rfl | earlier_mem
            · exact wanted
            · exact unwanted before earlier_mem

end Loop

end ScuffedCrew.Packs
