import ScuffedCrew.Packs.Keeper
import ScuffedCrew.Packs.RunLoop

/-!
# What one try comes to

A try that sends its requests to a site which answers each download for that
pack alone: no stop ends the loop, the report has nothing worse than a failed
download, and a list found out of date shows in it.
-/

namespace ScuffedCrew.Packs

open Rust StateMachine

/-! ## Verdicts and waits -/

theorem settled_iff {tried : Tried} : tried.verdict.settled = true ↔
    tried.heldBack = 0 ∧ ∀ status ∈ tried.report, status.outcome.isSettled = true := by
  have limited : ((tried.report.filterMap fun status => status.outcome.rateLimitSecs).max? = none) ↔
      ∀ status ∈ tried.report, status.outcome.rateLimitSecs = none := by
    simp [List.max?_eq_none_iff]
  simp only [Verdict.settled, Tried.verdict, Verdict.ofReport, decide_eq_true_eq,
    Verdict.mk.injEq, List.any_eq_false, limited, decide_eq_false_iff_not, Nat.not_lt,
    Nat.le_zero_eq]
  constructor
  · rintro ⟨busy, unlimited, enabled, unfailed, unrefused, none_held⟩
    refine ⟨none_held, fun status status_mem => ?_⟩
    have busy' := busy status status_mem
    have unlimited' := unlimited status status_mem
    have enabled' := enabled status status_mem
    have unfailed' := unfailed status status_mem
    have unrefused' := unrefused status status_mem
    rcases outcome_eq : status.outcome with _ | _ | _ | _ | _ | _ | failure
    · rfl
    · rfl
    · simp [outcome_eq] at enabled'
    · rfl
    · rfl
    · simp [outcome_eq] at busy'
    · cases failure <;>
        simp_all [PackSync.rateLimitSecs, PackSync.isFixedRefusal, PackSync.isOtherFailure]
  · rintro ⟨none_held, all_settled⟩
    refine ⟨?_, ?_, ?_, ?_, ?_, none_held⟩ <;>
    · intro status status_mem
      have settled := all_settled status status_mem
      cases outcome_eq : status.outcome <;>
        simp_all [PackSync.isSettled, PackSync.rateLimitSecs, PackSync.isFixedRefusal,
          PackSync.isOtherFailure]

namespace Backoff

variable {backoff : Backoff} {verdict : Verdict} {jitter : Duration}

theorem floor_le_wait : Duration.fromSecs retryFloorSecs ≤ backoff.wait verdict jitter := by
  have first := le_max_left (Duration.fromSecs retryFloorSecs)
    (if verdict.busy then nthWait busyWaitsSecs backoff.busyTries else 0)
  exact ((first.trans (le_max_left _ _)).trans (le_max_left _ _)).trans (le_max_left _ _)

end Backoff

/-- A try that only left downloads for the next one waits the paced gap. -/
theorem wait_of_quiet {backoff : Backoff} {tried : Tried} {jitter : Duration}
    (quiet : ∀ status ∈ tried.report, status.outcome.Quiet) (held : 0 < tried.heldBack) :
    backoff.wait tried.verdict jitter = Duration.fromSecs pacedGapSecs := by
  have each : ∀ status ∈ tried.report, status.outcome ≠ .busy ∧ status.outcome ≠ .unavailable ∧
      status.outcome.rateLimitSecs = none ∧ status.outcome.isOtherFailure = false := by
    intro status status_mem
    rcases quiet status status_mem with settled | ⟨refusal, refused⟩
    · cases outcome_eq : status.outcome <;>
        simp_all [PackSync.isSettled, PackSync.rateLimitSecs, PackSync.isOtherFailure]
    · simp [refused, PackSync.rateLimitSecs, PackSync.isOtherFailure]
  have not_busy : tried.verdict.busy = false := by
    simpa [Tried.verdict, Verdict.ofReport] using fun status mem => (each status mem).1
  have enabled : tried.verdict.disabled = false := by
    simpa [Tried.verdict, Verdict.ofReport] using fun status mem => (each status mem).2.1
  have unlimited : tried.verdict.limited = none := by
    simpa [Tried.verdict, Verdict.ofReport, List.max?_eq_none_iff] using
      fun status mem => (each status mem).2.2.1
  have unfailed : tried.verdict.failed = false := by
    simpa [Tried.verdict, Verdict.ofReport] using fun status mem => (each status mem).2.2.2
  have holding : tried.verdict.held = true := by simpa [Tried.verdict] using held
  simp [Backoff.wait, not_busy, enabled, unlimited, unfailed, holding]
  decide

/-! ## A run against a site with no stop -/

section

variable {unpacking : Unpacking} {server : Server} {entries : List PackListEntry}
  {refused : Refused} {spec : PackSpec} {entry : PackListEntry}

theorem syncOne_of_perPack (answer : (server.pack spec.name).perPack = true) :
    (∃ manifestSha256, unpacking.syncOne server spec entry = .installed manifestSha256) ∨
      (∃ refusal, unpacking.syncOne server spec entry = .done (.fixed refusal)) ∨
      unpacking.syncOne server spec entry = .done .download ∨
      unpacking.syncOne server spec entry = .gone := by
  unfold Unpacking.syncOne
  cases answered : server.pack spec.name with
  | ok body =>
      cases installed : unpacking.installPack spec entry body with
      | ok manifestSha256 => exact .inl ⟨manifestSha256, by simp [installed]⟩
      | error refusal => exact .inr (.inl ⟨refusal, by simp [installed]⟩)
  | unsupported => simp
  | failed failure =>
      cases failure with
      | fixed refusal => simp
      | download => simp
      | _ => simp [answered, Get.perPack] at answer
  | _ => simp [answered, Get.perPack] at answer

/-- The bytes, or a refusal that lasts: a pack that will not be asked for again. -/
theorem syncOne_of_lasting (answer : (server.pack spec.name).lasting = true) :
    (∃ manifestSha256, unpacking.syncOne server spec entry = .installed manifestSha256) ∨
      ∃ refusal, unpacking.syncOne server spec entry = .done (.fixed refusal) := by
  unfold Unpacking.syncOne
  cases answered : server.pack spec.name with
  | ok body =>
      cases installed : unpacking.installPack spec entry body with
      | ok manifestSha256 => exact .inl ⟨manifestSha256, by simp [installed]⟩
      | error refusal => exact .inr ⟨refusal, by simp [installed]⟩
  | failed failure =>
      cases failure with
      | fixed refusal => simp
      | _ => simp [answered, Get.lasting] at answer
  | _ => simp [answered, Get.lasting] at answer

namespace Loop

/-- No stop so far, and a list out of date shows in the report. -/
structure Clean (loop : Loop) : Prop where
  going : loop.stopped = none
  mild : ∀ status ∈ loop.report, status.outcome.Mild
  shown : loop.stale = true → ∃ status ∈ loop.report, status.outcome.isSettled = false

variable {loop : Loop}

theorem clean_begin (disk : Disk) (requestsLeft : Option ℕ) : Clean (.begin disk requestsLeft) where
  going := rfl
  mild := by simp [begin]
  shown := by simp [begin]

theorem clean_status {stale : Bool} {outcome : PackSync} (clean : loop.Clean)
    (mild : outcome.Mild) (shown : stale = true → loop.stale = true ∨ outcome.isSettled = false) :
    Clean (status { loop with stale := stale } spec outcome) where
  going := clean.going
  mild status status_mem := by
    rcases List.mem_append.mp status_mem with earlier | last
    · exact clean.mild status earlier
    · rcases List.mem_singleton.mp last with rfl
      exact mild
  shown is_stale := by
    rcases shown is_stale with before | unsettled
    · rcases clean.shown before with ⟨status, status_mem, unsettled⟩
      exact ⟨status, List.mem_append_left _ status_mem, unsettled⟩
    · exact ⟨⟨spec.name, outcome⟩, by simp [status], unsettled⟩

theorem clean_visit (clean : loop.Clean) (answer : (server.pack spec.name).perPack = true) :
    Clean (loop.visit unpacking server entries refused spec) := by
  cases wanted : wants loop.disk refused entries spec with
  | none =>
      rcases @visit_of_unwanted unpacking server entries refused loop spec wanted with
        ⟨outcome, quiet, visited⟩
      rw [visited]
      exact clean_status clean (.inl quiet) .inl
  | some entry =>
      rw [visit_of_wanted wanted clean.going]
      cases taken : takeRequest loop.requestsLeft with
      | none => exact ⟨clean.going, clean.mild, clean.shown⟩
      | some left =>
          have asked : Clean { loop with requestsLeft := left } :=
            ⟨clean.going, clean.mild, clean.shown⟩
          rcases @syncOne_of_perPack unpacking server spec entry answer with
            ⟨manifestSha256, came⟩ | ⟨refusal, came⟩ | came | came
          · have placed : Clean { loop with
                requestsLeft := left
                disk := loop.disk.install spec entry.version manifestSha256
                installed := loop.installed ++ [⟨spec.name, entry.version, manifestSha256⟩] } :=
              ⟨clean.going, clean.mild, clean.shown⟩
            simpa [take, came] using @clean_status spec _ _ .installed placed (.inl (.inl rfl)) .inl
          · have noted : Clean { loop with
                requestsLeft := left, refused := loop.refused ++ [(entry, refusal)] } :=
              ⟨clean.going, clean.mild, clean.shown⟩
            simpa [take, came] using @clean_status spec _
              (loop.stale || decide (refusal = .mismatch)) (.failed (.fixed refusal)) noted
              (.inl (.inr ⟨refusal, rfl⟩)) fun _ => .inr rfl
          · simpa [take, came] using
              @clean_status spec _ _ (.failed .download) asked (.inr rfl) .inl
          · simpa [take, came] using @clean_status spec _ true (.failed .download) asked (.inr rfl)
              fun _ => .inr rfl

theorem clean_foldl (specs : List PackSpec) (clean : loop.Clean)
    (answers : ∀ name, (server.pack name).perPack = true) :
    Clean (specs.foldl (visit unpacking server entries refused) loop) := by
  induction specs generalizing loop with
  | nil => exact clean
  | cons spec specs ih => exact ih (clean_visit clean (answers spec.name))

theorem Clean.unlimited (clean : loop.Clean) : (Verdict.ofReport loop.report).limited = none := by
  simp only [Verdict.ofReport, List.max?_eq_none_iff, List.filterMap_eq_nil_iff]
  intro status status_mem
  rcases clean.mild status status_mem with (settled | ⟨refusal, refused⟩) | failed
  · cases outcome_eq : status.outcome <;> simp_all [PackSync.isSettled, PackSync.rateLimitSecs]
  · simp [refused, PackSync.rateLimitSecs]
  · simp [failed, PackSync.rateLimitSecs]

end Loop

end

/-! ## What is remembered -/

section refusals

variable {refused : Refused} {entry was : PackListEntry} {refusal : FixedRefusal}

/-- The refusals of a run, on top of the ones before it. -/
def learnt (refused : Refused) (news : List (PackListEntry × FixedRefusal)) : Refused :=
  news.foldl (fun refused was => refused.insert was.1.name was) refused

theorem knownRefusal_insert_self :
    knownRefusal (refused.insert entry.name (entry, refusal)) entry = some refusal := by
  simp [knownRefusal]

theorem knownRefusal_insert_of_name (different : entry.name ≠ was.name) :
    knownRefusal (refused.insert was.name (was, refusal)) entry = knownRefusal refused entry := by
  simp [knownRefusal, AList.lookup_insert_ne different]

theorem knownRefusal_insert_of_ne (different : was ≠ entry)
    (unknown : knownRefusal refused entry = none) :
    knownRefusal (refused.insert was.name (was, refusal)) entry = none := by
  rcases eq_or_ne entry.name was.name with same | other
  · unfold knownRefusal
    rw [same, AList.lookup_insert]
    simp [different]
  · rwa [knownRefusal_insert_of_name other]

theorem knownRefusal_learnt {news : List (PackListEntry × FixedRefusal)}
    (others : ∀ was ∈ news, was.1 ≠ entry) (unknown : knownRefusal refused entry = none) :
    knownRefusal (learnt refused news) entry = none := by
  induction news generalizing refused with
  | nil => exact unknown
  | cons was news ih =>
      refine ih (fun other other_mem => others other (List.mem_cons_of_mem _ other_mem)) ?_
      exact knownRefusal_insert_of_ne (others was List.mem_cons_self) unknown

end refusals

end ScuffedCrew.Packs
