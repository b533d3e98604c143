import ScuffedCrew.Packs.OneBadPack

/-!
# A listed pack arrives

The job waits and tries.  A kept list that is not the site's is followed for
half an hour of waits at most, or the job ends on it.  After that every try of
a paced job settles a pack before the one that is waited for, or reads the list.
-/

namespace ScuffedCrew.Packs

open Rust StateMachine

namespace Job

variable {unpacking : Unpacking} {jitter : Duration} {job after : Job} {env : TryEnv}

/-- The wait before the next try. -/
def pause (jitter : Duration) (job : Job) : Duration := job.rested.wait job.tried.verdict jitter

/-- The keeper at the next try. -/
def awake (jitter : Duration) (job : Job) : PackKeeper := job.keeper.slept (job.pause jitter)

theorem finished_eq_false (held : 0 < job.tried.heldBack) : job.finished = false := by
  cases ended : job.finished with
  | false => rfl
  | true => exact absurd (settled_iff.mp ended).1 held.ne'

theorem next_of_running (running : job.finished = false) :
    ∃ backoff, job.next unpacking jitter env =
      some ⟨((job.awake jitter).attempt unpacking env .all).2, backoff,
        ((job.awake jitter).attempt unpacking env .all).1⟩ := by
  have unsettled : job.tried.verdict.settled = false := running
  exact ⟨job.rested.waited job.tried.verdict, by
    simp [next, Backoff.waitAfter, unsettled, awake, pause]⟩

theorem next_inv (step : job.next unpacking jitter env = some after) :
    job.finished = false ∧ after.keeper = ((job.awake jitter).attempt unpacking env .all).2 ∧
      after.tried = ((job.awake jitter).attempt unpacking env .all).1 := by
  cases ended : job.finished with
  | true =>
      have settled : job.tried.verdict.settled = true := ended
      simp [next, Backoff.waitAfter, settled] at step
  | false =>
      rcases @next_of_running unpacking jitter job env ended with ⟨backoff, stepped⟩
      rcases Option.some.inj (step.symm.trans stepped) with rfl
      exact ⟨rfl, rfl, rfl⟩

end Job

namespace Offer

variable {unpacking : Unpacking} {jitter : Duration} {offer : Offer} {job after : Job}
  {env : TryEnv} {paced : Bool}

/-- The pack is in place, and no other list is followed. -/
def Arrived (offer : Offer) (job : Job) : Prop :=
  offer.Known job.keeper ∧ offer.current job.keeper.disk = true

/-- The job has ended on a list that is not the site's. -/
def EndedOnOther (offer : Offer) (job : Job) : Prop :=
  job.finished = true ∧ ∃ kept, job.keeper.list = some kept ∧ kept.entries ≠ offer.entries

/-- The job goes on. -/
structure Running (offer : Offer) (paced : Bool) (job : Job) : Prop where
  going : job.finished = false
  paced : job.keeper.paced = paced
  unrefused : offer.unrefused job.keeper.refused

theorem known_awake (known : offer.Known job.keeper) : offer.Known (job.awake jitter) := by
  intro kept listed
  simp only [Job.awake, PackKeeper.slept, Option.map_eq_some_iff] at listed
  rcases listed with ⟨earlier, listed, rfl⟩
  exact known earlier listed

theorem follows_of_known {keeper : PackKeeper} (known : offer.Known keeper) :
    (offer.listFor keeper).entries = offer.entries := by
  unfold listFor
  cases found : keeper.usable offer.serverUrl with
  | none => rfl
  | some kept =>
      simp only [PackKeeper.usable, Option.filter_eq_some_iff] at found
      exact known kept found.1

/-- A pack that has arrived stays in place. -/
theorem arrived_next (arrived : offer.Arrived job) (fair : offer.Fair unpacking paced env)
    (step : job.next unpacking jitter env = some after) : offer.Arrived after := by
  rcases Job.next_inv step with ⟨-, keeper_eq, -⟩
  have follows := follows_of_known (known_awake arrived.1 : offer.Known (job.awake jitter))
  constructor
  · rw [keeper_eq]
    exact known_attempt fair.toAnswered follows
  · rw [keeper_eq, attempt_of_answered fair.toAnswered]
    dsimp only [loopOf, runLoop]
    rw [follows]
    exact current_foldl arrived.2 fun _ => id

theorem arrived_exec {tries : List TryEnv} (arrived : offer.Arrived job)
    (fair : ∀ env ∈ tries, offer.Fair unpacking paced env)
    (executed : (keeping unpacking jitter).exec job tries = some after) : offer.Arrived after := by
  induction tries generalizing job with
  | nil =>
      rcases Option.some.inj executed with rfl
      exact arrived
  | cons env tries ih =>
      rcases Option.bind_eq_some_iff.mp executed with ⟨between, step, rest⟩
      have first := arrived_next arrived (fair env List.mem_cons_self) step
      exact ih first (fun other other_mem => fair other (List.mem_cons_of_mem _ other_mem)) rest

/-! ## Tries that follow the site's list -/

/-- The tries a paced job may still need: two for every pack open before this
one, and one when the next try reads the list. -/
def weight (offer : Offer) (jitter : Duration) (job : Job) : ℕ :=
  2 * offer.openBefore job.keeper.disk job.keeper.refused +
    if ((job.awake jitter).usable offer.serverUrl).isSome then 0 else 1

/-- A list read by a paced try that left downloads is still in use at the next one. -/
theorem usable_of_read {entries : List PackListEntry} {serverUrl : Text}
    (listed : job.keeper.list = some ⟨serverUrl, entries, 0⟩)
    (quiet : ∀ status ∈ job.tried.report, status.outcome.Quiet) (held : 0 < job.tried.heldBack) :
    ((job.awake jitter).usable serverUrl).isSome = true := by
  have gap : job.pause jitter = Duration.fromSecs pacedGapSecs := wait_of_quiet quiet held
  have fresh : Duration.fromSecs pacedGapSecs < Duration.fromSecs listMaxAgeSecs := by decide
  simp [Job.awake, PackKeeper.usable, PackKeeper.slept, listed, gap, fresh]

/-- One try that follows the site's list. -/
theorem next_of_follows (running : offer.Running paced job)
    (follows : (offer.listFor (job.awake jitter)).entries = offer.entries)
    (fair : offer.Fair unpacking paced env) :
    ∃ after, job.next unpacking jitter env = some after ∧
      (offer.Arrived after ∨ offer.Running paced after ∧ offer.Known after.keeper ∧
        offer.weight jitter after < offer.weight jitter job) := by
  rcases @Job.next_of_running unpacking jitter job env running.going with ⟨backoff, step⟩
  refine ⟨_, step, ?_⟩
  have known := @known_attempt unpacking offer (job.awake jitter) env fair.toAnswered follows
  have unrefused := @unrefused_attempt unpacking offer (job.awake jitter) env
    fair.toAnswered (accepted_of_fair fair) running.unrefused
  have same_pace := (@paced_attempt unpacking offer (job.awake jitter) env
    fair.toAnswered).trans running.paced
  cases placed : offer.current job.keeper.disk with
  | true =>
      exact .inl ⟨known, current_attempt fair follows running.unrefused (.inl placed)⟩
  | false =>
      cases limit : paced with
      | false =>
          exact .inl ⟨known, current_attempt fair follows running.unrefused
            (.inr (running.paced.trans limit))⟩
      | true =>
          rcases limit with rfl
          have limited : (job.awake jitter).paced = true := running.paced
          have absent : offer.current (job.awake jitter).disk = false := placed
          cases read : (job.awake jitter).usable offer.serverUrl with
          | none =>
              rcases attempt_of_read fair.toAnswered limited read running.unrefused absent with
                ⟨held, quiet, disk_eq, refused_eq, listed⟩
              refine .inr ⟨⟨Job.finished_eq_false held, same_pace, unrefused⟩, known, ?_⟩
              have in_use := @usable_of_read jitter
                ⟨((job.awake jitter).attempt unpacking env .all).2, backoff,
                  ((job.awake jitter).attempt unpacking env .all).1⟩ _ _ listed quiet held
              simp only [weight, in_use, read, disk_eq, refused_eq]
              exact Nat.lt_succ_self _
          | some kept =>
              have is_read : ((job.awake jitter).usable offer.serverUrl).isSome = true := by
                simp [read]
              rcases attempt_of_send fair limited is_read follows running.unrefused absent with
                arrived | ⟨held, quiet, fewer⟩
              · exact .inl ⟨known, arrived⟩
              · refine .inr ⟨⟨Job.finished_eq_false held, same_pace, unrefused⟩, known, ?_⟩
                have lower : offer.openBefore ((job.awake jitter).attempt unpacking env .all).2.disk
                    ((job.awake jitter).attempt unpacking env .all).2.refused <
                      offer.openBefore job.keeper.disk job.keeper.refused := fewer
                simp only [weight, read, Option.isSome_some, if_true]
                split_ifs <;> omega

/-! ## Tries that follow a list the job has kept -/

/-- The shortest waits that make the kept list too old. -/
def waitsLeft (job : Job) : ℕ :=
  match job.keeper.list with
  | none => 0
  | some kept => (Duration.fromSecs listMaxAgeSecs - kept.age) / Duration.fromSecs retryFloorSecs

theorem steps_lt {limit step age wait : ℕ} (positive : 0 < step) (long : step ≤ wait)
    (young : age + wait < limit) : (limit - (age + wait)) / step < (limit - age) / step := by
  have less : limit - (age + wait) + step ≤ limit - age := by omega
  calc (limit - (age + wait)) / step < (limit - (age + wait)) / step + 1 := Nat.lt_succ_self _
    _ = (limit - (age + wait) + step) / step := (Nat.add_div_right _ positive).symm
    _ ≤ (limit - age) / step := Nat.div_le_div_right less

/-- A list the next try still follows has aged by the wait, and is not too old. -/
theorem aged_of_usable {kept : KeptList} {serverUrl : Text}
    (read : (job.awake jitter).usable serverUrl = some kept) :
    ∃ age, job.keeper.list = some { kept with age := age } ∧
      kept.age = age + job.pause jitter ∧ kept.age < Duration.fromSecs listMaxAgeSecs := by
  simp only [PackKeeper.usable, Job.awake, PackKeeper.slept, Option.filter_eq_some_iff,
    Option.map_eq_some_iff, Bool.and_eq_true, decide_eq_true_eq] at read
  rcases read with ⟨⟨earlier, listed, rfl⟩, -, young⟩
  exact ⟨earlier.age, listed, rfl, young⟩

/-- One try of a job that may follow another list. -/
theorem next_of_running (running : offer.Running paced job)
    (fair : offer.Fair unpacking paced env) :
    ∃ after, job.next unpacking jitter env = some after ∧
      ((offer.Arrived after ∨ offer.EndedOnOther after ∨
          offer.Running paced after ∧ offer.Known after.keeper) ∨
        offer.Running paced after ∧ waitsLeft after < waitsLeft job) := by
  rcases eq_or_ne (offer.listFor (job.awake jitter)).entries offer.entries with follows | other
  · rcases @next_of_follows unpacking jitter offer job env paced running follows fair with
      ⟨after, step, arrived | ⟨still, known, -⟩⟩
    · exact ⟨after, step, .inl (.inl arrived)⟩
    · exact ⟨after, step, .inl (.inr (.inr ⟨still, known⟩))⟩
  · rcases @Job.next_of_running unpacking jitter job env running.going with ⟨backoff, step⟩
    refine ⟨_, step, ?_⟩
    have unrefused := @unrefused_attempt unpacking offer (job.awake jitter) env
      fair.toAnswered (accepted_of_fair fair) running.unrefused
    have same_pace := (@paced_attempt unpacking offer (job.awake jitter) env
      fair.toAnswered).trans running.paced
    have clean := @clean_loopOf unpacking offer (job.awake jitter) env fair.toAnswered
    have tried := @attempt_of_answered unpacking offer (job.awake jitter) env fair.toAnswered
    cases outdated : (offer.loopOf unpacking env (job.awake jitter)).stale with
    | true =>
        have listed : ((job.awake jitter).attempt unpacking env .all).2.list = none := by
          simp [tried, outdated]
        have going : Job.finished ⟨((job.awake jitter).attempt unpacking env .all).2, backoff,
            ((job.awake jitter).attempt unpacking env .all).1⟩ = false := by
          rcases clean.shown outdated with ⟨status, status_mem, unsettled⟩
          apply Bool.eq_false_iff.mpr
          intro ended
          have settled := (settled_iff.mp ended).2 status (by simpa [tried] using status_mem)
          simp [unsettled] at settled
        refine .inl (.inr (.inr ⟨⟨going, same_pace, unrefused⟩, ?_⟩))
        intro kept kept_eq
        simp [listed] at kept_eq
    | false =>
        have listed : ((job.awake jitter).attempt unpacking env .all).2.list =
            some (offer.listFor (job.awake jitter)) := by
          simp [tried, outdated]
        cases ended : Job.finished ⟨((job.awake jitter).attempt unpacking env .all).2, backoff,
            ((job.awake jitter).attempt unpacking env .all).1⟩ with
        | true => exact .inl (.inr (.inl ⟨ended, _, listed, other⟩))
        | false =>
            refine .inr ⟨⟨ended, same_pace, unrefused⟩, ?_⟩
            cases read : (job.awake jitter).usable offer.serverUrl with
            | none => simp [listFor, read] at other
            | some kept =>
                rcases aged_of_usable read with ⟨age, earlier, aged, young⟩
                have kept_eq : offer.listFor (job.awake jitter) = kept := by simp [listFor, read]
                have floor : Duration.fromSecs retryFloorSecs ≤ job.pause jitter :=
                  Backoff.floor_le_wait
                simp only [waitsLeft, listed, kept_eq, earlier, aged]
                exact steps_lt (by decide) floor (aged ▸ young)

/-! ## The whole run -/

/-- Half an hour of the shortest waits, and two tries for every pack. -/
def triesNeeded : ℕ := 361 + 2 * packs.length

theorem weight_lt : offer.weight jitter job < 2 * packs.length := by
  have fewer : offer.openBefore job.keeper.disk job.keeper.refused ≤ offer.before.length :=
    List.countP_le_length
  have length_eq := congrArg List.length offer.split
  simp only [List.length_append, List.length_cons] at length_eq
  unfold weight
  split_ifs <;> omega

theorem waitsLeft_le : waitsLeft job ≤ 360 := by
  unfold waitsLeft
  cases job.keeper.list with
  | none => exact Nat.zero_le _
  | some kept =>
      calc (Duration.fromSecs listMaxAgeSecs - kept.age) / Duration.fromSecs retryFloorSecs
          ≤ Duration.fromSecs listMaxAgeSecs / Duration.fromSecs retryFloorSecs :=
            Nat.div_le_div_right (Nat.sub_le _ _)
        _ = 360 := by decide

theorem leads_of_running (running : offer.Running paced job) :
    (keeping unpacking jitter).Leads (offer.Fair unpacking paced)
      (fun reached => offer.Arrived reached ∨ offer.EndedOnOther reached) triesNeeded job := by
  have first : (keeping unpacking jitter).Leads (offer.Fair unpacking paced)
      (fun reached => offer.Arrived reached ∨ offer.EndedOnOther reached ∨
        offer.Running paced reached ∧ offer.Known reached.keeper) 361 job :=
    Machine.leads_of_measure (offer.Running paced) waitsLeft
      (fun _ running _ fair => next_of_running running fair) running waitsLeft_le
  refine first.trans fun reached passed => ?_
  rcases passed with arrived | ended | ⟨still, known⟩
  · exact Machine.leads_of_goal (.inl arrived)
  · exact Machine.leads_of_goal (.inr ended)
  · have within : offer.weight jitter reached ≤ 2 * packs.length - 1 :=
      Nat.le_sub_one_of_lt weight_lt
    refine Machine.Leads.mono (Machine.leads_of_measure
      (fun job => offer.Running paced job ∧ offer.Known job.keeper) (offer.weight jitter)
      ?_ ⟨still, known⟩ within) (by decide)
    intro state inv env fair
    rcases @next_of_follows unpacking jitter offer state env paced inv.1
      (follows_of_known (known_awake inv.2)) fair with
      ⟨after, step, arrived | ⟨going, followed, lower⟩⟩
    · exact ⟨after, step, .inl (.inl arrived)⟩
    · exact ⟨after, step, .inr ⟨⟨going, followed⟩, lower⟩⟩

end Offer

/-- A pack that the site lists and serves arrives within a bounded number of
tries, and stays, or the job ends on a list that is not the site's. -/
theorem listed_pack_arrives (unpacking : Unpacking) (jitter : Duration) (offer : Offer) (job : Job)
    (going : job.finished = false) (unrefused : knownRefusal job.keeper.refused offer.entry = none)
    (tries : List TryEnv) (fair : ∀ env ∈ tries, offer.Fair unpacking job.keeper.paced env)
    (enough : Offer.triesNeeded ≤ tries.length) :
    ∃ count ≤ Offer.triesNeeded, ∃ reached,
      (keeping unpacking jitter).exec job (tries.take count) = some reached ∧
        (offer.EndedOnOther reached ∨
          ∀ later final, (∀ env ∈ later, offer.Fair unpacking job.keeper.paced env) →
            (keeping unpacking jitter).exec reached later = some final →
              isCurrent final.keeper.disk offer.spec offer.entry = true) := by
  have leads := @Offer.leads_of_running unpacking jitter offer job job.keeper.paced
    ⟨going, rfl, unrefused⟩
  rcases leads tries fair enough with ⟨count, within, reached, executed, arrived | ended⟩
  · refine ⟨count, within, reached, executed, .inr ?_⟩
    intro later final later_fair finished
    exact (Offer.arrived_exec arrived later_fair finished).2
  · exact ⟨count, within, reached, executed, .inl ended⟩

/-! ## A map pack that came later

The site lists heroes-v1 and maps-v1, and serves every pack. -/

namespace MapPack

def sha : Text := List.replicate 64 'a'

def heroes : PackListEntry := ⟨"heroes-v1.tar".toList, "1".toList, sha, 1⟩
def maps : PackListEntry := ⟨"maps-v1.tar".toList, "1".toList, sha, 1⟩

def unpacking : Unpacking where
  sha256Hex _ := sha
  unpackPack _ _ _ _ := .ok sha

def offer : Offer where
  serverUrl := "https://site".toList
  entries := [heroes, maps]
  before := packs.take 4
  spec := ⟨"maps-v1.tar".toList, .mapGlyphs, false⟩
  after := packs.drop 5
  entry := maps
  split := by decide
  selected := by decide

def env : TryEnv := ⟨some offer.serverUrl, .granted, ⟨.ok offer.entries, fun _ => .ok [0]⟩⟩

/-- Nothing is in place, and the last try failed on a list that the job has kept. -/
def job (paced : Bool) (entries : List PackListEntry) : Job where
  keeper := ⟨⟨∅, ∅, fun _ => false⟩, some ⟨offer.serverUrl, entries, 0⟩, ∅, paced⟩
  backoff := ⟨0, 0, 0⟩
  tried := ⟨[⟨heroes.name, .failed .download⟩], 0⟩

theorem fair_env (paced : Bool) : offer.Fair unpacking paced env where
  credentials := rfl
  access := rfl
  list := rfl
  answers _ := rfl
  served := ⟨[0], sha, rfl, by decide⟩
  lasting _ _ _ := rfl

end MapPack

theorem listed_pack_arrives_maps :
    ∃ count ≤ Offer.triesNeeded, ∃ reached,
      (keeping MapPack.unpacking 0).exec (MapPack.job true [MapPack.heroes])
          ((List.replicate Offer.triesNeeded MapPack.env).take count) = some reached ∧
        (MapPack.offer.EndedOnOther reached ∨
          ∀ later final, (∀ env ∈ later, MapPack.offer.Fair MapPack.unpacking true env) →
            (keeping MapPack.unpacking 0).exec reached later = some final →
              isCurrent final.keeper.disk MapPack.offer.spec MapPack.offer.entry = true) := by
  refine listed_pack_arrives MapPack.unpacking 0 MapPack.offer (MapPack.job true [MapPack.heroes])
    (by decide) (by decide) (List.replicate Offer.triesNeeded MapPack.env) ?_ (by simp)
  intro env env_mem
  rw [List.eq_of_mem_replicate env_mem]
  exact MapPack.fair_env true

/-- A kept list may leave out a pack that the site lists: once everything the
kept list names is in place, the job is over. -/
theorem not_arrives_in_every_job :
    ¬∃ bound, ∀ (unpacking : Unpacking) (jitter : Duration) (offer : Offer) (job : Job),
      job.finished = false → ∀ tries : List TryEnv,
        (∀ env ∈ tries, offer.Fair unpacking false env) → bound ≤ tries.length →
          ∃ count ≤ bound, ∃ reached,
            (keeping unpacking jitter).exec job (tries.take count) = some reached ∧
              isCurrent reached.keeper.disk offer.spec offer.entry = true := by
  rintro ⟨bound, arrives⟩
  have fair : ∀ env ∈ List.replicate bound MapPack.env,
      MapPack.offer.Fair MapPack.unpacking false env := by
    intro env env_mem
    rw [List.eq_of_mem_replicate env_mem]
    exact MapPack.fair_env false
  rcases arrives MapPack.unpacking 0 MapPack.offer (MapPack.job false [MapPack.heroes]) (by decide)
    _ fair (by simp) with ⟨count, -, reached, executed, placed⟩
  rw [List.take_replicate] at executed
  generalize min count bound = taken at executed
  cases taken with
  | zero =>
      rcases Option.some.inj executed with rfl
      revert placed
      decide
  | succ more =>
      rcases Option.bind_eq_some_iff.mp executed with ⟨between, step, rest⟩
      have first : (Job.next MapPack.unpacking 0 (MapPack.job false [MapPack.heroes])
          MapPack.env).map
            (fun after => (after.finished, MapPack.offer.current after.keeper.disk)) =
              some (true, false) := by
        decide
      have stepped : Job.next MapPack.unpacking 0 (MapPack.job false [MapPack.heroes])
        MapPack.env = some between := step
      rw [stepped] at first
      rcases Prod.mk.inj (Option.some.inj first) with ⟨ended, absent⟩
      cases more with
      | zero =>
          rcases Option.some.inj rest with rfl
          exact absurd placed (by simpa [Offer.current] using absent)
      | succ more =>
          rcases Option.bind_eq_some_iff.mp rest with ⟨later, next_step, -⟩
          have still : Job.next MapPack.unpacking 0 between MapPack.env = some later := next_step
          have going := (Job.next_inv still).1
          simp [ended] at going

namespace Offer

variable {unpacking : Unpacking} {jitter : Duration} {offer : Offer} {job after : Job}
  {env : TryEnv}

/-- A paced job that waits for a pack on the site's list. -/
structure Stuck (offer : Offer) (job : Job) : Prop where
  paced : job.keeper.paced = true
  known : offer.Known job.keeper
  unrefused : offer.unrefused job.keeper.refused
  absent : offer.current job.keeper.disk = false

/-- A failed download of the pack leaves a paced job where it was. -/
theorem stuck_next (stuck : offer.Stuck job) (failing : offer.Failing env)
    (step : job.next unpacking jitter env = some after) :
    offer.Stuck after ∧ ∀ later ∈ offer.after, ∀ entry,
      isCurrent after.keeper.disk later entry = isCurrent job.keeper.disk later entry := by
  rcases Job.next_inv step with ⟨-, keeper_eq, -⟩
  have limit : (job.awake jitter).paced = true := stuck.paced
  have follows := follows_of_known (known_awake stuck.known : offer.Known (job.awake jitter))
  have untouched := fun later later_mem entry => @untouched_of_failing unpacking offer
    (job.awake jitter) env failing limit follows stuck.unrefused stuck.absent later later_mem entry
  rw [← keeper_eq] at untouched
  refine ⟨⟨?_, ?_, ?_, ?_⟩, ?_⟩
  · rw [keeper_eq, paced_attempt failing.toAnswered]
    exact limit
  · rw [keeper_eq]
    exact known_attempt failing.toAnswered follows
  · rw [keeper_eq]
    exact unrefused_attempt failing.toAnswered (accepted_of_failing failing) stuck.unrefused
  · exact (untouched offer.spec List.mem_cons_self offer.entry).trans stuck.absent
  · intro later later_mem entry
    exact untouched later (List.mem_cons_of_mem _ later_mem) entry

/-- Nothing after a pack whose download keeps failing arrives in a paced job. -/
theorem blocked_by_failing {tries : List TryEnv} {later : PackSpec} {entry : PackListEntry}
    (stuck : offer.Stuck job) (failing : ∀ env ∈ tries, offer.Failing env)
    (later_mem : later ∈ offer.after) (missing : isCurrent job.keeper.disk later entry = false)
    (executed : (keeping unpacking jitter).exec job tries = some after) :
    isCurrent after.keeper.disk later entry = false := by
  induction tries generalizing job with
  | nil =>
      rcases Option.some.inj executed with rfl
      exact missing
  | cons env tries ih =>
      rcases Option.bind_eq_some_iff.mp executed with ⟨between, step, rest⟩
      have first := stuck_next stuck (failing env List.mem_cons_self) step
      refine ih first.1 (fun other other_mem => ?_) ((first.2 later later_mem entry).trans missing)
        rest
      exact failing other (List.mem_cons_of_mem _ other_mem)

end Offer

end ScuffedCrew.Packs
