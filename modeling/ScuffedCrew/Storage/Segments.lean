import Mathlib.Algebra.Order.Ring.Nat
import Mathlib.Data.List.Chain
import Mathlib.Order.Lattice
import ScuffedCrew.Storage.Timeline

/-!
# Hero segments are runs

The segments of a session are the maximal runs of one known hero in capture
order.  A later snapshot extends the last run or opens a new one, so an earlier
segment keeps its index and the decision made about it.
-/

namespace ScuffedCrew.Storage

open Rust

def PersonalMatch.known (snapshot : PersonalMatch) : Bool :=
  !(snapshot.hero.isEmpty || snapshot.hero == "Unknown".toList)

/-- Snapshots in capture order; those of one time stay in the order they came in. -/
def inOrder (snapshots : List PersonalMatch) : List PersonalMatch :=
  snapshots.insertionSort fun first second => first.playedAt ≤ second.playedAt

/-- The maximal runs of one known hero, in capture order. -/
structure HeroRuns (snapshots : List PersonalMatch) (runs : List (List PersonalMatch)) : Prop where
  known : runs.flatten.Perm (snapshots.filter PersonalMatch.known)
  ordered : runs.flatten.Pairwise fun first second => first.playedAt ≤ second.playedAt
  nonempty : ∀ run ∈ runs, run ≠ []
  oneHero : ∀ run ∈ runs, ∀ first ∈ run, ∀ second ∈ run, first.hero = second.hero
  maximal : runs.IsChain fun run next => ∀ last ∈ run, ∀ first ∈ next, last.hero ≠ first.hero

/-- The segment stands for the run. -/
structure Describes (segment : HeroSegment) (run : List PersonalMatch) : Prop where
  hero : ∀ snapshot ∈ run, snapshot.hero = segment.hero
  opening : ∃ first ∈ run.head?, first.role = segment.role ∧ first.playedAt = segment.firstSeen
  closing : ∃ last ∈ run.getLast?, last.playedAt = segment.lastSeen
  snapshots : segment.snapshots = run.length

section Loop

variable {segments : List HeroSegment} {runs : List (List PersonalMatch)}
  {snapshot : PersonalMatch} {ordered : List PersonalMatch}

/-- The segments after a part of the loop stand for the runs of the known snapshots so far. -/
structure Described (segments : List HeroSegment) (runs : List (List PersonalMatch)) : Prop where
  describes : List.Forall₂ Describes segments runs
  nonempty : ∀ run ∈ runs, run ≠ []
  maximal : segments.IsChain fun segment next => segment.hero ≠ next.hero

theorem describes_opened : Describes (HeroSegment.opened snapshot) [snapshot] where
  hero := by simp [HeroSegment.opened]
  opening := by simp [HeroSegment.opened]
  closing := by simp [HeroSegment.opened]
  snapshots := by simp [HeroSegment.opened]

theorem describes_extended {segment : HeroSegment} {run : List PersonalMatch}
    (describes : Describes segment run) (same : segment.hero = snapshot.hero) :
    Describes (segment.extended snapshot) (run ++ [snapshot]) where
  hero := by
    intro other other_mem
    rcases List.mem_append.mp other_mem with earlier | last
    · exact describes.hero other earlier
    · rw [List.mem_singleton.mp last]
      exact same.symm
  opening := by
    rcases describes.opening with ⟨first, first_mem, is_first⟩
    refine ⟨first, ?_, is_first⟩
    rw [Option.mem_def] at first_mem ⊢
    simp [List.head?_append, first_mem]
  closing := by simp [HeroSegment.extended]
  snapshots := by simp [HeroSegment.extended, describes.snapshots]

/-- The last segment stands for the last run. -/
theorem describes_last {front : List HeroSegment} {last : HeroSegment}
    (describes : List.Forall₂ Describes (front ++ [last]) runs) :
    ∃ frontRuns lastRun, List.Forall₂ Describes front frontRuns ∧ Describes last lastRun ∧
      runs = frontRuns ++ [lastRun] := by
  rw [← List.forall₂_reverse_iff, List.reverse_append, List.reverse_singleton,
    List.singleton_append, List.forall₂_cons_left_iff] at describes
  rcases describes with ⟨lastRun, others, describes, rest, reversed⟩
  refine ⟨others.reverse, lastRun, ?_, describes, ?_⟩
  · rw [← List.forall₂_reverse_iff, List.reverse_reverse]
    exact rest
  · rw [← List.reverse_cons, ← reversed, List.reverse_reverse]

theorem append_of_not_known (unknown : snapshot.known = false) :
    HeroSegment.append segments snapshot = segments := by
  have skipped : (snapshot.hero.isEmpty || snapshot.hero == "Unknown".toList) = true := by
    rwa [PersonalMatch.known, Bool.not_eq_eq_eq_not, Bool.not_false] at unknown
  rw [HeroSegment.append, if_pos skipped]

/-- A known snapshot extends the last run when it has its hero, and is a run of its own else. -/
theorem append_of_known (segments : List HeroSegment) (known : snapshot.known = true) :
    (∃ front last, segments = front ++ [last] ∧ last.hero = snapshot.hero ∧
        HeroSegment.append segments snapshot = front ++ [last.extended snapshot]) ∨
      ((∀ last ∈ segments.getLast?, last.hero ≠ snapshot.hero) ∧
        HeroSegment.append segments snapshot = segments ++ [HeroSegment.opened snapshot]) := by
  have taken : ¬ (snapshot.hero.isEmpty || snapshot.hero == "Unknown".toList) = true := by
    simpa [PersonalMatch.known] using known
  rw [HeroSegment.append, if_neg taken]
  rcases List.eq_nil_or_concat' segments with rfl | ⟨front, last, rfl⟩
  · right
    simp
  · by_cases same : last.hero = snapshot.hero
    · left
      exact ⟨front, last, rfl, same, by simp [same]⟩
    · right
      simp [same]

theorem described_append (known : snapshot.known = true) (described : Described segments runs) :
    ∃ after, Described (HeroSegment.append segments snapshot) after ∧
      after.flatten = runs.flatten ++ [snapshot] := by
  rcases append_of_known segments known with ⟨front, last, rfl, same, extended⟩ | ⟨differs, opened⟩
  · rcases describes_last described.describes with ⟨frontRuns, lastRun, rest, describes, rfl⟩
    rw [extended]
    refine ⟨frontRuns ++ [lastRun ++ [snapshot]], ⟨?_, ?_, ?_⟩, by simp⟩
    · exact List.rel_append rest (List.Forall₂.cons (describes_extended describes same) .nil)
    · intro run run_mem
      rcases List.mem_append.mp run_mem with earlier | is_last
      · exact described.nonempty run (List.mem_append_left _ earlier)
      · rw [List.mem_singleton.mp is_last]
        simp
    · rcases List.isChain_append.mp described.maximal with ⟨front_maximal, -, parted⟩
      refine List.isChain_append.mpr ⟨front_maximal, List.isChain_singleton _, ?_⟩
      intro before before_last next next_first
      rw [List.head?_cons, Option.mem_some_iff] at next_first
      subst next_first
      exact parted before before_last last (by simp)
  · rw [opened]
    refine ⟨runs ++ [[snapshot]], ⟨?_, ?_, ?_⟩, by simp⟩
    · exact List.rel_append described.describes (List.Forall₂.cons describes_opened .nil)
    · intro run run_mem
      rcases List.mem_append.mp run_mem with earlier | is_last
      · exact described.nonempty run earlier
      · rw [List.mem_singleton.mp is_last]
        simp
    · refine List.isChain_append.mpr ⟨described.maximal, List.isChain_singleton _, ?_⟩
      intro before before_last next next_first
      rw [List.head?_cons, Option.mem_some_iff] at next_first
      subst next_first
      exact differs before before_last

/-- The loop: the segments stand for runs that together are the known snapshots, in order. -/
theorem described_foldl (described : Described segments runs) :
    ∃ after, Described (ordered.foldl HeroSegment.append segments) after ∧
      after.flatten = runs.flatten ++ ordered.filter PersonalMatch.known := by
  induction ordered generalizing segments runs with
  | nil => exact ⟨runs, described, by simp⟩
  | cons snapshot ordered ih =>
      rw [List.foldl_cons, List.filter_cons]
      cases known : snapshot.known with
      | false =>
          rw [append_of_not_known known]
          simpa using ih described
      | true =>
          rcases described_append known described with ⟨mid, described_mid, parts⟩
          rcases ih described_mid with ⟨after, described_after, all⟩
          exact ⟨after, described_after, by simp [all, parts]⟩

end Loop

section Decisions

variable {segments : List HeroSegment} {segment : HeroSegment} {resolution : SegmentResolution}
  {resolutions : List SegmentResolution} {action : Text} {index : ℕ}

/-- The decision on a segment: the last one with its index. -/
def decisionOn (resolutions : List SegmentResolution) (index : ℕ) : Option Text :=
  ((resolutions.filter fun resolution => resolution.segment == index).getLast?).map
    SegmentResolution.action

/-- What no decision changes. -/
structure SameRun (segment other : HeroSegment) : Prop where
  hero : segment.hero = other.hero
  role : segment.role = other.role
  firstSeen : segment.firstSeen = other.firstSeen
  lastSeen : segment.lastSeen = other.lastSeen
  snapshots : segment.snapshots = other.snapshots

def applyResolutions (resolutions : List SegmentResolution) (segments : List HeroSegment) :
    List HeroSegment :=
  resolutions.foldl (fun segments resolution =>
    segments.modify resolution.segment fun segment => segment.resolve resolution.action) segments

theorem applyResolutions_concat :
    applyResolutions (resolutions ++ [resolution]) segments =
      (applyResolutions resolutions segments).modify resolution.segment fun segment =>
        segment.resolve resolution.action := by
  simp [applyResolutions]

theorem getElem?_applyResolutions (at_index : segments[index]? = some segment) :
    ∃ after, (applyResolutions resolutions segments)[index]? = some after ∧
      SameRun after segment ∧
      after.resolution = (decisionOn resolutions index).or segment.resolution := by
  induction resolutions using List.reverseRecOn with
  | nil => exact ⟨segment, at_index, ⟨rfl, rfl, rfl, rfl, rfl⟩, by simp [decisionOn]⟩
  | append_singleton resolutions resolution ih =>
      rcases ih with ⟨after, found, same, decision⟩
      rw [applyResolutions_concat, List.getElem?_modify, found]
      by_cases named : resolution.segment = index
      · refine ⟨after.resolve resolution.action, by simp [named], ?_, ?_⟩
        · exact ⟨same.hero, same.role, same.firstSeen, same.lastSeen, same.snapshots⟩
        · simp [decisionOn, List.filter_append, named, HeroSegment.resolve]
      · refine ⟨after, by simp [named], same, ?_⟩
        rw [decision]
        simp [decisionOn, List.filter_append, named]

theorem length_applyResolutions :
    (applyResolutions resolutions segments).length = segments.length := by
  induction resolutions using List.reverseRecOn with
  | nil => rfl
  | append_singleton resolutions resolution ih =>
      rw [applyResolutions_concat, List.length_modify, ih]

theorem forall₂_applyResolutions :
    List.Forall₂ SameRun (applyResolutions resolutions segments) segments := by
  refine List.forall₂_iff_get.mpr ⟨length_applyResolutions, ?_⟩
  intro index inside inside'
  rcases @getElem?_applyResolutions segments _ resolutions index (List.getElem?_eq_getElem inside')
    with ⟨after, found, same, -⟩
  rw [List.getElem?_eq_getElem inside, Option.some.injEq] at found
  simpa [found] using same

/-- The decisions of another snapshot do not touch the segments they do not name. -/
theorem decisionOn_insertResolution (other : resolution.segment ≠ index) :
    decisionOn (insertResolution resolution resolutions) index = decisionOn resolutions index := by
  have same : (insertResolution resolution resolutions).filter
      (fun resolution => resolution.segment == index) =
      resolutions.filter fun resolution => resolution.segment == index := by
    induction resolutions with
    | nil => simp [insertResolution, other]
    | cons first rest ih =>
        unfold insertResolution
        split
        next => simp [other]
        next =>
          split
          next replaced => simp [other, ← replaced]
          next => simp [List.filter_cons, ih]
  rw [decisionOn, same, decisionOn]

theorem decisionOn_collect {snapshots : List PersonalMatch} {further : PersonalMatch}
    (unnamed : ∀ resolution ∈ further.segmentResolutions, resolution.segment ≠ index) :
    decisionOn (collectSegmentResolutions (snapshots ++ [further])) index =
      decisionOn (collectSegmentResolutions snapshots) index := by
  unfold collectSegmentResolutions
  rw [List.flatMap_append, List.foldl_append, List.flatMap_singleton]
  generalize (snapshots.flatMap PersonalMatch.segmentResolutions).foldl
    (fun byIndex resolution => insertResolution resolution byIndex) [] = collected
  generalize further.segmentResolutions = own at unnamed ⊢
  induction own generalizing collected with
  | nil => rfl
  | cons first rest ih =>
      rcases List.forall_mem_cons.mp unnamed with ⟨unnamed_first, unnamed_rest⟩
      rw [List.foldl_cons, ih _ unnamed_rest, decisionOn_insertResolution unnamed_first]

end Decisions

section Stability

variable {segments : List HeroSegment} {segment : HeroSegment}
  {earlier later ordered : List PersonalMatch} {further snapshot : PersonalMatch} {index : ℕ}

theorem orderedInsert_concat (before : snapshot.playedAt ≤ further.playedAt) :
    (ordered ++ [further]).orderedInsert
        (fun first second => first.playedAt ≤ second.playedAt) snapshot =
      ordered.orderedInsert (fun first second => first.playedAt ≤ second.playedAt) snapshot ++
        [further] := by
  induction ordered with
  | nil => simp [before]
  | cons first rest ih =>
      by_cases at_front : snapshot.playedAt ≤ first.playedAt
      · simp [at_front]
      · simp [at_front, ih]

theorem orderedInsert_latest (after : ∀ other ∈ ordered, other.playedAt < further.playedAt) :
    ordered.orderedInsert (fun first second => first.playedAt ≤ second.playedAt) further =
      ordered ++ [further] := by
  induction ordered with
  | nil => rfl
  | cons first rest ih =>
      rcases List.forall_mem_cons.mp after with ⟨after_first, after_rest⟩
      simp [not_le_of_gt after_first, ih after_rest]

/-- A snapshot that is not before any other comes last, wherever it stands among the others. -/
theorem inOrder_further (not_after : ∀ other ∈ earlier, other.playedAt ≤ further.playedAt)
    (before : ∀ other ∈ later, other.playedAt < further.playedAt) :
    inOrder (earlier ++ further :: later) = inOrder (earlier ++ later) ++ [further] := by
  induction earlier with
  | nil =>
      refine orderedInsert_latest ?_
      intro other other_mem
      exact before other ((List.mem_insertionSort _).mp other_mem)
  | cons first rest ih =>
      rcases List.forall_mem_cons.mp not_after with ⟨not_after_first, not_after_rest⟩
      have sorted := ih not_after_rest
      unfold inOrder at sorted ⊢
      rw [List.cons_append, List.insertionSort_cons, sorted, orderedInsert_concat not_after_first]
      rfl

theorem getElem?_append (at_index : segments[index]? = some segment) :
    ∃ after, (HeroSegment.append segments snapshot)[index]? = some after ∧
      after.hero = segment.hero ∧ after.role = segment.role ∧
      after.firstSeen = segment.firstSeen ∧ after.resolution = segment.resolution := by
  cases known : snapshot.known with
  | false => exact ⟨segment, by rw [append_of_not_known known, at_index], rfl, rfl, rfl, rfl⟩
  | true =>
      have inside : index < segments.length := (List.getElem?_eq_some_iff.mp at_index).1
      rcases append_of_known segments known with ⟨front, last, rfl, -, extended⟩ | ⟨-, opened⟩
      · rw [extended]
        by_cases in_front : index < front.length
        · rw [List.getElem?_append_left in_front] at at_index ⊢
          exact ⟨segment, at_index, rfl, rfl, rfl, rfl⟩
        · have at_last : index - front.length = 0 := by
            rw [List.length_append, List.length_singleton] at inside
            omega
          rw [List.getElem?_append_right (by omega), at_last, List.getElem?_cons_zero] at at_index ⊢
          rcases Option.some.inj at_index with rfl
          exact ⟨last.extended snapshot, rfl, rfl, rfl, rfl, rfl⟩
      · rw [opened, List.getElem?_append_left inside]
        exact ⟨segment, at_index, rfl, rfl, rfl, rfl⟩

end Stability

/-- The segments of the loop, before any decision. -/
def runSegments (snapshots : List PersonalMatch) : List HeroSegment :=
  ((inOrder snapshots).foldl HeroSegment.append []).map fun segment =>
    { segment with confirmed := decide (2 ≤ segment.snapshots) }

section Derived

variable {snapshots earlier later : List PersonalMatch} {further : PersonalMatch}
  {resolutions : List SegmentResolution} {segment : HeroSegment} {index : ℕ}

theorem deriveHeroSegments_eq : deriveHeroSegments snapshots resolutions =
    applyResolutions resolutions (runSegments snapshots) := rfl

theorem resolution_append {segments : List HeroSegment} {snapshot : PersonalMatch}
    (unresolved : ∀ segment ∈ segments, segment.resolution = none) :
    ∀ segment ∈ HeroSegment.append segments snapshot, segment.resolution = none := by
  cases known : snapshot.known with
  | false =>
      rw [append_of_not_known known]
      exact unresolved
  | true =>
      intro segment segment_mem
      rcases append_of_known segments known with ⟨front, last, rfl, -, extended⟩ | ⟨-, opened⟩
      · rw [extended, List.mem_append, List.mem_singleton] at segment_mem
        rcases segment_mem with in_front | rfl
        · exact unresolved segment (List.mem_append_left _ in_front)
        · exact unresolved last (by simp)
      · rw [opened, List.mem_append, List.mem_singleton] at segment_mem
        rcases segment_mem with earlier | rfl
        · exact unresolved segment earlier
        · rfl

theorem resolution_runSegments : ∀ segment ∈ runSegments snapshots, segment.resolution = none := by
  have loop : ∀ (ordered : List PersonalMatch) segments,
      (∀ segment ∈ segments, HeroSegment.resolution segment = none) →
      ∀ segment ∈ ordered.foldl HeroSegment.append segments, segment.resolution = none := by
    intro ordered
    induction ordered with
    | nil => exact fun _ unresolved => unresolved
    | cons first rest ih => exact fun _ unresolved => ih _ (resolution_append unresolved)
  intro segment segment_mem
  rcases List.mem_map.mp segment_mem with ⟨before, before_mem, rfl⟩
  exact loop (inOrder snapshots) [] (by simp) before before_mem

/-- What a further snapshot leaves of a segment. -/
theorem runSegments_further (not_after : ∀ other ∈ earlier, other.playedAt ≤ further.playedAt)
    (before : ∀ other ∈ later, other.playedAt < further.playedAt)
    (at_index : (runSegments (earlier ++ later))[index]? = some segment) :
    ∃ after, (runSegments (earlier ++ further :: later))[index]? = some after ∧
      after.hero = segment.hero ∧ after.role = segment.role ∧
      after.firstSeen = segment.firstSeen := by
  unfold runSegments at at_index ⊢
  rw [inOrder_further not_after before, List.foldl_concat, List.getElem?_map]
  rw [List.getElem?_map, Option.map_eq_some_iff] at at_index
  rcases at_index with ⟨run, found, rfl⟩
  rcases @getElem?_append _ _ further _ found with ⟨after, found_after, hero, role, first, -⟩
  exact ⟨{ after with confirmed := decide (2 ≤ after.snapshots) }, by simp [found_after], hero, role,
    first⟩

/-- A derived segment is its run with the decision on its index. -/
theorem getElem?_deriveHeroSegments
    (at_index : (deriveHeroSegments snapshots resolutions)[index]? = some segment) :
    ∃ run, (runSegments snapshots)[index]? = some run ∧ SameRun segment run ∧
      segment.resolution = decisionOn resolutions index := by
  have inside := (List.getElem?_eq_some_iff.mp at_index).1
  rw [deriveHeroSegments_eq, length_applyResolutions] at inside
  have found := List.getElem?_eq_getElem inside
  have unresolved := resolution_runSegments _ (List.getElem_mem inside)
  rcases @getElem?_applyResolutions _ _ resolutions _ found with ⟨after, at_after, same, decision⟩
  rw [deriveHeroSegments_eq, at_after, Option.some.injEq] at at_index
  subst at_index
  rw [unresolved, Option.or_none] at decision
  exact ⟨_, found, same, decision⟩

/-- The segment at an index keeps its run, and its decision while the decisions keep it. -/
theorem deriveHeroSegments_further (others : List SegmentResolution)
    (not_after : ∀ other ∈ earlier, other.playedAt ≤ further.playedAt)
    (before : ∀ other ∈ later, other.playedAt < further.playedAt)
    (at_index : (deriveHeroSegments (earlier ++ later) resolutions)[index]? = some segment) :
    ∃ after, (deriveHeroSegments (earlier ++ further :: later) others)[index]? = some after ∧
      after.hero = segment.hero ∧ after.role = segment.role ∧
      after.firstSeen = segment.firstSeen ∧
      (decisionOn others index = decisionOn resolutions index →
        after.resolution = segment.resolution) := by
  rcases getElem?_deriveHeroSegments at_index with ⟨run, found, same, decision⟩
  rcases runSegments_further not_after before found with ⟨further_run, found', hero, role, first⟩
  rcases @getElem?_applyResolutions _ _ others _ found' with ⟨after, at_after, same', decision'⟩
  have unresolved := resolution_runSegments _ (List.mem_of_getElem? found')
  rw [unresolved, Option.or_none] at decision'
  refine ⟨after, at_after, ?_, ?_, ?_, ?_⟩
  · rw [same'.hero, hero, same.hero]
  · rw [same'.role, role, same.role]
  · rw [same'.firstSeen, first, same.firstSeen]
  · intro same_decision
    rw [decision', same_decision, decision]

theorem described_runSegments (snapshots : List PersonalMatch) :
    ∃ runs, Described (runSegments snapshots) runs ∧
      runs.flatten = (inOrder snapshots).filter PersonalMatch.known := by
  have start : Described [] [] := ⟨.nil, by simp, List.isChain_nil⟩
  rcases @described_foldl _ _ (inOrder snapshots) start with ⟨runs, described, all⟩
  refine ⟨runs, ⟨?_, described.nonempty, ?_⟩, by simpa using all⟩
  · rw [runSegments, List.forall₂_map_left_iff]
    refine described.describes.imp ?_
    intro segment run describes
    exact ⟨describes.hero, describes.opening, describes.closing, describes.snapshots⟩
  · rw [runSegments, List.isChain_map]
    exact described.maximal

theorem isChain_runs {segments : List HeroSegment} {runs : List (List PersonalMatch)}
    (describes : List.Forall₂ Describes segments runs)
    (maximal : segments.IsChain fun segment next => segment.hero ≠ next.hero) :
    runs.IsChain fun run next => ∀ last ∈ run, ∀ first ∈ next, last.hero ≠ first.hero := by
  induction describes with
  | nil => exact List.isChain_nil
  | cons first rest ih =>
      cases rest with
      | nil => exact List.isChain_singleton _
      | cons second rest =>
          rw [List.isChain_cons_cons] at maximal ⊢
          refine ⟨?_, ih maximal.2⟩
          intro last last_mem opening opening_mem
          rw [first.hero last last_mem, second.hero opening opening_mem]
          exact maximal.1

theorem heroRuns {segments : List HeroSegment} {runs : List (List PersonalMatch)}
    (described : Described segments runs)
    (all : runs.flatten = (inOrder snapshots).filter PersonalMatch.known) :
    HeroRuns snapshots runs where
  known := by
    rw [all]
    exact (List.perm_insertionSort _ _).filter _
  ordered := by
    rw [all]
    exact (List.pairwise_insertionSort _ _).filter _
  nonempty := described.nonempty
  oneHero := by
    intro run run_mem first first_mem second second_mem
    rcases List.getElem_of_mem run_mem with ⟨index, inside, rfl⟩
    have inside' : index < segments.length := by rwa [described.describes.length_eq]
    have describes := described.describes.get inside' inside
    rw [describes.hero first first_mem, describes.hero second second_mem]
  maximal := isChain_runs described.describes described.maximal

theorem describes_of_sameRun {derived segments : List HeroSegment}
    {runs : List (List PersonalMatch)} (same : List.Forall₂ SameRun derived segments)
    (describes : List.Forall₂ Describes segments runs) : List.Forall₂ Describes derived runs := by
  induction same generalizing runs with
  | nil => exact describes
  | @cons segment run _ _ first _ ih =>
      cases describes with
      | cons one rest =>
          refine List.Forall₂.cons ⟨?_, ?_, ?_, ?_⟩ (ih rest)
          · rw [first.hero]
            exact one.hero
          · rw [first.role, first.firstSeen]
            exact one.opening
          · rw [first.lastSeen]
            exact one.closing
          · rw [first.snapshots]
            exact one.snapshots

theorem heroes_applyResolutions {segments : List HeroSegment} :
    (applyResolutions resolutions segments).map HeroSegment.hero =
      segments.map HeroSegment.hero := by
  rw [← List.forall₂_eq_eq_eq, List.forall₂_map_left_iff, List.forall₂_map_right_iff]
  exact forall₂_applyResolutions.imp fun _ _ same => same.hero

theorem sum_snapshots {segments : List HeroSegment} {runs : List (List PersonalMatch)}
    (describes : List.Forall₂ Describes segments runs) :
    (segments.map HeroSegment.snapshots).sum = runs.flatten.length := by
  induction describes with
  | nil => rfl
  | cons first rest ih => simp [first.snapshots, ih]

end Derived

/-- The decision of a member is the one on the segment it names. -/
theorem decisionOn_withResolution {resolutions : List SegmentResolution} {index : ℕ} {action : Text}
    (known : action = segmentConfirm ∨ action = segmentDismiss) :
    decisionOn (withResolution resolutions index action) index = some action := by
  have others : (resolutions.filter fun resolution => resolution.segment != index).filter
      (fun resolution => resolution.segment == index) = [] := by
    rw [List.filter_filter, List.filter_eq_nil_iff]
    simp
  have one : ((withResolution resolutions index action).filter fun resolution =>
      resolution.segment == index).Perm [⟨index, action⟩] := by
    unfold withResolution
    simp only [known, if_true]
    refine ((List.perm_insertionSort _ _).filter _).trans ?_
    rw [List.filter_append, others]
    simp
  rw [decisionOn, List.perm_singleton.mp one]
  rfl

/-- The segment at an index is still the one it was. -/
def Stays (index : ℕ) (before after : List HeroSegment) : Prop :=
  ∀ segment, before[index]? = some segment →
    ∃ same, after[index]? = some same ∧ same.hero = segment.hero ∧
      same.firstSeen = segment.firstSeen ∧ same.resolution = segment.resolution

/-- **The segments of a session are the maximal runs of one known hero in capture order, and a
further snapshot leaves every earlier segment its index, its hero, its start and the decision
made about it.** -/
theorem segments_are_runs_and_stay (snapshots : List PersonalMatch) :
    (∀ resolutions, ∃ runs, HeroRuns snapshots runs ∧
        List.Forall₂ Describes (deriveHeroSegments snapshots resolutions) runs) ∧
      (∀ resolutions, (deriveHeroSegments snapshots resolutions).IsChain fun segment next =>
        segment.hero ≠ next.hero) ∧
      (∀ resolutions, ((deriveHeroSegments snapshots resolutions).map
        HeroSegment.snapshots).sum = (snapshots.filter PersonalMatch.known).length) ∧
      (∀ resolutions earlier later further, snapshots = earlier ++ later →
        (∀ other ∈ earlier, other.playedAt ≤ further.playedAt) →
        (∀ other ∈ later, other.playedAt < further.playedAt) →
        ∀ index, Stays index (deriveHeroSegments snapshots resolutions)
          (deriveHeroSegments (earlier ++ further :: later) resolutions)) ∧
      ∀ further, (∀ other ∈ snapshots, other.playedAt ≤ further.playedAt) →
        ∀ index, (∀ resolution ∈ further.segmentResolutions, resolution.segment ≠ index) →
          Stays index (deriveHeroSegments snapshots (collectSegmentResolutions snapshots))
            (deriveHeroSegments (snapshots ++ [further])
              (collectSegmentResolutions (snapshots ++ [further]))) := by
  rcases described_runSegments snapshots with ⟨runs, described, all⟩
  have derived : ∀ resolutions,
      List.Forall₂ Describes (deriveHeroSegments snapshots resolutions) runs := by
    intro resolutions
    rw [deriveHeroSegments_eq]
    exact describes_of_sameRun forall₂_applyResolutions described.describes
  refine ⟨?_, ?_, ?_, ?_, ?_⟩
  · intro resolutions
    exact ⟨runs, heroRuns described all, derived resolutions⟩
  · intro resolutions
    rw [← List.isChain_map, deriveHeroSegments_eq, heroes_applyResolutions, List.isChain_map]
    exact described.maximal
  · intro resolutions
    rw [sum_snapshots (derived resolutions), all]
    exact ((List.perm_insertionSort _ _).filter _).length_eq
  · rintro resolutions earlier later further rfl not_after before index segment at_index
    rcases deriveHeroSegments_further resolutions not_after before at_index with
      ⟨after, found, hero, -, first, decision⟩
    exact ⟨after, found, hero, first, decision rfl⟩
  · intro further not_after index unnamed segment at_index
    rw [← List.append_nil snapshots] at at_index
    rcases deriveHeroSegments_further
      (collectSegmentResolutions (snapshots ++ [further])) not_after (by simp) at_index
      with ⟨after, found, hero, -, first, decision⟩
    rw [List.append_nil] at decision
    exact ⟨after, found, hero, first, decision (decisionOn_collect unnamed)⟩

end ScuffedCrew.Storage
