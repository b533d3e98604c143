import Mathlib.Data.List.Forall2
import Mathlib.Data.List.Pairwise
import ScuffedCrew.Report.Spans

/-!
# Matches that are joined

The matches taken so far fall into groups of matches that hang together.  A new
match joins the groups it touches.  The code keeps the hull of each group, and
the placeholder it gives the hull is that of one of the matches.
-/

namespace ScuffedCrew.Report

universe u

variable {Byte : Type u}

/-- Matches that hang together, and the one whose placeholder stands for them. -/
structure Group (Byte : Type u) where
  members : List (Span Byte)
  namer : Span Byte

def Group.touches (group : Group Byte) (span : Span Byte) : Bool :=
  group.members.any fun member => member.overlaps span

/-- A match joins the groups it touches, and takes its placeholder from the first that was complete
without it. -/
def join (groups : List (Group Byte)) (span : Span Byte) : List (Group Byte) :=
  if span.isEmpty then groups
  else
    let touched := groups.filter fun group => group.touches span
    groups.filter (fun group => !group.touches span) ++
      [⟨touched.flatMap Group.members ++ [span], match touched.head? with
        | some group => group.namer
        | none => span⟩]

/-- The groups of all the matches, taken longest first. -/
def groupSpans (spans : List (Span Byte)) : List (Group Byte) := (sortSpans spans).foldl join []

/-- Two matches of a list that overlap. -/
def Touch (spans : List (Span Byte)) (span other : Span Byte) : Prop :=
  span ∈ spans ∧ other ∈ spans ∧ span.overlaps other

/-- A chain of overlaps leads from one match to the other. -/
def Linked (spans : List (Span Byte)) : Span Byte → Span Byte → Prop :=
  Relation.ReflTransGen (Touch spans)

section Retain

variable {span merged : Span Byte} {placeholder : Option (List Byte)}
  {accepted : List (Span Byte)}

/-- What `retain` leaves is settled by the match it began with: the spans it has taken in do not
overlap the ones still to come. -/
theorem retain_eq (placeholder : Option (List Byte)) (apart : accepted.Pairwise fun one other => ¬one.overlaps other)
    (proper : ∀ other ∈ accepted, other.Proper) (grown : merged.Proper)
    (same : ∀ other ∈ accepted, other.overlaps merged ↔ other.overlaps span) :
    (retain merged placeholder accepted).1 =
        accepted.filter (fun other => !other.overlaps span) ∧
      (retain merged placeholder accepted).2.2 =
        placeholder.or ((accepted.filter fun other => other.overlaps span).head?.map
          Span.placeholder) ∧
      (retain merged placeholder accepted).2.1.Proper ∧
      (retain merged placeholder accepted).2.1.placeholder = merged.placeholder ∧
      ∀ position, (retain merged placeholder accepted).2.1.Covers position ↔
        merged.Covers position ∨
          ∃ other ∈ accepted, other.overlaps span ∧ other.Covers position := by
  induction accepted generalizing merged placeholder with
  | nil => exact ⟨rfl, by simp [retain], grown, rfl, by simp [retain]⟩
  | cons first rest ih =>
      rcases List.pairwise_cons.mp apart with ⟨away, apart⟩
      have proper_first := proper first List.mem_cons_self
      have proper_rest : ∀ other ∈ rest, other.Proper := fun other other_mem =>
        proper other (List.mem_cons_of_mem _ other_mem)
      have same_rest : ∀ other ∈ rest, other.overlaps merged ↔ other.overlaps span :=
        fun other other_mem => same other (List.mem_cons_of_mem _ other_mem)
      have same_first := same first List.mem_cons_self
      unfold retain
      split
      next meets =>
        have meets_span := same_first.mp meets
        have after : ∀ other ∈ rest, other.overlaps (merged.grow first) ↔ other.overlaps span := by
          intro other other_mem
          have proper_other := proper_rest other other_mem
          rw [Span.overlaps_iff_exists proper_other (Span.grow_proper first grown),
            ← same_rest other other_mem, Span.overlaps_iff_exists proper_other grown]
          constructor
          · rintro ⟨position, here, there⟩
            rcases (Span.covers_grow meets).mp there with in_merged | in_first
            · exact ⟨position, here, in_merged⟩
            · have overlap := (Span.overlaps_iff_exists proper_first proper_other).mpr
                ⟨position, in_first, here⟩
              exact absurd overlap (away other other_mem)
          · rintro ⟨position, here, there⟩
            exact ⟨position, here, (Span.covers_grow meets).mpr (.inl there)⟩
        have rest_eq := ih (placeholder.or (some first.placeholder)) apart proper_rest
          (Span.grow_proper first grown) after
        rcases rest_eq with ⟨kept, named, proper_all, text, covers⟩
        refine ⟨?_, ?_, proper_all, text, fun position => ?_⟩
        · rw [List.filter_cons_of_neg (by simpa using meets_span)]
          exact kept
        · have here : (first :: rest).filter (fun other => other.overlaps span) =
              first :: rest.filter fun other => other.overlaps span :=
            List.filter_cons_of_pos meets_span
          rw [here]
          refine named.trans ?_
          cases placeholder <;> rfl
        · refine (covers position).trans ?_
          simp only [Span.covers_grow meets, or_assoc, List.mem_cons, exists_eq_or_imp, meets_span,
            true_and]
      next misses =>
        have misses_span : ¬first.overlaps span := fun meets => misses (same_first.mpr meets)
        rcases ih placeholder apart proper_rest grown same_rest with
          ⟨kept, named, proper_all, text, covers⟩
        refine ⟨?_, ?_, proper_all, text, fun position => ?_⟩
        · rw [List.filter_cons_of_pos (by simpa using misses_span)]
          exact congrArg (first :: ·) kept
        · have here : (first :: rest).filter (fun other => other.overlaps span) =
              rest.filter fun other => other.overlaps span :=
            List.filter_cons_of_neg misses_span
          rw [here]
          exact named
        · refine (covers position).trans ?_
          simp only [List.mem_cons, exists_eq_or_imp, misses_span, Bool.false_eq_true, false_and,
            false_or]

end Retain

/-! ## The groups and their hulls -/

/-- A span the code has accepted stands for a group. -/
structure StandsFor (group : Group Byte) (accepted : Span Byte) : Prop where
  proper : accepted.Proper
  members : ∀ member ∈ group.members, member.Proper
  covers : ∀ position, accepted.Covers position ↔ ∃ member ∈ group.members, member.Covers position
  placeholder : accepted.placeholder = group.namer.placeholder
  linked : ∀ member ∈ group.members, ∀ other ∈ group.members, Linked group.members member other

theorem StandsFor.touches {group : Group Byte} {accepted span : Span Byte}
    (stands : StandsFor group accepted) (proper : span.Proper) :
    group.touches span ↔ accepted.overlaps span := by
  rw [Span.overlaps_iff_exists stands.proper proper]
  simp only [Group.touches, List.any_eq_true]
  constructor
  · rintro ⟨member, member_mem, meets⟩
    rcases (Span.overlaps_iff_exists (stands.members member member_mem) proper).mp meets with
      ⟨position, here, there⟩
    exact ⟨position, (stands.covers position).mpr ⟨member, member_mem, here⟩, there⟩
  · rintro ⟨position, here, there⟩
    rcases (stands.covers position).mp here with ⟨member, member_mem, inside⟩
    exact ⟨member, member_mem, (Span.overlaps_iff_exists (stands.members member member_mem)
      proper).mpr ⟨position, inside, there⟩⟩

theorem Linked.mono {spans more : List (Span Byte)} {span other : Span Byte}
    (fewer : ∀ member ∈ spans, member ∈ more) (linked : Linked spans span other) :
    Linked more span other :=
  Relation.ReflTransGen.mono
    (fun _ _ touch => ⟨fewer _ touch.1, fewer _ touch.2.1, touch.2.2⟩) _ _ linked

theorem Linked.symm {spans : List (Span Byte)} {span other : Span Byte}
    (linked : Linked spans span other) : Linked spans other span := by
  have symmetric : ∀ {one two : Span Byte}, Touch spans one two → Touch spans two one :=
    fun touch => ⟨touch.2.1, touch.1, Span.overlaps_symm touch.2.2⟩
  induction linked with
  | refl => exact .refl
  | tail _ touch ih => exact .head (symmetric touch) ih

/-- Groups that all touch a match hang together with it. -/
theorem linked_of_touched {touched : List (Group Byte)} (span : Span Byte)
    (linked : ∀ group ∈ touched, ∀ member ∈ group.members, ∀ other ∈ group.members,
      Linked group.members member other)
    (touches : ∀ group ∈ touched, group.touches span) :
    ∀ member ∈ touched.flatMap Group.members ++ [span],
      Linked (touched.flatMap Group.members ++ [span]) member span := by
  intro member member_mem
  rcases List.mem_append.mp member_mem with earlier | last
  · rcases List.mem_flatMap.mp earlier with ⟨group, group_mem, here⟩
    have inside : ∀ other ∈ group.members, other ∈ touched.flatMap Group.members ++ [span] :=
      fun other other_mem => List.mem_append_left _ (List.mem_flatMap.mpr ⟨group, group_mem, other_mem⟩)
    rcases List.any_eq_true.mp (touches group group_mem) with ⟨bridge, bridge_mem, meets⟩
    refine ((linked group group_mem member here bridge bridge_mem).mono inside).tail ?_
    exact ⟨inside bridge bridge_mem, by simp, meets⟩
  · rcases List.mem_singleton.mp last with rfl
    exact .refl

/-- The spans accepted so far stand for the groups of the matches so far. -/
structure Merged (seen : List (Span Byte)) (groups : List (Group Byte))
    (accepted : List (Span Byte)) : Prop where
  stands : List.Forall₂ StandsFor groups accepted
  apart : accepted.Pairwise fun one other => ¬one.overlaps other
  members : ∀ span, span ∈ groups.flatMap Group.members ↔ span ∈ seen ∧ span.Proper

theorem forall₂_filter {α β : Type*} {R : α → β → Prop} {p : α → Bool} {q : β → Bool}
    {first : List α} {second : List β} (related : List.Forall₂ R first second)
    (agree : ∀ a b, R a b → p a = q b) : List.Forall₂ R (first.filter p) (second.filter q) := by
  induction related with
  | nil => exact .nil
  | @cons a b as bs here rest ih =>
      rw [List.filter_cons, List.filter_cons, agree a b here]
      split
      · exact .cons here ih
      · exact ih

theorem mem_forall₂_left {α β : Type*} {R : α → β → Prop} {first : List α} {second : List β}
    (related : List.Forall₂ R first second) {a : α} (a_mem : a ∈ first) :
    ∃ b ∈ second, R a b := by
  induction related with
  | nil => cases a_mem
  | cons here rest ih =>
      rcases List.mem_cons.mp a_mem with rfl | later
      · exact ⟨_, List.mem_cons_self, here⟩
      · rcases ih later with ⟨b, b_mem, is_related⟩
        exact ⟨b, List.mem_cons_of_mem _ b_mem, is_related⟩

theorem mem_forall₂_right {α β : Type*} {R : α → β → Prop} {first : List α} {second : List β}
    (related : List.Forall₂ R first second) {b : β} (b_mem : b ∈ second) :
    ∃ a ∈ first, R a b := by
  induction related with
  | nil => cases b_mem
  | cons here rest ih =>
      rcases List.mem_cons.mp b_mem with rfl | later
      · exact ⟨_, List.mem_cons_self, here⟩
      · rcases ih later with ⟨a, a_mem, is_related⟩
        exact ⟨a, List.mem_cons_of_mem _ a_mem, is_related⟩

section Step

variable {seen accepted : List (Span Byte)} {groups : List (Group Byte)} {span : Span Byte}

/-- The new hull stands for the touched groups with the match. -/
theorem standsFor_join {touched : List (Group Byte)} {absorbed : List (Span Byte)}
    (merged : Span Byte) (placeholder : Option (List Byte)) (proper : span.Proper)
    (stands : List.Forall₂ StandsFor touched absorbed)
    (touches : ∀ group ∈ touched, group.touches span) (grown : merged.Proper)
    (text : merged.placeholder = span.placeholder)
    (named : placeholder = absorbed.head?.map Span.placeholder)
    (covers : ∀ position, merged.Covers position ↔
      span.Covers position ∨ ∃ other ∈ absorbed, other.Covers position) :
    StandsFor
      ⟨touched.flatMap Group.members ++ [span], match touched.head? with
        | some group => group.namer
        | none => span⟩
      { merged with placeholder := placeholder.getD merged.placeholder } where
  proper := grown
  members member member_mem := by
    rcases List.mem_append.mp member_mem with earlier | last
    · rcases List.mem_flatMap.mp earlier with ⟨group, group_mem, here⟩
      rcases mem_forall₂_left stands group_mem with ⟨hull, -, stands_for⟩
      exact stands_for.members member here
    · rcases List.mem_singleton.mp last with rfl
      exact proper
  covers position := by
    refine (covers position).trans ?_
    simp only [List.mem_append, List.mem_flatMap, List.mem_singleton]
    constructor
    · rintro (here | ⟨hull, hull_mem, here⟩)
      · exact ⟨span, .inr rfl, here⟩
      · rcases mem_forall₂_right stands hull_mem with ⟨group, group_mem, stands_for⟩
        rcases (stands_for.covers position).mp here with ⟨member, member_mem, inside⟩
        exact ⟨member, .inl ⟨group, group_mem, member_mem⟩, inside⟩
    · rintro ⟨member, ⟨group, group_mem, member_mem⟩ | rfl, inside⟩
      · rcases mem_forall₂_left stands group_mem with ⟨hull, hull_mem, stands_for⟩
        exact .inr ⟨hull, hull_mem, (stands_for.covers position).mpr ⟨member, member_mem, inside⟩⟩
      · exact .inl inside
  placeholder := by
    rw [named]
    cases stands with
    | nil => exact text
    | cons first rest => exact first.placeholder
  linked member member_mem other other_mem := by
    have toSpan := linked_of_touched span (fun group group_mem => by
      rcases mem_forall₂_left stands group_mem with ⟨hull, -, stands_for⟩
      exact stands_for.linked) touches
    exact (toSpan member member_mem).trans (toSpan other other_mem).symm

theorem Merged.accept (merged : Merged seen groups accepted) (ordered : span.start ≤ span.stop) :
    Merged (seen ++ [span]) (join groups span) (accept accepted span) := by
  unfold Report.accept join
  by_cases empty : span.isEmpty
  · rw [if_pos empty, if_pos empty]
    refine ⟨merged.stands, merged.apart, fun other => ?_⟩
    rw [merged.members, List.mem_append, List.mem_singleton]
    constructor
    · rintro ⟨here, proper⟩
      exact ⟨.inl here, proper⟩
    · rintro ⟨here | rfl, proper⟩
      · exact ⟨here, proper⟩
      · have same : other.start = other.stop := of_decide_eq_true empty
        unfold Span.Proper at proper
        omega
  · rw [if_neg empty, if_neg empty]
    have proper : span.Proper := by
      have differs : span.start ≠ span.stop := fun same => empty (decide_eq_true same)
      unfold Span.Proper
      omega
    have accepted_proper : ∀ other ∈ accepted, other.Proper := by
      intro other other_mem
      rcases mem_forall₂_right merged.stands other_mem with ⟨group, -, stands_for⟩
      exact stands_for.proper
    rcases retain_eq none merged.apart accepted_proper proper
      (fun _ _ => Iff.rfl) with ⟨kept, named, grown, text, covers⟩
    have agree : ∀ group hull, StandsFor group hull → group.touches span = hull.overlaps span :=
      fun group hull stands_for => Bool.eq_iff_iff.mpr (stands_for.touches proper)
    have touched : List.Forall₂ StandsFor (groups.filter fun group => group.touches span)
        (accepted.filter fun other => other.overlaps span) := forall₂_filter merged.stands agree
    have left : List.Forall₂ StandsFor (groups.filter fun group => !group.touches span)
        (accepted.filter fun other => !other.overlaps span) :=
      forall₂_filter merged.stands fun group hull stands_for => by rw [agree group hull stands_for]
    have joined := standsFor_join (retain span none accepted).2.1 (retain span none accepted).2.2 proper touched
      (fun group group_mem => (List.mem_filter.mp group_mem).2) grown text (by simpa using named)
      (fun position => by
        refine (covers position).trans ?_
        simp only [List.mem_filter, and_assoc])
    dsimp only
    rw [kept]
    refine ⟨List.rel_append left (.cons joined .nil), ?_, fun other => ?_⟩
    · rw [List.pairwise_append]
      refine ⟨merged.apart.filter _, by simp, fun other other_mem hull hull_mem meets => ?_⟩
      rcases List.mem_singleton.mp hull_mem with rfl
      rcases List.mem_filter.mp other_mem with ⟨there, misses⟩
      have proper_other := accepted_proper other there
      rcases (Span.overlaps_iff_exists proper_other grown).mp meets with ⟨position, here, inside⟩
      rcases (covers position).mp inside with in_span | ⟨third, third_mem, third_meets, in_third⟩
      · have overlap := (Span.overlaps_iff_exists proper_other proper).mpr ⟨position, here, in_span⟩
        simp [overlap] at misses
      · -- A span taken in is not one that is kept, and the accepted spans are apart.
        have differs : third ≠ other := by
          rintro rfl
          simp [third_meets] at misses
        have overlap := (Span.overlaps_iff_exists (accepted_proper third third_mem)
          proper_other).mpr ⟨position, in_third, here⟩
        have symmetric : Std.Symm fun one two : Span Byte => ¬one.overlaps two :=
          ⟨fun one two away meets => away (Span.overlaps_symm meets)⟩
        exact merged.apart.forall third_mem there differs overlap
    · simp only [List.flatMap_append, List.flatMap_cons, List.flatMap_nil, List.append_nil,
        List.mem_append, List.mem_flatMap, List.mem_filter, List.mem_singleton]
      have before := merged.members other
      simp only [List.mem_flatMap] at before
      constructor
      · rintro (⟨group, ⟨group_mem, -⟩, here⟩ | ⟨group, ⟨group_mem, -⟩, here⟩ | rfl)
        · have found := before.mp ⟨group, group_mem, here⟩
          exact ⟨.inl found.1, found.2⟩
        · have found := before.mp ⟨group, group_mem, here⟩
          exact ⟨.inl found.1, found.2⟩
        · exact ⟨.inr rfl, proper⟩
      · rintro ⟨here | rfl, proper_other⟩
        · rcases before.mpr ⟨here, proper_other⟩ with ⟨group, group_mem, inside⟩
          by_cases touches : group.touches span
          · exact .inr (.inl ⟨group, ⟨group_mem, touches⟩, inside⟩)
          · exact .inl ⟨group, ⟨group_mem, by simpa using touches⟩, inside⟩
        · exact .inr (.inr rfl)

end Step

/-- The loop of `apply_spans`, over matches in any order. -/
theorem merged_foldl {spans : List (Span Byte)} (ordered : ∀ span ∈ spans, span.start ≤ span.stop)
    {seen accepted : List (Span Byte)} {groups : List (Group Byte)}
    (merged : Merged seen groups accepted) :
    Merged (seen ++ spans) (spans.foldl join groups) (spans.foldl accept accepted) := by
  induction spans generalizing seen accepted groups with
  | nil => simpa using merged
  | cons span rest ih =>
      rw [List.append_cons seen span rest]
      exact ih (fun other other_mem => ordered other (List.mem_cons_of_mem _ other_mem))
        (merged.accept (ordered span List.mem_cons_self))

theorem merged_spans {spans : List (Span Byte)} (ordered : ∀ span ∈ spans, span.start ≤ span.stop) :
    Merged (sortSpans spans) (groupSpans spans) ((sortSpans spans).foldl accept []) := by
  have empty : Merged ([] : List (Span Byte)) [] [] := ⟨.nil, .nil, by simp⟩
  refine merged_foldl (fun span span_mem => ?_) empty
  exact ordered span ((List.mergeSort_perm spans Span.before).mem_iff.mp span_mem)

end ScuffedCrew.Report
