import ScuffedCrew.Report.Merging

/-!
# What is replaced

Every union of matches that hang together becomes one placeholder, and the other
bytes stay as they are.  The placeholder is that of a longest match of the union
when the match that names its group has it.
-/

namespace ScuffedCrew.Report

universe u

variable {Byte : Type u}

/-- The text with a placeholder where a piece starts, and without the bytes the pieces cover. -/
def fill (pieces : List (Span Byte)) : ℕ → List Byte → List Byte
  | _, [] => []
  | position, byte :: rest =>
      (match pieces.find? fun piece => decide (piece.start = position) with
        | some piece => piece.placeholder
        | none => []) ++
      (if pieces.any fun piece => decide (piece.Covers position) then [] else [byte]) ++
      fill pieces (position + 1) rest

section Fill

variable {pieces rest : List (Span Byte)} {piece : Span Byte} {position : ℕ}
  {text first second : List Byte}

@[simp]
theorem fill_nil_pieces : fill [] position text = text := by
  induction text generalizing position with
  | nil => rfl
  | cons byte rest ih => simp [fill, ih]

theorem fill_append : fill pieces position (first ++ second) =
    fill pieces position first ++ fill pieces (position + first.length) second := by
  induction first generalizing position with
  | nil => rfl
  | cons byte bytes ih =>
      have next : position + 1 + bytes.length = position + (bytes.length + 1) := by omega
      simp only [List.cons_append, fill, ih, List.length_cons, next, List.append_assoc]

/-- A piece that is over says nothing about the bytes after it. -/
theorem fill_cons_over (over_here : piece.stop ≤ position) (proper : piece.Proper) :
    fill (piece :: rest) position text = fill rest position text := by
  unfold Span.Proper at proper
  induction text generalizing position with
  | nil => rfl
  | cons byte bytes ih =>
      have starts : piece.start ≠ position := by omega
      have covers : ¬piece.Covers position := by
        unfold Span.Covers
        omega
      simp only [fill, List.find?_cons, List.any_cons, starts, covers, decide_false, Bool.false_or]
      rw [ih (by omega)]

theorem fill_plain (outside : ∀ other ∈ pieces, position + text.length ≤ other.start) :
    fill pieces position text = text := by
  induction text generalizing position with
  | nil => rfl
  | cons byte bytes ih =>
      rw [List.length_cons] at outside
      have starts : pieces.find? (fun piece => decide (piece.start = position)) = none := by
        apply List.find?_eq_none.mpr
        intro other other_mem
        have later := outside other other_mem
        simp only [decide_eq_true_eq]
        omega
      have covers : pieces.any (fun piece => decide (piece.Covers position)) = false := by
        apply List.any_eq_false.mpr
        intro other other_mem
        have later := outside other other_mem
        rw [decide_eq_true_eq]
        unfold Span.Covers
        omega
      simp only [fill, starts, covers]
      rw [ih fun other other_mem => by have later := outside other other_mem; omega]
      rfl

/-- The bytes of a piece after its first. -/
theorem fill_inside (started : piece.start < position) (fits : position + text.length ≤ piece.stop)
    (later : ∀ other ∈ rest, piece.stop ≤ other.start) :
    fill (piece :: rest) position text = [] := by
  induction text generalizing position with
  | nil => rfl
  | cons byte bytes ih =>
      rw [List.length_cons] at fits
      have starts : (piece :: rest).find? (fun other => decide (other.start = position)) = none := by
        apply List.find?_eq_none.mpr
        intro other other_mem
        rcases List.mem_cons.mp other_mem with rfl | other_mem
        · simp only [decide_eq_true_eq]
          omega
        · have after := later other other_mem
          simp only [decide_eq_true_eq]
          omega
      have covers : piece.Covers position := ⟨by omega, by omega⟩
      simp only [fill, starts, List.any_cons, covers, decide_true, Bool.true_or]
      rw [ih (by omega) (by omega)]
      rfl

theorem fill_piece (proper : piece.Proper) (length : text.length = piece.stop - piece.start)
    (later : ∀ other ∈ rest, piece.stop ≤ other.start) :
    fill (piece :: rest) piece.start text = piece.placeholder := by
  unfold Span.Proper at proper
  cases text with
  | nil => simp only [List.length_nil] at length; omega
  | cons byte bytes =>
      rw [List.length_cons] at length
      have covers : piece.Covers piece.start := ⟨Nat.le_refl _, proper⟩
      have inside : fill (piece :: rest) (piece.start + 1) bytes = [] :=
        fill_inside (by omega) (by omega) later
      simp [fill, covers, inside]

end Fill

/-- The last loop of the code writes the text with the pieces filled in. -/
theorem render_eq_fill {text : List Byte} {pieces : List (Span Byte)} {position : ℕ}
    (proper : ∀ piece ∈ pieces, piece.Proper) (fits : ∀ piece ∈ pieces, piece.stop ≤ text.length)
    (after : ∀ piece ∈ pieces, position ≤ piece.start)
    (ordered : pieces.Pairwise fun piece other => piece.stop ≤ other.start) :
    render text position pieces = fill pieces position (text.drop position) := by
  induction pieces generalizing position with
  | nil => simp [render]
  | cons piece rest ih =>
      rcases List.pairwise_cons.mp ordered with ⟨later, ordered⟩
      have proper_piece := proper piece List.mem_cons_self
      have fits_piece := fits piece List.mem_cons_self
      have after_piece := after piece List.mem_cons_self
      have order : piece.start < piece.stop := proper_piece
      have before : ((text.take piece.start).drop position).length = piece.start - position := by
        rw [List.length_drop, List.length_take]
        omega
      have within : ((text.take piece.stop).drop piece.start).length = piece.stop - piece.start := by
        rw [List.length_drop, List.length_take]
        omega
      have split : text.drop position = (text.take piece.start).drop position ++
          ((text.take piece.stop).drop piece.start ++ text.drop piece.stop) := by
        have tail : text.drop piece.start =
            (text.take piece.stop).drop piece.start ++ text.drop piece.stop := by
          conv_lhs => rw [← List.take_append_drop piece.stop text]
          rw [List.drop_append_of_le_length (by rw [List.length_take]; omega)]
        rw [← tail]
        conv_lhs => rw [← List.take_append_drop piece.start text]
        rw [List.drop_append_of_le_length (by rw [List.length_take]; omega)]
      have plain : fill (piece :: rest) position ((text.take piece.start).drop position) =
          (text.take piece.start).drop position := by
        apply fill_plain
        intro other other_mem
        rw [before]
        rcases List.mem_cons.mp other_mem with rfl | other_mem
        · omega
        · have gap := later other other_mem
          omega
      have here : position + ((text.take piece.start).drop position).length = piece.start := by
        rw [before]
        omega
      have stop : piece.start + ((text.take piece.stop).drop piece.start).length = piece.stop := by
        rw [within]
        omega
      have tail : render text piece.stop rest = fill rest piece.stop (text.drop piece.stop) :=
        ih (fun other other_mem => proper other (List.mem_cons_of_mem _ other_mem))
          (fun other other_mem => fits other (List.mem_cons_of_mem _ other_mem)) later ordered
      rw [render, tail, split, fill_append, fill_append, plain, here, stop,
        fill_piece proper_piece within later, fill_cons_over (Nat.le_refl _) proper_piece,
        List.append_assoc]

/-! ## The pieces are the unions -/

/-- The piece is a union of matches: they hang together, they cover it, and no other touches it. -/
structure IsUnion (spans : List (Span Byte)) (piece : Span Byte) : Prop where
  proper : piece.Proper
  covers : ∀ position, piece.Covers position ↔
    ∃ span ∈ spans, span.Proper ∧ span.Within piece ∧ span.Covers position
  linked : ∀ span ∈ spans, ∀ other ∈ spans, span.Proper → other.Proper → span.Within piece →
    other.Within piece → Linked spans span other
  whole : ∀ span ∈ spans, span.Proper → span.overlaps piece → span.Within piece

/-- The piece has the placeholder of a longest match of its union. -/
def NamedByLongest (spans : List (Span Byte)) (piece : Span Byte) : Prop :=
  ∃ span ∈ spans, span.Proper ∧ span.Within piece ∧ piece.placeholder = span.placeholder ∧
    ∀ other ∈ spans, other.Proper → other.Within piece → other.length ≤ span.length

/-- What the pieces are, whatever their placeholders. -/
structure Unions (text : List Byte) (spans pieces : List (Span Byte)) : Prop where
  unions : ∀ piece ∈ pieces, IsUnion spans piece
  all : ∀ span ∈ spans, span.Proper → ∃ piece ∈ pieces, span.Within piece
  ordered : pieces.Pairwise fun piece other => piece.stop ≤ other.start
  output : applySpans text spans = fill pieces 0 text

/-- The group's name is the placeholder of one of its longest matches. -/
def Group.Longest (group : Group Byte) : Prop :=
  ∃ span ∈ group.members, group.namer.placeholder = span.placeholder ∧
    ∀ other ∈ group.members, other.length ≤ span.length

section Pieces

variable {text : List Byte} {spans : List (Span Byte)} {group : Group Byte} {piece : Span Byte}

theorem Span.within_of_covers {span other : Span Byte} (proper : span.Proper)
    (covers : ∀ position, span.Covers position → other.Covers position) : span.Within other := by
  unfold Span.Proper at proper
  have first := covers span.start ⟨Nat.le_refl _, proper⟩
  have last := covers (span.stop - 1) ⟨by omega, by omega⟩
  unfold Span.Covers at first last
  unfold Span.Within
  omega

theorem Span.overlaps_of_within {span other : Span Byte} (proper : span.Proper)
    (within : span.Within other) : span.overlaps other := by
  unfold Span.Proper at proper
  unfold Span.Within at within
  rw [Span.overlaps_iff]
  omega

variable {groups : List (Group Byte)} {pieces : List (Span Byte)}

/-- Overlapping matches are in one group. -/
theorem group_unique (stands : List.Forall₂ StandsFor groups pieces)
    (apart : pieces.Pairwise fun one other => ¬one.overlaps other) {other : Group Byte}
    {member member' : Span Byte} (group_mem : group ∈ groups) (other_mem : other ∈ groups)
    (here : member ∈ group.members) (there : member' ∈ other.members)
    (meets : member.overlaps member') : group = other := by
  have hulls_meet : ∀ {first second : Group Byte} {hull hull' : Span Byte},
      StandsFor first hull → StandsFor second hull' → ∀ {one two : Span Byte},
        one ∈ first.members → two ∈ second.members → one.overlaps two → hull.overlaps hull' := by
    intro first second hull hull' stands stands' one two one_mem two_mem meets
    rcases (Span.overlaps_iff_exists (stands.members one one_mem)
      (stands'.members two two_mem)).mp meets with ⟨position, inside, inside'⟩
    exact (Span.overlaps_iff_exists stands.proper stands'.proper).mpr
      ⟨position, (stands.covers position).mpr ⟨one, one_mem, inside⟩,
        (stands'.covers position).mpr ⟨two, two_mem, inside'⟩⟩
  induction stands with
  | nil => cases group_mem
  | @cons first hull rest hulls stands_first stands_rest ih =>
      rcases List.pairwise_cons.mp apart with ⟨away, apart⟩
      rcases List.mem_cons.mp group_mem with rfl | group_later <;>
        rcases List.mem_cons.mp other_mem with rfl | other_later
      · rfl
      · rcases mem_forall₂_left stands_rest other_later with ⟨hull', hull_mem, stands'⟩
        exact absurd (hulls_meet stands_first stands' here there meets) (away hull' hull_mem)
      · rcases mem_forall₂_left stands_rest group_later with ⟨hull', hull_mem, stands'⟩
        exact absurd (hulls_meet stands_first stands' there here (Span.overlaps_symm meets))
          (away hull' hull_mem)
      · exact ih apart group_later other_later

/-- The matches that touch the piece of a group are its members. -/
theorem mem_members_iff (merged : Merged spans groups pieces) (group_mem : group ∈ groups)
    (stands : StandsFor group piece) {span : Span Byte} :
    span ∈ group.members ↔ span ∈ spans ∧ span.Proper ∧ span.overlaps piece := by
  constructor
  · intro member
    have known := (merged.members span).mp (List.mem_flatMap.mpr ⟨group, group_mem, member⟩)
    refine ⟨known.1, known.2, Span.overlaps_of_within known.2 ?_⟩
    exact Span.within_of_covers known.2 fun position here =>
      (stands.covers position).mpr ⟨span, member, here⟩
  · rintro ⟨span_mem, proper, meets⟩
    rcases List.mem_flatMap.mp ((merged.members span).mpr ⟨span_mem, proper⟩) with
      ⟨other, other_mem, member⟩
    rcases (Span.overlaps_iff_exists proper stands.proper).mp meets with ⟨position, here, there⟩
    rcases (stands.covers position).mp there with ⟨bridge, bridge_mem, inside⟩
    have overlap := (Span.overlaps_iff_exists proper (stands.members bridge bridge_mem)).mpr
      ⟨position, here, inside⟩
    rw [group_unique merged.stands merged.apart group_mem other_mem bridge_mem member
      (Span.overlaps_symm overlap)]
    exact member

theorem within_of_member (stands : StandsFor group piece) {span : Span Byte}
    (member : span ∈ group.members) : span.Within piece :=
  Span.within_of_covers (stands.members span member) fun position here =>
    (stands.covers position).mpr ⟨span, member, here⟩

theorem member_of_within (merged : Merged spans groups pieces) (group_mem : group ∈ groups)
    (stands : StandsFor group piece) {span : Span Byte} (span_mem : span ∈ spans)
    (proper : span.Proper) (within : span.Within piece) : span ∈ group.members :=
  (mem_members_iff merged group_mem stands).mpr
    ⟨span_mem, proper, Span.overlaps_of_within proper within⟩

theorem isUnion_of_standsFor (merged : Merged spans groups pieces) (group_mem : group ∈ groups)
    (stands : StandsFor group piece) : IsUnion spans piece where
  proper := stands.proper
  covers position := by
    rw [stands.covers]
    constructor
    · rintro ⟨span, member, inside⟩
      have known := (mem_members_iff merged group_mem stands).mp member
      exact ⟨span, known.1, known.2.1, within_of_member stands member, inside⟩
    · rintro ⟨span, span_mem, proper, within, inside⟩
      exact ⟨span, member_of_within merged group_mem stands span_mem proper within, inside⟩
  linked span span_mem other other_mem proper proper' within within' := by
    have here := member_of_within merged group_mem stands span_mem proper within
    have there := member_of_within merged group_mem stands other_mem proper' within'
    exact (stands.linked span here other there).mono fun member member_mem =>
      ((mem_members_iff merged group_mem stands).mp member_mem).1
  whole span span_mem proper meets :=
    within_of_member stands ((mem_members_iff merged group_mem stands).mpr ⟨span_mem, proper, meets⟩)

theorem namedByLongest_iff (merged : Merged spans groups pieces) (group_mem : group ∈ groups)
    (stands : StandsFor group piece) : NamedByLongest spans piece ↔ group.Longest := by
  constructor
  · rintro ⟨span, span_mem, proper, within, named, longest⟩
    refine ⟨span, member_of_within merged group_mem stands span_mem proper within,
      stands.placeholder.symm.trans named, fun other other_mem => ?_⟩
    have known := (mem_members_iff merged group_mem stands).mp other_mem
    exact longest other known.1 known.2.1 (within_of_member stands other_mem)
  · rintro ⟨span, member, named, longest⟩
    have known := (mem_members_iff merged group_mem stands).mp member
    refine ⟨span, known.1, known.2.1, within_of_member stands member,
      stands.placeholder.trans named, fun other other_mem proper within => ?_⟩
    exact longest other (member_of_within merged group_mem stands other_mem proper within)

end Pieces

/-! ## The text -/

section Text

variable {text : List Byte} {spans : List (Span Byte)}

theorem mem_sortSpans {span : Span Byte} : span ∈ sortSpans spans ↔ span ∈ spans :=
  (List.mergeSort_perm spans Span.before).mem_iff

theorem mem_acceptSpans {piece : Span Byte} :
    piece ∈ acceptSpans spans ↔ piece ∈ (sortSpans spans).foldl accept [] :=
  (List.mergeSort_perm _ _).mem_iff

/-- Spans with bytes that are apart, sorted by where they start, end before the next begins. -/
theorem acceptSpans_ordered (ordered : ∀ span ∈ spans, span.start ≤ span.stop) :
    (acceptSpans spans).Pairwise fun piece other => piece.stop ≤ other.start := by
  have merged := merged_spans ordered
  have perm := List.mergeSort_perm ((sortSpans spans).foldl accept [])
    fun span other => decide (span.start ≤ other.start)
  have symmetric : Std.Symm fun one two : Span Byte => ¬one.overlaps two :=
    ⟨fun one two away meets => away (Span.overlaps_symm meets)⟩
  have apart : (acceptSpans spans).Pairwise fun one other => ¬one.overlaps other :=
    (perm.pairwise_iff (fun {one two} => symmetric.symm one two)).mpr merged.apart
  have sorted : (acceptSpans spans).Pairwise fun one other => one.start ≤ other.start := by
    have by_start := @List.pairwise_mergeSort _ (fun one other : Span Byte =>
        decide (one.start ≤ other.start)) (fun one two three => by simpa using Nat.le_trans)
      (fun one two => by simpa using Nat.le_total _ _) ((sortSpans spans).foldl accept [])
    exact by_start.imp fun starts => of_decide_eq_true starts
  refine (apart.and sorted).imp_of_mem ?_
  intro piece other piece_mem other_mem both
  rcases mem_forall₂_right merged.stands (mem_acceptSpans.mp other_mem) with ⟨group, -, stands⟩
  have proper : other.start < other.stop := stands.proper
  have away := both.1
  rw [Span.overlaps_iff] at away
  have starts := both.2
  omega

/-- Whatever the order of the matches, the code replaces their unions and nothing else. -/
theorem unions_acceptSpans
    (inside : ∀ span ∈ spans, span.start ≤ span.stop ∧ span.stop ≤ text.length) :
    Unions text spans (acceptSpans spans) := by
  have ordered : ∀ span ∈ spans, span.start ≤ span.stop := fun span span_mem =>
    (inside span span_mem).1
  have merged := merged_spans ordered
  have union_of : ∀ piece ∈ acceptSpans spans, IsUnion (sortSpans spans) piece := by
    intro piece piece_mem
    rcases mem_forall₂_right merged.stands (mem_acceptSpans.mp piece_mem) with
      ⟨group, group_mem, stands⟩
    exact isUnion_of_standsFor merged group_mem stands
  refine ⟨fun piece piece_mem => ?_, fun span span_mem proper => ?_, acceptSpans_ordered ordered, ?_⟩
  · have union := union_of piece piece_mem
    refine ⟨union.proper, fun position => ?_, ?_, ?_⟩
    · rw [union.covers]
      simp only [mem_sortSpans]
    · intro span span_mem other other_mem proper proper' within within'
      exact (union.linked span (mem_sortSpans.mpr span_mem) other (mem_sortSpans.mpr other_mem)
        proper proper' within within').mono fun member => mem_sortSpans.mp
    · exact fun span span_mem => union.whole span (mem_sortSpans.mpr span_mem)
  · have known := (merged.members span).mpr ⟨mem_sortSpans.mpr span_mem, proper⟩
    rcases List.mem_flatMap.mp known with ⟨group, group_mem, member⟩
    rcases mem_forall₂_left merged.stands group_mem with ⟨piece, piece_mem, stands⟩
    exact ⟨piece, mem_acceptSpans.mpr piece_mem, within_of_member stands member⟩
  · apply render_eq_fill
    · exact fun piece piece_mem => (union_of piece piece_mem).proper
    · intro piece piece_mem
      have union := union_of piece piece_mem
      have proper : piece.start < piece.stop := union.proper
      -- The last byte of the piece is a byte of a match.
      rcases (union.covers (piece.stop - 1)).mp ⟨by omega, by omega⟩ with
        ⟨span, span_mem, -, -, -, last⟩
      have fits := (inside span (mem_sortSpans.mp span_mem)).2
      omega
    · exact fun _ _ => Nat.zero_le _
    · exact acceptSpans_ordered ordered

/-- The unions are replaced by the placeholders of their longest matches exactly when every group
of the matches is named by one of its longest. -/
theorem replaced_by_longest_iff
    (inside : ∀ span ∈ spans, span.start ≤ span.stop ∧ span.stop ≤ text.length) :
    (Unions text spans (acceptSpans spans) ∧
      ∀ piece ∈ acceptSpans spans, NamedByLongest spans piece) ↔
    ∀ group ∈ groupSpans spans, group.Longest := by
  have merged := merged_spans fun span span_mem => (inside span span_mem).1
  have named : ∀ piece, NamedByLongest (sortSpans spans) piece ↔ NamedByLongest spans piece := by
    intro piece
    simp only [NamedByLongest, mem_sortSpans]
  constructor
  · rintro ⟨-, longest⟩ group group_mem
    rcases mem_forall₂_left merged.stands group_mem with ⟨piece, piece_mem, stands⟩
    exact (namedByLongest_iff merged group_mem stands).mp
      ((named piece).mpr (longest piece (mem_acceptSpans.mpr piece_mem)))
  · intro longest
    refine ⟨unions_acceptSpans inside, fun piece piece_mem => ?_⟩
    rcases mem_forall₂_right merged.stands (mem_acceptSpans.mp piece_mem) with
      ⟨group, group_mem, stands⟩
    exact (named piece).mp ((namedByLongest_iff merged group_mem stands).mpr
      (longest group group_mem))

end Text

theorem two_matches_replaced :
    (Unions "see ann-box".toList [⟨4, 7, "[user]".toList⟩, ⟨4, 11, "[host]".toList⟩]
        (acceptSpans [⟨4, 7, "[user]".toList⟩, ⟨4, 11, "[host]".toList⟩]) ∧
      ∀ piece ∈ acceptSpans [⟨4, 7, "[user]".toList⟩, ⟨4, 11, "[host]".toList⟩],
        NamedByLongest [⟨4, 7, "[user]".toList⟩, ⟨4, 11, "[host]".toList⟩] piece) ↔
    ∀ group ∈ groupSpans [⟨4, 7, "[user]".toList⟩, ⟨4, 11, "[host]".toList⟩], group.Longest :=
  replaced_by_longest_iff (by simp)

/-- The group of the longest match was grown after a shorter one was complete, and the match that
joins them takes the placeholder of the shorter one. -/
theorem joined_takes_shorter :
    applySpans (List.replicate 29 'x')
        [⟨0, 10, ['a']⟩, ⟨20, 29, ['b']⟩, ⟨8, 16, ['c']⟩, ⟨14, 21, ['d']⟩] = ['b'] ∧
      ¬(Unions (List.replicate 29 'x')
          [⟨0, 10, ['a']⟩, ⟨20, 29, ['b']⟩, ⟨8, 16, ['c']⟩, ⟨14, 21, ['d']⟩]
          (acceptSpans [⟨0, 10, ['a']⟩, ⟨20, 29, ['b']⟩, ⟨8, 16, ['c']⟩, ⟨14, 21, ['d']⟩]) ∧
        ∀ piece ∈ acceptSpans [⟨0, 10, ['a']⟩, ⟨20, 29, ['b']⟩, ⟨8, 16, ['c']⟩, ⟨14, 21, ['d']⟩],
          NamedByLongest [⟨0, 10, ['a']⟩, ⟨20, 29, ['b']⟩, ⟨8, 16, ['c']⟩, ⟨14, 21, ['d']⟩]
            piece) := by
  have sorted : sortSpans [⟨0, 10, ['a']⟩, ⟨20, 29, ['b']⟩, ⟨8, 16, ['c']⟩, ⟨14, 21, ['d']⟩] =
      [⟨0, 10, ['a']⟩, ⟨20, 29, ['b']⟩, ⟨8, 16, ['c']⟩, ⟨14, 21, ['d']⟩] :=
    List.mergeSort_of_pairwise (by simp [Span.before, Span.length])
  have accepted : acceptSpans [⟨0, 10, ['a']⟩, ⟨20, 29, ['b']⟩, ⟨8, 16, ['c']⟩, ⟨14, 21, ['d']⟩] =
      [⟨0, 29, ['b']⟩] := by
    rw [acceptSpans, sorted]
    exact List.mergeSort_singleton _
  refine ⟨by rw [applySpans, accepted]; rfl, fun property => ?_⟩
  have named := property.2 ⟨0, 29, ['b']⟩ (by simp [accepted])
  simp [NamedByLongest, Span.Proper, Span.Within, Span.length] at named

end ScuffedCrew.Report
