import Mathlib.Data.List.Perm.Basic
import Mathlib.Data.List.Sort
import Mathlib.Logic.Relation

/-!
# Spans of a text

The matches of the scrub rules, and the text in which they are replaced.  The
text is a list of bytes, and a span is a run of its positions.
-/

namespace ScuffedCrew.Report

universe u

variable {Byte : Type u}

structure Span (Byte : Type u) where
  start : ℕ
  stop : ℕ
  placeholder : List Byte

namespace Span

def length (span : Span Byte) : ℕ := span.stop - span.start

def overlaps (span other : Span Byte) : Bool :=
  decide (span.start < other.stop) && decide (other.start < span.stop)

def isEmpty (span : Span Byte) : Bool := decide (span.start = span.stop)

/-- Longest first, then from the left. -/
def before (span other : Span Byte) : Bool :=
  decide (other.length < span.length) ||
    (decide (span.length = other.length) && decide (span.start ≤ other.start))

end Span

/-- `accepted.retain`: the spans kept, the match grown by the others, and the placeholder of the
first of these. -/
def retain (merged : Span Byte) (placeholder : Option (List Byte)) :
    List (Span Byte) → List (Span Byte) × Span Byte × Option (List Byte)
  | [] => ([], merged, placeholder)
  | accepted :: rest =>
      if accepted.overlaps merged then
        retain
          { merged with
            start := min merged.start accepted.start
            stop := max merged.stop accepted.stop }
          (placeholder.or (some accepted.placeholder)) rest
      else
        let retained := retain merged placeholder rest
        (accepted :: retained.1, retained.2)

/-- One round of the loop of `apply_spans`. -/
def accept (accepted : List (Span Byte)) (span : Span Byte) : List (Span Byte) :=
  if span.isEmpty then accepted
  else
    let retained := retain span none accepted
    let merged := retained.2.1
    retained.1 ++ [{ merged with placeholder := retained.2.2.getD merged.placeholder }]

def sortSpans (spans : List (Span Byte)) : List (Span Byte) := spans.mergeSort Span.before

/-- The spans `apply_spans` replaces, from the left. -/
def acceptSpans (spans : List (Span Byte)) : List (Span Byte) :=
  ((sortSpans spans).foldl accept []).mergeSort fun span other => decide (span.start ≤ other.start)

/-- The last loop of `apply_spans`, from a position of the text. -/
def render (text : List Byte) : ℕ → List (Span Byte) → List Byte
  | position, [] => text.drop position
  | position, span :: rest =>
      (text.take span.start).drop position ++ span.placeholder ++ render text span.stop rest

def applySpans (text : List Byte) (spans : List (Span Byte)) : List Byte :=
  render text 0 (acceptSpans spans)

/-! ## Positions -/

namespace Span

variable {span other third : Span Byte} {position : ℕ}

/-- The span has bytes. -/
def Proper (span : Span Byte) : Prop := span.start < span.stop

def Covers (span : Span Byte) (position : ℕ) : Prop :=
  span.start ≤ position ∧ position < span.stop

instance : Decidable (span.Covers position) := inferInstanceAs (Decidable (_ ∧ _))

def Within (span other : Span Byte) : Prop := other.start ≤ span.start ∧ span.stop ≤ other.stop

theorem overlaps_iff : span.overlaps other ↔ span.start < other.stop ∧ other.start < span.stop := by
  simp [overlaps]

theorem overlaps_symm (meets : span.overlaps other) : other.overlaps span := by
  rw [overlaps_iff] at meets ⊢
  exact meets.symm

/-- Two spans with bytes overlap when they share one. -/
theorem overlaps_iff_exists (proper : span.Proper) (proper' : other.Proper) :
    span.overlaps other ↔ ∃ position, span.Covers position ∧ other.Covers position := by
  rw [overlaps_iff]
  unfold Proper at proper proper'
  constructor
  · rintro ⟨left, right⟩
    exact ⟨max span.start other.start, ⟨by omega, by omega⟩, ⟨by omega, by omega⟩⟩
  · rintro ⟨position, ⟨from_start, to_stop⟩, ⟨from_start', to_stop'⟩⟩
    omega

theorem overlaps_self (proper : span.Proper) : span.overlaps span := by
  rw [overlaps_iff]
  exact ⟨proper, proper⟩

/-- The span grown by one it overlaps. -/
def grow (span other : Span Byte) : Span Byte :=
  { span with start := min span.start other.start, stop := max span.stop other.stop }

theorem grow_proper (other : Span Byte) (proper : span.Proper) : (span.grow other).Proper := by
  unfold Proper grow at *
  simp only
  omega

theorem covers_grow (meets : other.overlaps span) :
    (span.grow other).Covers position ↔ span.Covers position ∨ other.Covers position := by
  rw [overlaps_iff] at meets
  simp only [Covers, grow]
  omega

/-- A span with bytes is fixed by the positions it covers. -/
theorem covers_ext (proper : span.Proper)
    (same : ∀ position, span.Covers position ↔ other.Covers position) :
    span.start = other.start ∧ span.stop = other.stop := by
  unfold Proper at proper
  have first := (same span.start).mp ⟨Nat.le_refl _, proper⟩
  have last := (same (span.stop - 1)).mp ⟨by omega, by omega⟩
  have first' := (same other.start).mpr ⟨Nat.le_refl _, by unfold Covers at first; omega⟩
  have last' := (same (other.stop - 1)).mpr
    ⟨by unfold Covers at first; omega, by unfold Covers at first; omega⟩
  unfold Covers at first last first' last'
  omega

end Span

end ScuffedCrew.Report
