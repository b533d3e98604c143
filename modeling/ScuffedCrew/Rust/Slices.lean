import ScuffedCrew.Rust.Bytes

/-!
# Slices of strings

Indexes into a `str` count bytes.  A slice whose end is not on a boundary
between characters, or past the end, panics.
-/

namespace Rust

namespace Text

variable {text before after needle : Text} {letter : Char}

/-- `&text[index..]`, nothing where it panics. -/
def sliceFrom : Text → ℕ → Option Text
  | text, 0 => some text
  | [], _ + 1 => none
  | letter :: rest, index + 1 =>
      if letter.utf8Size ≤ index + 1 then sliceFrom rest (index + 1 - letter.utf8Size) else none

/-- `&text[..index]`, nothing where it panics. -/
def sliceTo : Text → ℕ → Option Text
  | _, 0 => some []
  | [], _ + 1 => none
  | letter :: rest, index + 1 =>
      if letter.utf8Size ≤ index + 1 then
        (sliceTo rest (index + 1 - letter.utf8Size)).map (letter :: ·)
      else none

/-- `find`: the byte index of the first occurrence. -/
def find (text needle : Text) : Option ℕ := (text.before needle).map byteLen

@[simp]
theorem byteLen_nil : byteLen [] = 0 := rfl

@[simp]
theorem byteLen_cons : byteLen (letter :: text) = letter.utf8Size + byteLen text := by
  simp [byteLen, utf8]

@[simp]
theorem byteLen_append : byteLen (before ++ after) = byteLen before + byteLen after := by
  simp [byteLen, utf8]

theorem byteLen_pos (nonempty : text ≠ []) : 0 < byteLen text := by
  cases text with
  | nil => exact absurd rfl nonempty
  | cons letter rest =>
      have := letter.utf8Size_pos
      rw [byteLen_cons]
      omega

theorem byteLen_eq_zero : byteLen text = 0 ↔ text = [] := by
  refine ⟨fun zero => ?_, fun empty => by rw [empty, byteLen_nil]⟩
  by_contra nonempty
  have := byteLen_pos nonempty
  omega

theorem sliceFrom_append : sliceFrom (before ++ after) (byteLen before) = some after := by
  induction before with
  | nil => simp [sliceFrom]
  | cons letter rest ih =>
      have positive := letter.utf8Size_pos
      rw [byteLen_cons]
      rcases Nat.exists_eq_add_of_lt positive with ⟨size, sized⟩
      have split : letter.utf8Size + byteLen rest = (size + byteLen rest) + 1 := by omega
      rw [split, List.cons_append, sliceFrom, if_pos (by omega), ← split, Nat.add_sub_cancel_left]
      exact ih

theorem sliceTo_append : sliceTo (before ++ after) (byteLen before) = some before := by
  induction before with
  | nil => simp [sliceTo]
  | cons letter rest ih =>
      have positive := letter.utf8Size_pos
      rw [byteLen_cons]
      rcases Nat.exists_eq_add_of_lt positive with ⟨size, sized⟩
      have split : letter.utf8Size + byteLen rest = (size + byteLen rest) + 1 := by omega
      rw [split, List.cons_append, sliceTo, if_pos (by omega), ← split, Nat.add_sub_cancel_left, ih]
      rfl

/-- The text before the first occurrence: no occurrence is further left. -/
theorem before_eq_some (found : text.before needle = some before) :
    (∃ after, text = before ++ needle ++ after) ∧
      ∀ left right, text = left ++ needle ++ right → before.length ≤ left.length := by
  induction text generalizing before with
  | nil =>
      simp only [Text.before] at found
      split at found
      next empty =>
        rcases Option.some.inj found with rfl
        rw [List.isEmpty_iff] at empty
        exact ⟨⟨[], by simp [empty]⟩, fun left right _ => Nat.zero_le _⟩
      next => cases found
  | cons letter rest ih =>
      simp only [Text.before] at found
      split at found
      next starts =>
        rcases Option.some.inj found with rfl
        rcases List.isPrefixOf_iff_prefix.mp starts with ⟨after, split⟩
        exact ⟨⟨after, by simpa using split.symm⟩, fun left right _ => Nat.zero_le _⟩
      next elsewhere =>
        rcases Option.map_eq_some_iff.mp found with ⟨front, earlier, rfl⟩
        rcases ih earlier with ⟨⟨after, rfl⟩, least⟩
        refine ⟨⟨after, rfl⟩, ?_⟩
        intro left right split
        cases left with
        | nil =>
            refine absurd (List.isPrefixOf_iff_prefix.mpr ⟨right, ?_⟩) elsewhere
            simpa using split.symm
        | cons first others =>
            have tails := (List.cons.inj split).2
            simpa using least others right tails

theorem before_eq_none (absent : text.before needle = none) (left right : Text) :
    text ≠ left ++ needle ++ right := by
  induction text generalizing left with
  | nil =>
      intro split
      rcases List.append_eq_nil_iff.mp split.symm with ⟨first, -⟩
      rcases List.append_eq_nil_iff.mp first with ⟨-, rfl⟩
      cases absent
  | cons letter rest ih =>
      simp only [Text.before] at absent
      split at absent
      next => cases absent
      next elsewhere =>
        intro split
        cases left with
        | nil =>
            refine elsewhere (List.isPrefixOf_iff_prefix.mpr ⟨right, ?_⟩)
            simpa using split.symm
        | cons first others =>
            exact ih (Option.map_eq_none_iff.mp absent) others (List.cons.inj split).2

end Text

end Rust
