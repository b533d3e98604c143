import ScuffedCrew.Parse.TextFallback

/-!
# The name in a line

The search finds the first whole word of the lowercase line that is the
lowercase name, and never cuts a character.  Lowercase lengths do not depend on
where a letter stands, so the text after the name is found again in the line
itself.
-/

namespace ScuffedCrew.Parse

open Rust

variable {tables : CharTables} {line lineLower nameLower passed rest : Text}

/-- No letter or digit stands right before or after. -/
def WholeWord (tables : CharTables) (before after : Text) : Prop :=
  (before.getLast?.all fun letter => !tables.isAlphanumeric letter) = true ∧
    (after.head?.all fun letter => !tables.isAlphanumeric letter) = true

/-- The needle is a whole word here, and nowhere further left. -/
structure FirstWord (tables : CharTables) (text needle before after : Text) : Prop where
  split : text = before ++ needle ++ after
  whole : WholeWord tables before after
  first : ∀ left right, text = left ++ needle ++ right → left.length < before.length →
    ¬WholeWord tables left right

/-- No whole word starts among the first letters. -/
def NoneBefore (tables : CharTables) (text needle : Text) (limit : ℕ) : Prop :=
  ∀ left right, text = left ++ needle ++ right → left.length < limit →
    ¬WholeWord tables left right

/-- What a search finds. -/
inductive Searched (tables : CharTables) (text needle : Text) : Option ℕ → Prop
  | absent (none_whole : ∀ left right, text = left ++ needle ++ right →
      ¬WholeWord tables left right) : Searched tables text needle none
  | found (before after : Text) (first : FirstWord tables text needle before after) :
      Searched tables text needle (some before.byteLen)

/-- An occurrence that starts later starts in what is left. -/
theorem split_of_length_le {left right : Text} (split : passed ++ rest = left ++ nameLower ++ right)
    (later : passed.length ≤ left.length) :
    ∃ front, left = passed ++ front ∧ rest = front ++ nameLower ++ right := by
  rw [List.append_assoc] at split
  rcases List.append_eq_append_iff.mp split with ⟨front, rfl, same⟩ | ⟨front, rfl, same⟩
  · exact ⟨front, rfl, by rw [same, List.append_assoc]⟩
  · have empty : front = [] := by
      rw [List.length_append] at later
      exact List.length_eq_zero_iff.mp (by omega)
    subst empty
    exact ⟨[], by simp, by simpa using same.symm⟩

theorem noneBefore_front {front : Text}
    (least : ∀ left right, rest = left ++ nameLower ++ right → front.length ≤ left.length)
    (none_before : NoneBefore tables (passed ++ rest) nameLower passed.length) :
    NoneBefore tables (passed ++ rest) nameLower (passed ++ front).length := by
  intro left right occurs shorter
  rcases Nat.lt_or_ge left.length passed.length with earlier | later
  · exact none_before left right occurs earlier
  · rcases split_of_length_le occurs later with ⟨middle, rfl, again⟩
    have := least middle right again
    simp only [List.length_append] at shorter
    omega

/-- A turn of the search that finds the name. -/
theorem searchWord_found {first : Char} {more front back : Text} (fuel : ℕ)
    (split : lineLower = passed ++ (front ++ first :: more ++ back))
    (occurs : (front ++ first :: more ++ back).before (first :: more) = some front) :
    searchWord tables lineLower (first :: more) (fuel + 1) passed.byteLen =
      if (((passed ++ front).getLast?.all fun letter => !tables.isAlphanumeric letter) &&
          back.head?.all fun letter => !tables.isAlphanumeric letter) = true then
        some (some (passed ++ front).byteLen)
      else if lineLower.byteLen ≤ (passed ++ front ++ [first]).byteLen then some none
      else
        searchWord tables lineLower (first :: more) fuel (passed ++ front ++ [first]).byteLen := by
  have rest : lineLower.sliceFrom passed.byteLen = some (front ++ first :: more ++ back) := by
    rw [split]
    exact Text.sliceFrom_append
  have before : lineLower.sliceTo (passed ++ front).byteLen = some (passed ++ front) := by
    have same : lineLower = (passed ++ front) ++ (first :: more ++ back) := by simp [split]
    rw [same]
    exact Text.sliceTo_append
  have after : lineLower.sliceFrom (passed ++ front ++ first :: more).byteLen = some back := by
    have same : lineLower = (passed ++ front ++ first :: more) ++ back := by simp [split]
    rw [same]
    exact Text.sliceFrom_append
  have start : passed.byteLen + front.byteLen = (passed ++ front).byteLen :=
    Text.byteLen_append.symm
  have stop : (passed ++ front).byteLen + Text.byteLen (first :: more) =
      (passed ++ front ++ first :: more).byteLen := Text.byteLen_append.symm
  have next : (passed ++ front).byteLen + first.utf8Size =
      (passed ++ front ++ [first]).byteLen := by
    rw [@Text.byteLen_append (passed ++ front) [first], Text.byteLen_cons, Text.byteLen_nil, Nat.add_zero]
  simp only [searchWord, rest, Text.find, occurs, Option.bind_eq_bind, Option.bind_some,
    Option.map_some, start, stop, before, after, List.head?_cons, Option.elim_some, next]

theorem searchWord_spec (nonempty : nameLower ≠ []) (fuel : ℕ) :
    ∀ passed rest : Text, lineLower = passed ++ rest → rest.byteLen < fuel →
      NoneBefore tables lineLower nameLower passed.length →
        ∃ result, searchWord tables lineLower nameLower fuel passed.byteLen = some result ∧
          Searched tables lineLower nameLower result := by
  induction fuel with
  | zero =>
      intro passed rest _ enough
      cases enough
  | succ fuel ih =>
      intro passed rest split enough none_before
      cases occurs : rest.before nameLower with
      | none =>
          have sliced : lineLower.sliceFrom passed.byteLen = some rest := by
            rw [split]
            exact Text.sliceFrom_append
          refine ⟨none, ?_, .absent ?_⟩
          · simp [searchWord, sliced, Text.find, occurs]
          · intro left right again
            rcases Nat.lt_or_ge left.length passed.length with earlier | later
            · exact none_before left right again earlier
            · rcases split_of_length_le (split.symm.trans again) later with ⟨front, -, inside⟩
              exact absurd inside (Text.before_eq_none occurs front right)
      | some front =>
          rcases Text.before_eq_some occurs with ⟨⟨back, rfl⟩, least⟩
          rcases nameLower with _ | ⟨first, more⟩
          · exact absurd rfl nonempty
          · rw [split] at none_before
            have none_front := noneBefore_front least none_before
            rw [← split] at none_front
            have whole_split : lineLower = passed ++ front ++ first :: more ++ back := by
              simp [split]
            rw [searchWord_found fuel split occurs]
            split
            next whole =>
              rw [Bool.and_eq_true] at whole
              exact ⟨_, rfl, .found _ back ⟨whole_split, whole, none_front⟩⟩
            next part =>
              rw [Bool.and_eq_true] at part
              have none_next : NoneBefore tables lineLower (first :: more)
                  (passed ++ front ++ [first]).length := by
                intro left right again shorter
                rcases Nat.lt_or_ge left.length (passed ++ front).length with earlier | later
                · exact none_front left right again earlier
                · have same : left.length = (passed ++ front).length := by
                    rw [List.length_append, List.length_singleton] at shorter
                    omega
                  have both := whole_split.symm.trans again
                  rw [List.append_assoc _ _ back, List.append_assoc left] at both
                  rcases List.append_inj both same.symm with ⟨rfl, tails⟩
                  rcases List.append_cancel_left tails with rfl
                  exact part
              have next_split : lineLower = passed ++ front ++ [first] ++ (more ++ back) := by
                simp [split]
              split
              next ended =>
                refine ⟨none, rfl, .absent ?_⟩
                intro left right again
                apply none_next left right again
                have nothing : Text.byteLen (more ++ back) = 0 := by
                  rw [next_split, Text.byteLen_append] at ended
                  omega
                have lengths := congrArg List.length (next_split.symm.trans again)
                rw [Text.byteLen_eq_zero.mp nothing] at lengths
                simp only [List.length_append, List.length_cons, List.length_nil] at lengths ⊢
                omega
              next going =>
                apply ih _ (more ++ back) next_split _ none_next
                have positive := first.utf8Size_pos
                simp only [Text.byteLen_append, Text.byteLen_cons] at enough ⊢
                omega

/-- The search ends, cuts no character, and finds the first whole word. -/
theorem nameWordIndex_spec (tables : CharTables) (line name : Text)
    (named : tables.strToLowercase name.trim ≠ []) :
    ∃ result, nameWordIndex tables line name = some result ∧
      Searched tables (tables.strToLowercase line) (tables.strToLowercase name.trim) result := by
  have nonempty : (tables.strToLowercase name.trim).isEmpty = false :=
    List.isEmpty_eq_false_iff.mpr named
  simp only [nameWordIndex, nonempty, Bool.false_eq_true, if_false]
  apply searchWord_spec named _ [] _ rfl (Nat.lt_succ_self _)
  intro left right _ shorter
  cases shorter

theorem nameWordIndex_isSome (tables : CharTables) (line name : Text) :
    (nameWordIndex tables line name).isSome := by
  by_cases named : tables.strToLowercase name.trim = []
  · simp [nameWordIndex, named]
  · rcases nameWordIndex_spec tables line name named with ⟨result, found, -⟩
    rw [found]
    rfl

/-! ## Lowercase, letter by letter -/

namespace CharTables

/-- What the tables of Unicode say. -/
structure Lawful (tables : CharTables) : Prop where
  nonempty : ∀ letter, tables.toLowercase letter ≠ []
  ascii : ∀ letter, letter.toNat < 128 → tables.toLowercase letter = [letter.toLower]
  asciiAlphabetic : ∀ letter, letter.toNat < 128 → tables.isAlphabetic letter = letter.isAlpha
  sigma : tables.toLowercase 'Σ' = ['σ']
  alphabeticSigma : tables.isAlphabetic 'Σ' = true
  caseless : ∀ letter, tables.isAlphanumeric letter = false → tables.toLowercase letter = [letter]

/-- The bytes of a text in lowercase. -/
def lowLen (tables : CharTables) (text : Text) : ℕ := (text.map (tables.toLowercase · |>.byteLen)).sum

variable {before text more after : Text} {letter : Char}

theorem lowerWithin_append : tables.lowerWithin before (text ++ more) after =
    tables.lowerWithin before text (more ++ after) ++
      tables.lowerWithin (text.reverse ++ before) more after := by
  induction text generalizing before with
  | nil => rfl
  | cons letter rest ih =>
      simp only [List.cons_append, lowerWithin, ih, List.append_assoc, List.reverse_cons,
        List.nil_append]

theorem Lawful.byteLen_lowerAt (lawful : tables.Lawful) :
    (tables.lowerAt before letter after).byteLen = (tables.toLowercase letter).byteLen := by
  unfold lowerAt
  split
  next capital =>
    rw [capital, lawful.sigma]
    split <;> rfl
  next => rfl

theorem Lawful.byteLen_lowerWithin (lawful : tables.Lawful) :
    (tables.lowerWithin before text after).byteLen = tables.lowLen text := by
  induction text generalizing before with
  | nil => rfl
  | cons letter rest ih =>
      rw [lowerWithin, Text.byteLen_append, lawful.byteLen_lowerAt, ih]
      rfl

theorem Lawful.lowerAt_of_not_alphanumeric (lawful : tables.Lawful)
    (other : tables.isAlphanumeric letter = false) :
    tables.lowerAt before letter after = [letter] := by
  unfold lowerAt
  rw [if_neg, lawful.caseless letter other]
  rintro rfl
  rw [isAlphanumeric, lawful.alphabeticSigma] at other
  cases other

theorem Lawful.lowLen_pos (lawful : tables.Lawful) (letter : Char) :
    0 < (tables.toLowercase letter).byteLen :=
  Text.byteLen_pos (lawful.nonempty letter)

@[simp]
theorem lowLen_nil : tables.lowLen [] = 0 := rfl

@[simp]
theorem lowLen_append : tables.lowLen (text ++ more) = tables.lowLen text + tables.lowLen more := by
  simp [lowLen]

@[simp]
theorem lowLen_cons :
    tables.lowLen (letter :: text) = (tables.toLowercase letter).byteLen + tables.lowLen text := by
  simp [lowLen]

theorem ascii_utf8Size : ∀ code < 128,
    (Char.ofNat code).toLower.utf8Size = (Char.ofNat code).utf8Size := by
  decide

theorem Lawful.lowLen_of_ascii (lawful : tables.Lawful)
    (ascii : ∀ letter ∈ text, letter.toNat < 128) : tables.lowLen text = text.byteLen := by
  induction text with
  | nil => rfl
  | cons letter rest ih =>
      have small := ascii letter (List.mem_cons_self ..)
      rw [lowLen_cons, Text.byteLen_cons, lawful.ascii letter small,
        ih fun other other_mem => ascii other (List.mem_cons_of_mem _ other_mem)]
      have same := ascii_utf8Size letter.toNat small
      rw [Char.ofNat_toNat] at same
      rw [Text.byteLen_cons, Text.byteLen_nil, Nat.add_zero, same]

theorem Lawful.ne_nil (lawful : tables.Lawful) (nonempty : text ≠ []) :
    tables.strToLowercase text ≠ [] := by
  cases text with
  | nil => exact absurd rfl nonempty
  | cons letter rest =>
      intro empty
      have lengths := congrArg Text.byteLen empty
      rw [strToLowercase, lawful.byteLen_lowerWithin, lowLen_cons] at lengths
      have := lawful.lowLen_pos letter
      simp only [Text.byteLen_nil] at lengths
      omega

end CharTables

/-! ## The text after the name -/

section Suffix

variable {read left suffix : Text}

theorem walkSuffix_isSome (stop : ℕ) (line read : Text) :
    ∀ rest lowByte, line = read ++ rest →
      (walkSuffix tables line stop rest read.byteLen lowByte).isSome := by
  intro rest
  induction rest generalizing read with
  | nil =>
      intro lowByte _
      rfl
  | cons letter rest ih =>
      intro lowByte split
      unfold walkSuffix
      split
      next =>
        rw [split, Text.sliceFrom_append]
        rfl
      next =>
        have next : read.byteLen + letter.utf8Size = Text.byteLen (read ++ [letter]) := by simp
        rw [next]
        exact ih (read ++ [letter]) _ (by simp [split])

/-- The walk stops right after the letters whose lowercase it has to pass. -/
theorem walkSuffix_eq (lawful : tables.Lawful) (read : Text) :
    ∀ left, line = read ++ (left ++ suffix) →
      walkSuffix tables line (tables.lowLen (read ++ left)) (left ++ suffix) read.byteLen
        (tables.lowLen read) = some (some suffix) := by
  intro left
  induction left generalizing read with
  | nil =>
      intro split
      rw [List.nil_append] at split
      rw [List.append_nil, List.nil_append]
      cases suffix with
      | nil => simp [walkSuffix]
      | cons letter rest =>
          rw [walkSuffix, if_pos le_rfl, split, Text.sliceFrom_append]
          rfl
  | cons letter left ih =>
      intro split
      have next : read.byteLen + letter.utf8Size = Text.byteLen (read ++ [letter]) := by simp
      have low : tables.lowLen read + (tables.toLowercase letter).byteLen =
          tables.lowLen (read ++ [letter]) := by simp
      have going : ¬tables.lowLen (read ++ letter :: left) ≤ tables.lowLen read := by
        have := lawful.lowLen_pos letter
        simp only [CharTables.lowLen_append, CharTables.lowLen_cons]
        omega
      have same : read ++ letter :: left = read ++ [letter] ++ left := by simp
      rw [List.cons_append, walkSuffix, if_neg going, next, low, same]
      exact ih (read ++ [letter]) (by simp [split])

theorem suffixAfterName_isSome (tables : CharTables) (line name : Text) :
    (suffixAfterName tables line name).isSome := by
  unfold suffixAfterName
  simp only
  split
  · rfl
  · rcases Option.isSome_iff_exists.mp (nameWordIndex_isSome tables line name) with
      ⟨result, found⟩
    rw [found]
    cases result with
    | none => rfl
    | some start =>
        simp only [Option.bind_eq_bind, Option.bind_some]
        split
        · rfl
        · exact walkSuffix_isSome _ line [] line 0 rfl

end Suffix

/-! ## A line with the name -/

/-- The word stands in the line for the name: lowercase where it stands it is the lowercase name,
no letter or digit is right before or after it, and it is the first such word. -/
structure Stands (tables : CharTables) (name front word suffix : Text) : Prop where
  named : name.trim ≠ []
  spelled : tables.lowerWithin front.reverse word suffix = tables.strToLowercase name.trim
  before : (front.getLast?.all fun letter => !tables.isAlphanumeric letter) = true
  after : (suffix.head?.all fun letter => !tables.isAlphanumeric letter) = true
  first : NoneBefore tables (tables.strToLowercase (front ++ word ++ suffix))
    (tables.strToLowercase name.trim) (tables.lowerWithin [] front (word ++ suffix)).length

namespace Stands

variable {name front word suffix : Text}

theorem lower_split (stands : Stands tables name front word suffix) :
    tables.strToLowercase (front ++ word ++ suffix) =
      tables.lowerWithin [] front (word ++ suffix) ++ tables.strToLowercase name.trim ++
        tables.lowerWithin (word.reverse ++ front.reverse) suffix [] := by
  rw [CharTables.strToLowercase, List.append_assoc, CharTables.lowerWithin_append,
    CharTables.lowerWithin_append]
  simp only [List.append_nil, stands.spelled, List.append_assoc]

theorem whole (stands : Stands tables name front word suffix) (lawful : tables.Lawful) :
    WholeWord tables (tables.lowerWithin [] front (word ++ suffix))
      (tables.lowerWithin (word.reverse ++ front.reverse) suffix []) := by
  constructor
  · rcases List.eq_nil_or_concat front with rfl | ⟨init, last, rfl⟩
    · rfl
    · have other : tables.isAlphanumeric last = false := by
        simpa using stands.before
      rw [List.concat_eq_append, CharTables.lowerWithin_append, CharTables.lowerWithin,
        lawful.lowerAt_of_not_alphanumeric other]
      simp [CharTables.lowerWithin, other]
  · cases suffix with
    | nil => rfl
    | cons next rest =>
        have other : tables.isAlphanumeric next = false := by
          simpa using stands.after
        rw [CharTables.lowerWithin, lawful.lowerAt_of_not_alphanumeric other]
        simp [other]

theorem nameWordIndex_eq (stands : Stands tables name front word suffix)
    (lawful : tables.Lawful) :
    nameWordIndex tables (front ++ word ++ suffix) name = some (some (tables.lowLen front)) := by
  have split := stands.lower_split
  have whole := stands.whole lawful
  rcases nameWordIndex_spec tables (front ++ word ++ suffix) name (lawful.ne_nil stands.named) with
    ⟨result, found, searched⟩
  rw [found]
  cases searched with
  | absent none_whole => exact absurd whole (none_whole _ _ split)
  | found before after first =>
      have here : before.length = (tables.lowerWithin [] front (word ++ suffix)).length := by
        rcases Nat.lt_trichotomy before.length
          (tables.lowerWithin [] front (word ++ suffix)).length with shorter | same | longer
        · exact absurd first.whole (stands.first before after first.split shorter)
        · exact same
        · exact absurd whole (first.first _ _ split longer)
      have both := first.split.symm.trans split
      rw [List.append_assoc, List.append_assoc (tables.lowerWithin _ _ _)] at both
      rw [(List.append_inj both here).1, lawful.byteLen_lowerWithin]

theorem suffixAfterName_eq (stands : Stands tables name front word suffix)
    (lawful : tables.Lawful) :
    suffixAfterName tables (front ++ word ++ suffix) name = some (some suffix) := by
  have nonempty : (tables.strToLowercase name.trim).isEmpty = false :=
    List.isEmpty_eq_false_iff.mpr (lawful.ne_nil stands.named)
  have stop : tables.lowLen front + (tables.strToLowercase name.trim).byteLen =
      tables.lowLen (front ++ word) := by
    rw [← stands.spelled, lawful.byteLen_lowerWithin, CharTables.lowLen_append]
  simp only [suffixAfterName, nonempty, Bool.false_eq_true, if_false, stands.nameWordIndex_eq lawful,
    Option.bind_eq_bind, Option.bind_some, stop]
  split
  next ascii =>
    have ascii : ∀ letter ∈ front ++ word, letter.toNat < 128 := by
      intro letter letter_mem
      exact of_decide_eq_true (List.all_eq_true.mp ascii letter (List.mem_append_left _ letter_mem))
    rw [lawful.lowLen_of_ascii ascii, Text.sliceFrom_append]
  next =>
    exact walkSuffix_eq lawful [] (front ++ word) rfl

end Stands

end ScuffedCrew.Parse
