import ScuffedCrew.Parse.StatRun

/-!
# A board's line

The text after a name on a board's line: perhaps a title, then figures and
clocks that stand apart.  The fallback reads the six figures of such a line and
gives nothing for a line whose numbers are not one run of six at its end.
-/

namespace ScuffedCrew.Parse

open Rust

/-! ## Layouts -/

inductive Piece
  | figure (digit : Char) (run : Text)
  | clock (minutes seconds : Text)

namespace Piece

def text : Piece → Text
  | figure digit run => digit :: run
  | clock minutes seconds => minutes ++ ':' :: seconds

/-- What is outside the clocks. -/
def outside : Piece → Text
  | figure digit run => digit :: run
  | clock _ _ => [' ']

/-- The digits of a figure, with or without commas among them. -/
def digits? : Piece → Option Text
  | figure digit run => some ((digit :: run).filter Char.isDigit)
  | clock _ _ => none

/-- A figure of digits and commas, or a clock `M:SS` or `MM:SS`. -/
inductive Formed : Piece → Prop
  | figure {digit : Char} {run : Text} (starts : digit.isDigit = true)
      (run_figure : ∀ letter ∈ run, isFigureLetter letter = true) : Formed (.figure digit run)
  | clock {minutes seconds : Text} (minuteDigits : ∀ letter ∈ minutes, letter.isDigit = true)
      (fewMinutes : minutes.length = 1 ∨ minutes.length = 2)
      (secondDigits : ∀ letter ∈ seconds, letter.isDigit = true)
      (twoSeconds : seconds.length = 2) : Formed (.clock minutes seconds)

end Piece

/-- White space or signs that belong to no token. -/
structure Silent (tables : CharTables) (letter : Char) : Prop where
  other : letter.isDigit = false
  sign : letter ≠ '%'
  comma : letter ≠ ','
  colon : letter ≠ ':'
  unlettered : tables.isAlphabetic letter = false

/-- Pieces that stand apart, each with what follows it. -/
def Spaced (tables : CharTables) : List (Piece × Text) → Prop
  | [] => True
  | (piece, gap) :: rest =>
      piece.Formed ∧ (∀ letter ∈ gap, Silent tables letter) ∧ (gap ≠ [] ∨ rest = []) ∧
        Spaced tables rest

def layoutText (pairs : List (Piece × Text)) : Text :=
  pairs.flatMap fun pair => pair.1.text ++ pair.2

def layoutOutside (pairs : List (Piece × Text)) : Text :=
  pairs.flatMap fun pair => pair.1.outside ++ pair.2

def layoutTokens (pairs : List (Piece × Text)) : List SuffixToken :=
  (pairs.filterMap fun pair => pair.1.digits?).map digitsToken

/-! ## Outside the clocks -/

variable {tables : CharTables} {before : Option Char} {text rest outside : Text}
  {tokens : List SuffixToken}

theorem getLast?_cons_or (letter : Char) (more : Text) :
    (letter :: more).getLast?.or before = more.getLast?.or (some letter) := by
  cases more with
  | nil => rfl
  | cons next more =>
      rw [List.getLast?_cons_cons, List.getLast?_eq_some_getLast (List.cons_ne_nil next more)]
      rfl

theorem minutes_cons {minutes seconds after : Text} {letter : Char}
    (clock : Clock before minutes seconds after)
    (split : letter :: rest = minutes ++ ':' :: (seconds ++ after)) : letter.isDigit = true := by
  cases minutes with
  | nil => exact absurd clock.fewMinutes (by simp)
  | cons first more =>
      rcases (List.cons.inj split).1 with rfl
      exact clock.minuteDigits letter (List.mem_cons_self ..)

/-- Letters that are no digits are in no clock. -/
theorem Strips.append_undigits (undigits : ∀ letter ∈ text, letter.isDigit = false)
    (strips : Strips (text.getLast?.or before) rest outside) :
    Strips before (text ++ rest) (text ++ outside) := by
  induction text generalizing before with
  | nil => simpa using strips
  | cons letter more ih =>
      apply Strips.letter
      · intro minutes seconds after split clock
        have digit := minutes_cons clock split
        rw [undigits letter (List.mem_cons_self ..)] at digit
        cases digit
      · rw [getLast?_cons_or] at strips
        exact ih (fun one one_mem => undigits one (List.mem_cons_of_mem _ one_mem)) strips

theorem head?_dropWhile_figure (figure : ∀ letter ∈ text, isFigureLetter letter = true)
    (apart : rest.head?.any (fun letter => letter.isDigit || letter == ':') = false) :
    ((text ++ rest).dropWhile Char.isDigit).head? ≠ some ':' := by
  induction text with
  | nil =>
      cases rest with
      | nil => simp
      | cons letter others =>
          have both : letter.isDigit = false ∧ letter ≠ ':' := by simpa using apart
          simp [both.1, both.2]
  | cons letter more ih =>
      have others := ih fun one one_mem => figure one (List.mem_cons_of_mem _ one_mem)
      rw [List.cons_append, List.dropWhile_cons]
      split
      · exact others
      next other =>
        have comma := figure letter (List.mem_cons_self ..)
        simp only [isFigureLetter, other, Bool.false_or, beq_iff_eq] at comma
        simp [comma]

/-- A figure that no digit or colon follows is in no clock. -/
theorem Strips.append_figure (figure : ∀ letter ∈ text, isFigureLetter letter = true)
    (apart : rest.head?.any (fun letter => letter.isDigit || letter == ':') = false)
    (strips : Strips (text.getLast?.or before) rest outside) :
    Strips before (text ++ rest) (text ++ outside) := by
  induction text generalizing before with
  | nil => simpa using strips
  | cons letter more ih =>
      apply Strips.letter
      · intro minutes seconds after split clock
        have same : letter :: more ++ rest = minutes ++ ':' :: (seconds ++ after) := split
        have colon := head?_dropWhile_figure figure apart
        rw [same, List.dropWhile_append_of_pos clock.minuteDigits] at colon
        exact colon rfl
      · rw [getLast?_cons_or] at strips
        exact ih (fun one one_mem => figure one (List.mem_cons_of_mem _ one_mem)) strips

theorem head?_gap {gap : Text} {holds : Char → Bool} {pairs : List (Piece × Text)}
    (quiet : ∀ letter ∈ gap, holds letter = false) (apart : gap ≠ [] ∨ pairs = [])
    (layout : List (Piece × Text) → Text) (nothing : layout [] = []) :
    (gap ++ layout pairs).head?.any holds = false := by
  cases gap with
  | cons letter more =>
      have := quiet letter (List.mem_cons_self ..)
      simpa using this
  | nil =>
      rcases apart with spaced | rfl
      · exact absurd rfl spaced
      · rw [nothing]
        rfl

theorem strips_layout {pairs : List (Piece × Text)} (spaced : Spaced tables pairs)
    (apart : before.any Char.isDigit = false) :
    Strips before (layoutText pairs) (layoutOutside pairs) := by
  induction pairs generalizing before with
  | nil => exact .nil before
  | cons pair rest ih =>
      rcases pair with ⟨piece, gap⟩
      rcases spaced with ⟨formed, silent, gapped, spaced⟩
      have after_gap (last : Option Char) :
          Strips last (gap ++ layoutText rest) (gap ++ layoutOutside rest) := by
        apply Strips.append_undigits fun letter letter_mem => (silent letter letter_mem).other
        rcases List.eq_nil_or_concat gap with rfl | ⟨init, final, rfl⟩
        · rcases gapped with gapped | rfl
          · exact absurd rfl gapped
          · exact .nil _
        · apply ih spaced
          have other := (silent final (by simp)).other
          simpa using other
      have no_digit : (gap ++ layoutText rest).head?.any Char.isDigit = false :=
        head?_gap (fun letter letter_mem => (silent letter letter_mem).other) gapped layoutText rfl
      have no_digit_or_colon : (gap ++ layoutText rest).head?.any
          (fun letter => letter.isDigit || letter == ':') = false := by
        apply head?_gap _ gapped layoutText rfl
        intro letter letter_mem
        have quiet := silent letter letter_mem
        simp [quiet.other, quiet.colon]
      cases formed with
      | @figure digit run starts run_figure =>
          have figure : ∀ letter ∈ digit :: run, isFigureLetter letter = true := by
            intro letter letter_mem
            rcases List.mem_cons.mp letter_mem with rfl | inside
            · exact isFigureLetter_of_digit starts
            · exact run_figure letter inside
          have strips := @Strips.append_figure before _ _ _ figure no_digit_or_colon
            (after_gap _)
          simpa [layoutText, layoutOutside, Piece.text, Piece.outside] using strips
      | @clock minutes seconds minuteDigits fewMinutes secondDigits twoSeconds =>
          have strips := Strips.clock
            ⟨apart, minuteDigits, fewMinutes, secondDigits, twoSeconds, no_digit⟩ (after_gap _)
          simpa [layoutText, layoutOutside, Piece.text, Piece.outside] using strips

/-! ## What is read -/

theorem Reads.append_silent (lettered : ∀ letter ∈ text, Silent tables letter)
    (reads : Reads tables rest tokens) : Reads tables (text ++ rest) tokens := by
  induction text with
  | nil => exact reads
  | cons letter more ih =>
      have quiet := lettered letter (List.mem_cons_self ..)
      exact .silent quiet.other quiet.sign quiet.unlettered
        (ih fun one one_mem => lettered one (List.mem_cons_of_mem _ one_mem))

theorem isAlphabetic_blank (lawful : tables.Lawful) : tables.isAlphabetic ' ' = false :=
  lawful.asciiAlphabetic ' ' (by decide)

theorem ascii_digit_not_alpha : ∀ code < 128, (Char.ofNat code).isDigit = true →
    (Char.ofNat code).isAlpha = false := by
  decide

theorem isAlphabetic_digit (lawful : tables.Lawful) {digit : Char} (is_digit : digit.isDigit = true) :
    tables.isAlphabetic digit = false := by
  have small : digit.toNat < 128 := by
    simp only [Char.isDigit, Bool.and_eq_true, decide_eq_true_eq] at is_digit
    have upper : digit.toNat ≤ 57 := is_digit.2
    omega
  have other := ascii_digit_not_alpha digit.toNat small
  rw [Char.ofNat_toNat] at other
  rw [lawful.asciiAlphabetic digit small]
  exact other is_digit

theorem reads_layout (lawful : tables.Lawful) {pairs : List (Piece × Text)}
    (spaced : Spaced tables pairs) : Reads tables (layoutOutside pairs) (layoutTokens pairs) := by
  induction pairs with
  | nil => exact .nil
  | cons pair rest ih =>
      rcases pair with ⟨piece, gap⟩
      rcases spaced with ⟨formed, silent, gapped, spaced⟩
      have after_gap := (ih spaced).append_silent silent
      have no_figure : (gap ++ layoutOutside rest).head?.any isFigureLetter = false := by
        apply head?_gap _ gapped layoutOutside rfl
        intro letter letter_mem
        have quiet := silent letter letter_mem
        simp [isFigureLetter, quiet.other, quiet.comma]
      cases formed with
      | @figure digit run starts run_figure =>
          have reads := Reads.figure starts run_figure no_figure after_gap
          simpa [layoutOutside, layoutTokens, Piece.outside, Piece.digits?] using reads
      | @clock minutes seconds minuteDigits fewMinutes secondDigits twoSeconds =>
          have reads : Reads tables (' ' :: (gap ++ layoutOutside rest)) (layoutTokens rest) :=
            .silent (by decide) (by decide) (isAlphabetic_blank lawful) after_gap
          simpa [layoutOutside, layoutTokens, Piece.outside, Piece.digits?] using reads

/-- A title without digits is read as words and percent signs. -/
theorem Reads.append_title (size : ℕ) (ends : rest.head?.any tables.isAlphabetic = false)
    (reads : Reads tables rest tokens) : ∀ title : Text, title.length ≤ size →
      (∀ letter ∈ title, letter.isDigit = false) →
        ∃ titles, Reads tables (title ++ rest) (titles ++ tokens) ∧
          ∀ token ∈ titles, token.isWordOrPercent = true := by
  induction size with
  | zero =>
      intro title small _
      rcases List.length_eq_zero_iff.mp (Nat.le_zero.mp small) with rfl
      exact ⟨[], reads, by simp⟩
  | succ size ih =>
      intro title small undigits
      cases title with
      | nil => exact ⟨[], reads, by simp⟩
      | cons letter more =>
          have other := undigits letter (List.mem_cons_self ..)
          have undigits_more : ∀ one ∈ more, one.isDigit = false :=
            fun one one_mem => undigits one (List.mem_cons_of_mem _ one_mem)
          have small_more : more.length ≤ size := Nat.le_of_succ_le_succ small
          by_cases sign : letter = '%'
          · rcases ih more small_more undigits_more with ⟨titles, read, words⟩
            rcases sign with rfl
            refine ⟨.percent :: titles, .percent read, ?_⟩
            simpa [SuffixToken.isWordOrPercent] using words
          · by_cases alphabetic : tables.isAlphabetic letter = true
            · rcases exists_run tables.isAlphabetic more with ⟨run, others, rfl, run_word, stops⟩
              have small_others : others.length ≤ size := by
                rw [List.length_append] at small_more
                omega
              rcases ih others small_others
                (fun one one_mem => undigits_more one (List.mem_append_right _ one_mem)) with
                ⟨titles, read, words⟩
              have stops_here : (others ++ rest).head?.any tables.isAlphabetic = false := by
                cases others with
                | nil => exact ends
                | cons one others => exact stops
              have word := Reads.word other sign alphabetic run_word stops_here read
              refine ⟨.word :: titles, by simpa using word, ?_⟩
              simpa [SuffixToken.isWordOrPercent] using words
            · rw [Bool.not_eq_true] at alphabetic
              rcases ih more small_more undigits_more with ⟨titles, read, words⟩
              exact ⟨titles, .silent other sign alphabetic read, words⟩

/-! ## The line -/

/-- The text after a name on a board's line, with its figures: perhaps a title without digits,
then figures and clocks that stand apart. -/
def BoardSuffix (tables : CharTables) (suffix : Text) (figures : List ℕ) : Prop :=
  ∃ title pairs, suffix = title ++ layoutText pairs ∧
    (∀ letter ∈ title, letter.isDigit = false ∧ letter ≠ ':') ∧ Spaced tables pairs ∧
      (pairs.filterMap fun pair => pair.1.digits?).map numeral = figures

theorem ascii_digit_shown : ∀ code < 128, (Char.ofNat code).isDigit = true →
    isWhitespace (Char.ofNat code) = false ∧ Char.ofNat code ≠ ':' := by
  decide

theorem digit_shown {digit : Char} (is_digit : digit.isDigit = true) :
    isWhitespace digit = false ∧ digit ≠ ':' := by
  have small : digit.toNat < 128 := by
    simp only [Char.isDigit, Bool.and_eq_true, decide_eq_true_eq] at is_digit
    have upper : digit.toNat ≤ 57 := is_digit.2
    omega
  have shown := ascii_digit_shown digit.toNat small
  rw [Char.ofNat_toNat] at shown
  exact shown is_digit

/-- A layout starts with a digit. -/
theorem layoutText_cases {pairs : List (Piece × Text)} (spaced : Spaced tables pairs) :
    layoutText pairs = [] ∨
      ∃ digit more, layoutText pairs = digit :: more ∧ digit.isDigit = true := by
  cases pairs with
  | nil => exact .inl rfl
  | cons pair rest =>
      rcases pair with ⟨piece, gap⟩
      rcases spaced with ⟨formed, -⟩
      cases formed with
      | figure starts => exact .inr ⟨_, _, rfl, starts⟩
      | @clock minutes seconds minuteDigits fewMinutes secondDigits twoSeconds =>
          cases minutes with
          | nil => exact absurd fewMinutes (by simp)
          | cons digit more =>
              exact .inr ⟨digit, _, rfl, minuteDigits digit (List.mem_cons_self ..)⟩

theorem layoutOutside_cases (lawful : tables.Lawful) {pairs : List (Piece × Text)}
    (spaced : Spaced tables pairs) :
    (layoutOutside pairs).head?.any tables.isAlphabetic = false := by
  cases pairs with
  | nil => rfl
  | cons pair rest =>
      rcases pair with ⟨piece, gap⟩
      rcases spaced with ⟨formed, -⟩
      cases formed with
      | figure starts => exact isAlphabetic_digit lawful starts
      | clock => exact isAlphabetic_blank lawful

theorem BoardSuffix.not_chat {suffix : Text} {figures : List ℕ}
    (board : BoardSuffix tables suffix figures) : suffix.trimStart.head? ≠ some ':' := by
  rcases board with ⟨title, pairs, rfl, title_plain, spaced, -⟩
  unfold Text.trimStart
  induction title with
  | nil =>
      rcases layoutText_cases spaced with empty | ⟨digit, more, starts, is_digit⟩
      · simp [empty]
      · have shown := digit_shown is_digit
        rw [List.nil_append, starts, List.dropWhile_cons, shown.1]
        simpa using shown.2
  | cons letter more ih =>
      have others := ih fun one one_mem => title_plain one (List.mem_cons_of_mem _ one_mem)
      rw [List.cons_append, List.dropWhile_cons]
      split
      · exact others
      · simpa using (title_plain letter (List.mem_cons_self ..)).2

theorem map_digitsToken {digits : List Text} (small : ∀ one ∈ digits, numeral one < 2 ^ 32) :
    digits.map digitsToken = (digits.map numeral).map .number := by
  rw [List.map_map]
  apply List.map_congr_left
  intro one one_mem
  exact if_pos (small one one_mem)

/-- The figures of a board's line are one run of six at its end. -/
theorem BoardSuffix.six (lawful : tables.Lawful) {suffix : Text} {figures : List ℕ}
    (board : BoardSuffix tables suffix figures) (six : figures.length = 6)
    (small : ∀ figure ∈ figures, figure < 2 ^ 32) :
    SixAtEnd (suffixTokens tables (stripClockTokens suffix)) figures := by
  rcases board with ⟨title, pairs, rfl, title_plain, spaced, rfl⟩
  have undigits : ∀ letter ∈ title, letter.isDigit = false :=
    fun letter letter_mem => (title_plain letter letter_mem).1
  have apart : (title.getLast?.or none).any Char.isDigit = false := by
    rcases List.eq_nil_or_concat title with rfl | ⟨init, last, rfl⟩
    · rfl
    · have other := undigits last (by simp)
      simpa using other
  have strips : Strips none (title ++ layoutText pairs) (title ++ layoutOutside pairs) :=
    .append_undigits undigits (strips_layout spaced apart)
  rcases Reads.append_title title.length (layoutOutside_cases lawful spaced)
    (reads_layout lawful spaced) title le_rfl undigits with ⟨titles, reads, words⟩
  have figures_small : ∀ digits ∈ pairs.filterMap (fun pair => pair.1.digits?),
      numeral digits < 2 ^ 32 :=
    fun digits digits_mem => small _ (List.mem_map_of_mem digits_mem)
  rw [← strips_iff.mp strips, ← reads_iff.mp reads]
  refine ⟨titles, ?_, words, six⟩
  rw [layoutTokens, map_digitsToken figures_small]

section Lines

variable {name front word suffix : Text}

theorem textFallbackStats_of_stands (stands : Stands tables name front word suffix)
    (lawful : tables.Lawful) (lines : List Text) :
    textFallbackStats tables ((front ++ word ++ suffix) :: lines) (some name) =
      if suffix.trimStart.head? = some ':' then textFallbackStats tables lines (some name)
      else
        (statsFromPlayerSuffix tables suffix).elim (textFallbackStats tables lines (some name))
          fun stats => some (some stats) := by
  have named : configuredName (some name) = some name.trim := by
    have nonempty : name.trim.isEmpty = false := List.isEmpty_eq_false_iff.mpr stands.named
    simp [configuredName, nonempty]
  have trimmed : Stands tables name.trim front word suffix := by
    have same := Text.trim_trim name
    constructor
    · rw [same]
      exact stands.named
    · rw [same]
      exact stands.spelled
    · exact stands.before
    · exact stands.after
    · rw [same]
      exact stands.first
  simp only [textFallbackStats, named, scanLines, trimmed.nameWordIndex_eq lawful,
    trimmed.suffixAfterName_eq lawful, Option.bind_eq_bind, Option.bind_some]
  split
  · rfl
  · cases statsFromPlayerSuffix tables suffix <;> rfl

theorem scanLines_isSome (tables : CharTables) (name : Text) (lines : List Text) :
    (scanLines tables name lines).isSome := by
  induction lines with
  | nil => rfl
  | cons line lines ih =>
      rcases Option.isSome_iff_exists.mp (nameWordIndex_isSome tables line name) with
        ⟨index, found⟩
      rcases Option.isSome_iff_exists.mp (suffixAfterName_isSome tables line name) with
        ⟨suffix, cut⟩
      simp only [scanLines, found, cut, Option.bind_eq_bind, Option.bind_some]
      cases index with
      | none => exact ih
      | some start =>
          cases suffix with
          | none => exact ih
          | some suffix =>
              simp only
              split
              · exact ih
              · cases statsFromPlayerSuffix tables suffix with
                | none => exact ih
                | some stats => rfl

theorem statsFromPlayerSuffix_of_board (lawful : tables.Lawful)
    {elims assists deaths damage healing mitigation : ℕ}
    (board : BoardSuffix tables suffix [elims, assists, deaths, damage, healing, mitigation])
    (small : ∀ figure ∈ [elims, assists, deaths, damage, healing, mitigation], figure < 2 ^ 32)
    (within : killColumnsImplausible elims assists deaths = false) :
    statsFromPlayerSuffix tables suffix =
      some ⟨elims, deaths, assists, damage, healing, mitigation⟩ := by
  have run := statRunAfterName_of_six (board.six lawful rfl small)
  simp only [statsFromPlayerSuffix, run, within, Bool.false_eq_true, if_false]

theorem statsFromPlayerSuffix_of_not_six
    (others : ¬∃ numbers, SixAtEnd (suffixTokens tables (stripClockTokens suffix)) numbers) :
    statsFromPlayerSuffix tables suffix = none := by
  unfold statsFromPlayerSuffix
  split
  next elims assists deaths damage healing mitigation found =>
    exact absurd ⟨_, six_of_statRunAfterName found⟩ others
  next => rfl

/-- What the text fallback reads. -/
structure FallbackReads (tables : CharTables) : Prop where
  whole : ∀ lines playerName, (textFallbackStats tables lines playerName).isSome
  board : ∀ (name front word suffix : Text), Stands tables name front word suffix →
    ∀ elims assists deaths damage healing mitigation : ℕ,
      BoardSuffix tables suffix [elims, assists, deaths, damage, healing, mitigation] →
      (∀ figure ∈ [elims, assists, deaths, damage, healing, mitigation], figure < 2 ^ 32) →
      killColumnsImplausible elims assists deaths = false →
        ∀ lines, textFallbackStats tables ((front ++ word ++ suffix) :: lines) (some name) =
          some (some ⟨elims, deaths, assists, damage, healing, mitigation⟩)
  others : ∀ (name front word suffix : Text), Stands tables name front word suffix →
    ∀ outside tokens, Strips none suffix outside → Reads tables outside tokens →
      (¬∃ numbers, SixAtEnd tokens numbers) →
        ∀ lines, textFallbackStats tables ((front ++ word ++ suffix) :: lines) (some name) =
          textFallbackStats tables lines (some name)

/-- The fallback cuts no character, reads the six figures of a board's line, and nothing from a
line whose numbers are not one run of six at its end. -/
theorem text_fallback_reads (lawful : tables.Lawful) : FallbackReads tables where
  whole lines playerName := by
    unfold textFallbackStats
    cases configuredName playerName with
    | none => rfl
    | some name => exact scanLines_isSome tables name lines
  board name front word suffix stands elims assists deaths damage healing mitigation board small
      within lines := by
    rw [textFallbackStats_of_stands stands lawful, if_neg board.not_chat,
      statsFromPlayerSuffix_of_board lawful board small within]
    rfl
  others name front word suffix stands outside tokens strips reads not_six lines := by
    rw [reads_iff.mp reads, strips_iff.mp strips] at not_six
    rw [textFallbackStats_of_stands stands lawful, statsFromPlayerSuffix_of_not_six not_six]
    split <;> rfl

end Lines

/-! ## A player called Ana -/

/-- Tables that know the letters of ASCII and the capital sigma. -/
def asciiTables : CharTables where
  toLowercase letter := if letter = 'Σ' then ['σ'] else [letter.toLower]
  isAlphabetic letter := letter.isAlpha || letter == 'Σ'
  isNumeric := Char.isDigit
  isCased letter := letter.isAlpha || letter == 'Σ'
  isCaseIgnorable letter := ['.', ':', '^'].contains letter

theorem toLower_of_not_alpha {letter : Char} (other : letter.isAlpha = false) :
    letter.toLower = letter := by
  apply dif_neg
  intro upper
  have alpha : letter.isAlpha = true := Bool.or_eq_true_iff.mpr (.inl (decide_eq_true upper))
  rw [alpha] at other
  cases other

theorem asciiTables_lawful : asciiTables.Lawful where
  nonempty letter := by
    simp only [asciiTables]
    split <;> simp
  ascii letter small := by
    apply if_neg
    rintro rfl
    exact absurd small (by decide)
  asciiAlphabetic letter small := by
    have other : letter ≠ 'Σ' := by
      rintro rfl
      exact absurd small (by decide)
    simp [asciiTables, other]
  sigma := rfl
  alphabeticSigma := rfl
  caseless letter other := by
    simp only [CharTables.isAlphanumeric, asciiTables, Bool.or_eq_false_iff, beq_eq_false_iff_ne]
      at other ⊢
    rw [if_neg other.1.2, toLower_of_not_alpha other.1.1]

theorem noneBefore_of_before {text needle front : Text}
    (found : text.before needle = some front) : NoneBefore tables text needle front.length := by
  intro left right split shorter
  have := (Text.before_eq_some found).2 left right split
  omega

theorem silent_blank : ∀ letter ∈ [' '], Silent asciiTables letter := by
  intro letter letter_mem
  rcases List.mem_singleton.mp letter_mem with rfl
  exact ⟨rfl, by decide, by decide, by decide, rfl⟩

theorem plain_blank : ∀ letter ∈ [' '], letter.isDigit = false ∧ letter ≠ ':' := by
  intro letter letter_mem
  rcases List.mem_singleton.mp letter_mem with rfl
  exact ⟨rfl, by decide⟩

def boardPieces : List (Piece × Text) :=
  [(.figure '8' [], [' ']), (.figure '1' [], [' ']), (.clock ['0', '0'] ['4', '2'], [' ']),
    (.figure '2' [], [' ']), (.figure '9' ['8', '9'], [' ']),
    (.figure '1' [',', '5', '8', '3'], [' ']), (.figure '3' ['5'], [])]

theorem spaced_boardPieces : Spaced asciiTables boardPieces :=
  ⟨.figure rfl (List.all_eq_true.mp rfl), silent_blank, .inl (by decide),
    .figure rfl (List.all_eq_true.mp rfl), silent_blank, .inl (by decide),
    .clock (List.all_eq_true.mp rfl) (.inr rfl) (List.all_eq_true.mp rfl) rfl, silent_blank, .inl (by decide),
    .figure rfl (List.all_eq_true.mp rfl), silent_blank, .inl (by decide),
    .figure rfl (List.all_eq_true.mp rfl), silent_blank, .inl (by decide),
    .figure rfl (List.all_eq_true.mp rfl), silent_blank, .inl (by decide),
    .figure rfl (List.all_eq_true.mp rfl), List.forall_mem_nil _, .inr rfl, trivial⟩

/-- A clock is among the figures, and the name is written small. -/
theorem text_fallback_reads_ana :
    textFallbackStats asciiTables ["7 ana 8 1 00:42 2 989 1,583 35".toList] (some "Ana".toList) =
      some (some ⟨8, 2, 1, 989, 1583, 35⟩) := by
  refine (text_fallback_reads asciiTables_lawful).board "Ana".toList "7 ".toList "ana".toList
    " 8 1 00:42 2 989 1,583 35".toList ?_ 8 1 2 989 1583 35 ?_ (by decide) rfl []
  · exact ⟨by decide, by decide, by decide, by decide, noneBefore_of_before (by decide)⟩
  · exact ⟨[' '], boardPieces, by decide, plain_blank, spaced_boardPieces, by decide⟩

/-- The text after the name is taken from the first whole word, and a five stands after that. -/
theorem earlier_name_hides_board :
    asciiTables.lowerWithin "Ana 5 ".toList.reverse "Ana".toList
        " 8 1 00:42 2 989 1,583 35".toList = asciiTables.strToLowercase "Ana".toList ∧
      WholeWord asciiTables "Ana 5 ".toList " 8 1 00:42 2 989 1,583 35".toList ∧
      BoardSuffix asciiTables " 8 1 00:42 2 989 1,583 35".toList [8, 1, 2, 989, 1583, 35] ∧
      killColumnsImplausible 8 1 2 = false ∧
      textFallbackStats asciiTables ["Ana 5 Ana 8 1 00:42 2 989 1,583 35".toList]
        (some "Ana".toList) = some none := by
  refine ⟨by decide, ⟨by decide, by decide⟩, ?_, rfl, by decide⟩
  exact ⟨[' '], boardPieces, by decide, plain_blank, spaced_boardPieces, by decide⟩

end ScuffedCrew.Parse
