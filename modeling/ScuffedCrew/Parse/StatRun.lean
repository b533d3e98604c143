import ScuffedCrew.Parse.NameSearch

/-!
# The stats after the name

What is outside the clocks of a text, and the tokens read from it, as relations
that the loops compute.  Six figures with clocks among them are read as they
stand; anything else than one run of six numbers at the end gives nothing.
-/

namespace ScuffedCrew.Parse

open Rust

variable {tables : CharTables} {before : Option Char} {text rest outside : Text}
  {tokens : List SuffixToken}

/-! ## Clocks -/

/-- A clock after a letter: one or two digits, a colon and two digits, with no more digits. -/
structure Clock (before : Option Char) (minutes seconds after : Text) : Prop where
  apart : before.any Char.isDigit = false
  minuteDigits : ∀ letter ∈ minutes, letter.isDigit = true
  fewMinutes : minutes.length = 1 ∨ minutes.length = 2
  secondDigits : ∀ letter ∈ seconds, letter.isDigit = true
  twoSeconds : seconds.length = 2
  ends : after.head?.any Char.isDigit = false

theorem takeWhile_of_stops {α : Type*} {holds : α → Bool} {front back : List α}
    (all : ∀ one ∈ front, holds one = true) (stops : back.head?.any holds = false) :
    (front ++ back).takeWhile holds = front := by
  rw [List.takeWhile_append_of_pos all]
  cases back with
  | nil => simp
  | cons first others =>
      have first_stops : holds first = false := by simpa using stops
      simp [first_stops]

theorem drop_takeWhile {α : Type*} (holds : α → Bool) (list : List α) :
    list.drop (list.takeWhile holds).length = list.dropWhile holds := by
  have same := congrArg (List.drop (list.takeWhile holds).length)
    (@List.takeWhile_append_dropWhile _ holds list)
  rw [List.drop_left] at same
  exact same.symm

theorem head?_dropWhile_stops {α : Type*} (holds : α → Bool) (list : List α) :
    (list.dropWhile holds).head?.any holds = false := by
  cases kept : list.dropWhile holds with
  | nil => rfl
  | cons first others =>
      have := List.head?_dropWhile_not holds list
      rw [kept] at this
      simpa using this

theorem exists_run {α : Type*} (holds : α → Bool) (list : List α) :
    ∃ run others, list = run ++ others ∧ (∀ one ∈ run, holds one = true) ∧
      others.head?.any holds = false :=
  ⟨list.takeWhile holds, list.dropWhile holds, List.takeWhile_append_dropWhile.symm,
    fun _ inside => List.mem_takeWhile_imp inside, head?_dropWhile_stops holds list⟩

theorem clockTokenLen_of_clock {minutes seconds after : Text}
    (clock : Clock before minutes seconds after) :
    clockTokenLen before (minutes ++ ':' :: (seconds ++ after)) =
      some (minutes.length + 1 + seconds.length) := by
  have minutes_run : (minutes ++ ':' :: (seconds ++ after)).takeWhile Char.isDigit = minutes :=
    takeWhile_of_stops clock.minuteDigits rfl
  have seconds_run : (seconds ++ after).takeWhile Char.isDigit = seconds :=
    takeWhile_of_stops clock.secondDigits clock.ends
  have few : ¬(minutes.length = 0 ∨ 2 < minutes.length) := by
    have := clock.fewMinutes
    omega
  simp only [clockTokenLen, clock.apart, Bool.false_eq_true, if_false, minutes_run, few,
    List.drop_left, seconds_run]
  exact if_pos clock.twoSeconds

theorem clock_of_clockTokenLen {len : ℕ} (found : clockTokenLen before text = some len) :
    ∃ minutes seconds after, text = minutes ++ ':' :: (seconds ++ after) ∧
      Clock before minutes seconds after ∧ len = minutes.length + 1 + seconds.length := by
  unfold clockTokenLen at found
  split at found
  next => cases found
  next apart =>
    simp only [drop_takeWhile] at found
    split at found
    next => cases found
    next few =>
      split at found
      next after colon =>
        split at found
        next two =>
          refine ⟨text.takeWhile Char.isDigit, after.takeWhile Char.isDigit,
            after.dropWhile Char.isDigit, ?_, ?_, (Option.some.inj found).symm⟩
          · rw [List.takeWhile_append_dropWhile, ← colon, List.takeWhile_append_dropWhile]
          · refine ⟨by simpa using apart, ?_, by omega, ?_, two, head?_dropWhile_stops _ _⟩
            · intro letter letter_mem
              exact List.mem_takeWhile_imp letter_mem
            · intro letter letter_mem
              exact List.mem_takeWhile_imp letter_mem
        next => cases found
      next => cases found

/-- What is outside the clocks of a text, a blank for each of them. -/
inductive Strips : Option Char → Text → Text → Prop
  | nil (before : Option Char) : Strips before [] []
  | clock {before : Option Char} {minutes seconds after outside : Text}
      (clock : Clock before minutes seconds after)
      (rest : Strips seconds.getLast? after outside) :
      Strips before (minutes ++ ':' :: (seconds ++ after)) (' ' :: outside)
  | letter {before : Option Char} {letter : Char} {rest outside : Text}
      (plain : ∀ minutes seconds after, letter :: rest = minutes ++ ':' :: (seconds ++ after) →
        ¬Clock before minutes seconds after)
      (more : Strips (some letter) rest outside) : Strips before (letter :: rest) (letter :: outside)

theorem stripFrom_skip (before : Option Char) (skipped rest : Text) :
    stripFrom before skipped.length (skipped ++ rest) =
      stripFrom (skipped.getLast?.or before) 0 rest := by
  induction skipped generalizing before with
  | nil => rfl
  | cons letter others ih =>
      rw [List.cons_append, List.length_cons, stripFrom, ih]
      cases others with
      | nil => rfl
      | cons next others => rfl

theorem stripFrom_clock {minutes seconds after : Text}
    (clock : Clock before minutes seconds after) :
    stripFrom before 0 (minutes ++ ':' :: (seconds ++ after)) =
      ' ' :: stripFrom seconds.getLast? 0 after := by
  have len := clockTokenLen_of_clock clock
  cases minutes with
  | nil => exact absurd clock.fewMinutes (by simp)
  | cons first more =>
      have split : more ++ ':' :: (seconds ++ after) = (more ++ ':' :: seconds) ++ after := by simp
      have skipped : (first :: more).length + 1 + seconds.length - 1 =
          (more ++ ':' :: seconds).length := by
        simp only [List.length_cons, List.length_append]
        omega
      have last : (more ++ ':' :: seconds).getLast?.or (some first) = seconds.getLast? := by
        rcases List.eq_nil_or_concat seconds with rfl | ⟨init, last, rfl⟩
        · exact absurd clock.twoSeconds (by simp)
        · have same : more ++ ':' :: (init ++ [last]) = (more ++ ':' :: init) ++ [last] := by simp
          rw [List.concat_eq_append, same, List.getLast?_concat, List.getLast?_concat]
          rfl
      rw [List.cons_append] at len ⊢
      rw [stripFrom, len]
      simp only [skipped]
      rw [split, stripFrom_skip, last]

theorem stripFrom_letter {letter : Char}
    (plain : ∀ minutes seconds after, letter :: rest = minutes ++ ':' :: (seconds ++ after) →
      ¬Clock before minutes seconds after) :
    stripFrom before 0 (letter :: rest) = letter :: stripFrom (some letter) 0 rest := by
  cases found : clockTokenLen before (letter :: rest) with
  | none => rw [stripFrom, found]
  | some len =>
      rcases clock_of_clockTokenLen found with ⟨minutes, seconds, after, split, clock, -⟩
      exact absurd clock (plain minutes seconds after split)

theorem Strips.eq_stripFrom (strips : Strips before text outside) :
    outside = stripFrom before 0 text := by
  induction strips with
  | nil => rfl
  | clock clock _ ih => rw [stripFrom_clock clock, ih]
  | letter plain _ ih => rw [stripFrom_letter plain, ih]

theorem strips_stripFrom (size : ℕ) : ∀ (before : Option Char) (text : Text), text.length ≤ size →
    Strips before text (stripFrom before 0 text) := by
  induction size with
  | zero =>
      intro before text small
      rcases List.length_eq_zero_iff.mp (Nat.le_zero.mp small) with rfl
      exact .nil before
  | succ size ih =>
      intro before text small
      cases text with
      | nil => exact .nil before
      | cons letter rest =>
          by_cases clock : ∃ minutes seconds after,
              letter :: rest = minutes ++ ':' :: (seconds ++ after) ∧
                Clock before minutes seconds after
          · rcases clock with ⟨minutes, seconds, after, split, clock⟩
            rw [split, stripFrom_clock clock]
            apply Strips.clock clock (ih _ _ _)
            have lengths := congrArg List.length split
            simp only [List.length_cons, List.length_append] at lengths small
            omega
          · have plain : ∀ minutes seconds after,
                letter :: rest = minutes ++ ':' :: (seconds ++ after) →
                  ¬Clock before minutes seconds after := by
              intro minutes seconds after split is_clock
              exact clock ⟨minutes, seconds, after, split, is_clock⟩
            rw [stripFrom_letter plain]
            exact .letter plain (ih _ _ (Nat.le_of_succ_le_succ small))

/-- The clocks are dropped. -/
theorem strips_iff : Strips none text outside ↔ outside = stripClockTokens text := by
  refine ⟨Strips.eq_stripFrom, ?_⟩
  rintro rfl
  exact strips_stripFrom text.length none text le_rfl

/-! ## Tokens -/

/-- The tokens read from a text: runs of digits and commas that start with a digit, runs of
letters, and percent signs. -/
inductive Reads (tables : CharTables) : Text → List SuffixToken → Prop
  | nil : Reads tables [] []
  | figure {digit : Char} {run rest : Text} {tokens : List SuffixToken}
      (starts : digit.isDigit = true) (run_figure : ∀ letter ∈ run, isFigureLetter letter = true)
      (ends : rest.head?.any isFigureLetter = false) (more : Reads tables rest tokens) :
      Reads tables (digit :: (run ++ rest))
        (digitsToken ((digit :: run).filter Char.isDigit) :: tokens)
  | percent {rest : Text} {tokens : List SuffixToken} (more : Reads tables rest tokens) :
      Reads tables ('%' :: rest) (.percent :: tokens)
  | word {letter : Char} {run rest : Text} {tokens : List SuffixToken}
      (other : letter.isDigit = false) (sign : letter ≠ '%')
      (starts : tables.isAlphabetic letter = true)
      (run_word : ∀ letter ∈ run, tables.isAlphabetic letter = true)
      (ends : rest.head?.any tables.isAlphabetic = false) (more : Reads tables rest tokens) :
      Reads tables (letter :: (run ++ rest)) (.word :: tokens)
  | silent {letter : Char} {rest : Text} {tokens : List SuffixToken}
      (other : letter.isDigit = false) (sign : letter ≠ '%')
      (unlettered : tables.isAlphabetic letter = false) (more : Reads tables rest tokens) :
      Reads tables (letter :: rest) tokens

theorem tokensFrom_skip (skip : ℕ) (text : Text) :
    tokensFrom tables skip text = tokensFrom tables 0 (text.drop skip) := by
  induction text generalizing skip with
  | nil => simp [tokensFrom]
  | cons letter rest ih =>
      cases skip with
      | zero => rfl
      | succ skip =>
          rw [tokensFrom, List.drop_succ_cons]
          exact ih skip

theorem isFigureLetter_of_digit {letter : Char} (digit : letter.isDigit = true) :
    isFigureLetter letter = true := by
  simp [isFigureLetter, digit]

theorem tokensFrom_figure {digit : Char} {run : Text} (starts : digit.isDigit = true)
    (run_figure : ∀ letter ∈ run, isFigureLetter letter = true)
    (ends : rest.head?.any isFigureLetter = false) :
    tokensFrom tables 0 (digit :: (run ++ rest)) =
      digitsToken ((digit :: run).filter Char.isDigit) :: tokensFrom tables 0 rest := by
  have taken : (digit :: (run ++ rest)).takeWhile isFigureLetter = digit :: run := by
    have split : digit :: (run ++ rest) = (digit :: run) ++ rest := rfl
    rw [split]
    apply takeWhile_of_stops _ ends
    intro letter letter_mem
    rcases List.mem_cons.mp letter_mem with rfl | inside
    · exact isFigureLetter_of_digit starts
    · exact run_figure letter inside
  rw [tokensFrom]
  simp only [starts, if_true, taken, List.length_cons, Nat.add_sub_cancel]
  rw [tokensFrom_skip run.length, List.drop_left]

theorem tokensFrom_word {letter : Char} {run : Text} (other : letter.isDigit = false)
    (sign : letter ≠ '%') (starts : tables.isAlphabetic letter = true)
    (run_word : ∀ letter ∈ run, tables.isAlphabetic letter = true)
    (ends : rest.head?.any tables.isAlphabetic = false) :
    tokensFrom tables 0 (letter :: (run ++ rest)) = .word :: tokensFrom tables 0 rest := by
  have taken : (letter :: (run ++ rest)).takeWhile tables.isAlphabetic = letter :: run := by
    have split : letter :: (run ++ rest) = (letter :: run) ++ rest := rfl
    rw [split]
    apply takeWhile_of_stops _ ends
    intro one one_mem
    rcases List.mem_cons.mp one_mem with rfl | inside
    · exact starts
    · exact run_word one inside
  rw [tokensFrom]
  simp only [other, Bool.false_eq_true, if_false, sign, starts, if_true, taken, List.length_cons,
    Nat.add_sub_cancel]
  rw [tokensFrom_skip run.length, List.drop_left]

theorem tokensFrom_silent {letter : Char} (other : letter.isDigit = false) (sign : letter ≠ '%')
    (unlettered : tables.isAlphabetic letter = false) :
    tokensFrom tables 0 (letter :: rest) = tokensFrom tables 0 rest := by
  rw [tokensFrom]
  simp only [other, Bool.false_eq_true, if_false, sign, unlettered]

theorem Reads.eq_tokensFrom (reads : Reads tables text tokens) :
    tokens = tokensFrom tables 0 text := by
  induction reads with
  | nil => rfl
  | figure starts run_figure ends _ ih => rw [tokensFrom_figure starts run_figure ends, ih]
  | percent _ ih => rw [ih]; rfl
  | word other sign starts run_word ends _ ih =>
      rw [tokensFrom_word other sign starts run_word ends, ih]
  | silent other sign unlettered _ ih => rw [tokensFrom_silent other sign unlettered, ih]

theorem reads_tokensFrom (size : ℕ) : ∀ text : Text, text.length ≤ size →
    Reads tables text (tokensFrom tables 0 text) := by
  induction size with
  | zero =>
      intro text small
      rcases List.length_eq_zero_iff.mp (Nat.le_zero.mp small) with rfl
      exact .nil
  | succ size ih =>
      intro text small
      cases text with
      | nil => exact .nil
      | cons letter rest =>
          have shorter {run others : Text} (split : rest = run ++ others) :
              others.length ≤ size := by
            rw [split, List.length_cons, List.length_append] at small
            omega
          by_cases digit : letter.isDigit = true
          · rcases exists_run isFigureLetter rest with ⟨run, others, split, run_figure, ends⟩
            have more := ih others (shorter split)
            rw [split, tokensFrom_figure digit run_figure ends]
            exact .figure digit run_figure ends more
          · rw [Bool.not_eq_true] at digit
            by_cases sign : letter = '%'
            · rw [sign]
              exact .percent (ih rest (Nat.le_of_succ_le_succ small))
            · by_cases alphabetic : tables.isAlphabetic letter = true
              · rcases exists_run tables.isAlphabetic rest with
                  ⟨run, others, split, run_word, ends⟩
                have more := ih others (shorter split)
                rw [split, tokensFrom_word digit sign alphabetic run_word ends]
                exact .word digit sign alphabetic run_word ends more
              · rw [Bool.not_eq_true] at alphabetic
                rw [tokensFrom_silent digit sign alphabetic]
                exact .silent digit sign alphabetic (ih rest (Nat.le_of_succ_le_succ small))

/-- The tokens are read. -/
theorem reads_iff : Reads tables text tokens ↔ tokens = suffixTokens tables text := by
  refine ⟨Reads.eq_tokensFrom, ?_⟩
  rintro rfl
  exact reads_tokensFrom text.length text le_rfl

/-! ## One run of six -/

/-- Six numbers at the end, with words and percent signs only before them. -/
def SixAtEnd (tokens : List SuffixToken) (numbers : List ℕ) : Prop :=
  ∃ titles, tokens = titles ++ numbers.map .number ∧
    (∀ token ∈ titles, token.isWordOrPercent = true) ∧ numbers.length = 6

theorem map_number_values (all : ∀ token ∈ tokens, token.isNumber = true) :
    (tokens.filterMap SuffixToken.value?).map .number = tokens := by
  induction tokens with
  | nil => rfl
  | cons token rest ih =>
      have number := all token (List.mem_cons_self ..)
      have others := ih fun other other_mem => all other (List.mem_cons_of_mem _ other_mem)
      cases token with
      | number value => exact congrArg (SuffixToken.number value :: ·) others
      | overflow => cases number
      | word => cases number
      | percent => cases number

theorem values_map_number (numbers : List ℕ) :
    (numbers.map SuffixToken.number).filterMap SuffixToken.value? = numbers := by
  induction numbers with
  | nil => rfl
  | cons value rest ih => exact congrArg (value :: ·) ih

theorem isWordOrPercent_of_not_number {token : SuffixToken} (other : token.isNumber = false)
    (small : token ≠ .overflow) : token.isWordOrPercent = true := by
  cases token with
  | number value => cases other
  | overflow => exact absurd rfl small
  | word => rfl
  | percent => rfl

theorem statRunAfterName_of_six {suffix : Text} {numbers : List ℕ}
    (six : SixAtEnd (suffixTokens tables suffix) numbers) :
    statRunAfterName tables suffix = some numbers := by
  rcases six with ⟨titles, split, words, six⟩
  have small : (suffixTokens tables suffix).contains .overflow = false := by
    rw [split, ← Bool.not_eq_true, List.contains_iff_mem, List.mem_append]
    rintro (title | number)
    · cases words _ title
    · rcases List.mem_map.mp number with ⟨value, -, same⟩
      cases same
  have numbers_run : ∀ token ∈ numbers.map SuffixToken.number, token.isNumber = true := by
    intro token token_mem
    rcases List.mem_map.mp token_mem with ⟨value, -, rfl⟩
    rfl
  have rest : (suffixTokens tables suffix).dropWhile (fun token => !token.isNumber) =
      numbers.map .number := by
    rw [split, List.dropWhile_append_of_pos]
    · cases numbers with
      | nil => rfl
      | cons value others => rfl
    · intro token title
      have word := words token title
      cases token with
      | number value => cases word
      | overflow => rfl
      | word => rfl
      | percent => rfl
  have run : (numbers.map SuffixToken.number).takeWhile SuffixToken.isNumber =
      numbers.map .number := List.takeWhile_eq_self_iff.mpr numbers_run
  have some_left : (numbers.map SuffixToken.number).isEmpty = false := by
    rw [List.isEmpty_eq_false_iff]
    intro empty
    have := congrArg List.length empty
    simp [six] at this
  have nothing : (numbers.map SuffixToken.number).drop numbers.length = [] := by simp
  simp only [statRunAfterName, small, Bool.false_eq_true, if_false, rest, run,
    values_map_number, some_left, six, ne_eq, not_true_eq_false]
  rw [← six, nothing]
  rfl

/-- What the loop over the tokens has checked. -/
theorem six_of_run (small : .overflow ∉ tokens)
    (six : (((tokens.dropWhile fun token => !token.isNumber).takeWhile
      SuffixToken.isNumber).filterMap SuffixToken.value?).length = 6)
    (quiet : ∀ token ∈ (tokens.dropWhile fun token => !token.isNumber).drop
      (((tokens.dropWhile fun token => !token.isNumber).takeWhile
        SuffixToken.isNumber).filterMap SuffixToken.value?).length,
      token.isWordOrPercent = false) :
    SixAtEnd tokens (((tokens.dropWhile fun token => !token.isNumber).takeWhile
      SuffixToken.isNumber).filterMap SuffixToken.value?) := by
  have inside : ∀ token ∈ tokens.dropWhile (fun token => !token.isNumber), token ∈ tokens :=
    fun _ kept => List.dropWhile_subset _ kept
  generalize left : (tokens.dropWhile fun token => !token.isNumber) = rest at six quiet inside ⊢
  have run_all : ∀ token ∈ rest.takeWhile SuffixToken.isNumber, token.isNumber = true :=
    fun _ => List.mem_takeWhile_imp
  have same := map_number_values run_all
  have lengths := congrArg List.length same
  rw [List.length_map] at lengths
  rw [lengths, drop_takeWhile] at quiet
  have ended : rest.dropWhile SuffixToken.isNumber = [] := by
    have stops := head?_dropWhile_stops SuffixToken.isNumber rest
    have kept : ∀ token ∈ rest.dropWhile SuffixToken.isNumber, token ∈ rest :=
      fun _ kept => List.dropWhile_subset _ kept
    cases others : rest.dropWhile SuffixToken.isNumber with
    | nil => rfl
    | cons token more =>
        rw [others] at stops quiet kept
        have token_mem := List.mem_cons_self (a := token) (l := more)
        have word := isWordOrPercent_of_not_number (by simpa using stops) (by
          rintro rfl
          exact small (inside _ (kept _ token_mem)))
        rw [quiet token token_mem] at word
        cases word
  refine ⟨tokens.takeWhile fun token => !token.isNumber, ?_, ?_, six⟩
  · rw [same]
    have all_run := @List.takeWhile_append_dropWhile _ SuffixToken.isNumber rest
    rw [ended, List.append_nil] at all_run
    rw [all_run, ← left, List.takeWhile_append_dropWhile]
  · intro token title
    apply isWordOrPercent_of_not_number
    · simpa using List.mem_takeWhile_imp title
    · rintro rfl
      exact small (List.takeWhile_subset _ title)

theorem six_of_statRunAfterName {suffix : Text} {numbers : List ℕ}
    (found : statRunAfterName tables suffix = some numbers) :
    SixAtEnd (suffixTokens tables suffix) numbers := by
  unfold statRunAfterName at found
  generalize suffixTokens tables suffix = tokens at found ⊢
  simp only at found
  split at found
  next => cases found
  next small =>
    split at found
    next => cases found
    next =>
      split at found
      next => cases found
      next six =>
        split at found
        next => cases found
        next quiet =>
          rcases Option.some.inj found with rfl
          rw [List.contains_iff_mem] at small
          exact six_of_run small (by simpa using six) (by simpa using quiet)

end ScuffedCrew.Parse
