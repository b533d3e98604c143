import ScuffedCrew.Rust.Json

/-!
# JSON texts

A compact writer and a reader of JSON without floats, and the proof that every
value is read back from what is written of it.  The reader skips white space
between tokens; it reads no surrogate pairs and is lenient about leading zeros.
-/

namespace Rust

namespace Json

/-! ## Strings -/

def hexDigit (value : ℕ) : Char :=
  if value < 10 then Char.ofNat (48 + value) else Char.ofNat (87 + value)

def hexValue (letter : Char) : Option ℕ :=
  let code := letter.toNat
  if 48 ≤ code ∧ code ≤ 57 then some (code - 48)
  else if 97 ≤ code ∧ code ≤ 102 then some (code - 87)
  else if 65 ≤ code ∧ code ≤ 70 then some (code - 55)
  else none

def escape (letter : Char) : Text :=
  if letter = '"' then ['\\', '"']
  else if letter = '\\' then ['\\', '\\']
  else if letter = '\n' then ['\\', 'n']
  else if letter = '\r' then ['\\', 'r']
  else if letter = '\t' then ['\\', 't']
  else if letter = '\x08' then ['\\', 'b']
  else if letter = '\x0c' then ['\\', 'f']
  else if letter.toNat < 32 then
    ['\\', 'u', '0', '0', hexDigit (letter.toNat / 16), hexDigit (letter.toNat % 16)]
  else [letter]

def unescape (letter : Char) : Option Char :=
  if letter = '"' ∨ letter = '\\' ∨ letter = '/' then some letter
  else if letter = 'n' then some '\n'
  else if letter = 'r' then some '\r'
  else if letter = 't' then some '\t'
  else if letter = 'b' then some '\x08'
  else if letter = 'f' then some '\x0c'
  else none

/-- The letter of a `\u` escape. -/
def codePoint (digits : Text) : Option Char := do
  let values ← digits.mapM hexValue
  let code := values.foldl (fun code value => code * 16 + value) 0
  if code.isValidChar then some (Char.ofNat code) else none

/-- Where in a string the reader is: the digits of a `\u` escape it has read. -/
inductive Reading
  | plain
  | escaped
  | hex (digits : Text)

/-- A string up to its closing quote, and what follows. -/
def readString : Reading → Text → Option (Text × Text)
  | _, [] => none
  | .plain, letter :: rest =>
      if letter = '"' then some ([], rest)
      else if letter = '\\' then readString .escaped rest
      else if letter.toNat < 32 then none
      else (readString .plain rest).map fun (text, rest) => (letter :: text, rest)
  | .escaped, letter :: rest =>
      if letter = 'u' then readString (.hex []) rest
      else
        (unescape letter).bind fun letter =>
          (readString .plain rest).map fun (text, rest) => (letter :: text, rest)
  | .hex digits, letter :: rest =>
      if digits.length < 3 then readString (.hex (digits ++ [letter])) rest
      else
        (codePoint (digits ++ [letter])).bind fun letter =>
          (readString .plain rest).map fun (text, rest) => (letter :: text, rest)

theorem hexValue_hexDigit : ∀ value < 16, hexValue (hexDigit value) = some value := by
  decide

theorem codePoint_of_lt {letter : Char} (control : letter.toNat < 32) :
    codePoint ['0', '0', hexDigit (letter.toNat / 16), hexDigit (letter.toNat % 16)] =
      some letter := by
  have high := hexValue_hexDigit (letter.toNat / 16) (by omega)
  have low := hexValue_hexDigit (letter.toNat % 16) (by omega)
  have zero : hexValue '0' = some 0 := rfl
  have code : letter.toNat / 16 * 16 + letter.toNat % 16 = letter.toNat := by omega
  have valid : letter.toNat.isValidChar := letter.valid
  simp [codePoint, zero, high, low, code, valid]

theorem readString_unescape {escaped letter : Char} (known : unescape escaped = some letter)
    (rest : Text) : readString .plain ('\\' :: escaped :: rest) =
      (readString .plain rest).map fun (text, rest) => (letter :: text, rest) := by
  have other : escaped ≠ 'u' := by
    rintro rfl
    cases known
  rw [readString, if_neg (by decide), if_pos rfl, readString, if_neg other, known,
    Option.bind_some]

theorem readString_escape (letter : Char) (rest : Text) :
    readString .plain (escape letter ++ rest) =
      (readString .plain rest).map fun (text, rest) => (letter :: text, rest) := by
  unfold escape
  split
  next quote => subst quote; exact readString_unescape rfl rest
  split
  next backslash => subst backslash; exact readString_unescape rfl rest
  split
  next newline => subst newline; exact readString_unescape rfl rest
  split
  next carriage => subst carriage; exact readString_unescape rfl rest
  split
  next tab => subst tab; exact readString_unescape rfl rest
  split
  next backspace => subst backspace; exact readString_unescape rfl rest
  split
  next formFeed => subst formFeed; exact readString_unescape rfl rest
  split
  next control =>
    have read := codePoint_of_lt control
    simp [readString, read]
  next quote backslash _ _ _ _ _ printed =>
    rw [List.singleton_append, readString, if_neg quote, if_neg backslash, if_neg printed]

theorem readString_flatMap_escape (text rest : Text) :
    readString .plain (text.flatMap escape ++ '"' :: rest) = some (text, rest) := by
  induction text with
  | nil => simp [readString]
  | cons letter text ih =>
      rw [List.flatMap_cons, List.append_assoc, readString_escape, ih, Option.map_some]

/-! ## Numbers -/

def printNumber : ℤ → Text
  | .ofNat value => Nat.toDigits 10 value
  | .negSucc value => '-' :: Nat.toDigits 10 (value + 1)

/-- Digits that no fraction or exponent follows. -/
def readDigits (text : Text) : Option (ℕ × Text) :=
  let digits := text.takeWhile Char.isDigit
  let rest := text.dropWhile Char.isDigit
  if digits.isEmpty || rest.head?.any (['.', 'e', 'E'].contains ·) then none
  else some (Nat.ofDigitChars 10 digits 0, rest)

def readNumber : Text → Option (ℤ × Text)
  | '-' :: rest => (readDigits rest).map fun (value, rest) => (-(value : ℤ), rest)
  | text => (readDigits text).map fun (value, rest) => ((value : ℤ), rest)

/-- What follows a value in a text: the end, or a separator. -/
def Ends (rest : Text) : Prop :=
  ∀ letter ∈ rest.head?, letter = ',' ∨ letter = ']' ∨ letter = '\x7d'

theorem readDigits_toDigits (value : ℕ) {rest : Text} (ends : Ends rest) :
    readDigits (Nat.toDigits 10 value ++ rest) = some (value, rest) := by
  have digits : ∀ letter ∈ Nat.toDigits 10 value, letter.isDigit = true := by
    intro letter letter_mem
    exact Nat.isDigit_of_mem_toDigits (by omega) (by omega) letter_mem
  have stops : ∀ letter ∈ rest.head?, letter.isDigit = false ∧ letter ∉ ['.', 'e', 'E'] := by
    intro letter head
    rcases ends letter head with rfl | rfl | rfl <;> decide
  have taken : rest.takeWhile Char.isDigit = [] ∧ rest.dropWhile Char.isDigit = rest := by
    cases rest with
    | nil => exact ⟨rfl, rfl⟩
    | cons letter rest => simp [(stops letter rfl).1]
  have exponent : rest.head?.any (['.', 'e', 'E'].contains ·) = false := by
    cases rest with
    | nil => rfl
    | cons letter rest => simpa using (stops letter rfl).2
  rw [readDigits, List.takeWhile_append_of_pos digits, List.dropWhile_append_of_pos digits,
    taken.1, taken.2, List.append_nil, exponent]
  simp [Nat.toDigits_ne_nil, Nat.ofDigitChars_toDigits]

theorem readNumber_printNumber (value : ℤ) {rest : Text} (ends : Ends rest) :
    readNumber (printNumber value ++ rest) = some (value, rest) := by
  cases value with
  | ofNat value =>
      have read := readDigits_toDigits value ends
      have nonempty : Nat.toDigits 10 value ≠ [] := Nat.toDigits_ne_nil
      rcases digits : Nat.toDigits 10 value with _ | ⟨letter, digits'⟩
      · exact absurd digits nonempty
      have digit : letter.isDigit = true := by
        apply Nat.isDigit_of_mem_toDigits (b := 10) (n := value) (by omega) (by omega)
        simp [digits]
      have unsigned : letter ≠ '-' := by
        rintro rfl
        simp at digit
      rw [digits] at read
      simp only [printNumber, digits, List.cons_append] at read ⊢
      rw [readNumber, read]
      · rfl
      · intro rest same
        cases same
        exact unsigned rfl
  | negSucc value =>
      rw [printNumber, List.cons_append, readNumber, readDigits_toDigits _ ends]
      simp [Int.negSucc_eq]

/-! ## Values -/

mutual

def print : Json Empty → Text
  | null => ['n', 'u', 'l', 'l']
  | bool true => ['t', 'r', 'u', 'e']
  | bool false => ['f', 'a', 'l', 's', 'e']
  | number value => printNumber value
  | string value => '"' :: (value.flatMap escape ++ ['"'])
  | array [] => ['[', ']']
  | array (first :: items) => '[' :: (print first ++ printItems items)
  | object [] => ['\x7b', '\x7d']
  | object ((name, first) :: fields) =>
      '\x7b' :: '"' :: (name.flatMap escape ++ '"' :: ':' :: (print first ++ printFields fields))

def printItems : List (Json Empty) → Text
  | [] => [']']
  | first :: items => ',' :: (print first ++ printItems items)

def printFields : List (Text × Json Empty) → Text
  | [] => ['\x7d']
  | (name, first) :: fields =>
      ',' :: '"' :: (name.flatMap escape ++ '"' :: ':' :: (print first ++ printFields fields))

end

def skipSpace (text : Text) : Text := text.dropWhile ([' ', '\n', '\t', '\r'].contains ·)

mutual

def readValue : ℕ → Text → Option (Json Empty × Text)
  | 0, _ => none
  | fuel + 1, text =>
      match skipSpace text with
      | 'n' :: 'u' :: 'l' :: 'l' :: rest => some (null, rest)
      | 't' :: 'r' :: 'u' :: 'e' :: rest => some (bool true, rest)
      | 'f' :: 'a' :: 'l' :: 's' :: 'e' :: rest => some (bool false, rest)
      | '"' :: rest => (readString .plain rest).map fun (value, rest) => (string value, rest)
      | '[' :: rest =>
          match skipSpace rest with
          | ']' :: rest => some (array [], rest)
          | rest => (readItems fuel rest).map fun (items, rest) => (array items, rest)
      | '\x7b' :: rest =>
          match skipSpace rest with
          | '\x7d' :: rest => some (object [], rest)
          | rest => (readFields fuel rest).map fun (fields, rest) => (object fields, rest)
      | other => (readNumber other).map fun (value, rest) => (number value, rest)

def readItems : ℕ → Text → Option (List (Json Empty) × Text)
  | 0, _ => none
  | fuel + 1, text => do
      let (first, rest) ← readValue fuel text
      match skipSpace rest with
      | ',' :: rest => (readItems fuel rest).map fun (items, rest) => (first :: items, rest)
      | ']' :: rest => some ([first], rest)
      | _ => none

def readFields : ℕ → Text → Option (List (Text × Json Empty) × Text)
  | 0, _ => none
  | fuel + 1, text =>
      match skipSpace text with
      | '"' :: rest => do
          let (name, rest) ← readString .plain rest
          match skipSpace rest with
          | ':' :: rest => do
              let (first, rest) ← readValue fuel rest
              match skipSpace rest with
              | ',' :: rest =>
                  (readFields fuel rest).map fun (fields, rest) => ((name, first) :: fields, rest)
              | '\x7d' :: rest => some ([(name, first)], rest)
              | _ => none
          | _ => none
      | _ => none

end

/-- A text that is one value. -/
def read (text : Text) : Option (Json Empty) :=
  (readValue (text.length + 1) text).bind fun (value, rest) =>
    if (skipSpace rest).isEmpty then some value else none

/-- A text a value can start with. -/
def Starts (text : Text) : Prop :=
  ∃ letter rest, text = letter :: rest ∧ letter ∉ [' ', '\n', '\t', '\r', ']', '\x7d']

theorem Starts.skipSpace_eq {text : Text} (starts : Starts text) : skipSpace text = text := by
  rcases starts with ⟨letter, rest, rfl, plain⟩
  have stops : [' ', '\n', '\t', '\r'].contains letter = false := by
    simp only [List.mem_cons, not_or] at plain
    simp [plain]
  exact List.dropWhile_cons_of_neg (by rw [stops]; exact Bool.false_ne_true)

theorem starts_print (value : Json Empty) (rest : Text) : Starts (print value ++ rest) := by
  cases value with
  | null => exact ⟨_, _, rfl, by decide⟩
  | bool value =>
      cases value with
      | false => exact ⟨_, _, rfl, by decide⟩
      | true => exact ⟨_, _, rfl, by decide⟩
  | number value =>
      cases value with
      | ofNat value =>
          rcases digits : Nat.toDigits 10 value with _ | ⟨letter, tail⟩
          · exact absurd digits Nat.toDigits_ne_nil
          have digit : letter.isDigit = true := by
            apply Nat.isDigit_of_mem_toDigits (b := 10) (n := value) (by omega) (by omega)
            simp [digits]
          refine ⟨letter, tail ++ rest, by simp [print, printNumber, digits], ?_⟩
          intro plain
          simp only [List.mem_cons, List.not_mem_nil, or_false] at plain
          rcases plain with rfl | rfl | rfl | rfl | rfl | rfl <;> simp at digit
      | negSucc value => exact ⟨_, _, rfl, by decide⟩
  | float value => exact value.elim
  | string value => exact ⟨_, _, rfl, by decide⟩
  | array items =>
      cases items with
      | nil => exact ⟨_, _, rfl, by decide⟩
      | cons first items => exact ⟨_, _, rfl, by decide⟩
  | object fields =>
      cases fields with
      | nil => exact ⟨_, _, rfl, by decide⟩
      | cons first fields => exact ⟨_, _, rfl, by decide⟩

theorem Ends.of_cons {letter : Char} {rest : Text}
    (separator : letter = ',' ∨ letter = ']' ∨ letter = '\x7d') : Ends (letter :: rest) := by
  intro other head
  cases head
  exact separator

theorem ends_printItems (items : List (Json Empty)) (rest : Text) :
    Ends (printItems items ++ rest) := by
  cases items with
  | nil => exact .of_cons (by simp)
  | cons first items => exact .of_cons (by simp)

theorem ends_printFields (fields : List (Text × Json Empty)) (rest : Text) :
    Ends (printFields fields ++ rest) := by
  cases fields with
  | nil => exact .of_cons (by simp)
  | cons first fields => exact .of_cons (by simp)

theorem length_print_pos (value : Json Empty) : 0 < (print value).length := by
  rcases starts_print value [] with ⟨letter, rest, split, -⟩
  rw [List.append_nil] at split
  simp [split]

theorem length_printItems_pos (items : List (Json Empty)) : 0 < (printItems items).length := by
  cases items with
  | nil => simp [printItems]
  | cons first items => simp [printItems]

theorem length_printFields_pos (fields : List (Text × Json Empty)) :
    0 < (printFields fields).length := by
  cases fields with
  | nil => simp [printFields]
  | cons first fields => simp [printFields]

@[simp]
theorem skipSpace_quote (rest : Text) : skipSpace ('"' :: rest) = '"' :: rest := rfl

@[simp]
theorem skipSpace_comma (rest : Text) : skipSpace (',' :: rest) = ',' :: rest := rfl

@[simp]
theorem skipSpace_colon (rest : Text) : skipSpace (':' :: rest) = ':' :: rest := rfl

theorem readValue_number (value : ℤ) (fuel : ℕ) {rest : Text} (ends : Ends rest) :
    readValue (fuel + 1) (print (number value) ++ rest) = some (number value, rest) := by
  have numeric : ∃ letter tail, printNumber value = letter :: tail ∧
      (letter = '-' ∨ letter.isDigit = true) := by
    cases value with
    | ofNat value =>
        rcases digits : Nat.toDigits 10 value with _ | ⟨letter, tail⟩
        · exact absurd digits Nat.toDigits_ne_nil
        refine ⟨letter, tail, digits, .inr ?_⟩
        apply Nat.isDigit_of_mem_toDigits (b := 10) (n := value) (by omega) (by omega)
        simp [digits]
    | negSucc value => exact ⟨_, _, rfl, .inl rfl⟩
  rcases numeric with ⟨letter, tail, split, numeric⟩
  have read := readNumber_printNumber value ends
  rw [readValue, (starts_print (number value) rest).skipSpace_eq, print]
  rw [split] at read ⊢
  rw [List.cons_append] at read ⊢
  split
  next same => rcases (List.cons.inj same).1 with rfl; simp at numeric
  next same => rcases (List.cons.inj same).1 with rfl; simp at numeric
  next same => rcases (List.cons.inj same).1 with rfl; simp at numeric
  next same => rcases (List.cons.inj same).1 with rfl; simp at numeric
  next same => rcases (List.cons.inj same).1 with rfl; simp at numeric
  next same => rcases (List.cons.inj same).1 with rfl; simp at numeric
  next => rw [read]; rfl

mutual

theorem readValue_print : ∀ (value : Json Empty) (fuel : ℕ) (rest : Text),
    (print value).length ≤ fuel → Ends rest →
      readValue fuel (print value ++ rest) = some (value, rest)
  | value, 0, rest, enough, _ => by
      have := length_print_pos value
      omega
  | null, fuel + 1, rest, _, _ => by rfl
  | bool true, fuel + 1, rest, _, _ => by rfl
  | bool false, fuel + 1, rest, _, _ => by rfl
  | number value, fuel + 1, rest, _, ends => readValue_number value fuel ends
  | string value, fuel + 1, rest, _, _ => by
      rw [readValue, (starts_print (string value) rest).skipSpace_eq]
      simp [print, readString_flatMap_escape]
  | array [], fuel + 1, rest, _, _ => by rfl
  | array (first :: items), fuel + 1, rest, enough, _ => by
      have starts := starts_print first (printItems items ++ rest)
      have more := readItems_print (first :: items) fuel (print first ++ printItems items) rest
        (by simpa [print, printItems] using enough) rfl
      rw [readValue, (starts_print (array (first :: items)) rest).skipSpace_eq]
      simp only [print, List.cons_append, List.append_assoc] at more ⊢
      rw [starts.skipSpace_eq]
      rcases starts with ⟨letter, tail, split, plain⟩
      rw [split] at more ⊢
      split
      next same => cases same; simp at plain
      next => rw [more]; rfl
  | object [], fuel + 1, rest, _, _ => by rfl
  | object ((name, first) :: fields), fuel + 1, rest, enough, _ => by
      have more := readFields_print ((name, first) :: fields) fuel
        ('"' :: (name.flatMap escape ++ '"' :: ':' :: (print first ++ printFields fields))) rest
        (by simpa [print, printFields] using enough) rfl
      rw [readValue, (starts_print (object ((name, first) :: fields)) rest).skipSpace_eq]
      simp only [print, List.cons_append, List.append_assoc, skipSpace_quote] at more ⊢
      split
      next same => cases same
      next => rw [more]; rfl

theorem readItems_print : ∀ (items : List (Json Empty)) (fuel : ℕ) (text rest : Text),
    (printItems items).length ≤ fuel + 1 → printItems items = ',' :: text →
      readItems fuel (text ++ rest) = some (items, rest)
  | [], _, _, _, _, split => by cases split
  | first :: items, 0, _, _, enough, _ => by
      have := length_print_pos first
      simp only [printItems, List.length_cons, List.length_append] at enough
      omega
  | first :: items, fuel + 1, _, rest, enough, split => by
      cases split
      have first_pos := length_print_pos first
      have items_pos := length_printItems_pos items
      simp only [printItems, List.length_cons, List.length_append] at enough
      have one := readValue_print first fuel (printItems items ++ rest) (by omega)
        (ends_printItems items rest)
      rw [readItems, List.append_assoc, one]
      cases items with
      | nil => rfl
      | cons second items =>
          have more := readItems_print (second :: items) fuel _ rest (by omega) rfl
          simp only [printItems, List.cons_append, List.append_assoc] at more ⊢
          simp [more]

theorem readFields_print : ∀ (fields : List (Text × Json Empty)) (fuel : ℕ) (text rest : Text),
    (printFields fields).length ≤ fuel + 1 → printFields fields = ',' :: text →
      readFields fuel (text ++ rest) = some (fields, rest)
  | [], _, _, _, _, split => by cases split
  | (name, first) :: fields, 0, _, _, enough, _ => by simp [printFields] at enough
  | (name, first) :: fields, fuel + 1, _, rest, enough, split => by
      cases split
      have fields_pos := length_printFields_pos fields
      simp only [printFields, List.length_cons, List.length_append] at enough
      have one := readValue_print first fuel (printFields fields ++ rest) (by omega)
        (ends_printFields fields rest)
      simp only [readFields, List.cons_append, List.append_assoc, skipSpace_quote,
        readString_flatMap_escape, Option.bind_eq_bind, Option.bind_some, skipSpace_colon, one]
      cases fields with
      | nil => rfl
      | cons second fields =>
          have more := readFields_print (second :: fields) fuel _ rest (by omega) rfl
          simp only [printFields, List.cons_append, List.append_assoc] at more ⊢
          simp [more]

end

/-- Every value is read back from its text. -/
theorem read_print (value : Json Empty) : read (print value) = some value := by
  have inside := readValue_print value ((print value).length + 1) [] (by omega) (by
    intro letter head
    cases head)
  rw [List.append_nil] at inside
  rw [read, inside]
  rfl

def compact : JsonCodec Empty := ⟨read, print⟩

theorem compact_roundTrips (value : Json Empty) : compact.RoundTrips value := read_print value

end Json

end Rust
