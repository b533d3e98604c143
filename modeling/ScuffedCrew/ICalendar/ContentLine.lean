import Mathlib.Data.List.Basic
import Mathlib.Data.Nat.Notation

/-!
# Content lines

How a reader takes a calendar stream apart: lines end in CRLF, a line is a name,
its parameters and a value, and a TEXT value undoes its escapes.
-/

namespace ICalendar

abbrev Text := List Char

def crlf : Text := ['\r', '\n']

/-- The text split at CRLF. -/
def splitCrlf : Text → List Text
  | [] => [[]]
  | '\r' :: '\n' :: rest => [] :: splitCrlf rest
  | letter :: rest =>
      match splitCrlf rest with
      | [] => [[letter]]
      | line :: lines => (letter :: line) :: lines

structure ContentLine where
  name : Text
  params : List (Text × Text)
  value : Text
  deriving DecidableEq

/-- The text split at a letter, except inside double quotes. -/
def splitUnquoted (stop : Char) : Bool → Text → List Text
  | _, [] => [[]]
  | quoted, letter :: rest =>
      if letter = stop ∧ quoted = false then [] :: splitUnquoted stop false rest
      else
        match splitUnquoted stop (xor quoted (letter == '"')) rest with
        | [] => [[letter]]
        | field :: fields => (letter :: field) :: fields

/-- The text before the first such letter outside double quotes, and the text after it. -/
def cutUnquoted (stop : Char) : Bool → Text → Option (Text × Text)
  | _, [] => none
  | quoted, letter :: rest =>
      if letter = stop ∧ quoted = false then some ([], rest)
      else (cutUnquoted stop (xor quoted (letter == '"')) rest).map fun (before, after) =>
        (letter :: before, after)

/-- A line is `name *(";" name "=" value) ":" value`. -/
def parseLine (line : Text) : Option ContentLine :=
  (cutUnquoted ':' false line).bind fun (head, value) =>
    match splitUnquoted ';' false head with
    | [] => none
    | name :: params =>
        (params.mapM (cutUnquoted '=' false)).map fun params => ⟨name, params, value⟩

/-- Letters that end neither a name nor a parameter. -/
def Plain (text : Text) : Prop :=
  ∀ letter ∈ text, letter ≠ ':' ∧ letter ≠ ';' ∧ letter ≠ '"' ∧ letter ≠ '='

instance (text : Text) : Decidable (Plain text) :=
  List.decidableBAll _ text

def writeParam (param : Text × Text) : Text := ';' :: (param.1 ++ '=' :: param.2)

def ContentLine.write (line : ContentLine) : Text :=
  line.name ++ line.params.flatMap writeParam ++ ':' :: line.value

/-- A line that can be read back: its name and its parameters are plain, and it has no break. -/
structure ContentLine.WellFormed (line : ContentLine) : Prop where
  name : Plain line.name
  params : ∀ param ∈ line.params, Plain param.1 ∧ Plain param.2
  unbroken : '\r' ∉ line.write

/-- A stream is lines that all end in CRLF. -/
def readStream (text : Text) : Option (List ContentLine) :=
  if (splitCrlf text).getLast? = some [] then (splitCrlf text).dropLast.mapM parseLine else none

/-- What an escape stands for. -/
def unescapeLetter : Char → Option Char
  | 'n' => some '\n'
  | 'N' => some '\n'
  | '\\' => some '\\'
  | ';' => some ';'
  | ',' => some ','
  | _ => none

def unescape : Text → Option Text
  | [] => some []
  | '\\' :: [] => none
  | '\\' :: letter :: rest =>
      (unescapeLetter letter).bind fun letter => (unescape rest).map (letter :: ·)
  | letter :: rest => (unescape rest).map (letter :: ·)

section Lines

variable {line rest : Text} {lines : List Text}

theorem splitCrlf_cons (unbroken : '\r' ∉ line) :
    splitCrlf (line ++ crlf ++ rest) = line :: splitCrlf rest := by
  induction line with
  | nil => rfl
  | cons letter letters ih =>
      rw [List.mem_cons, not_or] at unbroken
      rw [List.cons_append, List.cons_append, splitCrlf, ih unbroken.2]
      intro _ carriage
      exact absurd carriage.symm unbroken.1

/-- Lines without a break come out of the stream one by one. -/
theorem splitCrlf_lines (unbroken : ∀ line ∈ lines, '\r' ∉ line) :
    splitCrlf (lines.flatMap (· ++ crlf)) = lines ++ [[]] := by
  induction lines with
  | nil => rfl
  | cons line lines ih =>
      rw [List.flatMap_cons, splitCrlf_cons (unbroken line List.mem_cons_self),
        ih fun other other_mem => unbroken other (List.mem_cons_of_mem _ other_mem)]
      rfl

end Lines

section Fields

variable {text rest : Text} {stop : Char}

theorem cutUnquoted_append (plain : ∀ letter ∈ text, letter ≠ stop ∧ letter ≠ '"') :
    cutUnquoted stop false (text ++ stop :: rest) = some (text, rest) := by
  induction text with
  | nil => simp [cutUnquoted]
  | cons letter letters ih =>
      have here := plain letter List.mem_cons_self
      have after := ih fun other other_mem => plain other (List.mem_cons_of_mem _ other_mem)
      simp [cutUnquoted, here.1, beq_false_of_ne here.2, after]

theorem splitUnquoted_self (plain : ∀ letter ∈ text, letter ≠ stop ∧ letter ≠ '"') :
    splitUnquoted stop false text = [text] := by
  induction text with
  | nil => rfl
  | cons letter letters ih =>
      have here := plain letter List.mem_cons_self
      have after := ih fun other other_mem => plain other (List.mem_cons_of_mem _ other_mem)
      simp [splitUnquoted, here.1, beq_false_of_ne here.2, after]

theorem splitUnquoted_append (plain : ∀ letter ∈ text, letter ≠ stop ∧ letter ≠ '"') :
    splitUnquoted stop false (text ++ stop :: rest) = text :: splitUnquoted stop false rest := by
  induction text with
  | nil => simp [splitUnquoted]
  | cons letter letters ih =>
      have here := plain letter List.mem_cons_self
      have after := ih fun other other_mem => plain other (List.mem_cons_of_mem _ other_mem)
      simp [splitUnquoted, here.1, beq_false_of_ne here.2, after]

end Fields

section Streams

variable {written : ContentLine} {lines : List ContentLine} {text field : Text}
  {params : List (Text × Text)}

theorem splitUnquoted_params (unquoted : ∀ letter ∈ field, letter ≠ ';' ∧ letter ≠ '"')
    (plain : ∀ param ∈ params, Plain param.1 ∧ Plain param.2) :
    splitUnquoted ';' false (field ++ params.flatMap writeParam) =
      field :: params.map fun param => param.1 ++ '=' :: param.2 := by
  induction params generalizing field with
  | nil =>
      rw [List.flatMap_nil, List.append_nil]
      exact splitUnquoted_self unquoted
  | cons param params ih =>
      have next : ∀ letter ∈ param.1 ++ '=' :: param.2, letter ≠ ';' ∧ letter ≠ '"' := by
        intro letter letter_mem
        rcases plain param List.mem_cons_self with ⟨plain_key, plain_value⟩
        rcases List.mem_append.mp letter_mem with in_key | in_rest
        · exact ⟨(plain_key letter in_key).2.1, (plain_key letter in_key).2.2.1⟩
        · rcases List.mem_cons.mp in_rest with rfl | in_value
          · decide
          · exact ⟨(plain_value letter in_value).2.1, (plain_value letter in_value).2.2.1⟩
      have rest := ih next fun other other_mem => plain other (List.mem_cons_of_mem _ other_mem)
      rw [List.flatMap_cons, writeParam, List.cons_append, splitUnquoted_append unquoted, rest]
      rfl

theorem mapM_params (plain : ∀ param ∈ params, Plain param.1) :
    (params.map fun param => param.1 ++ '=' :: param.2).mapM (cutUnquoted '=' false) =
      some params := by
  induction params with
  | nil => rfl
  | cons param params ih =>
      have plain_key := plain param List.mem_cons_self
      have here : cutUnquoted '=' false (param.1 ++ '=' :: param.2) = some param :=
        cutUnquoted_append fun letter letter_mem =>
          ⟨(plain_key letter letter_mem).2.2.2, (plain_key letter letter_mem).2.2.1⟩
      have rest := ih fun other other_mem => plain other (List.mem_cons_of_mem _ other_mem)
      simp [here, rest]

/-- What is written comes back, whatever the value holds. -/
theorem parseLine_write (formed : written.WellFormed) : parseLine written.write = some written := by
  have cut : cutUnquoted ':' false written.write =
      some (written.name ++ written.params.flatMap writeParam, written.value) := by
    apply cutUnquoted_append
    intro letter letter_mem
    rcases List.mem_append.mp letter_mem with in_name | in_params
    · exact ⟨(formed.name letter in_name).1, (formed.name letter in_name).2.2.1⟩
    · rcases List.mem_flatMap.mp in_params with ⟨param, param_mem, here⟩
      rcases formed.params param param_mem with ⟨plain_key, plain_value⟩
      simp only [writeParam, List.mem_cons, List.mem_append] at here
      rcases here with rfl | in_key | rfl | in_value
      · decide
      · exact ⟨(plain_key letter in_key).1, (plain_key letter in_key).2.2.1⟩
      · decide
      · exact ⟨(plain_value letter in_value).1, (plain_value letter in_value).2.2.1⟩
  have fields := splitUnquoted_params
    (fun letter letter_mem => ⟨(formed.name letter letter_mem).2.1,
      (formed.name letter letter_mem).2.2.1⟩) formed.params
  have params := mapM_params fun param param_mem => (formed.params param param_mem).1
  simp only [parseLine, cut, Option.bind_some, fields, params, Option.map_some]

/-- A stream of lines reads as the lines written to it. -/
theorem readStream_write (formed : ∀ written ∈ lines, written.WellFormed) :
    readStream (lines.flatMap fun written => written.write ++ crlf) = some lines := by
  have unbroken : ∀ line ∈ lines.map ContentLine.write, '\r' ∉ line := by
    intro line line_mem
    rcases List.mem_map.mp line_mem with ⟨written, written_mem, rfl⟩
    exact (formed written written_mem).unbroken
  have split := splitCrlf_lines unbroken
  rw [List.flatMap_map] at split
  have parsed : (lines.map ContentLine.write).mapM parseLine = some lines := by
    clear split unbroken
    induction lines with
    | nil => rfl
    | cons written lines ih =>
        have here := parseLine_write (formed written List.mem_cons_self)
        have rest := ih fun other other_mem => formed other (List.mem_cons_of_mem _ other_mem)
        simp [here, rest]
  simp [readStream, split, parsed]

end Streams

/-! ## TEXT values -/

section Values

variable {text rest : Text} {letter meant : Char}

theorem unescape_escape (stands : unescapeLetter letter = some meant) :
    unescape ('\\' :: letter :: rest) = (unescape rest).map (meant :: ·) := by
  simp [unescape, stands]

theorem unescape_cons (other : letter ≠ '\\') :
    unescape (letter :: rest) = (unescape rest).map (letter :: ·) := by
  rw [unescape]
  · simp [other]
  · simp [other]

end Values

end ICalendar
