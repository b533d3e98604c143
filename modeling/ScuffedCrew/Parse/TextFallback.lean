import ScuffedCrew.CaptureGate.Gate
import ScuffedCrew.Rust.Slices

/-!
# The text fallback

When no row of a scoreboard was read cell by cell, the six stats are taken from
the text line with the player's name: the numbers after the name, clocks aside.
The Unicode tables of the standard library are a parameter.  Where a slice
would cut a character, or a loop would not end, there is no result.
-/

namespace ScuffedCrew.Parse

open Rust

structure CharTables where
  toLowercase : Char → Text
  isAlphabetic : Char → Bool
  isNumeric : Char → Bool
  isCased : Char → Bool
  isCaseIgnorable : Char → Bool

namespace CharTables

variable (tables : CharTables)

def isAlphanumeric (letter : Char) : Bool :=
  tables.isAlphabetic letter || tables.isNumeric letter

def caseIgnorableThenCased (text : Text) : Bool :=
  ((text.dropWhile tables.isCaseIgnorable).head?).any tables.isCased

/-- The letter in lowercase.  A capital sigma is a final one at the end of a word; what stands
before it is read backwards. -/
def lowerAt (before : Text) (letter : Char) (after : Text) : Text :=
  if letter = 'Σ' then
    if tables.caseIgnorableThenCased before && !tables.caseIgnorableThenCased after then ['ς']
    else ['σ']
  else tables.toLowercase letter

/-- A text in lowercase, where it stands. -/
def lowerWithin (before : Text) : Text → Text → Text
  | [], _ => []
  | letter :: rest, after =>
      tables.lowerAt before letter (rest ++ after) ++ lowerWithin (letter :: before) rest after

/-- `str::to_lowercase`. -/
def strToLowercase (text : Text) : Text := tables.lowerWithin [] text []

end CharTables

structure PlayerStats where
  elims : ℕ
  deaths : ℕ
  assists : ℕ
  damage : ℕ
  healing : ℕ
  mitigation : ℕ
  deriving DecidableEq

def killColumnsImplausible (elims assists deaths : ℕ) : Bool :=
  decide (CaptureGate.maxElims < elims) || decide (CaptureGate.maxAssists < assists) ||
    decide (CaptureGate.maxDeaths < deaths)

def configuredName (playerName : Option Text) : Option Text :=
  (playerName.map Text.trim).filter fun name => !name.isEmpty

/-! ## The name -/

section Name

variable (tables : CharTables)

/-- The search goes on one character after a match that is no whole word. -/
def searchWord (lineLower nameLower : Text) : ℕ → ℕ → Option (Option ℕ)
  | 0, _ => none
  | fuel + 1, searchFrom => do
      let rest ← lineLower.sliceFrom searchFrom
      match rest.find nameLower with
      | none => some none
      | some rel =>
          let start := searchFrom + rel
          let stop := start + nameLower.byteLen
          let before ← lineLower.sliceTo start
          let after ← lineLower.sliceFrom stop
          let beforeOk := before.getLast?.all fun letter => !tables.isAlphanumeric letter
          let afterOk := after.head?.all fun letter => !tables.isAlphanumeric letter
          if beforeOk && afterOk then some (some start)
          else
            let searchFrom := start + nameLower.head?.elim 1 Char.utf8Size
            if lineLower.byteLen ≤ searchFrom then some none
            else searchWord lineLower nameLower fuel searchFrom

/-- The byte of the lowercase line where the name stands as a whole word. -/
def nameWordIndex (line playerName : Text) : Option (Option ℕ) :=
  let nameLower := tables.strToLowercase playerName.trim
  if nameLower.isEmpty then some none
  else
    let lineLower := tables.strToLowercase line
    searchWord tables lineLower nameLower (lineLower.byteLen + 1) 0

/-- Walks a line up to a byte of its lowercase. -/
def walkSuffix (line : Text) (stop : ℕ) : Text → ℕ → ℕ → Option (Option Text)
  | [], _, lowByte => some (if stop ≤ lowByte then some [] else none)
  | letter :: rest, byte, lowByte =>
      if stop ≤ lowByte then (line.sliceFrom byte).map some
      else
        walkSuffix line stop rest (byte + letter.utf8Size)
          (lowByte + (tables.toLowercase letter).byteLen)

def suffixAfterName (line playerName : Text) : Option (Option Text) := do
  let nameLower := tables.strToLowercase playerName.trim
  if nameLower.isEmpty then some none
  else
    match ← nameWordIndex tables line playerName with
    | none => some none
    | some start =>
        let stop := start + nameLower.byteLen
        if line.all fun letter => decide (letter.toNat < 128) then some (line.sliceFrom stop)
        else walkSuffix tables line stop line 0 0

end Name

/-! ## The stats -/

/-- The length of a clock `M:SS` or `MM:SS` that starts here, after a letter. -/
def clockTokenLen (before : Option Char) (letters : Text) : Option ℕ :=
  if before.any Char.isDigit then none
  else
    let minutes := letters.takeWhile Char.isDigit
    if minutes.length = 0 ∨ 2 < minutes.length then none
    else
      match letters.drop minutes.length with
      | ':' :: after =>
          let seconds := after.takeWhile Char.isDigit
          if seconds.length = 2 then some (minutes.length + 1 + seconds.length) else none
      | _ => none

/-- Each clock becomes a blank; its other letters are skipped. -/
def stripFrom (before : Option Char) (skip : ℕ) : Text → Text
  | [] => []
  | letter :: rest =>
      match skip with
      | skip + 1 => stripFrom (some letter) skip rest
      | 0 =>
          match clockTokenLen before (letter :: rest) with
          | some len => ' ' :: stripFrom (some letter) (len - 1) rest
          | none => letter :: stripFrom (some letter) 0 rest

def stripClockTokens (text : Text) : Text := stripFrom none 0 text

inductive SuffixToken
  | number (value : ℕ)
  | overflow
  | word
  | percent
  deriving DecidableEq

namespace SuffixToken

def isNumber : SuffixToken → Bool
  | number _ => true
  | overflow | word | percent => false

def value? : SuffixToken → Option ℕ
  | number value => some value
  | overflow | word | percent => none

def isWordOrPercent : SuffixToken → Bool
  | word | percent => true
  | number _ | overflow => false

end SuffixToken

/-- The number that digits write. -/
def numeral (digits : Text) : ℕ :=
  digits.foldl (fun number digit => 10 * number + (digit.toNat - '0'.toNat)) 0

/-- `parse::<u32>` of digits. -/
def digitsToken (digits : Text) : SuffixToken :=
  if numeral digits < 2 ^ 32 then .number (numeral digits) else .overflow

def isFigureLetter (letter : Char) : Bool := letter.isDigit || letter == ','

section Stats

variable (tables : CharTables)

/-- The letters of a token after its first are skipped. -/
def tokensFrom (skip : ℕ) : Text → List SuffixToken
  | [] => []
  | letter :: rest =>
      match skip with
      | skip + 1 => tokensFrom skip rest
      | 0 =>
          if letter.isDigit then
            let run := (letter :: rest).takeWhile isFigureLetter
            digitsToken (run.filter Char.isDigit) :: tokensFrom (run.length - 1) rest
          else if letter = '%' then .percent :: tokensFrom 0 rest
          else if tables.isAlphabetic letter then
            let run := (letter :: rest).takeWhile tables.isAlphabetic
            .word :: tokensFrom (run.length - 1) rest
          else tokensFrom 0 rest

def suffixTokens (text : Text) : List SuffixToken := tokensFrom tables 0 text

/-- The six stats after the name: one run of numbers that no word or percent follows. -/
def statRunAfterName (suffix : Text) : Option (List ℕ) :=
  let tokens := suffixTokens tables suffix
  if tokens.contains .overflow then none
  else
    let rest := tokens.dropWhile fun token => !token.isNumber
    let numbers := (rest.takeWhile SuffixToken.isNumber).filterMap SuffixToken.value?
    if rest.isEmpty then none
    else if numbers.length ≠ 6 then none
    else if (rest.drop numbers.length).any SuffixToken.isWordOrPercent then none
    else some numbers

def statsFromPlayerSuffix (suffix : Text) : Option PlayerStats :=
  match statRunAfterName tables (stripClockTokens suffix) with
  | some [elims, assists, deaths, damage, healing, mitigation] =>
      if killColumnsImplausible elims assists deaths then none
      else some ⟨elims, deaths, assists, damage, healing, mitigation⟩
  | _ => none

/-- The first line with the name and the stats; chat is skipped. -/
def scanLines (name : Text) : List Text → Option (Option PlayerStats)
  | [] => some none
  | line :: lines => do
      match ← nameWordIndex tables line name with
      | none => scanLines name lines
      | some _ =>
          match ← suffixAfterName tables line name with
          | none => scanLines name lines
          | some suffix =>
              if suffix.trimStart.head? = some ':' then scanLines name lines
              else
                match statsFromPlayerSuffix tables suffix with
                | some stats => some (some stats)
                | none => scanLines name lines

def textFallbackStats (lines : List Text) (playerName : Option Text) :
    Option (Option PlayerStats) :=
  match configuredName playerName with
  | none => some none
  | some name => scanLines tables name lines

end Stats

end ScuffedCrew.Parse
