import Mathlib.Data.List.DropRight
import Mathlib.Data.Nat.Notation

/-!
# Rust strings

A `str` is its list of `char`s.  `trim` and `eq_ignore_ascii_case` follow the
standard library: the first strips Unicode white space, the second compares up
to the case of ASCII letters.
-/

namespace Rust

abbrev Text := List Char

instance lawfulBEqText : LawfulBEq Text := inferInstance

/-- The code points with the `White_Space` property. -/
def isWhitespace (letter : Char) : Bool :=
  let code := letter.toNat
  (9 ≤ code && code ≤ 13) || code == 0x20 || code == 0x85 || code == 0xA0 || code == 0x1680 ||
    (0x2000 ≤ code && code ≤ 0x200A) || code == 0x2028 || code == 0x2029 || code == 0x202F ||
    code == 0x205F || code == 0x3000

def isAsciiHexdigit (letter : Char) : Bool :=
  let code := letter.toNat
  (0x30 ≤ code && code ≤ 0x39) || (0x41 ≤ code && code ≤ 0x46) || (0x61 ≤ code && code ≤ 0x66)

theorem toLower_of_le {letter : Char} (above : 128 ≤ letter.toNat) : letter.toLower = letter := by
  apply dif_neg
  rintro ⟨-, upper⟩
  have : letter.toNat ≤ 90 := upper
  omega

theorem ascii_toLower : ∀ code < 128,
    isWhitespace (Char.ofNat code).toLower = isWhitespace (Char.ofNat code) ∧
      (Char.ofNat code).toLower.toLower = (Char.ofNat code).toLower := by
  decide

theorem isWhitespace_toLower (letter : Char) : isWhitespace letter.toLower = isWhitespace letter := by
  rcases Nat.lt_or_ge letter.toNat 128 with ascii | above
  · have found := (ascii_toLower letter.toNat ascii).1
    rwa [Char.ofNat_toNat] at found
  · rw [toLower_of_le above]

theorem toLower_toLower (letter : Char) : letter.toLower.toLower = letter.toLower := by
  rcases Nat.lt_or_ge letter.toNat 128 with ascii | above
  · have found := (ascii_toLower letter.toNat ascii).2
    rwa [Char.ofNat_toNat] at found
  · rw [toLower_of_le above, toLower_of_le above]

namespace Text

def trimStart (text : Text) : Text := text.dropWhile isWhitespace

def trimEnd (text : Text) : Text := text.rdropWhile isWhitespace

def trim (text : Text) : Text := text.trimStart.trimEnd

def toAsciiLowercase (text : Text) : Text := text.map Char.toLower

def eqIgnoreAsciiCase (left right : Text) : Bool :=
  left.toAsciiLowercase == right.toAsciiLowercase

def stripStart (text start : Text) : Option Text :=
  if start.isPrefixOf text then some (text.drop start.length) else none

def stripEnd (text suffix : Text) : Option Text :=
  if suffix.isSuffixOf text then some (text.take (text.length - suffix.length)) else none

/-- `split_once` at a letter. -/
def splitOnce : Text → Char → Option (Text × Text)
  | [], _ => none
  | letter :: rest, separator =>
      if letter = separator then some ([], rest)
      else (splitOnce rest separator).map fun (left, right) => (letter :: left, right)

/-- `splitn` at a letter. -/
def splitn : ℕ → Text → Char → List Text
  | 0, _, _ => []
  | 1, text, _ => [text]
  | count + 2, text, separator =>
      match text.splitOnce separator with
      | none => [text]
      | some (part, rest) => part :: splitn (count + 1) rest separator

theorem splitOnce_append {left right : Text} {separator : Char} (apart : separator ∉ left) :
    splitOnce (left ++ separator :: right) separator = some (left, right) := by
  induction left with
  | nil => simp [splitOnce]
  | cons letter rest ih =>
      rw [List.mem_cons, not_or] at apart
      rw [List.cons_append, splitOnce, if_neg (Ne.symm apart.1), ih apart.2]
      rfl

/-- The text before the first occurrence of a needle, as `&text[..text.find(needle)?]`. -/
def before : Text → Text → Option Text
  | [], needle => if needle.isEmpty then some [] else none
  | letter :: rest, needle =>
      if needle.isPrefixOf (letter :: rest) then some []
      else (before rest needle).map (letter :: ·)

theorem toAsciiLowercase_trim (text : Text) :
    text.trim.toAsciiLowercase = text.toAsciiLowercase.trim := by
  have same : isWhitespace ∘ Char.toLower = isWhitespace := funext isWhitespace_toLower
  simp only [trim, trimStart, trimEnd, toAsciiLowercase, List.rdropWhile, List.dropWhile_map, same,
    ← List.map_reverse]

theorem toAsciiLowercase_idem (text : Text) :
    text.toAsciiLowercase.toAsciiLowercase = text.toAsciiLowercase := by
  simp only [toAsciiLowercase, List.map_map]
  exact List.map_congr_left fun letter _ => toLower_toLower letter

theorem trimStart_trim (text : Text) : text.trim.trimStart = text.trim := by
  have kept : text.trim <+: text.trimStart := List.rdropWhile_prefix _ _
  rw [trimStart, List.dropWhile_eq_self_iff]
  intro nonempty
  have inside : 0 < text.trimStart.length := nonempty.trans_le kept.length_le
  have first : (text.trim)[0] = text.trimStart[0] := kept.getElem nonempty
  rw [first]
  exact List.dropWhile_get_zero_not _ _ _

@[simp]
theorem trim_trim (text : Text) : text.trim.trim = text.trim := by
  rw [trim, trimStart_trim]
  exact List.rdropWhile_idempotent _ _

end Text

end Rust
