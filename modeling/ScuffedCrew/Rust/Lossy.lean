import ScuffedCrew.Rust.Bytes

/-!
# Lossy decoding

`String::from_utf8_lossy`: each longest start of a character that does not go on
as one is a single replacement character, and a text is decoded as it is.
-/

namespace Rust

/-- The character that the bytes start with. -/
def decodeChar (bytes : List UInt8) : Option Char := bytes.toByteArray.utf8DecodeChar? 0

def isContinuation (byte : UInt8) : Bool := decide (128 ≤ byte ∧ byte ≤ 191)

/-- The second byte may follow the first in a character of three or four bytes. -/
def mayFollow (first second : UInt8) : Bool :=
  decide (first = 0xE0 ∧ 0xA0 ≤ second ∧ second ≤ 0xBF) ||
    decide (0xE1 ≤ first ∧ first ≤ 0xEC ∧ 0x80 ≤ second ∧ second ≤ 0xBF) ||
    decide (first = 0xED ∧ 0x80 ≤ second ∧ second ≤ 0x9F) ||
    decide (0xEE ≤ first ∧ first ≤ 0xEF ∧ 0x80 ≤ second ∧ second ≤ 0xBF) ||
    decide (first = 0xF0 ∧ 0x90 ≤ second ∧ second ≤ 0xBF) ||
    decide (0xF1 ≤ first ∧ first ≤ 0xF3 ∧ 0x80 ≤ second ∧ second ≤ 0xBF) ||
    decide (first = 0xF4 ∧ 0x80 ≤ second ∧ second ≤ 0x8F)

/-- How many bytes one replacement stands for, where no character starts. -/
def brokenLength : List UInt8 → ℕ
  | first :: second :: rest =>
      if !mayFollow first second then 1
      else if 0xF0 ≤ first && rest.head?.any isContinuation then 3
      else 2
  | _ => 1

/-- One character or one replacement for each unit of fuel. -/
def lossyFrom : ℕ → List UInt8 → Text
  | 0, _ => []
  | _ + 1, [] => []
  | fuel + 1, byte :: bytes =>
      match decodeChar (byte :: bytes) with
      | some letter => letter :: lossyFrom fuel ((byte :: bytes).drop letter.utf8Size)
      | none =>
          Char.ofNat 0xFFFD :: lossyFrom fuel ((byte :: bytes).drop (brokenLength (byte :: bytes)))

/-- `String::from_utf8_lossy`. -/
def fromUtf8Lossy (bytes : List UInt8) : Text := lossyFrom bytes.length bytes

variable {letter : Char} {text : Text}

theorem decodeChar_utf8 (letter : Char) (rest : List UInt8) :
    decodeChar (String.utf8EncodeChar letter ++ rest) = some letter := by
  simp only [decodeChar, List.toByteArray_append]
  exact ByteArray.utf8DecodeChar?_utf8EncodeChar_append

theorem lossyFrom_utf8 (fuel : ℕ) (enough : text.utf8.length ≤ fuel) :
    lossyFrom fuel text.utf8 = text := by
  induction text generalizing fuel with
  | nil => cases fuel <;> rfl
  | cons letter rest ih =>
      have positive := letter.utf8Size_pos
      have sized : (String.utf8EncodeChar letter).length = letter.utf8Size :=
        String.length_utf8EncodeChar letter
      have split : Text.utf8 (letter :: rest) =
          String.utf8EncodeChar letter ++ Text.utf8 rest := rfl
      rw [split] at enough ⊢
      rw [List.length_append, sized] at enough
      cases fuel with
      | zero => omega
      | succ fuel =>
          have left : (String.utf8EncodeChar letter ++ Text.utf8 rest).drop letter.utf8Size =
              Text.utf8 rest := by
            rw [← sized, List.drop_left]
          have decoded := decodeChar_utf8 letter (Text.utf8 rest)
          cases bytes_eq : String.utf8EncodeChar letter ++ Text.utf8 rest with
          | nil =>
              have empty := congrArg List.length bytes_eq
              simp only [List.length_append, sized, List.length_nil] at empty
              omega
          | cons byte bytes =>
              rw [bytes_eq] at decoded left
              simp only [lossyFrom, decoded, left]
              rw [ih fuel (by omega)]

/-- A text is decoded as it is. -/
theorem fromUtf8Lossy_utf8 (text : Text) : fromUtf8Lossy text.utf8 = text :=
  lossyFrom_utf8 _ le_rfl

/-- A character is at most four bytes. -/
theorem byteLen_le (text : Text) : text.byteLen ≤ 4 * text.length := by
  induction text with
  | nil => exact Nat.zero_le _
  | cons letter rest ih =>
      have wide := letter.utf8Size_le_four
      have split : Text.byteLen (letter :: rest) = letter.utf8Size + Text.byteLen rest := by
        simp [Text.byteLen, Text.utf8]
      rw [split, List.length_cons]
      omega

theorem ne_zero_of_utf8 {byte : UInt8} (named : letter ≠ Char.ofNat 0)
    (byte_mem : byte ∈ String.utf8EncodeChar letter) : byte ≠ 0 := by
  rcases letter.utf8Size_eq with one | two | three | four
  · rw [String.utf8EncodeChar_eq_singleton one, List.mem_singleton] at byte_mem
    have small : letter.val.toNat ≤ 127 := Char.utf8Size_eq_one_iff.mp one
    rintro rfl
    have zero := congrArg UInt8.toNat byte_mem
    rw [UInt32.toNat_toUInt8] at zero
    apply named
    apply Char.toNat_inj.mp
    change letter.val.toNat = 0
    change 0 = _ at zero
    omega
  · rw [String.utf8EncodeChar_eq_cons_cons two] at byte_mem
    rcases List.mem_pair.mp byte_mem with rfl | rfl <;> simp
  · rw [String.utf8EncodeChar_eq_cons_cons_cons three] at byte_mem
    simp only [List.mem_cons, List.not_mem_nil, or_false] at byte_mem
    rcases byte_mem with rfl | rfl | rfl <;> simp
  · rw [String.utf8EncodeChar_eq_cons_cons_cons_cons four] at byte_mem
    simp only [List.mem_cons, List.not_mem_nil, or_false] at byte_mem
    rcases byte_mem with rfl | rfl | rfl | rfl <;> simp

/-- A text without NUL has no zero byte. -/
theorem utf8_ne_zero (unterminated : Char.ofNat 0 ∉ text) : ∀ byte ∈ text.utf8, byte ≠ 0 := by
  intro byte byte_mem
  rcases List.mem_flatMap.mp byte_mem with ⟨letter, letter_mem, encoded⟩
  apply ne_zero_of_utf8 ?_ encoded
  rintro rfl
  exact unterminated letter_mem

end Rust
