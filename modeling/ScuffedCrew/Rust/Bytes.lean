import Mathlib.Algebra.Order.Ring.Nat
import Mathlib.Data.List.Basic
import Mathlib.Logic.Function.Basic
import ScuffedCrew.Rust.Text

/-!
# Bytes

The UTF-8 bytes of a string, the bytes of a `u32` in either order and hexadecimal
digits.  Each of them determines what it is made from.
-/

namespace Rust

/-- `as_bytes`. -/
def Text.utf8 (text : Text) : List UInt8 := text.flatMap String.utf8EncodeChar

/-- `len` of a `str`. -/
def Text.byteLen (text : Text) : ℕ := text.utf8.length

/-- `u32::to_be_bytes`. -/
def toBeBytes (number : ℕ) : List UInt8 :=
  [UInt8.ofNat (number / 2 ^ 24), UInt8.ofNat (number / 2 ^ 16), UInt8.ofNat (number / 2 ^ 8),
    UInt8.ofNat number]

/-- `u32::from_be_bytes` of four bytes. -/
def fromBeBytes (first second third fourth : UInt8) : ℕ :=
  first.toNat * 2 ^ 24 + second.toNat * 2 ^ 16 + third.toNat * 2 ^ 8 + fourth.toNat

/-- `u32::to_le_bytes`. -/
def toLeBytes (word : UInt32) : List UInt8 := (toBeBytes word.toNat).reverse

/-- `u32::from_le_bytes` of four bytes. -/
def fromLeBytes (first second third fourth : UInt8) : UInt32 :=
  UInt32.ofNat (fromBeBytes fourth third second first)

/-- `u8::is_ascii_alphabetic`. -/
def isAsciiAlphabetic (byte : UInt8) : Bool :=
  decide (65 ≤ byte ∧ byte ≤ 90) || decide (97 ≤ byte ∧ byte ≤ 122)

/-- `u8::is_ascii_lowercase`. -/
def isAsciiLowercase (byte : UInt8) : Bool := decide (97 ≤ byte ∧ byte ≤ 122)

/-- `u32::try_from(number).unwrap_or(u32::MAX)`. -/
def saturateU32 (number : ℕ) : ℕ := min number (2 ^ 32 - 1)

def hexDigit (digit : ℕ) : Char :=
  if digit < 10 then Char.ofNat (48 + digit) else Char.ofNat (87 + digit)

/-- `hex::encode`. -/
def hexEncode (bytes : List UInt8) : Text :=
  bytes.flatMap fun byte => [hexDigit (byte.toNat / 16), hexDigit (byte.toNat % 16)]

theorem utf8_injective : Function.Injective Text.utf8 := by
  intro left right same
  have encoded : left.utf8Encode = right.utf8Encode := congrArg List.toByteArray same
  have decoded := congrArg ByteArray.utf8Decode? encoded
  rw [List.utf8Decode?_utf8Encode, List.utf8Decode?_utf8Encode] at decoded
  simpa using decoded

theorem toBeBytes_injective {left right : ℕ} (small : left < 2 ^ 32) (small' : right < 2 ^ 32)
    (same : toBeBytes left = toBeBytes right) : left = right := by
  simp only [toBeBytes, List.cons.injEq, and_true] at same
  rcases same with ⟨first, second, third, fourth⟩
  have first := congrArg UInt8.toNat first
  have second := congrArg UInt8.toNat second
  have third := congrArg UInt8.toNat third
  have fourth := congrArg UInt8.toNat fourth
  simp only [UInt8.toNat_ofNat'] at first second third fourth
  omega

theorem fromBeBytes_lt (first second third fourth : UInt8) :
    fromBeBytes first second third fourth < 2 ^ 32 := by
  have := first.toNat_lt
  have := second.toNat_lt
  have := third.toNat_lt
  have := fourth.toNat_lt
  simp only [fromBeBytes]
  omega

theorem toBeBytes_fromBeBytes (first second third fourth : UInt8) :
    toBeBytes (fromBeBytes first second third fourth) = [first, second, third, fourth] := by
  have := first.toNat_lt
  have := second.toNat_lt
  have := third.toNat_lt
  have := fourth.toNat_lt
  simp only [toBeBytes, fromBeBytes, List.cons.injEq, and_true]
  refine ⟨?_, ?_, ?_, ?_⟩
  all_goals
    apply UInt8.toNat_inj.mp
    rw [UInt8.toNat_ofNat']
    omega

theorem fromBeBytes_toBeBytes {number : ℕ} (small : number < 2 ^ 32) :
    fromBeBytes (UInt8.ofNat (number / 2 ^ 24)) (UInt8.ofNat (number / 2 ^ 16))
      (UInt8.ofNat (number / 2 ^ 8)) (UInt8.ofNat number) = number := by
  simp only [fromBeBytes, UInt8.toNat_ofNat']
  omega

@[simp]
theorem length_toLeBytes (word : UInt32) : (toLeBytes word).length = 4 := rfl

theorem exists_toLeBytes (word : UInt32) : ∃ first second third fourth,
    toLeBytes word = [first, second, third, fourth] ∧
      fromLeBytes first second third fourth = word := by
  refine ⟨_, _, _, _, rfl, ?_⟩
  exact (congrArg UInt32.ofNat (fromBeBytes_toBeBytes word.toNat_lt)).trans (by simp)

theorem hexDigit_injective : ∀ left < 16, ∀ right < 16, hexDigit left = hexDigit right →
    left = right := by
  decide

theorem hexEncode_injective : Function.Injective hexEncode := by
  intro left
  induction left with
  | nil =>
      intro right same
      cases right with
      | nil => rfl
      | cons byte bytes => cases same
  | cons byte bytes ih =>
      intro right same
      cases right with
      | nil => cases same
      | cons other others =>
          simp only [hexEncode, List.flatMap_cons, List.cons_append, List.nil_append,
            List.cons.injEq] at same
          rcases same with ⟨high, low, rest⟩
          have small := byte.toNat_lt
          have small' := other.toNat_lt
          have high := hexDigit_injective _ (by omega) _ (by omega) high
          have low := hexDigit_injective _ (by omega) _ (by omega) low
          have same_byte : byte = other := UInt8.toNat_inj.mp (by omega)
          rw [same_byte, ih rest]

end Rust
