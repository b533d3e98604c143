import ScuffedCrew.Rust.Text

/-!
# Internet addresses

An address as its octets or its segments, read as the standard library reads it:
each reader takes what it wants from the front of the text and leaves the rest.
-/

namespace Rust

inductive IpAddr
  | v4 (octets : List ℕ)
  | v6 (segments : List ℕ)
deriving DecidableEq

namespace IpAddr

/-- `char::to_digit`. -/
def toDigit (radix : ℕ) (letter : Char) : Option ℕ :=
  let code := letter.toNat
  let digit :=
    if 48 ≤ code ∧ code ≤ 57 then code - 48
    else if 97 ≤ code ∧ code ≤ 122 then code - 87
    else if 65 ≤ code ∧ code ≤ 90 then code - 55
    else radix
  if digit < radix then some digit else none

/-- The digits in front of a text. -/
def readDigits (radix : ℕ) : Text → List ℕ × Text
  | [] => ([], [])
  | letter :: rest =>
      match toDigit radix letter with
      | none => ([], letter :: rest)
      | some digit =>
          let (digits, rest) := readDigits radix rest
          (digit :: digits, rest)

/-- `read_number` of a word below `bound`. -/
def readNumber (radix maxDigits bound : ℕ) (allowZeroPrefix : Bool) (text : Text) :
    Option (ℕ × Text) :=
  let (digits, rest) := readDigits radix text
  let number := digits.foldl (fun number digit => number * radix + digit) 0
  if digits = [] ∨ digits.length > maxDigits then none
  else if !allowZeroPrefix ∧ digits.head? = some 0 ∧ digits.length > 1 then none
  else if number < bound then some (number, rest)
  else none

/-- `read_separator`: the separator stands before every group but the first. -/
def readSeparator {α : Type} (separator : Char) (index : ℕ) (inner : Text → Option (α × Text))
    (text : Text) : Option (α × Text) :=
  if index = 0 then inner text
  else
    match text with
    | [] => none
    | letter :: rest => if letter = separator then inner rest else none

def readOctets : ℕ → ℕ → Text → Option (List ℕ × Text)
  | 0, _, text => some ([], text)
  | left + 1, index, text => do
      let (octet, text) ← readSeparator '.' index (readNumber 10 3 256 false) text
      let (octets, text) ← readOctets left (index + 1) text
      return (octet :: octets, text)

def readIpv4 (text : Text) : Option (List ℕ × Text) := readOctets 4 0 text

/-- The segment of two octets. -/
def segments : List ℕ → List ℕ
  | high :: low :: octets => (high * 256 + low) :: segments octets
  | _ => []

/-- `read_groups` of at most `limit` groups, and whether an embedded IPv4 address ended them. -/
def readGroups (limit : ℕ) : ℕ → ℕ → Text → List ℕ × Bool × Text
  | 0, _, text => ([], false, text)
  | left + 1, index, text =>
      match if index + 1 < limit then readSeparator ':' index readIpv4 text else none with
      | some (octets, rest) => (segments octets, true, rest)
      | none =>
          match readSeparator ':' index (readNumber 16 4 65536 true) text with
          | none => ([], false, text)
          | some (group, rest) =>
              let (groups, embedded, rest) := readGroups limit left (index + 1) rest
              (group :: groups, embedded, rest)

def readIpv6 (text : Text) : Option (List ℕ × Text) :=
  let (head, embedded, rest) := readGroups 8 8 0 text
  if head.length = 8 then some (head, rest)
  else if embedded then none
  else
    match rest with
    | ':' :: ':' :: rest =>
        let limit := 8 - (head.length + 1)
        let (tail, _, rest) := readGroups limit limit 0 rest
        some (head ++ List.replicate (8 - head.length - tail.length) 0 ++ tail, rest)
    | _ => none

/-- `parse::<IpAddr>()`. -/
def parse (text : Text) : Option IpAddr :=
  match readIpv4 text with
  | some (octets, rest) => if rest = [] then some (v4 octets) else none
  | none =>
      match readIpv6 text with
      | some (segments, rest) => if rest = [] then some (v6 segments) else none
      | none => none

end IpAddr

end Rust
