import HandleTable.Decimal.Binary64
import HandleTable.Text.Hex
import HandleTable.Toml.Blank

/-!
# Number literals

An integer is decimal with an optional sign and without leading zeros, or
unsigned with the marks `0x`, `0o` or `0b`; it has to fit sixty-four bits with
a sign.  A floating point number is a decimal integer with a fraction, an
exponent or both, or one of the names `inf` and `nan` with an optional sign.
Single underscores may stand between two digits.
-/

namespace HandleTable.Toml

/-- Whether a character is a decimal digit. -/
def isDigit (c : Char) : Bool :=
  '0' ≤ c && c ≤ '9'

/-- Whether a character is a digit of the base. -/
def isDigitOf (base : Nat) (c : Char) : Bool :=
  (Text.Hex.digitValue? c).any (· < base)

/-- Reads digits with single underscores between them, after at least one digit;
the underscores are left out. -/
def moreDigits (accepts : Char → Bool) : List Char → List Char × List Char
  | [] => ([], [])
  | [c] => if accepts c then ([c], []) else ([], [c])
  | c :: next :: rest =>
    if accepts c then
      let (digits, rest) := moreDigits accepts (next :: rest)
      (c :: digits, rest)
    else if c == '_' && accepts next then
      let (digits, rest) := moreDigits accepts rest
      (next :: digits, rest)
    else ([], c :: next :: rest)

/-- Reads at least one digit, and single underscores between digits. -/
def digits (accepts : Char → Bool) : Reader (List Char)
  | [] => none
  | c :: rest =>
    if accepts c then
      let (more, rest) := moreDigits accepts rest
      some (c :: more, rest)
    else none

/-- Reads the digits of a decimal integer: a lone zero, or digits of which the first
is not zero. -/
def wholeDigits : Reader (List Char)
  | '0' :: rest => some (['0'], rest)
  | text => digits isDigit text

/-- Reads an optional sign and says whether it is a minus. -/
def sign : List Char → Bool × List Char
  | '-' :: rest => (true, rest)
  | '+' :: rest => (false, rest)
  | text => (false, text)

/-- The number that digits of a base write. -/
def valueOf (base : Nat) (digits : List Char) : Nat :=
  digits.foldl (fun value digit => base * value + (Text.Hex.digitValue? digit).getD 0) 0

/-- The largest integer of sixty-four bits with a sign. -/
def greatestInteger : Nat := 0x7fffffffffffffff

/-- A number as an integer of sixty-four bits, if it is one; there is one more below
zero than above. -/
def inRange? (negative : Bool) (magnitude : Nat) : Option Int :=
  if negative then
    if magnitude ≤ greatestInteger + 1 then some (-(magnitude : Int)) else none
  else if magnitude ≤ greatestInteger then some magnitude
  else none

/-- Reads the digits of an unsigned integer of some base. -/
def unsignedLiteral (base : Nat) : Reader Int := fun text => do
  let (digits, rest) ← digits (isDigitOf base) text
  let value ← inRange? false (valueOf base digits)
  return (value, rest)

/-- Reads a decimal integer. -/
def decimalLiteral : Reader Int := fun text => do
  let (negative, text) := sign text
  let (digits, rest) ← wholeDigits text
  let value ← inRange? negative (valueOf 10 digits)
  return (value, rest)

/-- Reads an integer. -/
def integerLiteral : Reader Int
  | '0' :: 'x' :: rest => unsignedLiteral 16 rest
  | '0' :: 'o' :: rest => unsignedLiteral 8 rest
  | '0' :: 'b' :: rest => unsignedLiteral 2 rest
  | text => decimalLiteral text

/-- Reads an exponent, its letter included. -/
def exponentPart : Reader Int
  | letter :: rest =>
    if letter == 'e' || letter == 'E' then do
      let (negative, rest) := sign rest
      let (digits, rest) ← digits isDigit rest
      let magnitude : Int := valueOf 10 digits
      return (if negative then -magnitude else magnitude, rest)
    else none
  | [] => none

/-- Reads a fraction, its point included. -/
def fractionPart : Reader (List Char)
  | '.' :: rest => digits isDigit rest
  | _ => none

/-- Reads what makes a decimal integer a floating point number: a fraction and
perhaps an exponent, or an exponent alone. -/
def decimalTail (text : List Char) : Option ((List Char × Int) × List Char) :=
  match fractionPart text with
  | some (fraction, rest) =>
    match exponentPart rest with
    | some (exponent, rest) => some ((fraction, exponent), rest)
    | none => some ((fraction, 0), rest)
  | none => (exponentPart text).map fun (exponent, rest) => (([], exponent), rest)

/-- Reads a floating point number written with digits.  One that is too large for
the format is refused when it is positive and becomes an infinity when it is
negative. -/
def pointLiteral : Reader Decimal.Binary64 := fun text => do
  let (negative, text) := sign text
  let (whole, rest) ← wholeDigits text
  let ((fraction, exponent), rest) ← decimalTail rest
  let number := Decimal.Binary64.nearest negative (valueOf 10 (whole ++ fraction))
    (exponent - fraction.length)
  guard (number ≠ .infinite false)
  return (number, rest)

/-- Reads `inf` or `nan` with an optional sign. -/
def namedNumber (text : List Char) : Option (Decimal.Binary64 × List Char) :=
  let (negative, text) := sign text
  match text with
  | 'i' :: 'n' :: 'f' :: rest => some (.infinite negative, rest)
  | 'n' :: 'a' :: 'n' :: rest => some (.nan, rest)
  | _ => none

/-- Reads a floating point number. -/
def floatLiteral : Reader Decimal.Binary64 := fun text =>
  pointLiteral text <|> namedNumber text

end HandleTable.Toml
