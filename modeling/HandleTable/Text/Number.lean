/-!
# Numbers as text

A whole number is written with decimal digits, with leading zeros and one plus
sign allowed in front.  A number in general has an optional sign, digits before
or after an optional point, and an optional exponent; or it is infinite, or not
a number.
-/

namespace HandleTable.Text

/-- Whether a character is a decimal digit. -/
def isDecimalDigit (c : Char) : Bool :=
  '0' ≤ c && c ≤ '9'

/-- The number that a text writes, if it writes one. -/
def unsigned? (text : String) : Option Nat :=
  let digits := match text.toList with
    | '+' :: rest => rest
    | all => all
  if digits.isEmpty then none
  else if digits.all isDecimalDigit then
    some (digits.foldl (fun value digit => 10 * value + (digit.toNat - 48)) 0)
  else none

/-- The number that a text writes, if it is at most `greatest`. -/
def unsignedUpTo? (greatest : Nat) (text : String) : Option Nat :=
  (unsigned? text).filter (· ≤ greatest)

/-- A text without its sign. -/
def dropSign : List Char → List Char
  | '+' :: rest => rest
  | '-' :: rest => rest
  | text => text

/-- Whether a text is an exponent, or nothing. -/
def isExponent : List Char → Bool
  | [] => true
  | mark :: rest =>
    (mark == 'e' || mark == 'E') && !(dropSign rest).isEmpty && (dropSign rest).all isDecimalDigit

/-- Whether a text is a number without a sign: digits, of which a point may stand at
any place, and an exponent. -/
def isMagnitude (text : List Char) : Bool :=
  let whole := text.takeWhile isDecimalDigit
  match text.drop whole.length with
  | '.' :: rest =>
    let fraction := rest.takeWhile isDecimalDigit
    !(whole.isEmpty && fraction.isEmpty) && isExponent (rest.drop fraction.length)
  | rest => !whole.isEmpty && isExponent rest

/-- The names of what is infinite and of what is not a number, in lower case. -/
def namedNumbers : List (List Char) :=
  ["inf".toList, "infinity".toList, "nan".toList]

/-- Whether a text writes a number. -/
def isNumber (text : List Char) : Bool :=
  isMagnitude (dropSign text) || namedNumbers.contains ((dropSign text).map Char.toLower)

end HandleTable.Text
