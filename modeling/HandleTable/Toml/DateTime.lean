import HandleTable.Toml.NumberLiteral

/-!
# Dates and times

A date, a time of day, or a date and a time with an optional offset: years have
four digits, all other numbers two, and seconds may have a fraction.  Only the
form is checked, and that a day exists in its month; what the date is does not
matter to a configuration of numbers.
-/

namespace HandleTable.Toml

/-- Reads exactly `count` digits as a number between `least` and `greatest`. -/
def fixedNumber (count least greatest : Nat) : Reader Nat := fun text => do
  let digits := text.take count
  guard (digits.length = count ∧ digits.all isDigit)
  let value := valueOf 10 digits
  guard (least ≤ value ∧ value ≤ greatest)
  return (value, text.drop count)

/-- The text after one given character. -/
def after? (expected : Char) : List Char → Option (List Char)
  | c :: rest => if c == expected then some rest else none
  | [] => none

/-- The number of days of a month. -/
def daysInMonth (year month : Nat) : Nat :=
  if month = 2 then
    if year % 4 = 0 ∧ (year % 100 ≠ 0 ∨ year % 400 = 0) then 29 else 28
  else if month = 4 ∨ month = 6 ∨ month = 9 ∨ month = 11 then 30
  else 31

/-- The text after a date. -/
def date? (text : List Char) : Option (List Char) := do
  let (year, text) ← fixedNumber 4 0 9999 text
  let (month, text) ← fixedNumber 2 1 12 (← after? '-' text)
  let (_, text) ← fixedNumber 2 1 (daysInMonth year month) (← after? '-' text)
  return text

/-- The text after the fraction of a second, if there is one. -/
def dropSecondFraction (text : List Char) : List Char :=
  match text with
  | '.' :: rest => if (rest.takeWhile isDigit).isEmpty then text else rest.dropWhile isDigit
  | _ => text

/-- The text after a time of day.  A minute may have a leap second. -/
def time? (text : List Char) : Option (List Char) := do
  let (_, text) ← fixedNumber 2 0 23 text
  let (_, text) ← fixedNumber 2 0 59 (← after? ':' text)
  let (_, text) ← fixedNumber 2 0 60 (← after? ':' text)
  return dropSecondFraction text

/-- The text after an offset from universal time. -/
def offset? : List Char → Option (List Char)
  | mark :: rest =>
    if mark == 'Z' || mark == 'z' then some rest
    else if mark == '+' || mark == '-' then do
      let (_, text) ← fixedNumber 2 0 23 rest
      let (_, text) ← fixedNumber 2 0 59 (← after? ':' text)
      return text
    else none
  | [] => none

/-- The text after a time of day that follows a date, and its offset. -/
def timeOfDate? : List Char → Option (List Char)
  | mark :: rest =>
    if mark == 'T' || mark == 't' || mark == ' ' then
      (time? rest).map fun text => (offset? text).getD text
    else none
  | [] => none

/-- The text after a date, a time of day, or both. -/
def dateTime? (text : List Char) : Option (List Char) :=
  match date? text with
  | some rest => some ((timeOfDate? rest).getD rest)
  | none => time? text

end HandleTable.Toml
