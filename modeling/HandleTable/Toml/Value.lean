import HandleTable.Decimal.Binary64

/-!
# Values and places of a document

A document is seen here as its top-level keys with their values, in document
order.  Numbers, truth values and strings are kept; of dates, arrays and tables
only the kind is, since no setting holds one.  Keys and values remember where
they start, so that a reader can be pointed to them.
-/

namespace HandleTable.Toml

/-- A value, as far as a configuration looks at it. -/
inductive Value where
  | string (text : String)
  | integer (number : Int)
  | float (number : Decimal.Binary64)
  | boolean (truth : Bool)
  | dateTime
  | array
  | table
deriving DecidableEq, Repr

/-- A place in a text: the text from there to the end. -/
abbrev Mark := List Char

/-- A place as people count it: lines and characters, both from one. -/
structure Position where
  line : Nat
  column : Nat
deriving DecidableEq, Repr

/-- The line and the column at which a place lies in its text. -/
def Mark.position (mark : Mark) (text : List Char) : Position :=
  let before := text.take (text.length - mark.length)
  { line := before.count '\n' + 1
    column := (before.reverse.takeWhile (· != '\n')).length + 1 }

/-- A top-level key with its value, and where both start. -/
structure Setting where
  key : String
  keyAt : Position
  value : Value
  valueAt : Position
deriving DecidableEq, Repr

end HandleTable.Toml
