import HandleTable.Toml.DateTime
import HandleTable.Toml.Table

/-!
# Literals

The first character of a value tells its kind, except that dates, floating
point numbers and integers are tried in this order.  Arrays may spread over
lines, hold comments and end with a comma; inline tables stay on one line and
may not.  Both nest at most `maxDepth` deep.
-/

namespace HandleTable.Toml

/-- The text after a given word. -/
def word? (expected text : List Char) : Option (List Char) :=
  if expected.isPrefixOf text then some (text.drop expected.length) else none

/-- The text after the items of an array and its closing bracket.  Each round takes
at least one character, so the length of the text is a sufficient `bound`. -/
def arrayItems (item : Reader Value) : (bound : Nat) → List Char → Option (List Char)
  | 0, _ => none
  | bound + 1, text =>
    match skipSpace false text with
    | ']' :: rest => some rest
    | text => do
      let (_, rest) ← item text
      match skipSpace false rest with
      | ']' :: rest => some rest
      | ',' :: rest => arrayItems item bound rest
      | _ => none

/-- The text after the pairs of an inline table and its closing brace; the pairs so
far are `entries`. -/
def tablePairs (item : Reader Value) :
    (bound : Nat) → Entries → List Char → Option (List Char)
  | 0, _, _ => none
  | bound + 1, entries, text => do
    let (path, rest) ← keyPath text
    let rest ← after? '=' rest
    let start := skipBlanks rest
    let (value, rest) ← item start
    let entries ← entries.define path (.value value start)
    match skipBlanks rest with
    | '\x7d' :: rest => some rest
    | ',' :: rest => tablePairs item bound entries rest
    | _ => none

/-- The text after an inline table whose opening brace has been read. -/
def inlineTable (item : Reader Value) (text : List Char) : Option (List Char) :=
  match skipBlanks text with
  | '\x7d' :: rest => some rest
  | _ => tablePairs item text.length [] text

/-- Reads a date, a time, a floating point number or an integer. -/
def numeral : Reader Value := fun text =>
  match dateTime? text with
  | some rest => some (.dateTime, rest)
  | none =>
    match floatLiteral text with
    | some (number, rest) => some (.float number, rest)
    | none => (integerLiteral text).map fun (number, rest) => (.integer number, rest)

/-- Reads a value in which arrays and inline tables nest at most `depth` deep. -/
def literalWithin : (depth : Nat) → Reader Value
  | _, [] => none
  | depth, c :: rest =>
    if c == '"' || c == '\'' then
      (stringLiteral (c :: rest)).map fun (text, rest) => (.string text, rest)
    else if c == '[' then
      match depth with
      | 0 => none
      | depth + 1 =>
        (arrayItems (literalWithin depth) (rest.length + 1) rest).map fun rest => (.array, rest)
    else if c == '\x7b' then
      match depth with
      | 0 => none
      | depth + 1 => (inlineTable (literalWithin depth) rest).map fun rest => (.table, rest)
    else if c == 't' then
      (word? ['r', 'u', 'e'] rest).map fun rest => (.boolean true, rest)
    else if c == 'f' then
      (word? ['a', 'l', 's', 'e'] rest).map fun rest => (.boolean false, rest)
    else numeral (c :: rest)

/-- Reads a value. -/
def literal : Reader Value :=
  literalWithin maxDepth

end HandleTable.Toml
