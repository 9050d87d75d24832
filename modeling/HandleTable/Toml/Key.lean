import HandleTable.Toml.StringLiteral
import HandleTable.Toml.Value

/-!
# Keys

A key is a bare word of letters, digits, `-` and `_`, or a string of one line.
Keys joined with points lead through tables to the last of them.  A path of
keys has at most seventy-nine of them, the depth to which tables may nest.
-/

namespace HandleTable.Toml

/-- A key and the place where it starts. -/
structure Key where
  name : String
  start : Mark

/-- Whether a character may stand in a bare key. -/
def isBare (c : Char) : Bool :=
  ('a' ≤ c && c ≤ 'z') || ('A' ≤ c && c ≤ 'Z') || ('0' ≤ c && c ≤ '9') || c == '-' || c == '_'

/-- How deep tables and arrays may nest. -/
def maxDepth : Nat := 79

/-- Reads one key. -/
def simpleKey : Reader String
  | '"' :: rest => stringLine ('"' :: rest)
  | '\'' :: rest => stringLine ('\'' :: rest)
  | text =>
    if (text.takeWhile isBare).isEmpty then none
    else some (String.ofList (text.takeWhile isBare), text.dropWhile isBare)

/-- Reads a path of keys, with blanks around each, of which at most `allowed` may
follow. -/
def keyPathWithin : (allowed : Nat) → Reader (List Key)
  | 0, _ => none
  | allowed + 1, text => do
    let start := skipBlanks text
    let (name, rest) ← simpleKey start
    match skipBlanks rest with
    | '.' :: rest => do
      let (keys, rest) ← keyPathWithin allowed rest
      return (⟨name, start⟩ :: keys, rest)
    | rest => return ([⟨name, start⟩], rest)

/-- Reads a path of keys. -/
def keyPath : Reader (List Key) :=
  keyPathWithin maxDepth

end HandleTable.Toml
