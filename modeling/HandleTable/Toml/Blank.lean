/-!
# Blanks, line ends and comments

The white space of TOML is the space and the tab; a line ends with a line feed
or with a carriage return and a line feed.  A comment runs from `#` to the end
of its line and holds no control character but the tab.

A reader takes the text that is left and returns what it read with the text
after that, or nothing when the text does not have the form it wants.
-/

namespace HandleTable.Toml

/-- Takes something from the front of a text. -/
abbrev Reader (α : Type) := List Char → Option (α × List Char)

/-- Space or tab. -/
def isBlank (c : Char) : Bool :=
  c == ' ' || c == '\t'

/-- The text after its leading blanks. -/
def skipBlanks (text : List Char) : List Char :=
  text.dropWhile isBlank

/-- Whether a character may stand in a comment or, apart from the delimiter, in a
quoted text. -/
def isPlain (c : Char) : Bool :=
  c == '\t' || (' ' ≤ c && c != '\x7f')

/-- The text after one line end. -/
def newline? : List Char → Option (List Char)
  | '\n' :: rest => some rest
  | '\r' :: '\n' :: rest => some rest
  | _ => none

/-- The text after a line end; the end of the text also ends a line. -/
def lineEnd? (text : List Char) : Option (List Char) :=
  if text.isEmpty then some [] else newline? text

/-- The text after what may follow an expression on its line: blanks, a comment and
the line end. -/
def restOfLine? (text : List Char) : Option (List Char) :=
  match skipBlanks text with
  | '#' :: comment => lineEnd? (comment.dropWhile isPlain)
  | other => lineEnd? other

/-- The text after blanks, line ends and whole comments, as they may stand between
the items of an array.  Inside a comment everything up to the line end goes; a
control character there stops the skipping, and no item starts with one. -/
def skipSpace (inComment : Bool) : List Char → List Char
  | [] => []
  | '\n' :: rest => skipSpace false rest
  | '\r' :: '\n' :: rest => skipSpace false rest
  | c :: rest =>
    if inComment then
      if isPlain c then skipSpace true rest else c :: rest
    else if c == '#' then skipSpace true rest
    else if isBlank c then skipSpace false rest
    else c :: rest

end HandleTable.Toml
