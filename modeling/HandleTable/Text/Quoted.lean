import HandleTable.Text.CharacterRanges
import HandleTable.Text.Hex

/-!
# Quoted text

Text in an error message stands between double quotes.  Inside, the quote and
the backslash are escaped, four control characters have short names, and every
other character that has no printed form, or that would attach itself to the
character before it, is written by its code point in braces.
-/

namespace HandleTable.Text

/-- A character by its code point, as in `\u{1b}`. -/
def codePoint (c : Char) : List Char :=
  '\\' :: 'u' :: '\x7b' :: Hex.ofNat c.toNat ++ ['\x7d']

/-- How one character is written between double quotes. -/
def escaped (c : Char) : List Char :=
  if c = '\x00' then ['\\', '0']
  else if c = '\t' then ['\\', 't']
  else if c = '\r' then ['\\', 'r']
  else if c = '\n' then ['\\', 'n']
  else if c = '"' then ['\\', '"']
  else if c = '\\' then ['\\', '\\']
  else if extendsGrapheme c || !isPrintable c then codePoint c
  else [c]

/-- A text between double quotes. -/
def quoted (text : String) : String :=
  String.ofList ('"' :: text.toList.flatMap escaped ++ ['"'])

/-- Texts between brackets, each quoted, with commas between them. -/
def quotedList (texts : List String) : String :=
  "[" ++ ", ".intercalate (texts.map quoted) ++ "]"

end HandleTable.Text
