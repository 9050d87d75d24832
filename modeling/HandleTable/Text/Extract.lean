/-!
# Parts of a text by byte offsets

A part of a text is given by the offsets, in bytes of the UTF-8 form, where it
starts and where it stops.  There is such a part only when both offsets lie
between characters.
-/

namespace HandleTable.Text

/-- The text from an offset on, if that lies between two characters. -/
def dropBytes? : Nat → List Char → Option (List Char)
  | 0, text => some text
  | _, [] => none
  | count, c :: rest => if c.utf8Size ≤ count then dropBytes? (count - c.utf8Size) rest else none

/-- The text before an offset, if that lies between two characters. -/
def takeBytes? : Nat → List Char → Option (List Char)
  | 0, _ => some []
  | _, [] => none
  | count, c :: rest =>
    if c.utf8Size ≤ count then (takeBytes? (count - c.utf8Size) rest).map (c :: ·) else none

/-- The part of a text between two offsets. -/
def extract? (start stop : Nat) (text : List Char) : Option (List Char) :=
  (dropBytes? start text).bind (takeBytes? (stop - start))

end HandleTable.Text
