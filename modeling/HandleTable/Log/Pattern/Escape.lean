import HandleTable.Text.Hex
import HandleTable.Text.WhiteSpace

/-!
# Modes and escapes of patterns

Flags of a pattern switch how the text after them is read: whether letters stand
for both of their cases, whether the alphabet is that of Unicode or that of
ASCII, and whether white space and comments between the parts are left out.

Patterns know no property of a character beyond ASCII.  With the alphabet of
Unicode they can therefore neither fold cases nor tell digits, spaces and the
characters of words from others, and a pattern that asks for it is refused.
With the alphabet of ASCII a pattern must still not match half a character, so
bytes above ASCII and complements of ASCII classes are refused there.

A backslash makes a mark stand for itself and gives some letters a meaning.
-/

namespace HandleTable.Log.Pattern

/-- How a pattern is being read. -/
structure Mode where
  foldsCase : Bool
  unicode : Bool
  spaced : Bool
deriving DecidableEq, Repr

/-- The text after white space and comments.  A comment starts with `#` and takes the
rest of its line. -/
def skipSpace (inComment : Bool) : List Char → List Char
  | [] => []
  | c :: rest =>
    if inComment then skipSpace (c != '\n') rest
    else if Text.isWhiteSpace c then skipSpace false rest
    else if c == '#' then skipSpace true rest
    else c :: rest

namespace Mode

/-- The mode in which a pattern starts. -/
def standard : Mode := ⟨false, true, false⟩

/-- The text after what does not count. -/
def skip (mode : Mode) (text : List Char) : List Char :=
  if mode.spaced then skipSpace false text else text

/-- Whether a character may stand in a set. -/
def admitsMember (mode : Mode) (c : Char) : Bool :=
  if mode.unicode then !mode.foldsCase else c.toNat ≤ 0x7f

/-- Whether a class of ASCII characters, or its complement, may stand in a pattern. -/
def admitsAsciiClass (mode : Mode) (negated : Bool) : Bool :=
  if mode.unicode then !mode.foldsCase else !negated

/-- Whether a letter for a class, or for its complement, may stand in a pattern. -/
def admitsShorthand (mode : Mode) (negated : Bool) : Bool :=
  !mode.unicode && !negated

end Mode

/-- What stands after a backslash: a character, perhaps given as a byte; the letter of
a class; a place at the start or the end; or the edge of a word. -/
inductive Escape where
  | character (c : Char) (asByte : Bool)
  | shorthand (negated : Bool)
  | place
  | wordEdge
deriving DecidableEq, Repr

/-- Whether a character, given by itself or by an escape, may stand outside of sets. -/
def Mode.admitsCharacter (mode : Mode) (c : Char) (asByte : Bool) : Bool :=
  if mode.unicode then !mode.foldsCase else !(asByte && 0x7f < c.toNat)

/-- Whether an escape may stand outside of sets. -/
def Mode.admits (mode : Mode) : Escape → Bool
  | .character c asByte => mode.admitsCharacter c asByte
  | .shorthand negated => mode.admitsShorthand negated
  | .place => true
  | .wordEdge => !mode.unicode

/-- The meanings of letters and of angle brackets after a backslash. -/
def letters : List (Char × Escape) :=
  [('a', .character '\x07' false), ('f', .character '\x0c' false),
   ('t', .character '\t' false), ('n', .character '\n' false),
   ('r', .character '\r' false), ('v', .character '\x0b' false),
   ('d', .shorthand false), ('s', .shorthand false), ('w', .shorthand false),
   ('D', .shorthand true), ('S', .shorthand true), ('W', .shorthand true),
   ('A', .place), ('z', .place),
   ('b', .wordEdge), ('B', .wordEdge), ('<', .wordEdge), ('>', .wordEdge)]

/-- The letters after which a character is given by its number, with the count of its
hexadecimal digits. -/
def numberForms : List (Char × Nat) :=
  [('x', 2), ('u', 4), ('U', 8)]

/-- Reads hexadecimal digits after a number read so far. -/
def hexadecimal? (mode : Mode) (value : Nat) : Nat → List Char → Option (Nat × List Char)
  | 0, text => some (value, text)
  | count + 1, text =>
    match mode.skip text with
    | [] => none
    | digit :: rest =>
      match Text.Hex.digitValue? digit with
      | none => none
      | some digit => hexadecimal? mode (16 * value + digit) count rest

/-- Reads what stands after a backslash.  A mark stands for itself; the letters without
a meaning, and the digits, may not stand there. -/
def escape? (mode : Mode) : List Char → Option (Escape × List Char)
  | [] => none
  | c :: rest =>
    match numberForms.lookup c, letters.lookup c with
    | some count, _ =>
      match hexadecimal? mode 0 count rest with
      | some (code, rest) =>
        if code.isValidChar then some (.character (.ofNat code) (c == 'x'), rest) else none
      | none => none
    | none, some meaning => some (meaning, rest)
    | none, none =>
      if c.toNat < 0x80 && !c.isAlphanum then some (.character c false, rest) else none

theorem length_skipSpace_le (inComment : Bool) (text : List Char) :
    (skipSpace inComment text).length ≤ text.length := by
  induction text generalizing inComment with
  | nil => simp [skipSpace]
  | cons c rest ih =>
      unfold skipSpace
      split
      · exact Nat.le_succ_of_le (ih _)
      · split
        · exact Nat.le_succ_of_le (ih _)
        · split
          · exact Nat.le_succ_of_le (ih _)
          · exact Nat.le_refl _

theorem Mode.length_skip_le (mode : Mode) (text : List Char) :
    (mode.skip text).length ≤ text.length := by
  unfold Mode.skip
  split
  · exact length_skipSpace_le _ _
  · exact Nat.le_refl _

/-- What follows the first character that counts is shorter than the whole. -/
theorem Mode.length_lt_of_skip {mode : Mode} {text : List Char} {c : Char} {rest : List Char}
    (hskip : mode.skip text = c :: rest) : rest.length < text.length := by
  have hle := mode.length_skip_le text
  rw [hskip, List.length_cons] at hle
  omega

theorem length_of_hexadecimal? {mode : Mode} {value count code : Nat} {text rest : List Char}
    (hread : hexadecimal? mode value count text = some (code, rest)) :
    rest.length ≤ text.length := by
  induction count generalizing value text with
  | zero => simp_all [hexadecimal?]
  | succ count ih =>
      simp only [hexadecimal?] at hread
      split at hread
      · contradiction
      · rename_i hskip
        split at hread
        · contradiction
        · have hshorter := Mode.length_lt_of_skip hskip
          have hrest := ih hread
          omega

theorem length_of_escape? {mode : Mode} {text rest : List Char} {escape : Escape}
    (hread : escape? mode text = some (escape, rest)) : rest.length < text.length := by
  unfold escape? at hread
  split at hread
  · contradiction
  · rw [List.length_cons]
    split at hread
    · split at hread
      · rename_i hdigits
        split at hread
        · simp only [Option.some.injEq, Prod.mk.injEq] at hread
          have hle := length_of_hexadecimal? hdigits
          rw [hread.2] at hle
          omega
        · contradiction
      · contradiction
    · simp only [Option.some.injEq, Prod.mk.injEq] at hread
      rw [hread.2]
      omega
    · split at hread
      · simp only [Option.some.injEq, Prod.mk.injEq] at hread
        rw [hread.2]
        omega
      · contradiction

end HandleTable.Log.Pattern
