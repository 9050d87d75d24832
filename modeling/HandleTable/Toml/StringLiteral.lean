import HandleTable.Text.Hex
import HandleTable.Toml.Blank

/-!
# String literals

TOML has four kinds of strings: between double quotes with escapes or between
single quotes without, and either on one line or, with the quotes tripled, on
several.  A line end in a string of several lines always reads as a line feed,
and one straight after the opening quotes is dropped.  Up to two quotes may
stand right before the closing three.

The readers below take the characters read so far in reverse order.
-/

namespace HandleTable.Toml

/-- The character of a named escape. -/
def namedEscape? : Char → Option Char
  | 'b' => some '\x08'
  | 't' => some '\t'
  | 'n' => some '\n'
  | 'f' => some '\x0c'
  | 'r' => some '\r'
  | '"' => some '"'
  | '\\' => some '\\'
  | _ => none

/-- How many digits follow an escape that gives a code point. -/
def escapeDigits? : Char → Option Nat
  | 'u' => some 4
  | 'U' => some 8
  | _ => none

/-- The number that hexadecimal digits write. -/
def hexValue? (digits : List Char) : Option Nat :=
  digits.foldlM (fun value digit => (Text.Hex.digitValue? digit).map (16 * value + ·)) 0

/-- The character whose code point is written with exactly `count` digits. -/
def codePoint? (count : Nat) (text : List Char) : Option Char := do
  let digits := text.take count
  guard (digits.length = count)
  let value ← hexValue? digits
  if value.isValidChar then some (Char.ofNat value) else none

/-- Reads an escape after its backslash. -/
def escape? : Reader Char
  | [] => none
  | name :: rest =>
    match namedEscape? name with
    | some c => some (c, rest)
    | none => do
      let count ← escapeDigits? name
      let c ← codePoint? count rest
      return (c, rest.drop count)

theorem length_of_escape? {text rest : List Char} {c : Char}
    (hescape : escape? text = some (c, rest)) : rest.length < text.length := by
  cases text with
  | nil => simp [escape?] at hescape
  | cons name tail =>
      simp only [escape?] at hescape
      split at hescape
      · simp only [Option.some.injEq, Prod.mk.injEq] at hescape
        simp [← hescape.2]
      · simp only [bind, Option.bind_eq_some_iff, pure, Option.some.injEq,
          Prod.mk.injEq] at hescape
        obtain ⟨count, -, character, -, -, hrest⟩ := hescape
        simp only [← hrest, List.length_drop, List.length_cons]
        omega

/-- Reads the rest of a string between double quotes. -/
def basicBody (sofar : List Char) (text : List Char) : Option (List Char × List Char) :=
  match text with
  | [] => none
  | '"' :: rest => some (sofar.reverse, rest)
  | '\\' :: rest =>
    match _ : escape? rest with
    | none => none
    | some (c, rest') => basicBody (c :: sofar) rest'
  | c :: rest => if isPlain c then basicBody (c :: sofar) rest else none
termination_by text.length
decreasing_by
  · exact Nat.lt_succ_of_lt (length_of_escape? (by assumption))
  · simp

/-- Reads the rest of a string between single quotes. -/
def literalBody (sofar : List Char) : List Char → Option (List Char × List Char)
  | [] => none
  | '\'' :: rest => some (sofar.reverse, rest)
  | c :: rest => if isPlain c then literalBody (c :: sofar) rest else none

/-- A run of at least three quotes closes a string of several lines: the last three
are the delimiter, and up to two before them belong to the string. -/
def closing? (quote : Char) (text : List Char) : Option (Nat × List Char) :=
  let run := (text.takeWhile (· == quote)).length
  if 3 ≤ run then some (min (run - 3) 2, text.drop (3 + min (run - 3) 2)) else none

/-- The text after blanks and line ends. -/
def skipMargin : List Char → List Char
  | '\n' :: rest => skipMargin rest
  | '\r' :: '\n' :: rest => skipMargin rest
  | c :: rest => if isBlank c then skipMargin rest else c :: rest
  | [] => []

/-- The text after a backslash that ends a line: the blanks and line ends that
follow are dropped. -/
def lineContinuation? (text : List Char) : Option (List Char) :=
  (newline? (skipBlanks text)).map skipMargin

theorem length_skipMargin_le (text : List Char) :
    (skipMargin text).length ≤ text.length := by
  fun_induction skipMargin text with
  | case1 rest ih => simp; omega
  | case2 rest ih => simp; omega
  | case3 c rest _ _ _ ih => simp; omega
  | case4 => simp
  | case5 => simp

theorem length_of_newline? {text rest : List Char} (hnewline : newline? text = some rest) :
    rest.length < text.length := by
  unfold newline? at hnewline
  split at hnewline
  · obtain rfl := Option.some.inj hnewline
    simp only [List.length_cons]
    omega
  · obtain rfl := Option.some.inj hnewline
    simp only [List.length_cons]
    omega
  · contradiction

theorem length_of_lineContinuation? {text rest : List Char}
    (hcontinuation : lineContinuation? text = some rest) : rest.length < text.length := by
  simp only [lineContinuation?, Option.map_eq_some_iff] at hcontinuation
  obtain ⟨middle, hnewline, hrest⟩ := hcontinuation
  have hmargin := length_skipMargin_le middle
  have hshorter := length_of_newline? hnewline
  have hblanks : (skipBlanks text).length ≤ text.length :=
    (List.dropWhile_sublist _).length_le
  rw [hrest] at hmargin
  omega

/-- Reads the rest of a string of several lines between double quotes. -/
def basicLines (sofar : List Char) (text : List Char) : Option (List Char × List Char) :=
  match text with
  | [] => none
  | '\\' :: rest =>
    match _ : lineContinuation? rest with
    | some rest' => basicLines sofar rest'
    | none =>
      match _ : escape? rest with
      | none => none
      | some (c, rest') => basicLines (c :: sofar) rest'
  | '\n' :: rest => basicLines ('\n' :: sofar) rest
  | '\r' :: '\n' :: rest => basicLines ('\n' :: sofar) rest
  | c :: rest =>
    match closing? '"' (c :: rest) with
    | some (quotes, rest') => some ((List.replicate quotes '"' ++ sofar).reverse, rest')
    | none => if isPlain c then basicLines (c :: sofar) rest else none
termination_by text.length
decreasing_by
  · exact Nat.lt_succ_of_lt (length_of_lineContinuation? (by assumption))
  · exact Nat.lt_succ_of_lt (length_of_escape? (by assumption))
  all_goals simp only [List.length_cons]; omega

/-- Reads the rest of a string of several lines between single quotes. -/
def literalLines (sofar : List Char) : List Char → Option (List Char × List Char)
  | [] => none
  | '\n' :: rest => literalLines ('\n' :: sofar) rest
  | '\r' :: '\n' :: rest => literalLines ('\n' :: sofar) rest
  | c :: rest =>
    match closing? '\'' (c :: rest) with
    | some (quotes, rest') => some ((List.replicate quotes '\'' ++ sofar).reverse, rest')
    | none => if isPlain c then literalLines (c :: sofar) rest else none

/-- The text without one leading line end. -/
def dropNewline (text : List Char) : List Char :=
  (newline? text).getD text

/-- Reads a string of one line. -/
def stringLine : Reader String
  | '"' :: rest => (basicBody [] rest).map fun (text, rest) => (String.ofList text, rest)
  | '\'' :: rest => (literalBody [] rest).map fun (text, rest) => (String.ofList text, rest)
  | _ => none

/-- Reads a string of any kind. -/
def stringLiteral : Reader String
  | '"' :: '"' :: '"' :: rest =>
    (basicLines [] (dropNewline rest)).map fun (text, rest) => (String.ofList text, rest)
  | '\'' :: '\'' :: '\'' :: rest =>
    (literalLines [] (dropNewline rest)).map fun (text, rest) => (String.ofList text, rest)
  | text => stringLine text

end HandleTable.Toml
