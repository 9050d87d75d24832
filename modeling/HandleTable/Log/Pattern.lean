import HandleTable.Log.Pattern.CharacterSet
import HandleTable.Text.Letters

/-!
# Patterns

A filter may ask that the text of a field matches a pattern.  A pattern is a
choice of sequences with `|` between them, and the items of a sequence are
characters, escapes, the point, `^` and `$`, sets, groups in parentheses, and
items that are repeated.  A group may start with `?` and flags, or with `?` and
a name in angle brackets; flags alone in parentheses hold to the end of the
group around them.

No filter of this library is ever asked to match a value, since events outside
of spans have none.  What matters is which texts are patterns at all, and
`isPattern` says that.  A repetition counted in braces never is one: a pattern
stands in braces itself, and the first closing brace ends it.
-/

namespace HandleTable.Log.Pattern

/-- How deeply a pattern may be nested. -/
def greatestDepth : Nat := 250

/-- An item of a sequence: how deeply it is nested, and whether it can be repeated, which
flags cannot. -/
structure Item where
  depth : Nat
  repeatable : Bool
deriving DecidableEq, Repr

/-- A choice being read: the depths of the alternatives before the last one, and the items
of the last one from its end. -/
structure Choice where
  alternatives : List Nat
  items : List Item
deriving DecidableEq, Repr

namespace Choice

/-- The choice before its first item. -/
def empty : Choice := ⟨[], []⟩

/-- Takes an item. -/
def add (choice : Choice) (depth : Nat) : Choice :=
  { choice with items := ⟨depth, true⟩ :: choice.items }

/-- Takes flags, which stand as an item of their own. -/
def addFlags (choice : Choice) : Choice :=
  { choice with items := ⟨0, false⟩ :: choice.items }

/-- The greatest of some depths. -/
def deepest (depths : List Nat) : Nat :=
  depths.foldl max 0

/-- How deeply the last alternative is nested; several items make a level of their own. -/
def lastDepth (choice : Choice) : Nat :=
  let depths := choice.items.map Item.depth
  if depths.length ≤ 1 then deepest depths else deepest depths + 1

/-- How deeply the choice is nested; several alternatives make a level of their own. -/
def depth (choice : Choice) : Nat :=
  if choice.alternatives.isEmpty then choice.lastDepth
  else deepest (choice.lastDepth :: choice.alternatives) + 1

/-- Ends the last alternative. -/
def alternate (choice : Choice) : Choice :=
  ⟨choice.lastDepth :: choice.alternatives, []⟩

/-- Repeats the last item. -/
def repeatLast? (choice : Choice) : Option Choice :=
  match choice.items with
  | ⟨depth, true⟩ :: others => some { choice with items := ⟨depth + 1, true⟩ :: others }
  | _ => none

end Choice

/-- A flag with the value that it is given, if it is given one: flags after a dash are
taken back. -/
def flag? (flags : List Char) (flag : Char) : Option Bool :=
  if (flags.takeWhile (· != '-')).contains flag then some true
  else if flags.contains flag then some false
  else none

/-- Whether flags are well formed: known, each given once, and something after a dash. -/
def areFlags (flags : List Char) : Bool :=
  flags.all "imsUuRx-".toList.contains && flags.eraseDups.length == flags.length &&
    flags.getLast? != some '-'

/-- The mode that flags make of another. -/
def Mode.switch (mode : Mode) (flags : List Char) : Mode :=
  ⟨(flag? flags 'i').getD mode.foldsCase, (flag? flags 'u').getD mode.unicode,
   (flag? flags 'x').getD mode.spaced⟩

/-- Whether a text names a group. -/
def isGroupName : List Char → Bool
  | [] => false
  | first :: others =>
    (first == '_' || Text.isLetter first) &&
      others.all fun c => "_.[]".toList.contains c || Text.isLetterOrNumber c

/-- What an opening parenthesis starts: flags that hold from there on, or a group that is
read in some mode and may have a name. -/
inductive Opening where
  | flags (mode : Mode)
  | group (mode : Mode) (name : Option (List Char))

/-- Reads the name of a group and the bracket after it. -/
def named? (mode : Mode) (text : List Char) : Option (Opening × List Char) :=
  let name := text.takeWhile (· != '>')
  match text.drop name.length with
  | '>' :: rest => if isGroupName name then some (.group mode (some name), rest) else none
  | _ => none

/-- Reads flags, and the colon of a group or the parenthesis after them. -/
def flagged? (mode : Mode) (text : List Char) : Option (Opening × List Char) :=
  let flags := text.takeWhile fun c => c != ':' && c != ')'
  match text.drop flags.length with
  | ':' :: rest => if areFlags flags then some (.group (mode.switch flags) none, rest) else none
  | ')' :: rest =>
    if areFlags flags && !flags.isEmpty then some (.flags (mode.switch flags), rest) else none
  | _ => none

/-- Reads what follows an opening parenthesis. -/
def opening? (mode : Mode) (text : List Char) : Option (Opening × List Char) :=
  match mode.skip text with
  | '?' :: 'P' :: '<' :: rest => named? mode rest
  | '?' :: '<' :: rest => named? mode rest
  | '?' :: rest => flagged? mode rest
  | rest => some (.group mode none, rest)

/-- A pattern being read: the mode, the innermost choice, what was read around each group
that is open with the mode to return to, and the names of groups. -/
structure Progress where
  mode : Mode
  choice : Choice
  around : List (Mode × Choice)
  names : List (List Char)

namespace Progress

/-- The progress before the first character. -/
def start : Progress := ⟨.standard, .empty, [], []⟩

/-- Takes an item. -/
def add (progress : Progress) (depth : Nat) : Progress :=
  { progress with choice := progress.choice.add depth }

/-- Takes what an opening parenthesis started; a name is given once. -/
def open? (progress : Progress) : Opening → Option Progress
  | .flags mode => some { progress with mode := mode, choice := progress.choice.addFlags }
  | .group mode name =>
    if name.any progress.names.contains then none
    else
      some ⟨mode, .empty, (progress.mode, progress.choice) :: progress.around,
        name.toList ++ progress.names⟩

/-- Takes a closing parenthesis. -/
def close? (progress : Progress) : Option Progress :=
  match progress.around with
  | [] => none
  | (mode, choice) :: around =>
    some { progress with
      mode := mode, choice := choice.add (progress.choice.depth + 1), around := around }

/-- Takes a sign of repetition. -/
def repeatLast? (progress : Progress) : Option Progress :=
  progress.choice.repeatLast?.map fun choice => { progress with choice := choice }

/-- Whether what was read is a whole pattern. -/
def isComplete (progress : Progress) : Bool :=
  progress.around.isEmpty && progress.choice.depth ≤ greatestDepth

end Progress

/-- The text after a mark that makes a repetition take as little as it can. -/
def dropLazyMark : List Char → List Char
  | '?' :: rest => rest
  | text => text

/-- Reads an item or a sign that starts with a given character. -/
def step? (progress : Progress) (c : Char) (rest : List Char) :
    Option (Progress × List Char) :=
  let mode := progress.mode
  match c with
  | '(' => do
    let (opening, rest) ← opening? mode rest
    return (← progress.open? opening, rest)
  | ')' => do return (← progress.close?, rest)
  | '|' => some ({ progress with choice := progress.choice.alternate }, rest)
  | '[' => do
    let (depth, rest) ← set? mode rest
    return (progress.add depth, rest)
  | '?' | '*' | '+' => do return (← progress.repeatLast?, dropLazyMark rest)
  | '\x7b' => none
  | '\\' => do
    let (escape, rest) ← escape? mode rest
    if mode.admits escape then some (progress.add 0, rest) else none
  | '^' | '$' => some (progress.add 0, rest)
  | '.' => if mode.unicode then some (progress.add 0, rest) else none
  | c => if mode.admitsCharacter c false then some (progress.add 0, rest) else none

theorem length_of_named? {mode : Mode} {text rest : List Char} {opening : Opening}
    (hread : named? mode text = some (opening, rest)) : rest.length < text.length := by
  unfold named? at hread
  dsimp only at hread
  split at hread
  · rename_i hdrop
    split at hread
    · simp only [Option.some.injEq, Prod.mk.injEq] at hread
      have hlength := congrArg List.length hdrop
      simp only [List.length_drop, List.length_cons, hread.2] at hlength
      omega
    · contradiction
  · contradiction

theorem length_of_flagged? {mode : Mode} {text rest : List Char} {opening : Opening}
    (hread : flagged? mode text = some (opening, rest)) : rest.length < text.length := by
  unfold flagged? at hread
  dsimp only at hread
  split at hread
  · rename_i hdrop
    split at hread
    · simp only [Option.some.injEq, Prod.mk.injEq] at hread
      have hlength := congrArg List.length hdrop
      simp only [List.length_drop, List.length_cons, hread.2] at hlength
      omega
    · contradiction
  · rename_i hdrop
    split at hread
    · simp only [Option.some.injEq, Prod.mk.injEq] at hread
      have hlength := congrArg List.length hdrop
      simp only [List.length_drop, List.length_cons, hread.2] at hlength
      omega
    · contradiction
  · contradiction

theorem length_of_opening? {mode : Mode} {text rest : List Char} {opening : Opening}
    (hread : opening? mode text = some (opening, rest)) : rest.length ≤ text.length := by
  unfold opening? at hread
  have hskip := mode.length_skip_le text
  split at hread
  · rename_i hmark
    have := length_of_named? hread
    simp only [hmark, List.length_cons] at hskip
    omega
  · rename_i hmark
    have := length_of_named? hread
    simp only [hmark, List.length_cons] at hskip
    omega
  · rename_i hmark
    have := length_of_flagged? hread
    simp only [hmark, List.length_cons] at hskip
    omega
  · simp only [Option.some.injEq, Prod.mk.injEq] at hread
    rw [← hread.2]
    exact hskip

theorem length_dropLazyMark_le (text : List Char) :
    (dropLazyMark text).length ≤ text.length := by
  unfold dropLazyMark
  split
  · simp
  · exact Nat.le_refl _

/-- No step gives back what it took. -/
theorem length_of_step? {progress next : Progress} {c : Char} {text rest : List Char}
    (hstep : step? progress c text = some (next, rest)) : rest.length ≤ text.length := by
  unfold step? at hstep
  dsimp only at hstep
  split at hstep
  all_goals
    simp only [bind, pure, Option.bind_eq_some_iff, Option.ite_none_right_eq_some,
      Option.some.injEq, Prod.mk.injEq, Prod.exists, reduceCtorEq] at hstep
  · obtain ⟨_, _, hopening, _, -, -, rfl⟩ := hstep
    exact length_of_opening? hopening
  · obtain ⟨_, -, -, rfl⟩ := hstep
    exact Nat.le_refl _
  · exact Nat.le_of_eq (congrArg List.length hstep.2.symm)
  · obtain ⟨_, _, hset, -, rfl⟩ := hstep
    exact Nat.le_of_lt (length_of_set? hset)
  · obtain ⟨_, -, -, rfl⟩ := hstep
    exact length_dropLazyMark_le text
  · obtain ⟨_, -, -, rfl⟩ := hstep
    exact length_dropLazyMark_le text
  · obtain ⟨_, -, -, rfl⟩ := hstep
    exact length_dropLazyMark_le text
  · obtain ⟨_, _, hescape, -, -, rfl⟩ := hstep
    exact Nat.le_of_lt (length_of_escape? hescape)
  · exact Nat.le_of_eq (congrArg List.length hstep.2.symm)
  · exact Nat.le_of_eq (congrArg List.length hstep.2.symm)
  · exact Nat.le_of_eq (congrArg List.length hstep.2.2.symm)
  · exact Nat.le_of_eq (congrArg List.length hstep.2.2.symm)

/-- Reads a pattern to its end. -/
def read? (progress : Progress) (text : List Char) : Option Progress :=
  match _ : progress.mode.skip text with
  | [] => some progress
  | c :: rest =>
    match _ : step? progress c rest with
    | some (next, rest) => read? next rest
    | none => none
termination_by text.length
decreasing_by
  have := Mode.length_lt_of_skip (by assumption)
  have := length_of_step? (by assumption)
  omega

/-- Whether a text is a pattern. -/
def isPattern (text : List Char) : Bool :=
  (read? .start text).any Progress.isComplete

end HandleTable.Log.Pattern
