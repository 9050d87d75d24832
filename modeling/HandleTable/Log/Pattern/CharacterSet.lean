import HandleTable.Log.Pattern.Escape

/-!
# Sets of characters in patterns

A set stands in brackets, perhaps after `^` for its complement.  Its members are
characters, ranges of characters, classes such as `[:alpha:]`, and sets; between
groups of members there may be an operation, written `&&`, `--` or `~~`.  A
closing bracket at the start and dashes at the start or the end stand for
themselves.

`set?` reads a set after its opening bracket and gives the depth to which it is
nested: every bracket counts, every group of several members, and every
operation.
-/

namespace HandleTable.Log.Pattern

/-- The names of the classes of ASCII characters. -/
def classNames : List String :=
  ["alnum", "alpha", "ascii", "blank", "cntrl", "digit", "graph", "lower", "print", "punct",
   "space", "upper", "word", "xdigit"]

/-- Reads the name of a class, and the colon and the bracket that close it. -/
def className? (text : List Char) : Option (List Char) :=
  let name := text.takeWhile (· != ':')
  match text.drop name.length with
  | ':' :: ']' :: rest => if classNames.contains (String.ofList name) then some rest else none
  | _ => none

/-- Reads a named class after its opening bracket, and says whether it stands for its
complement. -/
def namedClass? : List Char → Option (Bool × List Char)
  | ':' :: '^' :: text => (className? text).map fun rest => (true, rest)
  | ':' :: text => (className? text).map fun rest => (false, rest)
  | _ => none

/-- Reads a member: a character, or a letter for a class. -/
def member? (mode : Mode) : List Char → Option (Option Char × List Char)
  | [] => none
  | '\\' :: text =>
    match escape? mode text with
    | some (.character c _, rest) => if mode.admitsMember c then some (some c, rest) else none
    | some (.shorthand negated, rest) =>
      if mode.admitsShorthand negated then some (none, rest) else none
    | _ => none
  | c :: rest => if mode.admitsMember c then some (some c, rest) else none

/-- The character by which a dash is told from the sign of a range: the next that is not
white space.  One sign of a comment is passed over with the space around it. -/
def afterDash? (mode : Mode) (text : List Char) : Option Char :=
  let next := text.dropWhile Text.isWhiteSpace
  if mode.spaced then
    match next with
    | '#' :: rest => (rest.dropWhile Text.isWhiteSpace).head? <|> text.head?
    | next => next.head? <|> text.head?
  else text.head?

/-- Reads a member or a range, whose ends are characters in ascending order. -/
def members? (mode : Mode) (text : List Char) : Option (List Char) :=
  match member? mode text with
  | none => none
  | some (first, rest) =>
    match mode.skip rest with
    | '-' :: rest =>
      if afterDash? mode rest = some ']' ∨ afterDash? mode rest = some '-' then some ('-' :: rest)
      else
        match first, member? mode (mode.skip rest) with
        | some first, some (some last, rest) => if first ≤ last then some rest else none
        | _, _ => none
    | rest => some rest

/-- A set being read: how many members its last group has and how deep they are nested,
and how deep the groups before an operation are. -/
structure OpenSet where
  count : Nat
  deepest : Nat
  left : Option Nat
deriving DecidableEq, Repr

namespace OpenSet

/-- The set before its first member. -/
def empty : OpenSet := ⟨0, 0, none⟩

/-- Takes a member of some depth. -/
def add (set : OpenSet) (depth : Nat) : OpenSet :=
  { set with count := set.count + 1, deepest := max set.deepest depth }

/-- How deep the members read so far are nested. -/
def depth (set : OpenSet) : Nat :=
  let group := if set.count ≤ 1 then set.deepest else set.deepest + 1
  match set.left with
  | none => group
  | some left => max left group + 1

/-- Takes the sign of an operation. -/
def operate (set : OpenSet) : OpenSet :=
  ⟨0, 0, some set.depth⟩

end OpenSet

/-- The text after dashes, and how many there were. -/
def dashes (mode : Mode) (count : Nat) (text : List Char) : Nat × List Char :=
  match _ : mode.skip text with
  | '-' :: rest => dashes mode (count + 1) rest
  | rest => (count, rest)
termination_by text.length
decreasing_by exact Mode.length_lt_of_skip (by assumption)

/-- Reads the members at the start of a set that would mean something else further on. -/
def leadingMembers? (mode : Mode) (text : List Char) : Option (OpenSet × List Char) :=
  match dashes mode 0 text with
  | (0, ']' :: rest) => if mode.admitsMember ']' then some (OpenSet.empty.add 0, rest) else none
  | (count, rest) =>
    if count = 0 ∨ mode.admitsMember '-' then some (⟨count, 0, none⟩, rest) else none

/-- Reads the start of a set after its opening bracket. -/
def openSet? (mode : Mode) (text : List Char) : Option (OpenSet × List Char) :=
  match mode.skip text with
  | '^' :: rest => if mode.unicode then leadingMembers? mode rest else none
  | rest => leadingMembers? mode rest

theorem length_of_className? {text rest : List Char} (hread : className? text = some rest) :
    rest.length < text.length := by
  unfold className? at hread
  dsimp only at hread
  split at hread
  · rename_i hdrop
    split at hread
    · obtain rfl := Option.some.inj hread
      have hlength := congrArg List.length hdrop
      simp only [List.length_drop, List.length_cons] at hlength
      omega
    · contradiction
  · contradiction

theorem length_of_namedClass? {text rest : List Char} {negated : Bool}
    (hread : namedClass? text = some (negated, rest)) : rest.length < text.length := by
  unfold namedClass? at hread
  split at hread
  · simp only [Option.map_eq_some_iff, Prod.mk.injEq] at hread
    obtain ⟨_, hclass, -, rfl⟩ := hread
    have := length_of_className? hclass
    simp only [List.length_cons]
    omega
  · simp only [Option.map_eq_some_iff, Prod.mk.injEq] at hread
    obtain ⟨_, hclass, -, rfl⟩ := hread
    have := length_of_className? hclass
    simp only [List.length_cons]
    omega
  · contradiction

theorem length_of_member? {mode : Mode} {text rest : List Char} {member : Option Char}
    (hread : member? mode text = some (member, rest)) : rest.length < text.length := by
  unfold member? at hread
  split at hread
  · contradiction
  · rw [List.length_cons]
    split at hread
    · rename_i hescape
      have hlt := length_of_escape? hescape
      split at hread
      · simp only [Option.some.injEq, Prod.mk.injEq] at hread
        rw [← hread.2]
        omega
      · contradiction
    · rename_i hescape
      have hlt := length_of_escape? hescape
      split at hread
      · simp only [Option.some.injEq, Prod.mk.injEq] at hread
        rw [← hread.2]
        omega
      · contradiction
    · contradiction
  · rw [List.length_cons]
    split at hread
    · simp only [Option.some.injEq, Prod.mk.injEq] at hread
      rw [hread.2]
      omega
    · contradiction

theorem length_of_members? {mode : Mode} {text rest : List Char}
    (hread : members? mode text = some rest) : rest.length < text.length := by
  unfold members? at hread
  split at hread
  · contradiction
  · rename_i first middle hfirst
    have hmiddle := length_of_member? hfirst
    have hskip := mode.length_skip_le middle
    split at hread
    · rename_i after hdash
      rw [hdash, List.length_cons] at hskip
      split at hread
      · obtain rfl := Option.some.inj hread
        rw [List.length_cons]
        omega
      · split at hread
        · rename_i hlast
          split at hread
          · obtain rfl := Option.some.inj hread
            have hend := length_of_member? hlast
            have hblank := mode.length_skip_le after
            omega
          · contradiction
        · contradiction
    · obtain rfl := Option.some.inj hread
      omega

theorem length_dashes_le (mode : Mode) (count : Nat) (text : List Char) :
    (dashes mode count text).2.length ≤ text.length := by
  fun_induction dashes mode count text with
  | case1 count text rest hskip ih =>
      have := Mode.length_lt_of_skip hskip
      omega
  | case2 count text _ => exact mode.length_skip_le text

theorem length_of_leadingMembers? {mode : Mode} {text rest : List Char} {set : OpenSet}
    (hread : leadingMembers? mode text = some (set, rest)) : rest.length ≤ text.length := by
  unfold leadingMembers? at hread
  have hdashes := length_dashes_le mode 0 text
  split at hread
  · rename_i hstart
    split at hread
    · simp only [Option.some.injEq, Prod.mk.injEq] at hread
      rw [hstart, hread.2, List.length_cons] at hdashes
      omega
    · contradiction
  · rename_i hstart
    split at hread
    · simp only [Option.some.injEq, Prod.mk.injEq] at hread
      rw [hstart, hread.2] at hdashes
      exact hdashes
    · contradiction

theorem length_of_openSet? {mode : Mode} {text rest : List Char} {set : OpenSet}
    (hread : openSet? mode text = some (set, rest)) : rest.length ≤ text.length := by
  unfold openSet? at hread
  have hskip := mode.length_skip_le text
  split at hread
  · rename_i hcaret
    split at hread
    · have := length_of_leadingMembers? hread
      rw [hcaret, List.length_cons] at hskip
      omega
    · contradiction
  · have := length_of_leadingMembers? hread
    omega

/-- Reads to the end of the outermost of the sets that are open, of which `set` is the
innermost, and gives its depth. -/
def closeSets? (mode : Mode) (set : OpenSet) (outer : List OpenSet) (text : List Char) :
    Option (Nat × List Char) :=
  match _ : mode.skip text with
  | [] => none
  | '[' :: rest =>
    match _ : namedClass? rest with
    | some (negated, rest) =>
      if mode.admitsAsciiClass negated then closeSets? mode (set.add 0) outer rest else none
    | none =>
      match _ : openSet? mode rest with
      | some (inner, rest) => closeSets? mode inner (set :: outer) rest
      | none => none
  | ']' :: rest =>
    match outer with
    | [] => some (set.depth + 1, rest)
    | next :: others => closeSets? mode (next.add (set.depth + 1)) others rest
  | '&' :: '&' :: rest => closeSets? mode set.operate outer rest
  | '-' :: '-' :: rest => closeSets? mode set.operate outer rest
  | '~' :: '~' :: rest => closeSets? mode set.operate outer rest
  | c :: rest =>
    match _ : members? mode (c :: rest) with
    | some rest => closeSets? mode (set.add 0) outer rest
    | none => none
termination_by text.length
decreasing_by
  · have := Mode.length_lt_of_skip (by assumption)
    have := length_of_namedClass? (by assumption)
    omega
  · have := Mode.length_lt_of_skip (by assumption)
    have := length_of_openSet? (by assumption)
    omega
  · exact Mode.length_lt_of_skip (by assumption)
  iterate 3
    have := Mode.length_lt_of_skip (by assumption)
    rw [List.length_cons] at this
    omega
  · have := Mode.length_lt_of_skip (by assumption)
    have := length_of_members? (by assumption)
    simp only [List.length_cons] at this
    omega

/-- Reads a set after its opening bracket, and gives its depth. -/
def set? (mode : Mode) (text : List Char) : Option (Nat × List Char) :=
  match openSet? mode text with
  | some (set, rest) => closeSets? mode set [] rest
  | none => none

theorem length_of_closeSets? {mode : Mode} {set : OpenSet} {outer : List OpenSet}
    {text rest : List Char} {depth : Nat}
    (hread : closeSets? mode set outer text = some (depth, rest)) :
    rest.length < text.length := by
  fun_induction closeSets? mode set outer text with
  | case2 _ _ _ _ hskip _ _ hclass _ ih =>
      have := ih hread
      have := length_of_namedClass? hclass
      have := Mode.length_lt_of_skip hskip
      omega
  | case4 _ _ _ _ hskip _ _ _ hopen ih =>
      have := ih hread
      have := length_of_openSet? hopen
      have := Mode.length_lt_of_skip hskip
      omega
  | case6 _ _ _ hskip =>
      simp only [Option.some.injEq, Prod.mk.injEq] at hread
      rw [← hread.2]
      exact Mode.length_lt_of_skip hskip
  | case7 _ _ _ hskip _ _ ih =>
      have := ih hread
      have := Mode.length_lt_of_skip hskip
      omega
  | case8 _ _ _ _ hskip ih | case9 _ _ _ _ hskip ih | case10 _ _ _ _ hskip ih =>
      have := ih hread
      have := Mode.length_lt_of_skip hskip
      rw [List.length_cons] at this
      omega
  | case11 _ _ _ _ _ _ _ _ _ _ hskip _ hmembers ih =>
      have := ih hread
      have := length_of_members? hmembers
      have := Mode.length_lt_of_skip hskip
      rw [List.length_cons] at *
      omega
  | case1 | case3 | case5 | case12 => contradiction

theorem length_of_set? {mode : Mode} {text rest : List Char} {depth : Nat}
    (hread : set? mode text = some (depth, rest)) : rest.length < text.length := by
  unfold set? at hread
  split at hread
  · rename_i hopen
    have := length_of_openSet? hopen
    have := length_of_closeSets? hread
    omega
  · contradiction

end HandleTable.Log.Pattern
