/-!
# Paths below a store

A path is the list of names that lead from the root of a store to one of its
objects; the empty list is the root.  A path is an ancestor of another when it
is the beginning of it, so every path is its own ancestor and the root is an
ancestor of all.
-/

namespace HandleTable

/-- The names that lead from the root of a store to an object. -/
abbrev Path := List String

namespace Path

/-- Whether `candidate` is `path` or one of the directories above it. -/
def isAncestor (candidate path : Path) : Bool :=
  candidate.isPrefixOf path

/-- A path as one text: a slash in front and between the names. -/
def text (path : Path) : String :=
  "/" ++ "/".intercalate path

/-- What a path becomes when the object at `old` is moved to `new`: paths at or
below `old` follow it, all others stay. -/
def rebase (path old new : Path) : Path :=
  if isAncestor old path then new ++ path.drop old.length else path

theorem isAncestor_iff {candidate path : Path} :
    isAncestor candidate path = true ↔ candidate <+: path := by
  simp [isAncestor]

/-- A path below the moved object keeps what follows it. -/
theorem rebase_append (old new rest : Path) : (old ++ rest).rebase old new = new ++ rest := by
  simp [rebase, isAncestor]

theorem rebase_of_not_isAncestor {old path : Path} (new : Path)
    (hpath : isAncestor old path = false) : path.rebase old new = path := by
  simp [rebase, hpath]

end Path

end HandleTable
