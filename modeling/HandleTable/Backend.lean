import HandleTable.Failure
import HandleTable.Listing
import HandleTable.Path

/-!
# Stores and exports

A store answers two questions about a path: what is there, and, for a
directory, what it lists.  An export service turns the name of an export into
a store and reports how full the file system behind it is.  A service may keep
a state of its own, of type `ι`, which each call may change.
-/

namespace HandleTable

/-- What a store of objects answers about a path. -/
structure Backend where
  stat : Path → Except Failure Entry
  readDir : Path → Except Failure Listing

/-- How full a file system is. -/
structure Usage where
  totalBytes : Nat
  freeBytes : Nat
  availableBytes : Nat
  totalFiles : Nat
  freeFiles : Nat
deriving DecidableEq, Repr

/-- A service that leads from export names to stores. -/
structure ExportService (ι σ : Type) where
  mount : String → ι → Except Failure σ × ι
  usage : σ → Path → ι → Except Failure Usage × ι

end HandleTable
