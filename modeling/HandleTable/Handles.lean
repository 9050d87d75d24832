import HandleTable.Handle
import HandleTable.Path
import HandleTable.Recency
import HandleTable.Text.Record

/-!
# The table of live handles

The table remembers for each live handle the store and the path that it stands
for.  It is bounded: minting a handle into a full table makes the handle used
longest ago stale.

Resolving a handle uses it, and before it every live handle whose path is an
ancestor of the resolved path, in the order in which the table lists them.  A
directory that a client is walking through therefore outlives the handles below
it.  A rename rewrites every path at or below the renamed child, and rebinding
points a live handle elsewhere.  A handle that is refused changes nothing.

The stores are of any type `σ`: the table never looks inside them.
-/

namespace HandleTable

/-- What a handle stands for: an object of a store. -/
structure Target (σ : Type) where
  store : σ
  path : Path
deriving DecidableEq

/-- The live handles with their targets, least recently used first. -/
abbrev Handles (σ : Type) := Recency Handle (Target σ)

namespace Handles

variable {σ : Type}

/-- Adds a fresh handle; a full table drops the one used longest ago. -/
def mint (table : Handles σ) (handle : Handle) (store : σ) (path : Path) : Handles σ :=
  (table.insert handle ⟨store, path⟩).1

/-- The live handles other than `handle` whose paths are ancestors of `path`, in
the order of the table. -/
def ancestors (table : Handles σ) (handle : Handle) (path : Path) : List Handle :=
  (table.entries.filter fun entry =>
    entry.1 ≠ handle && Path.isAncestor entry.2.path path).map Prod.fst

/-- Uses handles one after another. -/
def touchAll (table : Handles σ) (handles : List Handle) : Handles σ :=
  handles.foldl (fun current handle => (current.touch handle).2) table

/-- The table after a use of `handle`, which stands for `path`, and of the
directories above it. -/
def pinned (table : Handles σ) (handle : Handle) (path : Path) : Handles σ :=
  ((touchAll table (ancestors table handle path)).touch handle).2

/-- The store and the path of a presented handle. -/
def resolve (table : Handles σ) (wire : List UInt8) :
    Except HandleError (Target σ) × Handles σ :=
  match Handle.parse wire with
  | .error refusal => (.error refusal, table)
  | .ok handle =>
    match table.peek handle with
    | none => (.error .stale, table)
    | some target => (.ok target, pinned table handle target.path)

/-- Follows the renaming of a child of the directory that a handle stands for.
The directory is used; the rewritten entries keep their place. -/
def rename (table : Handles σ) (directory : List UInt8) (old new : String) :
    Except HandleError Unit × Handles σ :=
  match Handle.parse directory with
  | .error refusal => (.error refusal, table)
  | .ok handle =>
    match table.get handle with
    | (none, _) => (.error .stale, table)
    | (some target, used) =>
      (.ok (), used.mapValues fun entry =>
        { entry with
          path := entry.path.rebase (target.path ++ [old]) (target.path ++ [new]) })

/-- Points a live handle at another object, which counts as a use. -/
def rebind (table : Handles σ) (wire : List UInt8) (store : σ) (path : Path) :
    Except HandleError Unit × Handles σ :=
  match Handle.parse wire with
  | .error refusal => (.error refusal, table)
  | .ok handle =>
    if table.contains handle then (.ok (), (table.insert handle ⟨store, path⟩).1)
    else (.error .stale, table)

/-- The live handles with their paths, least recently used first. -/
def snapshot (table : Handles σ) : List (Handle × Path) :=
  table.entries.map fun entry => (entry.1, entry.2.path)

/-- The table in diagnostics, on one line. -/
def summaryLine (table : Handles σ) : String :=
  Text.recordLine "HandleCache" table.measures

/-- The table in diagnostics, a line for each measure. -/
def summaryBlock (table : Handles σ) : String :=
  Text.recordBlock "HandleCache" table.measures

end Handles

end HandleTable
