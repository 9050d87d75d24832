import HandleTable.Backend

/-!
# Stores held in memory

A memory store is a tree of entries that are reported as they are written down:
sizes and times are whatever they say, names are compared whole, a directory
may list a name twice, and a path leads to the first entry of each name.  Some
entries call themselves directories and refuse to be listed.

The service that exports such a store keeps a record of the calls made to it.
-/

namespace HandleTable

/-- Why a directory of a memory store refuses to be listed. -/
inductive Memory.Refusal where
  | denied
  | stale
  | invalid
  | absent
deriving DecidableEq, Repr

/-- An object of a memory store. -/
inductive Memory.Node where
  | file (entry : Entry)
  | directory (entry : Entry) (children : List Memory.Node)
  | closed (entry : Entry) (refusal : Memory.Refusal)

namespace Memory

/-- What a directory reports of an object. -/
def Node.entry : Node → Entry
  | file entry => entry
  | directory entry _ => entry
  | closed entry _ => entry

/-- The object at a path below another. -/
def Node.descend : Node → Path → Option Node
  | node, [] => some node
  | .directory _ children, name :: rest =>
    match children.find? fun child => child.entry.name == name with
    | some child => child.descend rest
    | none => none
  | _, _ :: _ => none

/-- The failure with which a directory at a path refuses to be listed. -/
def Refusal.failure (path : Path) : Refusal → Failure
  | denied => .io (.os 13)
  | stale => .handle .stale
  | invalid => .invalidPath ("/".intercalate path)
  | absent => .notFound

/-- The root of a store with the given objects. -/
def root (children : List Node) : Node :=
  .directory ⟨"", 0, true, 0⟩ children

/-- What is at a path. -/
def stat (children : List Node) (path : Path) : Except Failure Entry :=
  match (root children).descend path with
  | none => .error .notFound
  | some node => .ok node.entry

/-- The listing of the directory at a path. -/
def readDir (children : List Node) (path : Path) : Except Failure Listing :=
  match (root children).descend path with
  | none => .error .notFound
  | some (.file _) => .error (.io .notDirectory)
  | some (.directory _ children) => .ok (children.map Node.entry)
  | some (.closed _ refusal) => .error (refusal.failure path)

/-- A memory store as a backend. -/
def backend (children : List Node) : Backend where
  stat := stat children
  readDir := readDir children

/-- A service that exports one store under every name but one, and reports one usage
for all paths except those that end in a certain name, which are stale to it. -/
structure Export where
  missing : String
  staleName : String
  usage : Usage

/-- The service of an export, whose state is the record of its calls so far. -/
def Export.service {σ : Type} (served : Export) (store : σ) : ExportService (List String) σ where
  mount request calls :=
    (if request = served.missing then .error .notFound else .ok store,
      calls ++ ["mount " ++ request])
  usage _ path calls :=
    (if path.getLast? = some served.staleName then .error (.handle .stale) else .ok served.usage,
      calls ++ ["fs_stat " ++ "/".intercalate path])

end Memory

end HandleTable
