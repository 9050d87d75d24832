import HandleTable.Backend
import HandleTable.Host.Tree

/-!
# A store over a directory of the host

A local store serves what lies below one directory of the host.  A component of
a path is accepted when it is one plain name, possibly followed by slashes and
dots that lead nowhere; the plain name alone goes into the host path.  All
components are checked before the host is asked anything.

Entries of a directory are listed in the order of their names, whatever order
the host has them in, and names that are no text are left out.  A link is
listed as itself, while asking for one path follows links.
-/

namespace HandleTable.Host

/-- How full a file system is, as the host counts it: in blocks of some size. -/
structure Volume where
  blockSize : Nat
  blocks : Nat
  freeBlocks : Nat
  availableBlocks : Nat
  files : Nat
  freeFiles : Nat

/-- The largest number of sixty-four bits. -/
def maxWord : Nat := 0xffffffffffffffff

/-- The usage of a volume in bytes; products that do not fit stop at the largest
number. -/
def Volume.usage (volume : Volume) : Usage where
  totalBytes := min (volume.blocks * volume.blockSize) maxWord
  freeBytes := min (volume.freeBlocks * volume.blockSize) maxWord
  availableBytes := min (volume.availableBlocks * volume.blockSize) maxWord
  totalFiles := volume.files
  freeFiles := volume.freeFiles

/-- The host as a program finds it: the current directory with the tree around it,
and the volume that holds it. -/
structure Machine where
  current : Place
  volume : Volume

/-- The plain name in a component, if the component is acceptable: the first segment
is neither empty nor a dot name, and all others are empty or a single dot. -/
def plainName? (component : String) : Option FileName :=
  match Text.segments slash (Text.bytes component) with
  | [] => none
  | first :: others =>
    if first ≠ [] ∧ first ≠ dot ∧ first ≠ dotDot ∧
        others.all (fun segment => segment == [] || segment == dot) then
      some first
    else none

/-- A host path with one more name. -/
def joinName (base : HostPath) (name : FileName) : HostPath :=
  if base = [] ∨ base.getLast? = some slash then base ++ name else base ++ slash :: name

/-- What the host reports of an object that is not followed further. -/
def Node.entry (name : String) : Node → Entry
  | .file data modified => ⟨name, data.length, false, modified⟩
  | .directory _ size modified => ⟨name, size, true, modified⟩
  | .link target modified => ⟨name, target.length, false, modified⟩

/-- The listing of a directory's entries: those whose names are texts, sorted by
name. -/
def listingOf (entries : List (FileName × Node)) : Listing :=
  Listing.sorted (entries.filterMap fun (name, node) => (Text.ofBytes? name).map node.entry)

/-- A host error as a store's failure: what is not there is simply not found. -/
def failureOf (error : IoError) : Failure :=
  if error = .notFound then .notFound else .io error

/-- A store that serves a directory of the host. -/
structure LocalStore where
  host : Machine
  root : HostPath

namespace LocalStore

/-- The host path of a path below the root, or the first component that is not
acceptable. -/
def hostPath (root : HostPath) (path : Path) : Except Failure HostPath :=
  path.foldlM (fun base component =>
    match plainName? component with
    | some name => .ok (joinName base name)
    | none => .error (.invalidPath component)) root

/-- The place of a path below the root. -/
def locate (store : LocalStore) (path : Path) : Except Failure Place := do
  let absolute ← hostPath store.root path
  match find store.host.current absolute with
  | .ok place => .ok place
  | .error error => .error (failureOf error)

/-- What is at a path; its name is the last component as it was given. -/
def stat (store : LocalStore) (path : Path) : Except Failure Entry := do
  let place ← store.locate path
  return place.node.entry (path.getLast?.getD "")

/-- The listing of the directory at a path. -/
def readDir (store : LocalStore) (path : Path) : Except Failure Listing := do
  let place ← store.locate path
  match place.node with
  | .directory entries _ _ => .ok (listingOf entries)
  | _ => .error (.io .notDirectory)

/-- The store as a backend. -/
def backend (store : LocalStore) : Backend where
  stat := store.stat
  readDir := store.readDir

/-- How full the file system below the root is.  Here a root that does not exist is
a host error like any other, and a NUL byte in its name a bad argument. -/
def usage (store : LocalStore) : Except Failure Usage :=
  match find store.host.current store.root with
  | .ok _ => .ok store.host.volume.usage
  | .error error => .error (.io (if error = .nulInName then .invalidArgument else error))

end LocalStore

/-- An export of one store: its name, and what the host says of the file system on
which the store lies. -/
structure LocalExport where
  name : String
  usage : Except Failure Usage

/-- A name without the slashes at its end. -/
def trimSlashes (name : String) : String :=
  String.ofList (name.toList.reverse.dropWhile (· == '/')).reverse

namespace LocalExport

/-- Whether a request names this export; slashes at the end do not count. -/
def answersTo (served : LocalExport) (request : String) : Bool :=
  trimSlashes request == trimSlashes served.name

/-- The export as a service, its store known as `store`. -/
def service {ι σ : Type} (served : LocalExport) (store : σ) : ExportService ι σ where
  mount request state :=
    (if served.answersTo request then .ok store else .error .notFound, state)
  usage _ _ state := (served.usage, state)

end LocalExport

end HandleTable.Host
