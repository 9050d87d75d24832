import HandleTable.Host.IoError
import HandleTable.Text.Bytes
import HandleTable.Text.Segments

/-!
# The tree of a host

A host holds files, directories and symbolic links.  Names and paths are bytes,
which need not be the bytes of a text.  A path is followed name by name: `.` stays,
`..` goes to the parent, and a link is replaced by its target, read from the
directory that holds the link or, if it starts with a slash, from the top.  At
most forty links are followed on the way.
-/

namespace HandleTable.Host

/-- A name in a directory. -/
abbrev FileName := List UInt8

/-- A path as the host takes it. -/
abbrev HostPath := List UInt8

/-- A text stands for the path with its bytes. -/
instance : Coe String HostPath := ⟨Text.bytes⟩

/-- An object of the host.  A directory lists its objects in the order in which the
host enumerates them. -/
inductive Node where
  | file (data : List UInt8) (modified : Int)
  | directory (entries : List (FileName × Node)) (size : Nat) (modified : Int)
  | link (target : List UInt8) (modified : Int)

/-- A step down the tree: a directory and the name that was taken in it. -/
structure Descent where
  directory : Node
  name : FileName

/-- An object together with the way to it, the last step first. -/
structure Place where
  node : Node
  above : List Descent

namespace Place

/-- The parent of a place; the top is its own. -/
def parent (place : Place) : Place :=
  match place.above with
  | [] => place
  | step :: above => ⟨step.directory, above⟩

/-- The top of the tree. -/
def top (place : Place) : Place :=
  match place.above.getLast? with
  | none => place
  | some step => ⟨step.directory, []⟩

/-- The place of an object in the directory at a place. -/
def enter (place : Place) (name : FileName) (node : Node) : Place :=
  ⟨node, ⟨place.node, name⟩ :: place.above⟩

/-- The names that lead from the top to a place. -/
def location (place : Place) : List FileName :=
  (place.above.map Descent.name).reverse

end Place

/-- The byte between the names of a path. -/
def slash : UInt8 := 47

/-- The name of the directory itself. -/
def dot : FileName := [46]

/-- The name of the parent. -/
def dotDot : FileName := [46, 46]

/-- How many links are followed on the way to an object. -/
def maxLinks : Nat := 40

/-- The length of the longest name. -/
def maxName : Nat := 255

/-- The length of the longest path. -/
def maxPath : Nat := 4095

/-- Follows names from a place up to the first link.  Every step, also one that stays,
needs a directory to start from.  At a link `atLink` goes on from where its target
is read, with the names of the target and those that were left. -/
def descend (atLink : Place → List FileName → Except IoError Place) :
    Place → List FileName → Except IoError Place
  | here, [] => .ok here
  | here, name :: rest =>
    match here.node with
    | .file .. => .error .notDirectory
    | .link .. => .error .notDirectory
    | .directory entries _ _ =>
      if name = [] ∨ name = dot then descend atLink here rest
      else if name = dotDot then descend atLink here.parent rest
      else if maxName < name.length then .error .nameTooLong
      else
        match entries.lookup name with
        | none => .error .notFound
        | some (.link target _) =>
          atLink (if target.head? = some slash then here.top else here)
            (Text.segments slash target ++ rest)
        | some node => descend atLink (here.enter name node) rest

/-- Follows names from a place, and at most `links` links on the way. -/
def follow : (links : Nat) → Place → List FileName → Except IoError Place
  | 0 => descend fun _ _ => .error .tooManyLinks
  | links + 1 => descend (follow links)

/-- The object that a path names, seen from the current directory. -/
def find (current : Place) (path : HostPath) : Except IoError Place :=
  if path.contains 0 then .error .nulInName
  else if path.isEmpty then .error .notFound
  else if maxPath < path.length then .error .nameTooLong
  else
    let start := if path.head? = some slash then current.top else current
    follow maxLinks start (Text.segments slash path)

/-- The contents of the file that a path names. -/
def contentsOf (current : Place) (path : HostPath) : Except IoError (List UInt8) :=
  match find current path with
  | .error error => .error error
  | .ok place =>
    match place.node with
    | .file data _ => .ok data
    | .directory .. => .error .isDirectory
    | .link .. => .error .notFound

end HandleTable.Host
