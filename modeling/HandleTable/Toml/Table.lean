import HandleTable.Toml.Key

/-!
# Tables under construction

A table comes into being in one of three ways: by its own header or braces, as
a step of the path in another header, or as a step of a path of keys.  This
decides who may still add to it.  A path of keys only leads through tables that
came into being as steps, and only adds to a table that came into being as a
step of such a path; a header only opens a table that so far was a step of
other headers.  A name is never given twice, and a value is never extended.

A table that headers open repeatedly is an array of tables, and further keys go
to its last element.
-/

namespace HandleTable.Toml

/-- How a table came into being. -/
inductive Origin where
  | defined
  | headerStep
  | keyStep
deriving DecidableEq, Repr

/-- What a key stands for while a document is read: a finished value, a table, or
an array of tables with the entries of its last element.  A table without a
header has no place of its own. -/
inductive Item where
  | value (value : Value) (start : Mark)
  | table (origin : Origin) (start : Option Mark) (entries : List (Key × Item))
  | tables (start : Mark) (last : List (Key × Item))

/-- Keys with what they stand for, in document order. -/
abbrev Entries := List (Key × Item)

namespace Entries

/-- What a name stands for. -/
def item? (entries : Entries) (name : String) : Option Item :=
  (List.find? (fun entry => entry.1.name == name) entries).map Prod.snd

/-- The entries in which a name stands for another item; a name that is new comes
last. -/
def put (entries : Entries) (key : Key) (item : Item) : Entries :=
  if (entries.item? key.name).isSome then
    entries.map fun entry => if entry.1.name == key.name then (entry.1, item) else entry
  else entries ++ [(key, item)]

/-- The entries without a name. -/
def drop (entries : Entries) (name : String) : Entries :=
  entries.filter fun entry => !(entry.1.name == name)

/-- Follows a path of keys from a table and changes the table at its end.  Steps
that do not exist yet come into being as `step`. -/
def alter {α : Type} (step : Origin) (change : Origin → Entries → Option (α × Entries)) :
    List Key → Origin → Entries → Option (α × Entries)
  | [], origin, entries => change origin entries
  | key :: path, _, entries => do
    match entries.item? key.name with
    | none => do
      let (result, inner) ← alter step change path step []
      return (result, entries.put key (.table step none inner))
    | some (.value _ _) => none
    | some (.tables start last) => do
      let (result, inner) ← alter step change path .defined last
      return (result, entries.put key (.tables start inner))
    | some (.table origin start inner) => do
      guard !(step == .keyStep && origin == .defined)
      let (result, inner) ← alter step change path origin inner
      return (result, entries.put key (.table origin start inner))

/-- Gives the key at the end of a path a value. -/
def define (entries : Entries) (path : List Key) (item : Item) : Option Entries := do
  let key ← path.getLast?
  let steps := path.dropLast
  let (_, entries) ← alter .keyStep (fun origin inner => do
    guard ((origin == .keyStep) != steps.isEmpty)
    guard (inner.item? key.name).isNone
    return ((), inner ++ [(key, item)])) steps .defined entries
  return entries

/-- Opens the table of a header: it must be new or so far only a step of other
headers, whose entries it takes over.  The table itself is put in place when its
section ends. -/
def openTable (entries : Entries) (path : List Key) : Option (Entries × Entries) := do
  let key ← path.getLast?
  alter .headerStep (fun _ inner =>
    match inner.item? key.name with
    | none => some ([], inner)
    | some (.table .headerStep _ taken) => some (taken, inner.drop key.name)
    | some _ => none) path.dropLast .defined entries

/-- Puts the table of a header in place at the end of its section. -/
def closeTable (entries : Entries) (path : List Key) (start : Mark) (body : Entries) :
    Option Entries := do
  let key ← path.getLast?
  let (_, entries) ← alter .headerStep (fun _ inner => do
    guard (inner.item? key.name).isNone
    return ((), inner ++ [(key, .table .defined (some start) body)])) path.dropLast
    .defined entries
  return entries

/-- Adds an element to an array of tables at the end of its section. -/
def closeElement (entries : Entries) (path : List Key) (start : Mark) (body : Entries) :
    Option Entries := do
  let key ← path.getLast?
  let (_, entries) ← alter .headerStep (fun _ inner =>
    match inner.item? key.name with
    | none => some ((), inner ++ [(key, .tables start body)])
    | some (.tables first _) => some ((), inner.put key (.tables first body))
    | some _ => none) path.dropLast .defined entries
  return entries

end Entries

end HandleTable.Toml
