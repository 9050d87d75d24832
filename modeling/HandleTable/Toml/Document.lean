import HandleTable.Toml.Literal

/-!
# Documents

A document is read line by line: blank lines and comments, keys with values,
and headers, each of which ends the section before it.  Keys and values go to
the section that is open; at the start this is the document itself.
-/

namespace HandleTable.Toml

/-- The section that is open. -/
inductive Section where
  | top
  | table (path : List Key) (start : Mark)
  | element (path : List Key) (start : Mark)

/-- A document as far as it has been read: what earlier sections have put in place,
and the open section with its entries. -/
structure Draft where
  placed : Entries
  current : Section
  entries : Entries

namespace Draft

/-- The draft before the first line. -/
def empty : Draft := ⟨[], .top, []⟩

/-- What is in place once the open section ends. -/
def close (draft : Draft) : Option Entries :=
  match draft.current with
  | .top => some draft.entries
  | .table path start => draft.placed.closeTable path start draft.entries
  | .element path start => draft.placed.closeElement path start draft.entries

/-- Ends the open section and opens that of a table. -/
def openTable (draft : Draft) (path : List Key) (start : Mark) : Option Draft := do
  let placed ← draft.close
  let (entries, placed) ← placed.openTable path
  return ⟨placed, .table path start, entries⟩

/-- Ends the open section and opens that of a further element of an array. -/
def openElement (draft : Draft) (path : List Key) (start : Mark) : Option Draft := do
  let placed ← draft.close
  return ⟨placed, .element path start, []⟩

/-- Adds a value to the open section. -/
def define (draft : Draft) (path : List Key) (value : Value) (start : Mark) : Option Draft := do
  let entries ← draft.entries.define path (.value value start)
  return { draft with entries := entries }

end Draft

/-- Reads one expression from its first character to the end of its line. -/
def expression (draft : Draft) (text : List Char) : Option (Draft × List Char) :=
  match text with
  | '[' :: '[' :: rest => do
    let (path, rest) ← keyPath rest
    let rest ← restOfLine? (← word? [']', ']'] rest)
    let draft ← draft.openElement path text
    return (draft, rest)
  | '[' :: rest => do
    let (path, rest) ← keyPath rest
    let rest ← restOfLine? (← after? ']' rest)
    let draft ← draft.openTable path text
    return (draft, rest)
  | _ => do
    let (path, rest) ← keyPath text
    let start := skipBlanks (← after? '=' rest)
    let (value, rest) ← literal start
    let rest ← restOfLine? rest
    let draft ← draft.define path value start
    return (draft, rest)

/-- Reads the lines of a document.  Each round takes at least one character, so one
more than the length of the text is a sufficient `bound`. -/
def lines : (bound : Nat) → Draft → List Char → Option Draft
  | 0, _, _ => none
  | bound + 1, draft, text =>
    match skipBlanks text with
    | [] => some draft
    | '#' :: comment => do
      let rest ← lineEnd? (comment.dropWhile isPlain)
      lines bound draft rest
    | start =>
      match newline? start with
      | some rest => lines bound draft rest
      | none => do
        let (draft, rest) ← expression draft start
        lines bound draft rest

/-- The value that an item has for a configuration, and where it starts.  A table
without a header of its own starts with its key. -/
def Item.shape (key : Key) : Item → Value × Mark
  | .value found start => (found, start)
  | .table _ start _ => (.table, start.getD key.start)
  | .tables start _ => (.array, start)

/-- The top-level settings of a document, in document order, or nothing when the
text is not TOML.  A byte order mark in front is skipped. -/
def settings? (text : String) : Option (List Setting) := do
  let all := text.toList
  let body := match all with
    | '\ufeff' :: rest => rest
    | text => text
  let draft ← lines (body.length + 1) .empty body
  let entries ← draft.close
  return entries.map fun (key, item) =>
    { key := key.name
      keyAt := key.start.position all
      value := (item.shape key).1
      valueAt := (item.shape key).2.position all }

end HandleTable.Toml
