import HandleTable.Log.Level
import HandleTable.Log.Pattern
import HandleTable.Text.Extract
import HandleTable.Text.Segments

/-!
# Directives of a log filter

A directive is a level, a target, or a target with a level after `=`; a target
without a level means all levels.  Between target and level there may be a span
in brackets, with a field in braces, and the field may have a value after `=`: a
number, a truth value or a pattern.

The form of a directive is that of its text without the white space at its ends,
and so are the places where its parts start and stop.  The parts themselves are
taken from the whole text at those places: white space in front shifts them, and
white space behind belongs to the last of them.  Where a shifted place falls
into the middle of a character, there is no such part.
-/

namespace HandleTable.Log

/-- Why a text is no filter: it does not have the form of one, or a part of it would start
or stop inside a character. -/
inductive Fault where
  | malformed
  | splitCharacter
deriving DecidableEq, Repr

/-- A field of an event, and the value that it should have. -/
structure Field where
  name : String
  value : Option String
deriving DecidableEq, Repr

/-- Whether a text is the value of a field.  The truth values are patterns too. -/
def Field.isValue (text : List Char) : Bool :=
  Text.isNumber text || Pattern.isPattern text

/-- Reads a field; what follows a second equals sign does not count. -/
def Field.read (text : List Char) : Except Fault Field :=
  match text, Text.segments '=' text with
  | [], _ => .error .malformed
  | _, name :: value :: _ =>
    if isValue value then .ok ⟨String.ofList name, some (String.ofList value)⟩
    else .error .malformed
  | _, _ => .ok ⟨String.ofList text, none⟩

/-- One rule of a filter. -/
structure Directive where
  level : Level
  target : Option String
  span : Option String
  field : Option Field
deriving DecidableEq, Repr

namespace Directive

/-- The part of a directive that is being read, with the place where it starts.  The head
is a target or a level, and starts at the beginning. -/
inductive Part where
  | nothing
  | head
  | span (start : Nat)
  | field (start : Nat)
  | afterField
  | afterSpan
  | level (start : Nat)
deriving DecidableEq, Repr

/-- A directive being read: its parts so far, the part that is being read, and the place
reached. -/
structure Draft where
  directive : Directive
  part : Part
  place : Nat
deriving DecidableEq, Repr

/-- The draft before the first character: everything is shown. -/
def Draft.empty : Draft := ⟨⟨.trace, none, none, none⟩, .nothing, 0⟩

/-- The part of a text between two places. -/
def partBetween (text : List Char) (start stop : Nat) : Except Fault (List Char) :=
  match Text.extract? start stop text with
  | some part => .ok part
  | none => .error .splitCharacter

/-- The part of a text from a place on. -/
def partFrom (text : List Char) (start : Nat) : Except Fault (List Char) :=
  match Text.dropBytes? start text with
  | some part => .ok part
  | none => .error .splitCharacter

/-- Whether the head of a directive may start with a character. -/
def isFirst (c : Char) : Bool :=
  c == '-' || c == ':' || c == '_' || Text.isLetterOrNumber c

/-- What a character at the place reached makes of a draft. -/
def Draft.turn (text : List Char) (draft : Draft) (c : Char) :
    Except Fault (Directive × Part) := do
  let directive := draft.directive
  let next := draft.place + c.utf8Size
  match draft.part, c with
  | .nothing, '[' => return (directive, .span next)
  | .nothing, c => if isFirst c then return (directive, .head) else throw .malformed
  | .head, '=' =>
    let target ← partBetween text 0 draft.place
    return ({ directive with target := some (String.ofList target) }, .level next)
  | .head, '[' =>
    let target ← partBetween text 0 draft.place
    return ({ directive with target := some (String.ofList target) }, .span next)
  | .span start, ']' =>
    let span ← partBetween text start draft.place
    return ({ directive with span := some (String.ofList span) }, .afterSpan)
  | .span start, '\x7b' =>
    let span ← partBetween text start draft.place
    let name := if span.isEmpty then none else some (String.ofList span)
    return ({ directive with span := name }, .field next)
  | .field start, '\x7d' =>
    let field ← Field.read (← partBetween text start draft.place)
    return ({ directive with field := some field }, .afterField)
  | .afterField, ']' => return (directive, .afterSpan)
  | .afterField, _ => throw .malformed
  | .afterSpan, '=' => return (directive, .level next)
  | .afterSpan, _ => throw .malformed
  | part, _ => return (directive, part)

/-- Takes a character. -/
def Draft.take (text : List Char) (draft : Draft) (c : Char) : Except Fault Draft := do
  let (directive, part) ← draft.turn text c
  return ⟨directive, part, draft.place + c.utf8Size⟩

/-- The directive that a draft has become at the end of its text. -/
def Draft.finish (text : List Char) (draft : Draft) : Except Fault Directive := do
  let directive := draft.directive
  match draft.part with
  | .head =>
    let head := String.ofList text
    match Level.read? head with
    | some level => return { directive with level := level }
    | none => return { directive with target := some head }
  | .level start =>
    let level ← partFrom text start
    if level.isEmpty then return directive
    match Level.read? (String.ofList level) with
    | some level => return { directive with level := level }
    | none => throw .malformed
  | .afterSpan => return directive
  | _ => throw .malformed

/-- Reads a directive. -/
def read (text : List Char) : Except Fault Directive := do
  let draft ← (Text.trimmed text).foldlM (Draft.take text) .empty
  draft.finish text

/-- Whether a directive speaks about events outside of spans. -/
def isStatic (directive : Directive) : Bool :=
  directive.span.isNone && directive.field.all fun field => field.value.isNone

/-- How long the target of a directive is in bytes; no target is shorter than any. -/
def targetSize (directive : Directive) : Nat :=
  (directive.target.map fun target => target.utf8ByteSize + 1).getD 0

/-- Whether a directive is less specific than another: its target is shorter, or they have
one target and its field comes first in the order of names, where no field comes before
any. -/
def isLessSpecific (first second : Directive) : Bool :=
  first.targetSize < second.targetSize ||
    (first.targetSize == second.targetSize &&
      match first.field, second.field with
      | none, some _ => true
      | some first, some second => first.name < second.name
      | _, none => false)

end Directive

end HandleTable.Log
