import HandleTable.Log.Directive

/-!
# Filters of log events

A filter is a list of directives with commas between them.  An event passes
when, of the directives that speak about it, the most specific one has its level
or a more talkative one.

Directives that name a span, or the value of a field, only speak about events
inside spans.
-/

namespace HandleTable.Log

/-- An event as a filter sees it. -/
structure Subject where
  level : Level
  target : String
  fields : List String

/-- Whether a directive speaks about an event: its target begins the event's, and the
event has its field. -/
def Directive.concerns (directive : Directive) (subject : Subject) : Bool :=
  directive.isStatic &&
    (directive.target.all fun target => target.toList.isPrefixOf subject.target.toList) &&
    directive.field.all fun field => subject.fields.contains field.name

/-- The directives of a filter in the order in which they were given. -/
abbrev Filter := List Directive

namespace Filter

/-- Reads a filter up to the first fault; empty directives do not count. -/
def read (text : String) : Except Fault Filter :=
  ((Text.segments ',' text.toList).filter fun piece => !piece.isEmpty).mapM Directive.read

/-- The more specific of two directives; of two equally specific ones the later. -/
def preferred (earlier later : Directive) : Directive :=
  if later.isLessSpecific earlier then earlier else later

/-- The directive that decides about an event. -/
def deciding? (filter : Filter) (subject : Subject) : Option Directive :=
  match filter.filter fun directive => directive.concerns subject with
  | [] => none
  | first :: others => some (others.foldl preferred first)

/-- Whether an event is shown. -/
def admits (filter : Filter) (subject : Subject) : Bool :=
  (filter.deciding? subject).any fun directive => subject.level.rank ≤ directive.level.rank

/-- The filter where none is given. -/
def standard : Filter :=
  [⟨.info, none, none, none⟩]

/-- The filter that settings choose: the first that is given and has the form of a filter,
else the standard one.  A setting with a part that is none stops the search. -/
def choose : List (Option String) → Except Fault Filter
  | [] => .ok standard
  | none :: others => choose others
  | some text :: others =>
    match read text with
    | .ok filter => .ok filter
    | .error .malformed => choose others
    | .error .splitCharacter => .error .splitCharacter

end Filter

end HandleTable.Log
