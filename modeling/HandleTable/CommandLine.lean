import HandleTable.Text.Number

/-!
# The command line

The program takes an optional configuration file and one command, `walk`, with
the directory to export and two options of its own.  Arguments are read from
left to right and the first one that decides ends the reading: a request for
the version or for help, or a mistake.  After `--` everything is positional.  A
value may stand in the argument after its option, unless that looks like an
option itself, or in the same argument.
-/

namespace HandleTable.CommandLine

/-- What a walk is asked to do. -/
structure Walk where
  root : String
  depth : Nat
  pageSize : Nat
deriving DecidableEq, Repr

/-- What the arguments ask for. -/
inductive Request where
  | walk (configPath : Option String) (walk : Walk)
  | version
  | help
  | misuse
deriving DecidableEq, Repr

/-- How deep a walk goes where nothing is said. -/
def defaultDepth : Nat := 3

/-- How many entries a page has where nothing is said. -/
def defaultPageSize : Nat := 32

/-- The greatest depth, a number of sixty-four bits. -/
def greatestDepth : Nat := 0xffffffffffffffff

/-- The greatest number of entries of a page, a number of thirty-two bits. -/
def greatestPageSize : Nat := 0xffffffff

/-- An argument that starts with a dash and is not a dash alone. -/
def isOption (argument : String) : Bool :=
  match argument.toList with
  | '-' :: _ :: _ => true
  | _ => false

/-- The value in the same argument as an option, after an equals sign. -/
def attached? (option argument : String) : Option String :=
  let front := option.toList ++ ['=']
  if front.isPrefixOf argument.toList then
    some (String.ofList (argument.toList.drop front.length))
  else none

/-- A file name; the empty one is none. -/
def fileName? (value : String) : Option String :=
  if value = "" then none else some value

/-- The value of a short option in the same argument, perhaps after an equals sign. -/
def shortValue (rest : List Char) : String :=
  match rest with
  | '=' :: value => String.ofList value
  | value => String.ofList value

/-- What has been read of the arguments of a walk. -/
structure WalkDraft where
  root : Option String
  depth : Option Nat
  pageSize : Option Nat

namespace WalkDraft

/-- The draft before the first argument. -/
def empty : WalkDraft := ⟨none, none, none⟩

/-- Takes a positional argument, of which there is one. -/
def takeRoot (draft : WalkDraft) (value : String) : Option WalkDraft :=
  if draft.root.isSome then none
  else (fileName? value).map fun root => { draft with root := some root }

/-- Takes the depth, which is given at most once. -/
def takeDepth (draft : WalkDraft) (value : String) : Option WalkDraft :=
  if draft.depth.isSome then none
  else (Text.unsignedUpTo? greatestDepth value).map fun depth => { draft with depth := some depth }

/-- Takes the page size, which is given at most once and is at least one. -/
def takePageSize (draft : WalkDraft) (value : String) : Option WalkDraft :=
  if draft.pageSize.isSome then none
  else ((Text.unsignedUpTo? greatestPageSize value).filter (1 ≤ ·)).map fun size =>
    { draft with pageSize := some size }

/-- The walk that a complete draft describes. -/
def finish? (draft : WalkDraft) : Option Walk :=
  draft.root.map fun root =>
    ⟨root, draft.depth.getD defaultDepth, draft.pageSize.getD defaultPageSize⟩

end WalkDraft

/-- How reading the arguments of a walk ended. -/
inductive WalkReading where
  | complete (walk : Walk)
  | help
  | misuse

/-- Goes on with a draft that took an argument, or reports a misuse. -/
def WalkReading.continueWith (next : WalkDraft → WalkReading) : Option WalkDraft → WalkReading
  | some draft => next draft
  | none => .misuse

/-- Reads the positional arguments after `--`. -/
def readPositional (draft : WalkDraft) : List String → WalkReading
  | [] =>
    match draft.finish? with
    | some walk => .complete walk
    | none => .misuse
  | argument :: rest =>
    .continueWith (fun draft => readPositional draft rest) (draft.takeRoot argument)

/-- Reads the arguments of a walk. -/
def readWalk (draft : WalkDraft) : List String → WalkReading
  | [] =>
    match draft.finish? with
    | some walk => .complete walk
    | none => .misuse
  | "--" :: rest => readPositional draft rest
  | "--help" :: _ => .help
  | "--depth" :: value :: rest =>
    if isOption value then .misuse
    else .continueWith (fun draft => readWalk draft rest) (draft.takeDepth value)
  | "--page-size" :: value :: rest =>
    if isOption value then .misuse
    else .continueWith (fun draft => readWalk draft rest) (draft.takePageSize value)
  | argument :: rest =>
    match attached? "--depth" argument, attached? "--page-size" argument with
    | some value, _ => .continueWith (fun draft => readWalk draft rest) (draft.takeDepth value)
    | _, some value =>
      .continueWith (fun draft => readWalk draft rest) (draft.takePageSize value)
    | none, none =>
      if isOption argument then
        if ['-', 'h'].isPrefixOf argument.toList then .help else .misuse
      else .continueWith (fun draft => readWalk draft rest) (draft.takeRoot argument)

/-- Reads the arguments after the name of the command that gives help: none, or the name of
one command.  No command has commands of its own, so nothing may follow. -/
def readHelp : List String → Request
  | [] => .help
  | [topic] => if topic = "walk" ∨ topic = "help" then .help else .misuse
  | _ => .misuse

/-- Reads the arguments of the program, given the configuration file named so far. -/
def read (configPath : Option String) : List String → Request
  | [] => .misuse
  | "--version" :: _ => .version
  | "--help" :: _ => .help
  | "help" :: rest => readHelp rest
  | "walk" :: rest =>
    match readWalk .empty rest with
    | .complete walk => .walk configPath walk
    | .help => .help
    | .misuse => .misuse
  | "--config-path" :: value :: rest =>
    if isOption value ∨ value = "" ∨ configPath.isSome then .misuse else read (some value) rest
  | "-c" :: value :: rest =>
    if isOption value ∨ value = "" ∨ configPath.isSome then .misuse else read (some value) rest
  | argument :: rest =>
    match attached? "--config-path" argument, argument.toList with
    | some value, _ => if value = "" ∨ configPath.isSome then .misuse else read (some value) rest
    | none, '-' :: 'c' :: value =>
      if shortValue value = "" ∨ configPath.isSome then .misuse
      else read (some (shortValue value)) rest
    | none, '-' :: 'V' :: _ => .version
    | none, '-' :: 'h' :: _ => .help
    | none, _ => .misuse

/-- What the arguments of the program ask for. -/
def parse (arguments : List String) : Request :=
  read none arguments

end HandleTable.CommandLine
