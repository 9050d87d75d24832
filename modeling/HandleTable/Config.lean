import HandleTable.Host.IoError
import HandleTable.Recency
import HandleTable.Text.Bytes
import HandleTable.Text.Quoted
import HandleTable.Decimal.Shortest
import HandleTable.Toml.Document

/-!
# Configuration

A configuration says how many handles and how many listings are kept.  It is
written in TOML, as `handle-limit` and, if it is set, `verifier-limit`.  Any
other key and any value but an integer that is not negative is refused, and the
first such key in document order is the one that is reported.  A limit of zero
has the right shape but is refused by the validation that follows.

The writer `text?` is an assumption about the serializer of such documents; the
reader is described in full.
-/

namespace HandleTable

/-- How many handles and how many listings are kept.  Without a limit of their own
the listings have that of the handles. -/
structure Config where
  handleLimit : Nat
  verifierLimit : Option Nat
deriving DecidableEq, Repr

/-- A limit with which a table could hold nothing. -/
inductive LimitFault where
  | handleLimit
  | verifierLimit
deriving DecidableEq, Repr

/-- What is wrong with the shape of a document. -/
inductive ShapeFault where
  | unknownKey (key : String)
  | wrongKind (value : Toml.Value)
deriving DecidableEq, Repr

/-- Why a configuration could not be loaded. -/
inductive ConfigError where
  | limits (faults : List LimitFault)
  | notToml
  | shape (fault : ShapeFault) (place : Toml.Position)
  | unreadable (error : Host.IoError)
deriving DecidableEq, Repr

/-- The text of a limit that is zero. -/
def LimitFault.message : LimitFault → String
  | handleLimit => "handle-limit must be at least 1."
  | verifierLimit => "verifier-limit must be at least 1."

/-- A value as the text of an error names it, where a limit was wanted. -/
def Toml.Value.mismatch : Toml.Value → String
  | string text => "invalid type: string " ++ Text.quoted text ++ ", expected usize"
  | integer number => "invalid value: integer `" ++ toString number ++ "`, expected usize"
  | float number => "invalid type: floating point `" ++ number.text ++ "`, expected usize"
  | boolean truth => "invalid type: boolean `" ++ toString truth ++ "`, expected usize"
  | array => "invalid type: sequence, expected usize"
  | dateTime => "invalid type: map, expected usize"
  | table => "invalid type: map, expected usize"

/-- The text of a wrong shape. -/
def ShapeFault.message : ShapeFault → String
  | unknownKey key => "unknown field `" ++ key ++ "`, expected `handle-limit` or `verifier-limit`"
  | wrongKind value => value.mismatch

/-- The text of a configuration that could not be loaded. -/
def ConfigError.message : ConfigError → String
  | limits faults =>
    "Configuration validation errors: " ++ Text.quotedList (faults.map LimitFault.message)
  | notToml => "Deserialization error: TOML parse error\n"
  | shape fault place =>
    "Deserialization error: TOML parse error at line " ++ toString place.line ++ ", column "
      ++ toString place.column ++ "\n" ++ fault.message ++ "\n"
  | unreadable error => "I/O error: " ++ error.message

namespace Config

/-- The limit of handles where none is set. -/
def defaultHandleLimit : Nat := 1024

/-- The configuration of an empty document. -/
def default : Config := ⟨defaultHandleLimit, none⟩

/-- The limits with which a table could hold nothing, that of the handles first. -/
def faults (config : Config) : List LimitFault :=
  (if config.handleLimit = 0 then [.handleLimit] else []) ++
    (if config.verifierLimit = some 0 then [.verifierLimit] else [])

/-- The capacity of the table of handles; zero is raised to one. -/
def handleCapacity (config : Config) : Capacity :=
  .ofLimit config.handleLimit

/-- The capacity of the table of listings: that of the handles where no limit is set;
zero is raised to one. -/
def verifierCapacity (config : Config) : Capacity :=
  match config.verifierLimit with
  | none => config.handleCapacity
  | some limit => .ofLimit limit

/-- A value as a limit, if it is one. -/
def limit? : Toml.Value → Option Nat
  | .integer number => if 0 ≤ number then some number.toNat else none
  | _ => none

/-- The configuration with one more setting taken into account. -/
def withSetting (config : Config) (setting : Toml.Setting) : Except ConfigError Config :=
  if setting.key = "handle-limit" then
    match limit? setting.value with
    | some limit => .ok { config with handleLimit := limit }
    | none => .error (.shape (.wrongKind setting.value) setting.valueAt)
  else if setting.key = "verifier-limit" then
    match limit? setting.value with
    | some limit => .ok { config with verifierLimit := some limit }
    | none => .error (.shape (.wrongKind setting.value) setting.valueAt)
  else .error (.shape (.unknownKey setting.key) setting.keyAt)

/-- The configuration that passes validation. -/
def validated (config : Config) : Except ConfigError Config :=
  if config.faults.isEmpty then .ok config else .error (.limits config.faults)

/-- The configuration that a document of settings describes. -/
def ofSettings (settings : List Toml.Setting) : Except ConfigError Config := do
  let config ← settings.foldlM withSetting default
  config.validated

/-- The configuration that a text describes. -/
def ofText (text : String) : Except ConfigError Config :=
  match Toml.settings? text with
  | none => .error .notToml
  | some settings => ofSettings settings

/-- The configuration in a file, given what reading the file came to. -/
def ofFile (contents : Except Host.IoError (List UInt8)) : Except ConfigError Config :=
  match contents with
  | .error error => .error (.unreadable error)
  | .ok bytes =>
    match Text.ofBytes? bytes with
    | none => .error (.unreadable .notUtf8)
    | some text => ofText text

/-- A limit as a line of TOML, if it is not beyond its integers: the line that the writer
of configurations is assumed to make of it. -/
def line? (key : String) (limit : Nat) : Option String :=
  if limit ≤ Toml.greatestInteger then some (key ++ " = " ++ toString limit ++ "\n") else none

/-- The configuration as TOML text, with a line for each limit that is set.  This is the
assumed writer: it stands for the serializer, which is not described here, and says what
is relied on of it. -/
def text? (config : Config) : Option String := do
  let first ← line? "handle-limit" config.handleLimit
  let second ← match config.verifierLimit with
    | none => some ""
    | some limit => line? "verifier-limit" limit
  return first ++ second

end Config

end HandleTable
