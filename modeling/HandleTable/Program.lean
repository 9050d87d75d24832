import HandleTable.CommandLine
import HandleTable.Host.LocalStore
import HandleTable.Log.Filter
import HandleTable.Walk

/-!
# The program

The program loads its configuration, walks a directory of the host through both
tables, and prints a report on what they hold afterwards.  How a run ends is a
value of its own, from which follow the exit code, the output, and the one line
that the run has for the log.

The log is set up after the arguments are read and before anything else is done.
A run breaks off there when the setting of its filter cannot be taken apart.
-/

namespace HandleTable

/-- How a run of the program ends. -/
inductive Outcome where
  | misuse
  | help
  | version
  | brokenOff
  | configFailed (error : ConfigError)
  | walkFailed (failure : Failure)
  | walked (totals : Walk.Totals) (report : Report)

/-- A line for the log, and the names of the fields that it carries. -/
structure LogLine where
  level : Log.Level
  text : String
  fields : List String

namespace Outcome

/-- The exit code: two for misuse, one for a failure, and one of its own for a run that
broke off. -/
def exitCode : Outcome → Nat
  | misuse => 2
  | help => 0
  | version => 0
  | brokenOff => 101
  | configFailed _ => 1
  | walkFailed _ => 1
  | walked _ _ => 0

/-- The line that names the program and its version. -/
def versionText : String := "nfs-handle-cache 0.1.0\n"

/-- How the program is used. -/
def helpText : String :=
  "Opaque file handle and cookie-verifier cache for NFS servers.\n\n" ++
  "Usage: nfs-handle-cache [OPTIONS] <COMMAND>\n\n" ++
  "Commands:\n" ++
  "  walk  Walk a directory through the caches and print what they hold afterwards\n\n" ++
  "Options:\n" ++
  "  -c, --config-path <CONFIG_PATH>  Optional path to a cache config TOML.\n" ++
  "  -h, --help                       Print help\n" ++
  "  -V, --version                    Print version\n"

/-- What is printed, where `name` says how a handle is written. -/
def output (name : Handle → String) : Outcome → String
  | misuse => ""
  | help => helpText
  | version => versionText
  | brokenOff => ""
  | configFailed _ => ""
  | walkFailed _ => ""
  | walked _ report => report.textWith name

/-- The counts of a walk, each with its name. -/
def totalsFields (totals : Walk.Totals) : List (String × Nat) :=
  [("directories", totals.directories), ("entries", totals.entries), ("pages", totals.pages),
   ("stale_handles", totals.staleHandles), ("restarts", totals.restarts)]

/-- The counts of a walk as they stand in the log. -/
def totalsText (totals : Walk.Totals) : String :=
  " ".intercalate ((totalsFields totals).map fun field => field.1 ++ "=" ++ toString field.2)

/-- The totals that a run reports to the log. -/
def totals? : Outcome → Option LogLine
  | walked totals _ =>
    some ⟨.info, totalsText totals, (totalsFields totals).map Prod.fst⟩
  | _ => none

/-- The error that a run reports to the log. -/
def error? : Outcome → Option LogLine
  | configFailed error => some ⟨.error, "Failed to load configuration: " ++ error.message, []⟩
  | walkFailed failure => some ⟨.error, "Walk failed: " ++ failure.message, []⟩
  | _ => none

end Outcome

/-- The part of the program from which its log lines come. -/
def logTarget : String := "nfs_handle_cache"

/-- The text of a line, if the filter of the log shows it. -/
def LogLine.shown (log : Except Log.Fault Log.Filter) (line : LogLine) : Option String :=
  match log with
  | .ok filter =>
    if filter.admits ⟨line.level, logTarget, "message" :: line.fields⟩ then some line.text
    else none
  | .error _ => none

namespace Program

/-- The surroundings of a walk over directories that do not change, in which no lookup
is lost. -/
def surroundings (served : Host.LocalExport) (readDir : Path → Except Failure Listing)
    (fresh : Nat → Handle) : Walk.Surroundings Unit Unit where
  service := served.service ()
  readDir := fun _ _ path => readDir path
  fresh := fresh
  lost := fun _ => false
  lostDrops := false

/-- Walks an export under the name `/` with a configuration. -/
def walkExport (config : Config) (usage : Except Failure Usage)
    (readDir : Path → Except Failure Listing) (fresh : Nat → Handle) (walk : CommandLine.Walk) :
    Outcome :=
  match Walk.walk (surroundings ⟨"/", usage⟩ readDir fresh) (.of walk.depth walk.pageSize) "/"
      (.ofConfig () config) with
  | (.error failure, _) => .walkFailed failure
  | (.ok totals, state) => .walked totals state.server.report

/-- The configuration of a run: that of the named file, or the default. -/
def loadConfig (read : String → Except Host.IoError (List UInt8)) :
    Option String → Except ConfigError Config
  | none => .ok .default
  | some path => Config.ofFile (read path)

/-- A run of the program on a host, with a supply of fresh handles. -/
def run (host : Host.Machine) (fresh : Nat → Handle) (arguments : List String) : Outcome :=
  match CommandLine.parse arguments with
  | .misuse => .misuse
  | .help => .help
  | .version => .version
  | .walk configPath walk =>
    match loadConfig (fun path => Host.contentsOf host.current (Text.bytes path)) configPath with
    | .error error => .configFailed error
    | .ok config =>
      let store : Host.LocalStore := ⟨host, Text.bytes walk.root⟩
      walkExport config store.usage store.readDir fresh walk

/-- A run on a host with a log: only what follows from the arguments alone is done without
a filter. -/
def runWithLog (log : Except Log.Fault Log.Filter) (host : Host.Machine) (fresh : Nat → Handle)
    (arguments : List String) : Outcome :=
  match log, CommandLine.parse arguments with
  | .error _, .walk _ _ => .brokenOff
  | _, _ => run host fresh arguments

end Program

end HandleTable
