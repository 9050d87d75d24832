import HandleTable.Program
import Std.Data.HashMap

/-!
# The command line program

This is the outer layer of the program: it takes the arguments and the log
settings, reads the configuration file and lists the directories that the walk
can reach, hands them to `Program`, and prints what comes back.  Log lines go to
the error output.
-/

namespace HandleTable.Main

/-- An error number of the host, which some of its calls negate. -/
def errorNumber (code : UInt32) : Int :=
  code.toInt32.toInt.natAbs

/-- An error of the host as the library knows it. -/
def hostError : IO.Error → Host.IoError
  | .noFileOrDirectory _ code _ => .os (errorNumber code)
  | .permissionDenied _ code _ => .os (errorNumber code)
  | .inappropriateType _ code _ => .os (errorNumber code)
  | .invalidArgument _ code _ => .os (errorNumber code)
  | .resourceExhausted _ code _ => .os (errorNumber code)
  | .noSuchThing _ code _ => .os (errorNumber code)
  | .otherError code _ => .os (errorNumber code)
  | .illegalOperation code _ => .os (errorNumber code)
  | .unsupportedOperation code _ => .os (errorNumber code)
  | .hardwareFault code _ => .os (errorNumber code)
  | other => .other other.toString

/-- The contents of a file, or why they could not be read. -/
def fileContents (path : String) : IO (Except Host.IoError (List UInt8)) := do
  try
    return .ok (← IO.FS.readBinFile path).toList
  catch error => return .error (hostError error)

/-- What a directory of the host lists, in the order of the names.  Links are listed as
themselves, and what is gone before it can be looked at is left out. -/
def listing (directory : IO.FS.DirEntry) : IO (Except Failure Listing) := do
  try
    let mut entries : Array Entry := #[]
    for object in ← directory.path.readDir do
      try
        let metadata ← object.path.symlinkMetadata
        let isDir := match metadata.type with
          | .dir => true
          | _ => false
        entries := entries.push
          ⟨object.fileName, metadata.byteSize.toNat, isDir, metadata.modified.sec⟩
      catch error =>
        if hostError error ≠ .notFound then throw error
    return .ok (Listing.sorted entries.toList)
  catch error => return .error (Host.failureOf (hostError error))

/-- What is known of the directories of a host, by their paths below the root. -/
abbrev Listings := Std.HashMap Path (Except Failure Listing)

/-- Adds the directory at a path, and the directories below it down to `levels` levels
in all, to what is known. -/
def listings (levels : Nat) (directory : IO.FS.DirEntry) (path : Path) (known : Listings) :
    IO Listings := do
  match levels with
  | 0 => return known
  | levels + 1 =>
    let listed ← listing directory
    let mut known := known.insert path listed
    if let .ok entries := listed then
      for entry in entries do
        if entry.isDir then
          known ← listings levels ⟨directory.path, entry.name⟩ (path ++ [entry.name]) known
    return known

/-- A supply of random handles, of which the first `count` are drawn in advance. -/
def randomHandles (count : Nat) : IO (Nat → Handle) := do
  let mut seeds := #[]
  for _ in [0:count] do
    let bytes ← IO.getRandomBytes 16
    seeds := seeds.push (bytes.toList.foldl (fun seed byte => 256 * seed + byte.toNat) 0)
  return fun ordinal => Handle.ofSeed (seeds.getD ordinal ordinal)

/-- Walks a directory of the host.  A walk mints at most one handle for each directory
that it may visit. -/
def walkHost (config : Config) (walk : CommandLine.Walk) : IO Outcome := do
  try
    let root := ⟨← IO.FS.realPath walk.root, "."⟩
    let known ← listings (max walk.depth 1) root [] {}
    let fresh ← randomHandles known.size
    return Program.walkExport config (.ok ⟨0, 0, 0, 0, 0⟩)
      (fun path => known.getD path (.error .notFound)) fresh walk
  catch error => return .walkFailed (.io (hostError error))

/-- Runs the program. -/
def run (log : Except Log.Fault Log.Filter) (arguments : List String) : IO Outcome := do
  match CommandLine.parse arguments with
  | .misuse => return .misuse
  | .help => return .help
  | .version => return .version
  | .walk configPath walk =>
    if let .error _ := log then return .brokenOff
    let contents ← match configPath with
      | none => pure (.ok [])
      | some path => fileContents path
    match Program.loadConfig (fun _ => contents) configPath with
    | .error error => return .configFailed error
    | .ok config => walkHost config walk

end HandleTable.Main

open HandleTable in
/-- Runs the program on its arguments, and prints its report and its log lines. -/
def main (arguments : List String) : IO UInt32 := do
  let log := Log.Filter.choose [← IO.getEnv "NFS_CACHE_LOG", ← IO.getEnv "RUST_LOG"]
  let outcome ← Main.run log arguments
  IO.print (outcome.output Handle.display)
  for line in [outcome.totals?, outcome.error?].filterMap id do
    if let some text := line.shown log then
      IO.eprintln text
  if outcome.exitCode = 2 then
    IO.eprint Outcome.helpText
  return UInt32.ofNat outcome.exitCode
