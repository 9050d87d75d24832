import HandleTable.Handle
import HandleTable.Host.IoError
import HandleTable.Text.Quoted

/-!
# Failures of stores and exports

A store, or the export that leads to it, fails for one of four causes.  Each
cause has the text that a reader sees and the error number that goes back to a
client; a host error without a number counts as a plain input/output error.
-/

namespace HandleTable

/-- Why a store or an export could not answer. -/
inductive Failure where
  | notFound
  | invalidPath (component : String)
  | handle (refusal : HandleError)
  | io (error : Host.IoError)
deriving DecidableEq, Repr

/-- The text of a refused handle. -/
def HandleError.message : HandleError → String
  | .stale => "stale file handle"

/-- The error number of a refused handle. -/
def HandleError.errno : HandleError → Int
  | .stale => 116

namespace Failure

/-- The text that a reader sees. -/
def message : Failure → String
  | notFound => "no such file or directory"
  | invalidPath component => "invalid path component: " ++ Text.quoted component
  | handle refusal => refusal.message
  | io error => "io error: " ++ error.message

/-- The error number that goes back to a client. -/
def errno : Failure → Int
  | notFound => 2
  | invalidPath _ => 22
  | handle refusal => refusal.errno
  | io error => error.code?.getD 5

end Failure

end HandleTable
