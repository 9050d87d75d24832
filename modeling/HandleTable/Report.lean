import HandleTable.Handles
import HandleTable.Text.Hex
import HandleTable.Verifiers

/-!
# Reports

A report is a copy of both tables at one moment, with the entries used longest
ago first, and its text has one line for each entry.
-/

namespace HandleTable

/-- What both tables hold at one moment. -/
structure Report where
  handles : List (Handle × Path)
  handleLimit : Nat
  verifiers : List SnapshotSummary
  verifierLimit : Nat
deriving DecidableEq

namespace Report

/-- The report on two tables. -/
def capture {σ : Type} (handles : Handles σ) (verifiers : Verifiers) : Report where
  handles := handles.snapshot
  handleLimit := handles.capacity.val
  verifiers := verifiers.summaries
  verifierLimit := verifiers.capacity.val

/-- A verifier as its sixteen digits. -/
def verifierText (verifier : Verifier) : String :=
  "0x" ++ String.ofList (Text.Hex.padded 16 verifier.toNat)

/-- The text of a report in which `name` says how a handle is written. -/
def textWith (name : Handle → String) (report : Report) : String :=
  let handleLine (entry : Handle × Path) : String :=
    "  id: " ++ name entry.1 ++ "; path: " ++ entry.2.text ++ "\n"
  let verifierLine (summary : SnapshotSummary) : String :=
    "  id: " ++ verifierText summary.verifier ++ "; path: " ++ summary.path ++ "; contents: ["
      ++ ", ".intercalate summary.names ++ "]\n"
  "handles: " ++ toString report.handles.length ++ "/" ++ toString report.handleLimit ++ "\n"
    ++ String.join (report.handles.map handleLine)
    ++ "verifiers: " ++ toString report.verifiers.length ++ "/" ++ toString report.verifierLimit
    ++ "\n" ++ String.join (report.verifiers.map verifierLine)

/-- The text of a report. -/
def text (report : Report) : String :=
  textWith Handle.display report

end Report

end HandleTable
