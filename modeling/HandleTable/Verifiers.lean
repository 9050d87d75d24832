import HandleTable.Fingerprint
import HandleTable.Recency
import HandleTable.Text.Record

/-!
# The table of listing snapshots

A client reads a directory page by page and presents a cookie-verifier with
each request.  The table keeps the listing that each verifier names, so that
all pages of one read come from the same snapshot.  It is bounded like the
table of handles; a verifier that has been dropped tells the client to start
over.
-/

namespace HandleTable

/-- A listing and the directory that it was taken of. -/
structure Snapshot where
  path : String
  listing : Listing
deriving DecidableEq

/-- The snapshots by verifier, least recently used first. -/
abbrev Verifiers := Recency Verifier Snapshot

/-- What diagnostics show of a snapshot: its verifier, its directory and the names
in listing order. -/
structure SnapshotSummary where
  verifier : Verifier
  path : String
  names : List String
deriving DecidableEq

namespace Verifiers

/-- Keeps a listing and returns its verifier; the same listing once more only
counts as a use. -/
def snapshot (table : Verifiers) (path : String) (listing : Listing) : Verifier × Verifiers :=
  (fingerprint path listing, (table.insert (fingerprint path listing) ⟨path, listing⟩).1)

/-- The listing that a verifier names, which counts as a use of it. -/
def lookup (table : Verifiers) (verifier : Verifier) : Option Listing × Verifiers :=
  ((table.get verifier).1.map Snapshot.listing, (table.get verifier).2)

/-- Drops every snapshot of a directory and says how many there were. -/
def invalidate (table : Verifiers) (path : String) : Nat × Verifiers :=
  ((table.entries.filter fun entry => entry.2.path == path).length,
    table.eraseWhere fun _ snapshot => snapshot.path == path)

/-- The snapshots held, least recently used first. -/
def summaries (table : Verifiers) : List SnapshotSummary :=
  table.entries.map fun entry => ⟨entry.1, entry.2.path, entry.2.listing.names⟩

/-- The table in diagnostics, on one line. -/
def summaryLine (table : Verifiers) : String :=
  Text.recordLine "VerifierCache" table.measures

/-- The table in diagnostics, a line for each measure. -/
def summaryBlock (table : Verifiers) : String :=
  Text.recordBlock "VerifierCache" table.measures

/-- The verifier of a listing does not depend on what the table holds. -/
@[simp] theorem snapshot_fst (table : Verifiers) (path : String) (listing : Listing) :
    (table.snapshot path listing).1 = fingerprint path listing := rfl

theorem lookup_fst (table : Verifiers) (verifier : Verifier) :
    (table.lookup verifier).1 = (table.peek verifier).map Snapshot.listing := by
  simp [lookup, Recency.get_fst]

end Verifiers

end HandleTable
