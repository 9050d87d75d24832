import HandleTable.Backend
import HandleTable.Config
import HandleTable.Report

/-!
# A server with both tables

A server puts the table of handles and the table of listings in front of an
export service.  Handles and verifiers are answered from the tables alone, and
calls to the service go through untouched; no part looks at another.
-/

namespace HandleTable

/-- The state of a server: that of the export service and the two tables. -/
structure Server (ι σ : Type) where
  inner : ι
  handles : Handles σ
  verifiers : Verifiers

namespace Server

variable {ι σ : Type}

/-- A server with empty tables. -/
def new (inner : ι) (limit verifierLimit : Capacity) : Server ι σ :=
  ⟨inner, .empty limit, .empty verifierLimit⟩

/-- A server with empty tables of the configured capacities. -/
def ofConfig (inner : ι) (config : Config) : Server ι σ :=
  new inner config.handleCapacity config.verifierCapacity

/-- The store behind an export name. -/
def mount (service : ExportService ι σ) (server : Server ι σ) (name : String) :
    Except Failure σ × Server ι σ :=
  ((service.mount name server.inner).1,
    { server with inner := (service.mount name server.inner).2 })

/-- How full the file system below a path is. -/
def usage (service : ExportService ι σ) (server : Server ι σ) (store : σ) (path : Path) :
    Except Failure Usage × Server ι σ :=
  ((service.usage store path server.inner).1,
    { server with inner := (service.usage store path server.inner).2 })

/-- Gives an object a fresh handle. -/
def toHandle (server : Server ι σ) (handle : Handle) (store : σ) (path : Path) : Server ι σ :=
  { server with handles := server.handles.mint handle store path }

/-- The object that a presented handle stands for. -/
def fromHandle (server : Server ι σ) (wire : List UInt8) :
    Except HandleError (Target σ) × Server ι σ :=
  ((server.handles.resolve wire).1, { server with handles := (server.handles.resolve wire).2 })

/-- Follows the renaming of a child of a directory. -/
def renameHandle (server : Server ι σ) (directory : List UInt8) (old new : String) :
    Except HandleError Unit × Server ι σ :=
  ((server.handles.rename directory old new).1,
    { server with handles := (server.handles.rename directory old new).2 })

/-- Points a live handle at another object. -/
def rebindHandle (server : Server ι σ) (wire : List UInt8) (store : σ) (path : Path) :
    Except HandleError Unit × Server ι σ :=
  ((server.handles.rebind wire store path).1,
    { server with handles := (server.handles.rebind wire store path).2 })

/-- Keeps a listing and returns its verifier. -/
def verifierFor (server : Server ι σ) (path : String) (listing : Listing) :
    Verifier × Server ι σ :=
  ((server.verifiers.snapshot path listing).1,
    { server with verifiers := (server.verifiers.snapshot path listing).2 })

/-- The listing that a verifier names. -/
def dataForVerifier (server : Server ι σ) (verifier : Verifier) :
    Option Listing × Server ι σ :=
  ((server.verifiers.lookup verifier).1,
    { server with verifiers := (server.verifiers.lookup verifier).2 })

/-- Drops every snapshot of a directory. -/
def invalidateVerifier (server : Server ι σ) (path : String) : Server ι σ :=
  { server with verifiers := (server.verifiers.invalidate path).2 }

/-- How many handles can be live at once. -/
def handleLimit (server : Server ι σ) : Nat :=
  server.handles.capacity.val

/-- What both tables hold. -/
def report (server : Server ι σ) : Report :=
  .capture server.handles server.verifiers

end Server

end HandleTable
