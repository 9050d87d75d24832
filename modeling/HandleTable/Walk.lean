import HandleTable.Server

/-!
# Walking an export

A walk visits the directories of an export breadth first, the way a client
would: every directory is reached through a handle and read page by page
through a verifier.  Directories are handled level by level; the children that
one level mints are the next level, in the order in which they were minted,
and no children are minted at the last level.

Between minting and visiting, a handle may be evicted; it is then counted as
stale and skipped.  Between snapshot and page, a listing may be lost; the read
of the directory then starts over with a new snapshot, at most three times,
after which the directory is given up.  What was counted before a loss stays
counted.

The walk is described together with its surroundings: directories that may
list differently from one read to the next, and lookups that may be lost.  It
leaves a trace of everything that it did.
-/

namespace HandleTable.Walk

/-- What a walk counts. -/
structure Totals where
  directories : Nat
  entries : Nat
  pages : Nat
  staleHandles : Nat
  restarts : Nat
deriving DecidableEq, Repr

/-- One thing that a walk did. -/
inductive Event where
  /-- A handle was minted for a directory that lies at some depth. -/
  | minted (path : Path) (depth : Nat)
  /-- A queued handle was resolved and its directory is visited. -/
  | resolved (path : Path)
  /-- A queued handle turned out to be stale. -/
  | stale
  /-- A directory was read and its listing kept under a verifier. -/
  | read (directory : String) (listing : Listing) (verifier : Verifier)
  /-- A verifier was looked up. -/
  | looked (directory : String)
  /-- The lookup of a verifier was lost. -/
  | lost (directory : String)
  /-- A page was served from the listing that was looked up. -/
  | page (directory : String) (cookie : Nat) (entries : Listing)
deriving DecidableEq, Repr

/-- A choice for every lookup of a walk. -/
abbrev Schedule := Nat → Bool

/-- One choice may be made for all lookups. -/
instance : Coe Bool Schedule := ⟨fun choice _ => choice⟩

/-- What a walk meets: the export service, what each read of a directory answers, the
supply of fresh handles, which lookups are lost, and which of the lost ones also
drop the snapshots of their directory.  Reads, handles and lookups are numbered
from zero. -/
structure Surroundings (ι σ : Type) where
  service : ExportService ι σ
  readDir : (read : Nat) → σ → Path → Except Failure Listing
  fresh : Nat → Handle
  lost : Schedule
  lostDrops : Schedule

/-- How far a walk descends and how many entries it takes per page; a page has at
least one. -/
structure Bounds where
  maxDepth : Nat
  pageSize : Nat
  pageSize_pos : 0 < pageSize

theorem Bounds.max_one_pos (pageSize : Nat) : 0 < max pageSize 1 := by
  omega

/-- The bounds for a page size that may be zero, which acts as one. -/
def Bounds.of (maxDepth pageSize : Nat) : Bounds :=
  ⟨maxDepth, max pageSize 1, max_one_pos pageSize⟩

/-- How often the read of a directory starts over on one visit before it is given up. -/
def maxRestarts : Nat := 3

/-- A walk on its way: the server, how many handles, reads and lookups it has used up,
its counts, the handles queued for the next level, and the trace, last event
first. -/
structure State (ι σ : Type) where
  server : Server ι σ
  minted : Nat
  reads : Nat
  lookups : Nat
  totals : Totals
  queue : List Handle
  trace : List Event

namespace State

variable {ι σ : Type}

/-- The state in which a walk finds a server. -/
def start (server : Server ι σ) : State ι σ :=
  ⟨server, 0, 0, 0, ⟨0, 0, 0, 0, 0⟩, [], []⟩

/-- Adds an event to the trace. -/
def log (state : State ι σ) (event : Event) : State ι σ :=
  { state with trace := event :: state.trace }

/-- The events so far, in order. -/
def events (state : State ι σ) : List Event :=
  state.trace.reverse

/-- Mints a handle for a directory and queues it. -/
def enqueue (around : Surroundings ι σ) (state : State ι σ) (store : σ) (path : Path)
    (depth : Nat) : State ι σ :=
  { state with
    server := state.server.toHandle (around.fresh state.minted) store path
    minted := state.minted + 1
    queue := state.queue ++ [around.fresh state.minted]
    trace := .minted path depth :: state.trace }

/-- Counts one entry of a directory and queues it when it is a directory that may
still be visited. -/
def takeEntry (around : Surroundings ι σ) (bounds : Bounds) (store : σ) (path : Path)
    (depth : Nat) (state : State ι σ) (entry : Entry) : State ι σ :=
  let counted := { state with
    totals := { state.totals with entries := state.totals.entries + 1 } }
  if entry.isDir ∧ depth + 1 < bounds.maxDepth then
    counted.enqueue around store (path ++ [entry.name]) (depth + 1)
  else counted

/-- Serves one page. -/
def takePage (around : Surroundings ι σ) (bounds : Bounds) (store : σ) (path : Path)
    (depth cookie : Nat) (page : Listing) (state : State ι σ) : State ι σ :=
  let counted := { state with
    totals := { state.totals with pages := state.totals.pages + 1 }
    trace := .page path.text cookie page :: state.trace }
  page.foldl (takeEntry around bounds store path depth) counted

/-- Looks a verifier up, unless the lookup is lost. -/
def lookUp (around : Surroundings ι σ) (directory : String) (verifier : Verifier)
    (state : State ι σ) : Option Listing × State ι σ :=
  if around.lost state.lookups then
    (none, { state with
      server := if around.lostDrops state.lookups then state.server.invalidateVerifier directory
        else state.server
      lookups := state.lookups + 1
      trace := .lost directory :: state.trace })
  else
    ((state.server.dataForVerifier verifier).1, { state with
      server := (state.server.dataForVerifier verifier).2
      lookups := state.lookups + 1
      trace := .looked directory :: state.trace })

/-- The length of the listing that a verifier names, zero when it names none. -/
def snapshotLength (state : State ι σ) (verifier : Verifier) : Nat :=
  ((state.server.verifiers.peek verifier).map fun snapshot => snapshot.listing.length).getD 0

@[simp] theorem verifiers_takeEntry (around : Surroundings ι σ) (bounds : Bounds) (store : σ)
    (path : Path) (depth : Nat) (state : State ι σ) (entry : Entry) :
    (takeEntry around bounds store path depth state entry).server.verifiers =
      state.server.verifiers := by
  unfold takeEntry
  dsimp only
  split <;> rfl

@[simp] theorem verifiers_takePage (around : Surroundings ι σ) (bounds : Bounds) (store : σ)
    (path : Path) (depth cookie : Nat) (page : Listing) (state : State ι σ) :
    (takePage around bounds store path depth cookie page state).server.verifiers =
      state.server.verifiers := by
  have hentries : ∀ (entries : Listing) (current : State ι σ),
      (entries.foldl (takeEntry around bounds store path depth) current).server.verifiers =
        current.server.verifiers := by
    intro entries
    induction entries with
    | nil => intro current; rfl
    | cons entry rest ih =>
        intro current
        rw [List.foldl_cons, ih, verifiers_takeEntry]
  unfold takePage
  rw [hentries]

/-- A lookup that finds a listing leaves it where it was. -/
theorem snapshotLength_lookUp {around : Surroundings ι σ} {directory : String}
    {verifier : Verifier} {state : State ι σ} {listing : Listing}
    (hfound : (lookUp around directory verifier state).1 = some listing) :
    state.snapshotLength verifier = listing.length ∧
      (lookUp around directory verifier state).2.snapshotLength verifier = listing.length := by
  unfold lookUp at hfound ⊢
  split at hfound
  · contradiction
  · rename_i hkept
    rw [if_neg hkept]
    simp only [Server.dataForVerifier, Verifiers.lookup, Recency.get_fst,
      Option.map_eq_some_iff] at hfound
    obtain ⟨snapshot, hpeek, hlisting⟩ := hfound
    simp only [snapshotLength, Server.dataForVerifier, Verifiers.lookup, Recency.peek_get, hpeek,
      Option.map_some, Option.getD_some, hlisting, and_self]

/-- Serves the pages of a listing from `cookie` on.  The result says whether all of
them were served, or a lookup was lost on the way. -/
def takePages (around : Surroundings ι σ) (bounds : Bounds) (store : σ) (path : Path)
    (depth : Nat) (verifier : Verifier) (cookie : Nat) (state : State ι σ) : Bool × State ι σ :=
  match _ : lookUp around path.text verifier state with
  | (none, state) => (false, state)
  | (some listing, state) =>
    let served := takePage around bounds store path depth cookie
      ((listing.drop cookie).take bounds.pageSize) state
    if listing.length ≤ cookie + bounds.pageSize then (true, served)
    else takePages around bounds store path depth verifier (cookie + bounds.pageSize) served
termination_by state.snapshotLength verifier - cookie
decreasing_by
  rename_i before hlookup hmore
  have hlengths := snapshotLength_lookUp
    (show (lookUp around path.text verifier before).1 = some listing by rw [hlookup])
  have hafter : state.snapshotLength verifier = listing.length := by
    have hsecond := hlengths.2
    rw [hlookup] at hsecond
    exact hsecond
  have hserved : served.snapshotLength verifier = listing.length := by
    rw [← hafter]
    simp [snapshotLength, served]
  have := bounds.pageSize_pos
  rw [hserved, hlengths.1]
  omega

/-- Reads a directory, starting over after a loss as long as `restartsLeft` allows. -/
def readDirectory (around : Surroundings ι σ) (bounds : Bounds) (store : σ) (path : Path)
    (depth : Nat) : (restartsLeft : Nat) → State ι σ → Except Failure Unit × State ι σ
  | restartsLeft, state =>
    match around.readDir state.reads store path with
    | .error failure => (.error failure, { state with reads := state.reads + 1 })
    | .ok listing =>
      let kept := state.server.verifierFor path.text listing
      let opened := { state with
        server := kept.2
        reads := state.reads + 1
        trace := .read path.text listing kept.1 :: state.trace }
      match takePages around bounds store path depth kept.1 0 opened with
      | (true, state) => (.ok (), state)
      | (false, state) =>
        let counted := { state with
          totals := { state.totals with restarts := state.totals.restarts + 1 } }
        match restartsLeft with
        | 0 => (.ok (), counted)
        | restartsLeft + 1 => readDirectory around bounds store path depth restartsLeft counted

/-- Visits the directory that a queued handle stands for. -/
def visit (around : Surroundings ι σ) (bounds : Bounds) (depth : Nat) (handle : Handle)
    (state : State ι σ) : Except Failure Unit × State ι σ :=
  match state.server.fromHandle handle.bytes with
  | (.error _, server) =>
    (.ok (), { state with
      server := server
      totals := { state.totals with staleHandles := state.totals.staleHandles + 1 }
      trace := .stale :: state.trace })
  | (.ok target, server) =>
    readDirectory around bounds target.store target.path depth maxRestarts { state with
      server := server
      totals := { state.totals with directories := state.totals.directories + 1 }
      trace := .resolved target.path :: state.trace }

/-- A handle that is not live is only counted. -/
theorem visit_of_error {around : Surroundings ι σ} {bounds : Bounds} {depth : Nat}
    {handle : Handle} {state : State ι σ} {failure : HandleError}
    (hresolved : (state.server.fromHandle handle.bytes).1 = .error failure) :
    visit around bounds depth handle state =
      (.ok (), { state with
        server := (state.server.fromHandle handle.bytes).2
        totals := { state.totals with staleHandles := state.totals.staleHandles + 1 }
        trace := .stale :: state.trace }) := by
  rw [visit]
  split
  · rename_i hstale
    rw [hstale]
  · rename_i hlive
    rw [hlive] at hresolved
    contradiction

/-- A handle that is live leads to a read of its directory. -/
theorem visit_of_ok {around : Surroundings ι σ} {bounds : Bounds} {depth : Nat} {handle : Handle}
    {state : State ι σ} {target : Target σ}
    (hresolved : (state.server.fromHandle handle.bytes).1 = .ok target) :
    visit around bounds depth handle state =
      readDirectory around bounds target.store target.path depth maxRestarts { state with
        server := (state.server.fromHandle handle.bytes).2
        totals := { state.totals with directories := state.totals.directories + 1 }
        trace := .resolved target.path :: state.trace } := by
  rw [visit]
  split
  · rename_i hstale
    rw [hstale] at hresolved
    contradiction
  · rename_i hlive
    rw [hlive] at hresolved
    cases hresolved
    simp only [hlive]

/-- Visits the directories of one level in order; the first failure ends the walk. -/
def visitAll (around : Surroundings ι σ) (bounds : Bounds) (depth : Nat) :
    List Handle → State ι σ → Except Failure Unit × State ι σ
  | [], state => (.ok (), state)
  | handle :: rest, state =>
    match visit around bounds depth handle state with
    | (.error failure, state) => (.error failure, state)
    | (.ok (), state) => visitAll around bounds depth rest state

theorem visitAll_cons_of_error {around : Surroundings ι σ} {bounds : Bounds} {depth : Nat}
    {handle : Handle} {rest : List Handle} {state : State ι σ} {failure : Failure}
    (hfailed : (visit around bounds depth handle state).1 = .error failure) :
    (visitAll around bounds depth (handle :: rest) state).1 = .error failure := by
  rw [visitAll]
  split
  · rename_i hvisit
    rwa [hvisit] at hfailed
  · rename_i hvisit
    rw [hvisit] at hfailed
    contradiction

theorem visitAll_cons_of_ok {around : Surroundings ι σ} {bounds : Bounds} {depth : Nat}
    {handle : Handle} {rest : List Handle} {state : State ι σ}
    (hok : (visit around bounds depth handle state).1 = .ok ()) :
    visitAll around bounds depth (handle :: rest) state =
      visitAll around bounds depth rest (visit around bounds depth handle state).2 := by
  rw [visitAll]
  split
  · rename_i hvisit
    rw [hvisit] at hok
    contradiction
  · rename_i hvisit
    rw [hvisit]

/-- Visits the queued directories, which lie at `depth`, and then the levels below. -/
def descend (around : Surroundings ι σ) (bounds : Bounds) (depth : Nat) (state : State ι σ) :
    Except Failure Unit × State ι σ :=
  match visitAll around bounds depth state.queue { state with queue := [] } with
  | (.error failure, state) => (.error failure, state)
  | (.ok (), state) =>
    if depth + 1 < bounds.maxDepth ∧ state.queue ≠ [] then
      descend around bounds (depth + 1) state
    else (.ok (), state)
termination_by bounds.maxDepth - depth

theorem descend_of_error {around : Surroundings ι σ} {bounds : Bounds} {depth : Nat}
    {state : State ι σ} {failure : Failure}
    (hfailed : (visitAll around bounds depth state.queue { state with queue := [] }).1 =
      .error failure) :
    (descend around bounds depth state).1 = .error failure := by
  rw [descend]
  split
  · rename_i hlevel
    rwa [hlevel] at hfailed
  · rename_i hlevel
    rw [hlevel] at hfailed
    contradiction

/-- When a level fails nowhere, the walk goes on with what it has queued. -/
theorem descend_of_ok {around : Surroundings ι σ} {bounds : Bounds} {depth : Nat}
    {state : State ι σ}
    (hok : (visitAll around bounds depth state.queue { state with queue := [] }).1 = .ok ()) :
    descend around bounds depth state =
      let after := (visitAll around bounds depth state.queue { state with queue := [] }).2
      if depth + 1 < bounds.maxDepth ∧ after.queue ≠ [] then
        descend around bounds (depth + 1) after
      else (.ok (), after) := by
  rw [descend]
  split
  · rename_i hlevel
    rw [hlevel] at hok
    contradiction
  · rename_i hlevel
    rw [hlevel]

end State

/-- Walks an export: what it came to, and the state that it left. -/
def walk {ι σ : Type} (around : Surroundings ι σ) (bounds : Bounds) (request : String)
    (server : Server ι σ) : Except Failure Totals × State ι σ :=
  match server.mount around.service request with
  | (.error failure, server) => (.error failure, .start server)
  | (.ok store, server) =>
    match server.usage around.service store [] with
    | (.error failure, server) => (.error failure, .start server)
    | (.ok _, server) =>
      let rooted := (State.start server).enqueue around store [] 0
      match rooted.descend around bounds 0 with
      | (.error failure, state) => (.error failure, state)
      | (.ok (), state) => (.ok state.totals, state)

/-- A walk that mounts the export and learns its usage comes to what its descent from
the root comes to. -/
theorem walk_eq_descend {ι σ : Type} {around : Surroundings ι σ} (bounds : Bounds)
    {request : String} (server : Server ι σ) {store : σ} {usage : Usage}
    (hmount : (around.service.mount request server.inner).1 = .ok store)
    (husage : (around.service.usage store [] (around.service.mount request server.inner).2).1 =
      .ok usage) :
    let inner := (around.service.usage store [] (around.service.mount request server.inner).2).2
    let rooted := (State.start { server with inner := inner }).enqueue around store [] 0
    walk around bounds request server =
      ((rooted.descend around bounds 0).1.map fun _ => (rooted.descend around bounds 0).2.totals,
        (rooted.descend around bounds 0).2) := by
  intro inner rooted
  have hwalk : walk around bounds request server =
      match rooted.descend around bounds 0 with
      | (.error failure, state) => (.error failure, state)
      | (.ok (), state) => (.ok state.totals, state) := by
    simp only [walk, Server.mount, hmount, Server.usage, husage, rooted, inner]
  rw [hwalk]
  rcases rooted.descend around bounds 0 with ⟨failure | ⟨⟩, after⟩ <;> rfl

theorem walk_of_ok {ι σ : Type} {around : Surroundings ι σ} (bounds : Bounds) {request : String}
    (server : Server ι σ) {store : σ} {usage : Usage}
    (hmount : (around.service.mount request server.inner).1 = .ok store)
    (husage : (around.service.usage store [] (around.service.mount request server.inner).2).1 =
      .ok usage) :
    ∃ inner,
      let rooted := (State.start { server with inner := inner }).enqueue around store [] 0
      walk around bounds request server =
        ((rooted.descend around bounds 0).1.map fun _ => (rooted.descend around bounds 0).2.totals,
          (rooted.descend around bounds 0).2) :=
  ⟨_, walk_eq_descend bounds server hmount husage⟩

end HandleTable.Walk
