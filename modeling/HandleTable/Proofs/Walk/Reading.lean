import HandleTable.Proofs.Handles.Run
import HandleTable.Proofs.Verifiers.Run
import HandleTable.Proofs.Walk.Traversal

/-!
# Reading a directory without losses

When no lookup is lost, all pages of a read are cut from the one snapshot taken for
it, whatever its verifier and however small the table of listings is: nothing comes
between the snapshot and the lookups.  So the pages together are the listing, each
entry once and in order, and reading a directory comes to the same as taking the
entries of its listing one after another.

`Served children entries pages` says what that is: the walk has minted and queued a
handle for each of `children`, has counted so many entries and pages, and has entered
no other directory.  Such steps compose (`Served.trans`), from the entry
(`served_takeEntry`) over the page and the pages to the whole read
(`readDirectory_of_ok`).
-/

namespace HandleTable.Walk

variable {ι σ : Type}

/-! ## What a walk has minted and visited -/

/-- The part of a walk that minting changes: the live handles, the number of handles
minted so far, and the queue of the next level. -/
structure Frontier (σ : Type) where
  handles : Handles σ
  minted : ℕ
  queue : List Handle

/-- Mints a handle for a path and queues it. -/
def Frontier.issue (fresh : ℕ → Handle) (store : σ) (frontier : Frontier σ) (path : Path) :
    Frontier σ :=
  ⟨frontier.handles.mint (fresh frontier.minted) store path, frontier.minted + 1,
    frontier.queue ++ [fresh frontier.minted]⟩

/-- Mints handles for paths, one after another, and queues them. -/
def Frontier.issueAll (fresh : ℕ → Handle) (store : σ) (frontier : Frontier σ)
    (paths : List Path) : Frontier σ :=
  paths.foldl (Frontier.issue fresh store) frontier

theorem Frontier.issueAll_append (fresh : ℕ → Handle) (store : σ) (frontier : Frontier σ)
    (first second : List Path) :
    frontier.issueAll fresh store (first ++ second) =
      (frontier.issueAll fresh store first).issueAll fresh store second :=
  List.foldl_append

theorem Frontier.minted_issueAll (fresh : ℕ → Handle) (store : σ) (frontier : Frontier σ)
    (paths : List Path) :
    (frontier.issueAll fresh store paths).minted = frontier.minted + paths.length := by
  induction paths generalizing frontier with
  | nil => rfl
  | cons path rest ih =>
      rw [List.length_cons, ← Nat.add_assoc, Nat.add_right_comm]
      exact ih (frontier.issue fresh store path)

/-- The directory that an event enters. -/
def Event.entered? : Event → Option Path
  | .resolved path => some path
  | _ => none

namespace State

/-- The part of a walk that minting changes. -/
def frontier (state : State ι σ) : Frontier σ :=
  ⟨state.server.handles, state.minted, state.queue⟩

/-- The directories visited so far, in order. -/
def visited (state : State ι σ) : List Path :=
  state.events.filterMap Event.entered?

/-- The state once a listing of the directory at `path` has been read and kept. -/
def opened (state : State ι σ) (path : Path) (listing : Listing) : State ι σ :=
  { state with
    server := (state.server.verifierFor path.text listing).2
    reads := state.reads + 1
    trace := .read path.text listing (state.server.verifierFor path.text listing).1 ::
      state.trace }

/-- The snapshot has just been taken when the first page is looked up. -/
theorem peek_opened (state : State ι σ) (path : Path) (listing : Listing) :
    (state.opened path listing).server.verifiers.peek (fingerprint path.text listing) =
      some ⟨path.text, listing⟩ :=
  state.server.verifiers.peek_snapshot_self path.text listing

end State

/-- Goes on with the next part of a walk unless the part before it has failed. -/
def andThen (outcome : Except Failure Unit × State ι σ)
    (next : State ι σ → Except Failure Unit × State ι σ) : Except Failure Unit × State ι σ :=
  match outcome with
  | (.error failure, state) => (.error failure, state)
  | (.ok (), state) => next state

theorem visitAll_cons (around : Surroundings ι σ) (bounds : Bounds) (depth : ℕ) (handle : Handle)
    (rest : List Handle) (state : State ι σ) :
    state.visitAll around bounds depth (handle :: rest) =
      andThen (state.visit around bounds depth handle)
        fun after => after.visitAll around bounds depth rest := rfl

/-- What a walk does once it has visited a level. -/
def below (around : Surroundings ι σ) (bounds : Bounds) (depth : ℕ) (state : State ι σ) :
    Except Failure Unit × State ι σ :=
  if depth + 1 < bounds.maxDepth ∧ state.queue ≠ [] then state.descend around bounds (depth + 1)
  else (.ok (), state)

theorem descend_eq (around : Surroundings ι σ) (bounds : Bounds) (depth : ℕ) (state : State ι σ) :
    state.descend around bounds depth =
      andThen (State.visitAll around bounds depth state.queue { state with queue := [] })
        (below around bounds depth) := by
  rw [State.descend]
  rfl

/-- Whether a walk of an export gets as far as the root depends on the export service
alone; from there on it comes to what its descent comes to. -/
theorem walk_new (service : ExportService ι σ) (request : String) (inner : ι) :
    (∃ failure inner', ∀ (around : Surroundings ι σ) (bounds : Bounds) (limit room : Capacity),
      around.service = service → walk around bounds request (.new inner limit room) =
        (.error failure, .start (.new inner' limit room))) ∨
    ∃ store inner', ∀ (around : Surroundings ι σ) (bounds : Bounds) (limit room : Capacity),
      around.service = service →
      let rooted := (State.start (.new inner' limit room)).enqueue around store [] 0
      walk around bounds request (.new inner limit room) =
        ((rooted.descend around bounds 0).1.map fun _ => (rooted.descend around bounds 0).2.totals,
          (rooted.descend around bounds 0).2) := by
  cases hmount : (service.mount request inner).1 with
  | error failure =>
      left
      refine ⟨failure, (service.mount request inner).2, ?_⟩
      rintro around bounds limit room rfl
      simp only [walk, Server.new, Server.mount, hmount]
  | ok store =>
      let mounted := (service.mount request inner).2
      cases husage : (service.usage store [] mounted).1 with
      | error failure =>
          left
          refine ⟨failure, (service.usage store [] mounted).2, ?_⟩
          rintro around bounds limit room rfl
          simp only [walk, Server.new, Server.mount, hmount, Server.usage, husage, mounted]
      | ok usage =>
          right
          refine ⟨store, (service.usage store [] mounted).2, ?_⟩
          rintro around bounds limit room rfl
          exact walk_eq_descend bounds (.new inner limit room) hmount husage

/-- The directories below `path` to which a walk at `depth` goes on. -/
def children (bounds : Bounds) (depth : ℕ) (path : Path) (listing : Listing) : List Path :=
  if depth + 1 < bounds.maxDepth then subdirectories path listing else []

theorem children_append (bounds : Bounds) (depth : ℕ) (path : Path) (first second : Listing) :
    children bounds depth path (first ++ second) =
      children bounds depth path first ++ children bounds depth path second := by
  unfold children
  split
  · exact subdirectories_append path first second
  · rfl

/-! ## Steps that only serve entries -/

/-- A step of a walk mints and queues handles for `children`, counts entries and pages,
and enters no directory. -/
structure Served (fresh : ℕ → Handle) (store : σ) (children : List Path) (entries pages : ℕ)
    (before after : State ι σ) : Prop where
  frontier : after.frontier = before.frontier.issueAll fresh store children
  totals : after.totals = before.totals + ⟨0, entries, pages, 0, 0⟩
  visited : after.visited = before.visited

namespace Served

variable {fresh : ℕ → Handle} {store : σ} {first second : List Path}
  {entries pages entries' pages' : ℕ} {before middle after : State ι σ}

protected theorem refl (state : State ι σ) : Served fresh store [] 0 0 state state :=
  ⟨rfl, rfl, rfl⟩

protected theorem trans (hfirst : Served fresh store first entries pages before middle)
    (hsecond : Served fresh store second entries' pages' middle after) :
    Served fresh store (first ++ second) (entries + entries') (pages + pages') before after where
  frontier := by rw [hsecond.frontier, hfirst.frontier, Frontier.issueAll_append]
  totals := by
    rw [hsecond.totals, hfirst.totals, Totals.add_assoc]
    rfl
  visited := hsecond.visited.trans hfirst.visited

end Served

section Entries

variable (around : Surroundings ι σ) (bounds : Bounds) (store : σ) (path : Path) (depth : ℕ)

theorem served_takeEntry (state : State ι σ) (entry : Entry) :
    Served around.fresh store (children bounds depth path [entry]) 1 0 state
      (state.takeEntry around bounds store path depth entry) := by
  unfold State.takeEntry children
  by_cases hdepth : depth + 1 < bounds.maxDepth
  · cases hdirectory : entry.isDir with
    | true =>
        refine ⟨?_, ?_, ?_⟩
        · simp [hdepth, hdirectory, subdirectories, State.frontier, State.enqueue,
            Frontier.issueAll, Frontier.issue, Server.toHandle]
        · simp [hdepth, State.enqueue, Totals.add_def]
        · simp [hdepth, State.enqueue, State.visited, State.events, Event.entered?]
    | false =>
        refine ⟨?_, ?_, ?_⟩
        · simp [hdirectory, subdirectories, State.frontier, Frontier.issueAll]
        · simp [Totals.add_def]
        · simp [State.visited, State.events]
  · refine ⟨?_, ?_, ?_⟩
    · simp [hdepth, State.frontier, Frontier.issueAll]
    · simp [hdepth, Totals.add_def]
    · simp [hdepth, State.visited, State.events]

theorem served_takeEntries (entries : Listing) (state : State ι σ) :
    Served around.fresh store (children bounds depth path entries) entries.length 0
      state (entries.foldl (State.takeEntry around bounds store path depth) state) := by
  induction entries generalizing state with
  | nil =>
      have hnone : children bounds depth path [] = [] := by simp [children, subdirectories]
      rw [hnone]
      exact .refl state
  | cons entry rest ih =>
      have hall := (served_takeEntry around bounds store path depth state entry).trans (ih _)
      rw [← children_append, Nat.add_comm 1] at hall
      exact hall

theorem served_takePage (cookie : ℕ) (page : Listing) (state : State ι σ) :
    Served around.fresh store (children bounds depth path page) page.length 1 state
      (state.takePage around bounds store path depth cookie page) := by
  have hcounted : Served around.fresh store [] 0 1 state
      { state with
        totals := { state.totals with pages := state.totals.pages + 1 }
        trace := .page path.text cookie page :: state.trace } :=
    ⟨rfl, rfl, by simp [State.visited, State.events, Event.entered?]⟩
  have hall := hcounted.trans (served_takeEntries around bounds store path depth page _)
  rw [List.nil_append, Nat.zero_add] at hall
  exact hall

end Entries

/-! ## Lookups and pages -/

section Pages

variable {around : Surroundings ι σ}

/-- A lookup that is not lost finds what stands under the verifier, and leaves it
there. -/
theorem lookUp_of_kept (directory : String) {verifier : Verifier} {state : State ι σ}
    {snapshot : Snapshot} (hkept : around.lost state.lookups = false)
    (hpeek : state.server.verifiers.peek verifier = some snapshot)
    (fresh : ℕ → Handle) (store : σ) :
    (state.lookUp around directory verifier).1 = some snapshot.listing ∧
      (state.lookUp around directory verifier).2.server.verifiers.peek verifier = some snapshot ∧
      Served fresh store [] 0 0 state (state.lookUp around directory verifier).2 := by
  unfold State.lookUp
  rw [hkept, if_neg Bool.false_ne_true]
  refine ⟨?_, ?_, ⟨rfl, rfl, ?_⟩⟩
  · simp [Server.dataForVerifier, Verifiers.lookup_fst, hpeek]
  · simp [Server.dataForVerifier, Verifiers.lookup, Recency.peek_get, hpeek]
  · simp [State.visited, State.events, Event.entered?]

/-- What happens when a lookup finds a listing: a page of it is served, and the pages
after it if there are any. -/
theorem takePages_of_found {bounds : Bounds} {store : σ} {path : Path} {depth cookie : ℕ}
    {verifier : Verifier} {state : State ι σ} {listing : Listing}
    (hfound : (state.lookUp around path.text verifier).1 = some listing) :
    state.takePages around bounds store path depth verifier cookie =
      let served := (state.lookUp around path.text verifier).2.takePage around bounds store path
        depth cookie ((listing.drop cookie).take bounds.pageSize)
      if listing.length ≤ cookie + bounds.pageSize then (true, served)
      else served.takePages around bounds store path depth verifier (cookie + bounds.pageSize) := by
  rw [State.takePages]
  split
  · rename_i hnone
    rw [hnone] at hfound
    contradiction
  · rename_i hsome
    rw [hsome] at hfound ⊢
    cases hfound
    rfl

theorem served_opened (fresh : ℕ → Handle) (store : σ) (path : Path) (state : State ι σ)
    (listing : Listing) : Served fresh store [] 0 0 state (state.opened path listing) :=
  ⟨rfl, rfl, by simp [State.opened, State.visited, State.events, Event.entered?]⟩

theorem readDirectory_of_served {bounds : Bounds} {store : σ} {path : Path} {depth : ℕ}
    {state after : State ι σ} {listing : Listing}
    (hread : around.readDir state.reads store path = .ok listing)
    (hpages : (state.opened path listing).takePages around bounds store path depth
      (fingerprint path.text listing) 0 = (true, after)) (restartsLeft : ℕ) :
    state.readDirectory around bounds store path depth restartsLeft = (.ok (), after) := by
  rw [State.readDirectory, hread]
  dsimp only
  split
  · rename_i hserved
    cases hpages.symm.trans hserved
    rfl
  · rename_i hlost
    cases hpages.symm.trans hlost

theorem readDirectory_of_error {bounds : Bounds} {store : σ} {path : Path} (depth : ℕ)
    {state : State ι σ} {failure : Failure}
    (hread : around.readDir state.reads store path = .error failure) (restartsLeft : ℕ) :
    (state.readDirectory around bounds store path depth restartsLeft).1 = .error failure := by
  rw [State.readDirectory, hread]

section Kept

variable (hkept : ∀ lookup, around.lost lookup = false)

include hkept

/-- **The pages of a read are its listing.**  From a cookie on, all pages are served,
and they come to the same as the entries from the cookie on, in as many pages as
these fill. -/
theorem takePages_of_kept (bounds : Bounds) (store : σ) (path : Path) (depth cookie : ℕ)
    {verifier : Verifier} {snapshot : Snapshot} {state : State ι σ}
    (hpeek : state.server.verifiers.peek verifier = some snapshot) :
    ∃ after, state.takePages around bounds store path depth verifier cookie = (true, after) ∧
      Served around.fresh store (children bounds depth path (snapshot.listing.drop cookie))
        (snapshot.listing.drop cookie).length
        (pageCount bounds.pageSize (snapshot.listing.drop cookie).length) state after := by
  have hpositive := bounds.pageSize_pos
  -- by how much of the listing is left
  induction hleft : snapshot.listing.length - cookie using Nat.strong_induction_on
    generalizing cookie state with
  | _ left ih =>
      obtain ⟨hfound, hstays, hlooked⟩ :=
        lookUp_of_kept path.text (hkept state.lookups) hpeek around.fresh store
      have hpage := hlooked.trans (served_takePage around bounds store path depth cookie
        ((snapshot.listing.drop cookie).take bounds.pageSize)
        (state.lookUp around path.text verifier).2)
      rw [List.nil_append, Nat.zero_add, Nat.zero_add] at hpage
      rw [takePages_of_found hfound]
      dsimp only
      split
      · rename_i hlast
        have hfits : (snapshot.listing.drop cookie).length ≤ bounds.pageSize := by
          rw [List.length_drop]
          omega
        refine ⟨_, rfl, ?_⟩
        rw [List.take_of_length_le hfits] at hpage
        rw [pageCount_of_le hpositive hfits]
        rwa [List.take_of_length_le hfits]
      · rename_i hmore
        obtain ⟨after, hafter, hrest⟩ := ih _ (by omega) (cookie + bounds.pageSize)
          ((congrArg (fun verifiers => Recency.peek verifiers verifier)
            (State.verifiers_takePage ..)).trans hstays) rfl
        refine ⟨after, hafter, ?_⟩
        have hall := hpage.trans hrest
        have hmany : bounds.pageSize < (snapshot.listing.drop cookie).length := by
          rw [List.length_drop]
          omega
        have hsplit : (snapshot.listing.drop cookie).take bounds.pageSize ++
            snapshot.listing.drop (cookie + bounds.pageSize) = snapshot.listing.drop cookie := by
          rw [← List.drop_drop, List.take_append_drop]
        have hlength : (snapshot.listing.drop (cookie + bounds.pageSize)).length =
            (snapshot.listing.drop cookie).length - bounds.pageSize := by
          rw [← List.drop_drop, List.length_drop]
        rw [← children_append, ← List.length_append, hsplit, hlength] at hall
        rwa [pageCount_of_lt hpositive hmany]

theorem readDirectory_of_ok (bounds : Bounds) {store : σ} {path : Path} (depth : ℕ)
    {state : State ι σ} {listing : Listing}
    (hread : around.readDir state.reads store path = .ok listing) (restartsLeft : ℕ) :
    ∃ after, state.readDirectory around bounds store path depth restartsLeft = (.ok (), after) ∧
      Served around.fresh store (children bounds depth path listing)
        listing.length (pageCount bounds.pageSize listing.length) state after := by
  obtain ⟨after, hafter, hserved⟩ := takePages_of_kept hkept bounds store path depth 0
    (state.peek_opened path listing)
  refine ⟨after, readDirectory_of_served hread hafter restartsLeft, ?_⟩
  have hall := (served_opened around.fresh store path state listing).trans hserved
  rwa [List.drop_zero, List.nil_append, Nat.zero_add, Nat.zero_add] at hall

end Kept

end Pages

end HandleTable.Walk
