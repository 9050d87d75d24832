import HandleTable.Proofs.Walk.Loops
import Mathlib.Data.List.ModifyLast

/-!
# What a walk visited and read

The trace of a walk is a list of single events.  Here it is read as a list of visits:
`visits events` has one for every handle that was resolved, with all readings of its
directory, and each reading with the pages that were served from it.

The pages of a reading are cut from its listing one after another.  A reading may be
broken off after some of them, and then a lookup was lost (`Reading.Broken`); or it has
all of them, and then they are the whole listing (`Reading.Whole`).  A visit is over when
the last of its readings is whole, or when it has been broken off once more than it may
start over (`Visit.Over`).
-/

namespace HandleTable.Walk

variable {ι σ : Type}

/-! ## Visits -/

/-- A reading of a directory: the listing that was kept, and the pages served from it. -/
structure Reading where
  listing : Listing
  pages : List Listing
deriving DecidableEq, Repr

/-- A visit of a directory: where its handle led, and how it was read. -/
structure Visit where
  path : Path
  readings : List Reading
deriving DecidableEq, Repr

/-- A new reading of a visited directory. -/
def Visit.reread (listing : Listing) (visit : Visit) : Visit :=
  { visit with readings := visit.readings ++ [⟨listing, []⟩] }

/-- One more page of the last reading of a visited directory. -/
def Visit.turn (page : Listing) (visit : Visit) : Visit :=
  { visit with
    readings := visit.readings.modifyLast fun reading =>
      { reading with pages := reading.pages ++ [page] } }

/-- What an event adds to the visits before it. -/
def note (visits : List Visit) : Event → List Visit
  | .resolved path => visits ++ [⟨path, []⟩]
  | .read _ listing _ => visits.modifyLast (Visit.reread listing)
  | .page _ _ entries => visits.modifyLast (Visit.turn entries)
  | .minted .. | .stale | .looked _ | .lost _ => visits

/-- The visits of which a trace tells. -/
def visits (events : List Event) : List Visit :=
  events.foldl note []

/-- What the reads of the visited directories answered, in order. -/
def answers (visits : List Visit) : List (Path × Listing) :=
  visits.flatMap fun visit => visit.readings.map fun reading => (visit.path, reading.listing)

/-- How many entries were served during a visit. -/
def Visit.entries (visit : Visit) : ℕ :=
  (visit.readings.map fun reading => reading.pages.flatten.length).sum

/-- How many pages were served during a visit. -/
def Visit.pages (visit : Visit) : ℕ :=
  (visit.readings.map fun reading => reading.pages.length).sum

/-- The directories for which handles were minted during a visit. -/
def Visit.leadsTo (bounds : Bounds) (visit : Visit) : List Path :=
  visit.readings.flatMap fun reading =>
    children bounds visit.path.length visit.path reading.pages.flatten

@[simp] theorem answers_append (first second : List Visit) :
    answers (first ++ second) = answers first ++ answers second :=
  List.flatMap_append

@[simp] theorem answers_singleton (visit : Visit) :
    answers [visit] = visit.readings.map fun reading => (visit.path, reading.listing) :=
  List.flatMap_singleton ..

theorem answers_subset {visits : List Visit} {visit : Visit} (hvisit : visit ∈ visits) :
    answers [visit] ⊆ answers visits :=
  ((List.singleton_sublist.mpr hvisit).flatMap _).subset

/-- A new reading answers once more, and nothing of it has been served yet. -/
theorem Visit.reread_last (past : List Visit) (visit : Visit) (listing : Listing) :
    (past ++ [visit]).modifyLast (Visit.reread listing) = past ++ [visit.reread listing] :=
  List.modifyLast_concat ..

theorem Visit.turn_last (past : List Visit) (path : Path) (readings : List Reading)
    (listing page : Listing) (pages : List Listing) :
    List.modifyLast (Visit.turn page) (past ++ [⟨path, readings ++ [⟨listing, pages⟩]⟩]) =
      past ++ [⟨path, readings ++ [⟨listing, pages ++ [page]⟩]⟩] := by
  rw [List.modifyLast_concat, Visit.turn, List.modifyLast_concat]

theorem map_path_modifyLast (change : Visit → Visit)
    (hchange : ∀ visit, (change visit).path = visit.path) (visits : List Visit) :
    (visits.modifyLast change).map Visit.path = visits.map Visit.path := by
  rcases visits.eq_nil_or_concat' with rfl | ⟨past, last, rfl⟩
  · rfl
  · rw [List.modifyLast_concat, List.map_append, List.map_append, List.map_singleton,
      List.map_singleton, hchange]

theorem map_path_reread (listing : Listing) (visits : List Visit) :
    (visits.modifyLast (Visit.reread listing)).map Visit.path = visits.map Visit.path :=
  map_path_modifyLast (Visit.reread listing) (fun _ => rfl) visits

theorem map_path_turn (page : Listing) (visits : List Visit) :
    (visits.modifyLast (Visit.turn page)).map Visit.path = visits.map Visit.path :=
  map_path_modifyLast (Visit.turn page) (fun _ => rfl) visits

theorem map_path_note (visits : List Visit) (event : Event) :
    (note visits event).map Visit.path = visits.map Visit.path ++ event.entered?.toList := by
  cases event with
  | resolved path => exact List.map_append
  | read => exact (map_path_reread ..).trans (List.append_nil _).symm
  | page => exact (map_path_turn ..).trans (List.append_nil _).symm
  | minted | stale | looked | lost => exact (List.append_nil _).symm

/-- The visits are those of the directories that were entered. -/
theorem map_path_visits (events : List Event) :
    (visits events).map Visit.path = events.filterMap Event.entered? := by
  induction events using List.reverseRecOn with
  | nil => rfl
  | append_singleton events event ih =>
      have hlast : visits (events ++ [event]) = note (visits events) event :=
        List.foldl_append
      rw [hlast, map_path_note, ih, List.filterMap_append]
      cases event <;> rfl

namespace State

/-- The visits so far. -/
def visits (state : State ι σ) : List Visit :=
  Walk.visits state.events

theorem map_path_visits (state : State ι σ) : state.visits.map Visit.path = state.visited :=
  Walk.map_path_visits state.events

theorem visits_cons (event : Event) (trace : List Event) :
    Walk.visits (event :: trace).reverse = note (Walk.visits trace.reverse) event := by
  rw [List.reverse_cons, Walk.visits, List.foldl_append]
  rfl

theorem visits_unqueued (state : State ι σ) : state.unqueued.visits = state.visits := rfl

theorem visits_skipped (state : State ι σ) (handle : Handle) :
    (state.skipped handle).visits = state.visits :=
  visits_cons ..

theorem visits_entered (state : State ι σ) (handle : Handle) (path : Path) :
    (state.entered handle path).visits = state.visits ++ [⟨path, []⟩] :=
  visits_cons ..

theorem visits_opened (state : State ι σ) (path : Path) (listing : Listing) :
    (state.opened path listing).visits = state.visits.modifyLast (Visit.reread listing) :=
  visits_cons ..

theorem visits_lookUp (around : Surroundings ι σ) (directory : String) (verifier : Verifier)
    (state : State ι σ) : (state.lookUp around directory verifier).2.visits = state.visits := by
  unfold lookUp
  split <;> exact visits_cons ..

theorem visits_restarted (around : Surroundings ι σ) (site : Site σ) (verifier : Verifier)
    (state : State ι σ) : (state.restarted around site verifier).visits = state.visits :=
  visits_lookUp ..

theorem visits_takePage (around : Surroundings ι σ) (bounds : Bounds) (store : σ) (path : Path)
    (depth cookie : ℕ) (page : Listing) (state : State ι σ) :
    (state.takePage around bounds store path depth cookie page).visits =
      note state.visits (.page path.text cookie page) := by
  have hentry : ∀ (current : State ι σ) (entry : Entry),
      (current.takeEntry around bounds store path depth entry).visits = current.visits := by
    intro current entry
    unfold takeEntry
    dsimp only
    split
    · exact visits_cons ..
    · rfl
  unfold takePage
  refine List.foldlRecOn (motive := fun current => current.visits = _) page _ ?_
    fun current hcurrent entry _ => (hentry current entry).trans hcurrent
  exact visits_cons ..

theorem visits_served (around : Surroundings ι σ) (bounds : Bounds) (site : Site σ)
    (verifier : Verifier) (cookie : ℕ) (listing : Listing) (state : State ι σ) :
    (state.served around bounds site verifier cookie listing).visits =
      state.visits.modifyLast (Visit.turn ((listing.drop cookie).take bounds.pageSize)) := by
  rw [served, visits_takePage, visits_lookUp]
  rfl

end State

/-! ## The pages of a reading -/

/-- The first pages of a listing. -/
def cuts (pageSize : ℕ) (listing : Listing) (count : ℕ) : List Listing :=
  (List.range count).map fun number => (listing.drop (number * pageSize)).take pageSize

theorem length_cuts (pageSize : ℕ) (listing : Listing) (count : ℕ) :
    (cuts pageSize listing count).length = count := by
  rw [cuts, List.length_map, List.length_range]

theorem cuts_succ (pageSize : ℕ) (listing : Listing) (count : ℕ) :
    cuts pageSize listing (count + 1) =
      cuts pageSize listing count ++ [(listing.drop (count * pageSize)).take pageSize] := by
  rw [cuts, List.range_succ, List.map_append]
  rfl

/-- No entry is left out between pages, and none comes twice. -/
theorem flatten_cuts (pageSize : ℕ) (listing : Listing) (count : ℕ) :
    (cuts pageSize listing count).flatten = listing.take (count * pageSize) := by
  induction count with
  | zero => simp [cuts]
  | succ count ih =>
      rw [cuts_succ, List.flatten_append, ih, List.flatten_singleton, ← List.take_add,
        Nat.succ_mul]

/-- One page more is enough exactly when it reaches the end of the listing. -/
theorem pageCount_le_succ_iff {pageSize : ℕ} (hpositive : 0 < pageSize) (length count : ℕ) :
    pageCount pageSize length ≤ count + 1 ↔ length ≤ count * pageSize + pageSize := by
  rw [pageCount, max_le_iff, ceilDiv_le_iff_le_mul hpositive, Nat.mul_succ, Nat.mul_comm]
  exact and_iff_right (Nat.le_add_left 1 count)

theorem length_le_pageCount_mul {pageSize : ℕ} (hpositive : 0 < pageSize) (length : ℕ) :
    length ≤ pageCount pageSize length * pageSize := by
  rw [Nat.mul_comm, ← ceilDiv_le_iff_le_mul hpositive]
  exact le_max_right ..

namespace Reading

/-- The reading was broken off before all pages were served. -/
def Broken (pageSize : ℕ) (reading : Reading) : Prop :=
  ∃ count < pageCount pageSize reading.listing.length,
    reading.pages = cuts pageSize reading.listing count

/-- All pages of the reading were served. -/
def Whole (pageSize : ℕ) (reading : Reading) : Prop :=
  reading.pages = cuts pageSize reading.listing (pageCount pageSize reading.listing.length)

/-- Whether fewer pages were served than the listing fills. -/
def lost (pageSize : ℕ) (reading : Reading) : Bool :=
  reading.pages.length < pageCount pageSize reading.listing.length

variable {pageSize : ℕ} {reading : Reading}

theorem Broken.lost (hbroken : reading.Broken pageSize) : reading.lost pageSize = true := by
  obtain ⟨count, hcount, hpages⟩ := hbroken
  rwa [Reading.lost, hpages, length_cuts, decide_eq_true_iff]

theorem Whole.length_pages (hwhole : reading.Whole pageSize) :
    reading.pages.length = pageCount pageSize reading.listing.length := by
  rw [hwhole, length_cuts]

theorem Whole.flatten_pages (hwhole : reading.Whole pageSize) (hpositive : 0 < pageSize) :
    reading.pages.flatten = reading.listing := by
  rw [hwhole, flatten_cuts]
  exact List.take_of_length_le (length_le_pageCount_mul hpositive _)

end Reading

/-! ## Visits that are over -/

/-- How often the directory was lost while it was visited. -/
def Visit.losses (pageSize : ℕ) (visit : Visit) : ℕ :=
  visit.readings.countP (Reading.lost pageSize)

/-- A visit ended with a whole reading after a few that were broken off, or the directory
was given up after too many. -/
inductive Visit.Over (pageSize : ℕ) : Visit → Prop
  | read {path : Path} {readings : List Reading} {last : Reading}
      (broken : ∀ reading ∈ readings, reading.Broken pageSize)
      (few : readings.length ≤ maxRestarts) (whole : last.Whole pageSize) :
      Over pageSize ⟨path, readings ++ [last]⟩
  | givenUp {path : Path} {readings : List Reading}
      (broken : ∀ reading ∈ readings, reading.Broken pageSize)
      (often : readings.length = maxRestarts + 1) : Over pageSize ⟨path, readings⟩

theorem countP_lost_of_broken {pageSize : ℕ} {readings : List Reading}
    (hbroken : ∀ reading ∈ readings, reading.Broken pageSize) :
    readings.countP (Reading.lost pageSize) = readings.length :=
  List.countP_eq_length.mpr fun reading hreading => (hbroken reading hreading).lost

namespace Visit.Over

variable {pageSize : ℕ} {visit : Visit}

theorem length_readings_le (hover : visit.Over pageSize) :
    visit.readings.length ≤ maxRestarts + 1 := by
  cases hover with
  | read hbroken hfew hwhole =>
      rw [List.length_append, List.length_singleton]
      exact Nat.succ_le_succ hfew
  | givenUp hbroken hoften => exact hoften.le

theorem readings_of_losses (hover : visit.Over pageSize) (hnone : visit.losses pageSize = 0) :
    ∃ reading, visit.readings = [reading] ∧ reading.Whole pageSize := by
  cases hover with
  | @read path readings last hbroken hfew hwhole =>
      rw [losses, List.countP_append, countP_lost_of_broken hbroken] at hnone
      have hempty : readings = [] :=
        List.length_eq_zero_iff.mp (Nat.eq_zero_of_add_eq_zero_right hnone)
      exact ⟨last, by rw [hempty]; rfl, hwhole⟩
  | givenUp hbroken hoften =>
      rw [losses, countP_lost_of_broken hbroken, hoften] at hnone
      contradiction

end Visit.Over

end HandleTable.Walk
