import HandleTable.Memory
import HandleTable.Proofs.Walk.Whereabouts

/-!
# What a walk counts when handles are evicted

A walk over the two tables alone loses no lookup: the snapshot of a directory is the one
used last when its pages are looked up, so that it is still there, with room for a single
listing and whatever its verifier is (`around_lost_of_missing`).  Then nothing starts
over, and on each visit the directory is read once and to its end
(`Underway.whole_of_losses`).

Handles may still be evicted while they wait.  Such a handle is found stale and skipped;
each of the others leads to a visit.  So the counts of a walk that fails nowhere add up,
however small the tables are (`walk_accounts_for_evictions`).
-/

namespace HandleTable.Walk

variable {ι σ : Type}

/-! ## Nothing starts over -/

/-- A lookup of the listing that is being served finds it unless it is lost. -/
theorem around_lost_of_missing {around : Surroundings ι σ} {pageSize : ℕ} {site : Site σ}
    {verifier : Verifier} {cookie : ℕ} {state : State ι σ} {visits : List Visit}
    (hunderway : Underway pageSize state.server.verifiers (.page site verifier cookie) visits)
    (hmissing : (state.lookUp around site.path.text verifier).1 = none) :
    around.lost state.lookups = true := by
  cases hunderway with
  | page hrestarting hkept hmore =>
      by_contra hlost
      obtain ⟨hfound, -⟩ := lookUp_of_kept site.path.text (Bool.eq_false_iff.mpr hlost) hkept
        around.fresh site.store
      rw [hfound] at hmissing
      contradiction

theorem restarts_step {around : Surroundings ι σ} {bounds : Bounds} {before after : Loops ι σ}
    (hkept : ∀ lookup, around.lost lookup = false) (hstep : Step around bounds before after)
    (hconsistent : Consistent bounds before) (hbefore : before.state.totals.restarts = 0) :
    after.state.totals.restarts = 0 := by
  cases hstep with
  | stay | finish | skip | enter | fail | opened => exact hbefore
  | lose cookie queue hmissing =>
      have hlost := around_lost_of_missing hconsistent.underway hmissing
      rw [hkept] at hlost
      contradiction
  | @serve site verifier state listing cookie queue hfound =>
      obtain ⟨-, -, htotals, -⟩ := served_counts around bounds site verifier cookie listing state
      show (state.served around bounds site verifier cookie listing).totals.restarts = 0
      rw [htotals]
      exact hbefore

theorem restarts_of_leads {around : Surroundings ι σ} {bounds : Bounds} {store : σ}
    {server : Server ι σ} {loops : Loops ι σ} (hkept : ∀ lookup, around.lost lookup = false)
    (hleads : Leads around bounds (.rooted around store server) loops) :
    loops.state.totals.restarts = 0 := by
  have hboth : Consistent bounds loops ∧ loops.state.totals.restarts = 0 := by
    apply hleads.keeps fun loops => Consistent bounds loops ∧ loops.state.totals.restarts = 0
    · intro before after hstep hbefore
      exact ⟨hbefore.1.step hstep, restarts_step hkept hstep hbefore.1 hbefore.2⟩
    · exact ⟨consistent_rooted .., rfl⟩
  exact hboth.2

/-- All pages of the one reading of the directory were served. -/
def Visit.ReadOnce (pageSize : ℕ) (visit : Visit) : Prop :=
  ∃ reading, visit.readings = [reading] ∧ reading.Whole pageSize

/-- Without losses the directory has been read once and to its end on every visit, except
that on the last visit it may not have been read at all. -/
theorem Underway.readOnce_of_losses {pageSize : ℕ} {verifiers : Verifiers}
    {result : Except Failure Totals} {visits : List Visit}
    (hunderway : Underway pageSize verifiers (.ended result : Stage σ) visits)
    (hnone : (visits.map (Visit.losses pageSize)).sum = 0) :
    ∀ visit ∈ visits, visit.ReadOnce pageSize ∨
      visit.readings = [] ∧ ∃ failure, result = .error failure := by
  have hlosses : ∀ visit ∈ visits, visit.losses pageSize = 0 := fun visit hvisit =>
    List.sum_eq_zero_iff_forall_eq_nat.mp hnone _ (List.mem_map_of_mem hvisit)
  cases hunderway with
  | ended totals hover =>
      intro visit hvisit
      exact Or.inl ((hover visit hvisit).readings_of_losses (hlosses visit hvisit))
  | @failed past readings restarts path failure hrestarting =>
      intro visit hvisit
      rcases List.mem_append.mp hvisit with hearlier | hthis
      · have hover := hrestarting.earlier visit hearlier
        exact Or.inl (hover.readings_of_losses (hlosses visit hvisit))
      · have hbroken := hlosses visit hvisit
        rw [List.mem_singleton.mp hthis, Visit.losses, countP_lost_of_broken hrestarting.broken]
          at hbroken
        refine Or.inr ⟨?_, failure, rfl⟩
        rw [List.mem_singleton.mp hthis]
        exact List.length_eq_zero_iff.mp hbroken

theorem readOnce_of_leads {around : Surroundings ι σ} {bounds : Bounds} {store : σ}
    {server : Server ι σ} {result : Except Failure Totals} {queue : List (Handle × ℕ)}
    {state : State ι σ} (hkept : ∀ lookup, around.lost lookup = false)
    (hleads : Leads around bounds (.rooted around store server) ⟨.ended result, queue, state⟩) :
    ∀ visit ∈ state.visits, visit.ReadOnce bounds.pageSize ∨
      visit.readings = [] ∧ ∃ failure, result = .error failure := by
  obtain ⟨-, -, hunderway, haccounted⟩ := Consistent.of_leads hleads
  have hbroken := haccounted.restarts
  rw [restarts_of_leads hkept hleads] at hbroken
  exact hunderway.readOnce_of_losses hbroken.symm

/-! ## What there is to count -/

theorem answers_cons (visit : Visit) (visits : List Visit) :
    answers (visit :: visits) = answers [visit] ++ answers visits := by
  rw [← answers_append, List.singleton_append]

theorem sum_map_answers {visits : List Visit} {measure : Visit → ℕ} {count : Path × Listing → ℕ}
    (hvisits : ∀ visit ∈ visits, measure visit = ((answers [visit]).map count).sum) :
    (visits.map measure).sum = ((answers visits).map count).sum := by
  induction visits with
  | nil => rfl
  | cons visit rest ih =>
      rw [List.forall_mem_cons] at hvisits
      rw [answers_cons, List.map_cons, List.sum_cons, List.map_append, List.sum_append, hvisits.1,
        ih hvisits.2]

theorem length_children (bounds : Bounds) (path : Path) (listing : Listing) :
    (children bounds path.length path listing).length =
      if path.length + 1 < bounds.maxDepth then listing.countP Entry.isDir else 0 := by
  unfold children
  split
  · rw [subdirectories, List.length_map, List.countP_eq_length_filter]
  · rfl

/-- What one whole reading adds to the counts and to the queue. -/
theorem Visit.ReadOnce.counts {bounds : Bounds} {visit : Visit}
    (honce : visit.ReadOnce bounds.pageSize) :
    ∃ listing, answers [visit] = [(visit.path, listing)] ∧ visit.entries = listing.length ∧
      visit.pages = pageCount bounds.pageSize listing.length ∧
      visit.leadsTo bounds = children bounds visit.path.length visit.path listing := by
  obtain ⟨reading, hone, hwhole⟩ := honce
  have hpages := hwhole.flatten_pages bounds.pageSize_pos
  refine ⟨reading.listing, ?_, ?_, ?_, ?_⟩
  · rw [answers_singleton, hone, List.map_singleton]
  · rw [Visit.entries, hone, List.map_singleton, List.sum_singleton, hpages]
  · rw [Visit.pages, hone, List.map_singleton, List.sum_singleton, hwhole.length_pages]
  · rw [Visit.leadsTo, hone, List.flatMap_singleton, hpages]

section ReadOnce

variable {bounds : Bounds} {visits : List Visit}
  (honce : ∀ visit ∈ visits, visit.ReadOnce bounds.pageSize)

include honce

theorem sum_entries_of_readOnce :
    (visits.map Visit.entries).sum =
      ((answers visits).map fun answer => answer.2.length).sum := by
  refine sum_map_answers fun visit hvisit => ?_
  obtain ⟨listing, hanswers, hentries, -⟩ := (honce visit hvisit).counts
  rw [hanswers, hentries, List.map_singleton, List.sum_singleton]

theorem sum_pages_of_readOnce :
    (visits.map Visit.pages).sum =
      ((answers visits).map fun answer => pageCount bounds.pageSize answer.2.length).sum := by
  refine sum_map_answers fun visit hvisit => ?_
  obtain ⟨listing, hanswers, -, hpages, -⟩ := (honce visit hvisit).counts
  rw [hanswers, hpages, List.map_singleton, List.sum_singleton]

theorem length_issued_of_readOnce :
    (issued bounds visits).length = 1 + ((answers visits).map fun answer =>
      if answer.1.length + 1 < bounds.maxDepth then answer.2.countP Entry.isDir else 0).sum := by
  rw [issued, List.length_cons, List.length_flatMap, Nat.add_comm]
  refine congrArg (1 + ·) (sum_map_answers fun visit hvisit => ?_)
  obtain ⟨listing, hanswers, -, -, hled⟩ := (honce visit hvisit).counts
  rw [hanswers, hled, length_children, List.map_singleton, List.sum_singleton]

end ReadOnce

/-- **The counts of a walk add up, whatever is evicted.**  Take a walk that finds both tables
empty, in which no lookup is lost, and which fails nowhere.  The export may list anything,
even something else at each read, and the tables may be as small as they can be.  Then
nothing was restarted, and every handle that was minted led to a visit or was found stale.
On each visit the directory was read once, with the listing that this read answered, and
its pages make up that listing.  Entries and pages are counted accordingly.  If no handle was
supplied twice, then handles were minted for the root and for the directories listed above
the last level, and nothing below that level was visited. -/
theorem walk_accounts_for_evictions {around : Surroundings ι σ}
    (hkept : ∀ lookup, around.lost lookup = false) {maxDepth pageSize : ℕ} {request : String}
    {inner : ι} {limit verifierLimit : Capacity} {totals : Totals}
    (hok : (walk around (.of maxDepth pageSize) request (.new inner limit verifierLimit)).1 =
      .ok totals) :
    let after := (walk around (.of maxDepth pageSize) request (.new inner limit verifierLimit)).2
    let visits := visits after.events
    let reads := answers visits
    totals.restarts = 0 ∧
    totals.directories = visits.length ∧
    totals.directories + totals.staleHandles = after.minted ∧
    (∃ store, (around.service.mount request inner).1 = .ok store ∧
      Answered (fun read => around.readDir read store) reads) ∧
    (∀ visit ∈ visits, ∃ listing pages,
      visit.readings = [⟨listing, pages⟩] ∧ pages.flatten = listing) ∧
    totals.entries = (reads.map fun read => read.2.length).sum ∧
    totals.pages = (reads.map fun read => pageCount (max pageSize 1) read.2.length).sum ∧
    (((List.range after.minted).map around.fresh).Nodup →
      after.minted = 1 + (reads.map fun read =>
        if read.1.length + 1 < maxDepth then read.2.countP Entry.isDir else 0).sum ∧
      ∀ visit ∈ visits, visit.path.length < max 1 maxDepth) := by
  intro after visits reads
  rcases walk_cases around (.of maxDepth pageSize) request (.new inner limit verifierLimit) with
    ⟨failure, inner', hfailed, -⟩ | ⟨store, inner', queue, hmount, hleads⟩
  · rw [hok] at hfailed
    contradiction
  rw [hok] at hleads
  -- every visit is one whole reading, from which all the sums follow
  have honce : ∀ visit ∈ visits, visit.ReadOnce (Bounds.of maxDepth pageSize).pageSize := by
    intro visit hvisit
    rcases readOnce_of_leads hkept hleads visit hvisit with honce | ⟨-, failure, hfailed⟩
    · exact honce
    · contradiction
  have hrestarts := restarts_of_leads hkept hleads
  have hknown : Known around (.of maxDepth pageSize) store
      ⟨.ended (.ok totals), queue, after.unqueued⟩ := Known.of_leads hleads
  obtain ⟨-, hfinished, -, haccounted⟩ := hknown.consistent
  obtain ⟨hqueue, htotals⟩ := hfinished totals rfl
  rw [show queue = [] from hqueue] at haccounted
  rw [← htotals]
  refine ⟨hrestarts, haccounted.directories, haccounted.minted.symm, ⟨store, hmount,
    hknown.answered⟩, ?_, haccounted.entries.trans (sum_entries_of_readOnce honce),
    haccounted.pages.trans (sum_pages_of_readOnce honce), ?_⟩
  · intro visit hvisit
    obtain ⟨reading, hone, hwhole⟩ := honce visit hvisit
    exact ⟨reading.listing, reading.pages, hone,
      hwhole.flatten_pages (Bounds.of maxDepth pageSize).pageSize_pos⟩
  · -- only here is it needed that a handle stands for one directory
    intro hfresh
    have hminted := (hknown.tracked_of_nodup hfresh).traced.length
    refine ⟨hminted.trans (length_issued_of_readOnce honce), fun visit hvisit => ?_⟩
    exact hknown.length_lt hfresh (List.mem_map_of_mem hvisit)

/-- With room for two handles, the first of three directories is stale when its turn comes;
the other two list something else by then than when the root was read. -/
theorem stale_handle_accounted :
    let file : Memory.Node := .file ⟨"f", 7, false, 0⟩
    let directory (name : String) (nodes : List Memory.Node) : Memory.Node :=
      .directory ⟨name, 0, true, 0⟩ nodes
    let early := [directory "a" [file], directory "b" [], directory "c" []]
    let late := [directory "b" [file, directory "x" []], directory "c" [file, file, file]]
    let around : Surroundings (List String) Unit :=
      { service := Memory.Export.service ⟨"none", "stale", ⟨9, 5, 5, 4, 2⟩⟩ ()
        readDir := fun read _ path => Memory.readDir (if read = 0 then early else late) path
        fresh := Handle.ofSeed
        lost := fun _ => false
        lostDrops := false }
    let outcome := walk around (.of 2 2) "/" (.new [] ⟨2, by decide⟩ ⟨1, by decide⟩)
    outcome.1 = .ok ⟨3, 8, 5, 1, 0⟩ ∧ outcome.2.minted = 4 ∧
      ∀ visit ∈ visits outcome.2.events, visit.path.length < 2 := by
  intro file directory early late around outcome
  have hok : outcome.1 = .ok ⟨3, 8, 5, 1, 0⟩ := by decide +kernel
  obtain ⟨-, -, hminted, -, -, -, -, hdepths⟩ := walk_accounts_for_evictions (fun _ => rfl) hok
  have hfour : outcome.2.minted = 4 := hminted.symm
  have hfresh : ((List.range outcome.2.minted).map around.fresh).Nodup := by
    rw [hfour]
    decide
  exact ⟨hok, hfour, (hdepths hfresh).2⟩

end HandleTable.Walk
