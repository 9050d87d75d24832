import HandleTable.Proofs.Walk.PageSize
import HandleTable.Proofs.Walk.Visits

/-!
# What holds at every turn of a walk

Whatever a walk meets, listings that change from one read to the next, lookups that are
lost at any time, handles that are evicted, its counts and its trace agree at every turn
of its loops.

* `Underway` says how the readings of the visited directories stand at a stage.  All
  visits but the last are over; the last one is as far as the stage says, with as many
  broken readings behind it as the read has started over, and the cookie is that of the
  page that comes next.
* `Accounted` says what the counts count: visits, entries and pages that were served,
  readings that were broken off.  Every handle that was minted has been visited, was found
  stale, or still waits.

From these it follows how often a directory is read on one visit, and how many restarts
there can be (`walk_ends_after_few_restarts`).  A directory may have several visits: a
restart queues again what had been served before.
-/

namespace HandleTable.Walk

variable {ι σ : Type}

/-! ## How the readings stand -/

/-- The visits before the last one are over, and of the last one there are only readings
that were broken off, as many as its read has started over. -/
structure Restarting (pageSize : ℕ) (past : List Visit) (readings : List Reading)
    (restarts : ℕ) : Prop where
  earlier : ∀ visit ∈ past, visit.Over pageSize
  broken : ∀ reading ∈ readings, reading.Broken pageSize
  often : readings.length = restarts
  few : restarts ≤ maxRestarts

/-- How the readings of the visited directories stand at a stage. -/
inductive Underway (pageSize : ℕ) (verifiers : Verifiers) : Stage σ → List Visit → Prop
  | next {past : List Visit} (earlier : ∀ visit ∈ past, visit.Over pageSize) :
      Underway pageSize verifiers .next past
  | read {site : Site σ} {past : List Visit} {readings : List Reading}
      (restarting : Restarting pageSize past readings site.restarts) :
      Underway pageSize verifiers (.read site) (past ++ [⟨site.path, readings⟩])
  | page {site : Site σ} {past : List Visit} {readings : List Reading} {listing : Listing}
      {count : ℕ} (restarting : Restarting pageSize past readings site.restarts)
      (kept : verifiers.peek (fingerprint site.path.text listing) =
        some ⟨site.path.text, listing⟩)
      (more : count < pageCount pageSize listing.length) :
      Underway pageSize verifiers
        (.page site (fingerprint site.path.text listing) (count * pageSize))
        (past ++ [⟨site.path, readings ++ [⟨listing, cuts pageSize listing count⟩]⟩])
  | ended {past : List Visit} (totals : Totals) (earlier : ∀ visit ∈ past, visit.Over pageSize) :
      Underway pageSize verifiers (.ended (.ok totals)) past
  | failed {past : List Visit} {readings : List Reading} {restarts : ℕ} (path : Path)
      (failure : Failure) (restarting : Restarting pageSize past readings restarts) :
      Underway pageSize verifiers (.ended (.error failure)) (past ++ [⟨path, readings⟩])

/-- A lookup that finds something finds what stands under the verifier, and leaves it
there. -/
theorem lookUp_of_found {around : Surroundings ι σ} {directory : String} {verifier : Verifier}
    {state : State ι σ} {snapshot : Snapshot} {listing : Listing}
    (hpeek : state.server.verifiers.peek verifier = some snapshot)
    (hfound : (state.lookUp around directory verifier).1 = some listing) :
    listing = snapshot.listing ∧
      (state.lookUp around directory verifier).2.server.verifiers.peek verifier =
        some snapshot := by
  unfold State.lookUp at hfound ⊢
  split at hfound
  · contradiction
  · rename_i hkept
    rw [if_neg hkept]
    simp only [Server.dataForVerifier, Verifiers.lookup_fst, hpeek, Option.map_some,
      Option.some.injEq] at hfound
    refine ⟨hfound.symm, ?_⟩
    simp only [Server.dataForVerifier, Verifiers.lookup, Recency.peek_get, hpeek]

theorem over_append {pageSize : ℕ} {past : List Visit} {last : Visit}
    (hpast : ∀ visit ∈ past, visit.Over pageSize) (hlast : last.Over pageSize) :
    ∀ visit ∈ past ++ [last], visit.Over pageSize := by
  intro visit hvisit
  rcases List.mem_append.mp hvisit with hearlier | hthis
  · exact hpast visit hearlier
  · rwa [List.mem_singleton.mp hthis]

theorem broken_append {pageSize : ℕ} {readings : List Reading} {last : Reading}
    (hreadings : ∀ reading ∈ readings, reading.Broken pageSize) (hlast : last.Broken pageSize) :
    ∀ reading ∈ readings ++ [last], reading.Broken pageSize := by
  intro reading hreading
  rcases List.mem_append.mp hreading with hearlier | hthis
  · exact hreadings reading hearlier
  · rwa [List.mem_singleton.mp hthis]

/-- A loss breaks the last reading off. -/
theorem Underway.lose {pageSize : ℕ} {before after : Verifiers} {site : Site σ}
    {verifier : Verifier} {cookie : ℕ} {visits : List Visit}
    (hunderway : Underway pageSize before (.page site verifier cookie) visits) :
    Underway pageSize after site.afterLoss visits := by
  cases hunderway with
  | @page site past readings listing count hrestarting hkept hmore =>
      have hbroken := broken_append hrestarting.broken
        (⟨count, hmore, rfl⟩ : Reading.Broken pageSize ⟨listing, cuts pageSize listing count⟩)
      have hlength : (readings ++ [Reading.mk listing (cuts pageSize listing count)]).length =
          site.restarts + 1 := by
        rw [List.length_append, List.length_singleton, hrestarting.often]
      unfold Site.afterLoss
      split
      · rename_i hfew
        have hagain : Restarting pageSize past
            (readings ++ [⟨listing, cuts pageSize listing count⟩])
            ({ site with restarts := site.restarts + 1 } : Site σ).restarts :=
          ⟨hrestarting.earlier, hbroken, hlength, hfew⟩
        exact .read hagain
      · rename_i hoften
        have hlast : site.restarts + 1 = maxRestarts + 1 :=
          congrArg Nat.succ (le_antisymm hrestarting.few (not_lt.mp hoften))
        exact .next (over_append hrestarting.earlier (.givenUp hbroken (hlength.trans hlast)))

/-- A page is the next one of the last reading. -/
theorem Underway.serve {bounds : Bounds} {before after : Verifiers} {site : Site σ}
    {verifier : Verifier} {cookie : ℕ} {listing : Listing} {visits : List Visit}
    (hunderway : Underway bounds.pageSize before (.page site verifier cookie) visits)
    (hkept : ∀ snapshot, before.peek verifier = some snapshot →
      listing = snapshot.listing ∧ after.peek verifier = some snapshot) :
    Underway bounds.pageSize after (site.afterPage bounds verifier cookie listing)
      (visits.modifyLast (Visit.turn ((listing.drop cookie).take bounds.pageSize))) := by
  cases hunderway with
  | @page site past readings found count hrestarting hpeek hmore =>
      obtain ⟨rfl, hstill⟩ := hkept _ hpeek
      rw [Visit.turn_last, ← cuts_succ]
      unfold Site.afterPage
      split
      · rename_i hends
        have hlast : count + 1 = pageCount bounds.pageSize listing.length :=
          le_antisymm hmore ((pageCount_le_succ_iff bounds.pageSize_pos ..).mpr hends)
        refine .next (over_append hrestarting.earlier
          (.read hrestarting.broken (hrestarting.often.trans_le hrestarting.few) ?_))
        exact congrArg (cuts bounds.pageSize listing) hlast
      · rename_i hgoes
        rw [← pageCount_le_succ_iff bounds.pageSize_pos, not_le] at hgoes
        rw [← Nat.succ_mul]
        exact .page hrestarting hstill hgoes

theorem Underway.step {around : Surroundings ι σ} {bounds : Bounds} {before after : Loops ι σ}
    (hstep : Step around bounds before after)
    (hbefore : Underway bounds.pageSize before.state.server.verifiers before.stage
      before.state.visits) :
    Underway bounds.pageSize after.state.server.verifiers after.stage after.state.visits := by
  cases hstep with
  | stay => exact hbefore
  | finish state =>
      cases hbefore with
      | next hover => exact .ended _ hover
  | @skip handle state failure depth rest hstale =>
      rw [State.visits_skipped]
      cases hbefore with
      | next hover => exact .next hover
  | @enter handle state target depth rest hlive =>
      rw [State.visits_entered]
      cases hbefore with
      | next hover =>
          -- a visit begins without readings
          have hfirst : Restarting bounds.pageSize state.visits []
              (⟨target.store, target.path, depth, 0⟩ : Site σ).restarts :=
            ⟨hover, List.forall_mem_nil _, rfl, Nat.zero_le _⟩
          exact .read hfirst
  | @fail site state failure queue hfailed =>
      rw [show state.failed.visits = state.visits from rfl]
      generalize state.visits = visits at hbefore ⊢
      cases hbefore with
      | read hrestarting => exact .failed _ _ hrestarting
  | @opened site state listing queue hread =>
      have hkept := state.peek_opened site.path listing
      rw [State.visits_opened]
      generalize state.visits = visits at hbefore ⊢
      cases hbefore with
      | read hrestarting =>
          rw [Visit.reread_last, ← Nat.zero_mul bounds.pageSize]
          exact .page hrestarting hkept (Nat.lt_of_lt_of_le Nat.zero_lt_one (le_max_left ..))
  | @lose site verifier state cookie queue hmissing =>
      rw [State.visits_restarted]
      exact hbefore.lose
  | @serve site verifier state listing cookie queue hfound =>
      -- what is found is the snapshot, and it can be found again
      have hkept : ∀ snapshot, state.server.verifiers.peek verifier = some snapshot →
          listing = snapshot.listing ∧
            (state.served around bounds site verifier cookie listing).server.verifiers.peek
              verifier = some snapshot := by
        intro snapshot hpeek
        obtain ⟨hlisting, hstill⟩ := lookUp_of_found hpeek hfound
        refine ⟨hlisting, ?_⟩
        rw [State.served, State.verifiers_takePage]
        exact hstill
      rw [State.visits_unqueued, State.visits_served]
      exact hbefore.serve hkept

/-! ## What the counts count -/

/-- Whether a reading has begun of which it is open how it ends. -/
def Stage.pending : Stage σ → ℕ
  | .page .. => 1
  | .next | .read _ | .ended _ => 0

/-- Whether the last read was refused. -/
def Stage.refused : Stage σ → ℕ
  | .ended (.error _) => 1
  | .ended (.ok _) | .next | .read _ | .page .. => 0

/-- The counts agree with the visits, and every handle that was minted has been visited, was
found stale, or waits. -/
structure Accounted (pageSize : ℕ) (stage : Stage σ) (visits : List Visit) (totals : Totals)
    (minted reads waiting : ℕ) : Prop where
  directories : totals.directories = visits.length
  entries : totals.entries = (visits.map Visit.entries).sum
  pages : totals.pages = (visits.map Visit.pages).sum
  restarts : totals.restarts + stage.pending = (visits.map (Visit.losses pageSize)).sum
  reads : reads = (answers visits).length + stage.refused
  minted : minted = totals.directories + totals.staleHandles + waiting

section Served

variable (around : Surroundings ι σ) (bounds : Bounds)

theorem frontier_lookUp (directory : String) (verifier : Verifier) (state : State ι σ) :
    (state.lookUp around directory verifier).2.frontier = state.frontier := by
  unfold State.lookUp
  split
  · cases hdrops : around.lostDrops state.lookups <;> rfl
  · rfl

theorem served_lookUp (fresh : ℕ → Handle) (store : σ) (directory : String) (verifier : Verifier)
    (state : State ι σ) :
    Served fresh store [] 0 0 state (state.lookUp around directory verifier).2 := by
  refine ⟨frontier_lookUp around directory verifier state, ?_, ?_⟩
  · unfold State.lookUp
    split <;> rfl
  · unfold State.lookUp
    split <;> simp [State.visited, State.events, Event.entered?]

/-- What a turn that serves a page mints and counts. -/
theorem served_served (site : Site σ) (verifier : Verifier) (cookie : ℕ) (listing : Listing)
    (state : State ι σ) :
    Served around.fresh site.store
      (children bounds site.depth site.path ((listing.drop cookie).take bounds.pageSize))
      ((listing.drop cookie).take bounds.pageSize).length 1 state
      (state.served around bounds site verifier cookie listing) := by
  have hall := (served_lookUp around around.fresh site.store site.path.text verifier state).trans
    (served_takePage around bounds site.store site.path site.depth cookie
      ((listing.drop cookie).take bounds.pageSize) _)
  rw [List.nil_append, Nat.zero_add, Nat.zero_add] at hall
  exact hall

end Served

theorem Frontier.queue_issueAll (fresh : ℕ → Handle) (store : σ) (frontier : Frontier σ)
    (paths : List Path) :
    (frontier.issueAll fresh store paths).queue =
      frontier.queue ++ (List.range' frontier.minted paths.length).map fresh := by
  induction paths generalizing frontier with
  | nil => simp [issueAll]
  | cons path rest ih =>
      have hrest := ih (frontier.issue fresh store path)
      rw [List.length_cons, List.range'_succ, List.map_cons, List.append_cons]
      exact hrest

section Counts

variable (around : Surroundings ι σ) (bounds : Bounds) (site : Site σ) (verifier : Verifier)

theorem restarted_counts (state : State ι σ) :
    (state.restarted around site verifier).totals = state.totals + ⟨0, 0, 0, 0, 1⟩ ∧
      (state.restarted around site verifier).minted = state.minted ∧
      (state.restarted around site verifier).reads = state.reads := by
  unfold State.restarted State.lookUp
  dsimp only
  split <;> exact ⟨rfl, rfl, rfl⟩

theorem served_counts (cookie : ℕ) (listing : Listing) (state : State ι σ) :
    let page := (listing.drop cookie).take bounds.pageSize
    let after := state.served around bounds site verifier cookie listing
    let more := (children bounds site.depth site.path page).length
    after.minted = state.minted + more ∧
      after.queue = state.queue ++ (List.range' state.minted more).map around.fresh ∧
      after.totals = state.totals + ⟨0, page.length, 1, 0, 0⟩ ∧ after.reads = state.reads := by
  intro page after more
  obtain ⟨hfrontier, htotals, -⟩ := served_served around bounds site verifier cookie listing state
  have hminted := congrArg Frontier.minted hfrontier
  have hqueue := congrArg Frontier.queue hfrontier
  rw [Frontier.minted_issueAll] at hminted
  rw [Frontier.queue_issueAll] at hqueue
  have hlooked : (state.lookUp around site.path.text verifier).2.reads = state.reads := by
    unfold State.lookUp
    split <;> rfl
  exact ⟨hminted, hqueue, htotals, (settled_takePage ..).reads.trans hlooked⟩

end Counts

namespace Accounted

variable {pageSize : ℕ} {visits : List Visit} {totals : Totals} {minted reads waiting : ℕ}

theorem skip
    (haccounted : Accounted pageSize (.next : Stage σ) visits totals minted reads (waiting + 1)) :
    Accounted pageSize (.next : Stage σ) visits (totals + ⟨0, 0, 0, 1, 0⟩) minted reads waiting :=
  { haccounted with
    minted := by
      rw [haccounted.minted]
      simp only [Totals.add_def]
      omega }

theorem enter
    (haccounted : Accounted pageSize (.next : Stage σ) visits totals minted reads (waiting + 1))
    (site : Site σ) :
    Accounted pageSize (.read site) (visits ++ [⟨site.path, []⟩]) (totals + ⟨1, 0, 0, 0, 0⟩) minted
      reads waiting where
  directories := by simp [Totals.add_def, haccounted.directories]
  entries := by simp [Totals.add_def, haccounted.entries, Visit.entries]
  pages := by simp [Totals.add_def, haccounted.pages, Visit.pages]
  restarts := by
    have hrestarts := haccounted.restarts
    simpa [Totals.add_def, Visit.losses, Stage.pending] using hrestarts
  reads := by
    have hreads := haccounted.reads
    simpa [Stage.refused] using hreads
  minted := by
    rw [haccounted.minted]
    simp only [Totals.add_def]
    omega

theorem opened {site : Site σ} {past : List Visit} {readings : List Reading}
    (haccounted : Accounted pageSize (.read site) (past ++ [⟨site.path, readings⟩]) totals minted
      reads waiting) (verifier : Verifier) (listing : Listing) :
    Accounted pageSize (.page site verifier 0) (past ++ [⟨site.path, readings ++ [⟨listing, []⟩]⟩])
      totals minted (reads + 1) waiting where
  directories := by simpa using haccounted.directories
  entries := by simpa [Visit.entries] using haccounted.entries
  pages := by simpa [Visit.pages] using haccounted.pages
  restarts := by
    have hrestarts := haccounted.restarts
    have hlost : Reading.lost pageSize ⟨listing, []⟩ = true := by simp [Reading.lost, pageCount]
    simp only [Stage.pending, Visit.losses, List.map_append, List.map_singleton, List.sum_append,
      List.sum_singleton, List.countP_append, List.countP_singleton, hlost, if_true] at hrestarts ⊢
    omega
  reads := by
    have hreads := haccounted.reads
    simp only [Stage.refused, answers_append, answers_singleton, List.length_append,
      List.length_map, List.length_singleton] at hreads ⊢
    omega
  minted := haccounted.minted

theorem lose {site : Site σ} {verifier : Verifier} {cookie : ℕ}
    (haccounted : Accounted pageSize (.page site verifier cookie) visits totals minted reads
      waiting) :
    Accounted pageSize site.afterLoss visits (totals + ⟨0, 0, 0, 0, 1⟩) minted reads waiting := by
  have hstage : site.afterLoss.pending = 0 ∧ site.afterLoss.refused = 0 := by
    unfold Site.afterLoss
    split <;> exact ⟨rfl, rfl⟩
  refine ⟨haccounted.directories, haccounted.entries, haccounted.pages, ?_, ?_, haccounted.minted⟩
  · rw [hstage.1]
    exact haccounted.restarts
  · rw [hstage.2]
    exact haccounted.reads

/-- After the last page the reading is whole, and otherwise it stays open. -/
theorem serve {bounds : Bounds} {site : Site σ} {verifier verifier' : Verifier} {past : List Visit}
    {readings : List Reading} {listing : Listing} {count : ℕ}
    (hmore : count < pageCount bounds.pageSize listing.length)
    (haccounted : Accounted bounds.pageSize (.page site verifier (count * bounds.pageSize))
      (past ++ [⟨site.path, readings ++ [⟨listing, cuts bounds.pageSize listing count⟩]⟩])
      totals minted reads waiting) (more : ℕ) :
    Accounted bounds.pageSize
      (site.afterPage bounds verifier' (count * bounds.pageSize) listing)
      (past ++ [⟨site.path, readings ++ [⟨listing, cuts bounds.pageSize listing (count + 1)⟩]⟩])
      (totals +
        ⟨0, ((listing.drop (count * bounds.pageSize)).take bounds.pageSize).length, 1, 0, 0⟩)
      (minted + more) reads (waiting + more) := by
  obtain ⟨hdirectories, hentries, hpages, hrestarts, hreads, hminted⟩ := haccounted
  have hstage :
      (site.afterPage bounds verifier' (count * bounds.pageSize) listing).refused = 0 := by
    unfold Site.afterPage
    split <;> rfl
  -- a reading counts as lost while pages are missing, and as pending while it can go on
  have hopen : (site.afterPage bounds verifier' (count * bounds.pageSize) listing).pending =
      if count + 1 < pageCount bounds.pageSize listing.length then 1 else 0 := by
    have hiff := pageCount_le_succ_iff bounds.pageSize_pos listing.length count
    unfold Site.afterPage
    split
    · rename_i hends
      rw [if_neg (not_lt.mpr (hiff.mpr hends))]
      rfl
    · rename_i hgoes
      rw [if_pos (not_le.mp (mt hiff.mp hgoes))]
      rfl
  refine ⟨?_, ?_, ?_, ?_, ?_, ?_⟩
  · simpa [Totals.add_def] using hdirectories
  · rw [cuts_succ]
    simp only [Totals.add_def, Visit.entries, List.map_append, List.map_singleton, List.sum_append,
      List.sum_singleton, List.flatten_append, List.flatten_singleton, List.length_append]
      at hentries ⊢
    omega
  · simp only [Totals.add_def, Visit.pages, List.map_append, List.map_singleton, List.sum_append,
      List.sum_singleton, length_cuts] at hpages ⊢
    omega
  · simp only [Stage.pending, Visit.losses, List.map_append, List.map_singleton, List.sum_append,
      List.sum_singleton, List.countP_append, List.countP_singleton, Reading.lost, length_cuts,
      decide_eq_true_iff, if_pos hmore] at hrestarts
    simp only [Totals.add_def, hopen, Visit.losses, List.map_append, List.map_singleton,
      List.sum_append, List.sum_singleton, List.countP_append, List.countP_singleton,
      Reading.lost, length_cuts, decide_eq_true_iff]
    omega
  · rw [hstage]
    simpa [Stage.refused] using hreads
  · rw [hminted]
    simp only [Totals.add_def]
    omega

theorem step {around : Surroundings ι σ} {bounds : Bounds} {before after : Loops ι σ}
    (hstep : Step around bounds before after) (hqueue : before.state.queue = [])
    (hunderway : Underway bounds.pageSize before.state.server.verifiers before.stage
      before.state.visits)
    (hbefore : Accounted bounds.pageSize before.stage before.state.visits before.state.totals
      before.state.minted before.state.reads before.queue.length) :
    Accounted bounds.pageSize after.stage after.state.visits after.state.totals
      after.state.minted after.state.reads after.queue.length := by
  cases hstep with
  | stay => exact hbefore
  | finish state => exact { hbefore with }
  | @skip handle state failure depth rest hstale =>
      rw [State.visits_skipped]
      exact hbefore.skip
  | @enter handle state target depth rest hlive =>
      rw [State.visits_entered]
      exact hbefore.enter ⟨target.store, target.path, depth, 0⟩
  | @fail site state failure queue hfailed =>
      exact { hbefore with reads := congrArg Nat.succ hbefore.reads }
  | @opened site state listing queue hread =>
      rw [State.visits_opened]
      generalize state.visits = visits at hunderway hbefore ⊢
      cases hunderway with
      | read hrestarting =>
          rw [Visit.reread_last]
          exact hbefore.opened _ listing
  | @lose site verifier state cookie queue hmissing =>
      obtain ⟨htotals, hminted, hreads⟩ := restarted_counts around site verifier state
      rw [State.visits_restarted, htotals, hminted, hreads]
      exact hbefore.lose
  | @serve site verifier state listing cookie queue hfound =>
      obtain ⟨hminted, hqueued, htotals, hreads⟩ :=
        served_counts around bounds site verifier cookie listing state
      rw [hqueue, List.nil_append] at hqueued
      rw [State.visits_unqueued, State.visits_served, List.length_append, List.length_map,
        State.unqueued, hminted, hqueued, htotals, hreads, List.length_map, List.length_range']
      generalize state.visits = visits at hunderway hbefore ⊢
      cases hunderway with
      | @page _ past readings found count hrestarting hpeek hmore =>
          obtain ⟨rfl, -⟩ := lookUp_of_found hpeek hfound
          rw [Visit.turn_last, ← cuts_succ]
          exact hbefore.serve hmore _

end Accounted

/-! ## Every walk -/

/-- What holds at every turn of a walk. -/
structure Consistent (bounds : Bounds) (loops : Loops ι σ) : Prop where
  inDepth : InDepth bounds.maxDepth loops
  finished : Finished loops
  underway : Underway bounds.pageSize loops.state.server.verifiers loops.stage loops.state.visits
  accounted : Accounted bounds.pageSize loops.stage loops.state.visits loops.state.totals
    loops.state.minted loops.state.reads loops.queue.length

protected theorem Consistent.step {around : Surroundings ι σ} {bounds : Bounds}
    {before after : Loops ι σ} (hstep : Step around bounds before after)
    (hbefore : Consistent bounds before) : Consistent bounds after where
  inDepth := hbefore.inDepth.step hstep
  finished := hbefore.finished.step hstep
  underway := hbefore.underway.step hstep
  accounted := hbefore.accounted.step hstep hbefore.inDepth.apart hbefore.underway

theorem consistent_rooted (around : Surroundings ι σ) (bounds : Bounds) (store : σ)
    (server : Server ι σ) : Consistent bounds (.rooted around store server) where
  inDepth := by
    refine ⟨rfl, fun item hitem => Or.inl ?_⟩
    obtain ⟨handle, -, rfl⟩ := List.mem_map.mp hitem
    rfl
  finished := nofun
  underway := .next (List.forall_mem_nil _)
  accounted := ⟨rfl, rfl, rfl, rfl, rfl, rfl⟩

theorem Consistent.of_leads {around : Surroundings ι σ} {bounds : Bounds} {store : σ}
    {server : Server ι σ} {loops : Loops ι σ}
    (hleads : Leads around bounds (.rooted around store server) loops) : Consistent bounds loops :=
  hleads.keeps _ Consistent.step (consistent_rooted around bounds store server)

theorem Restarting.length_readings_le {pageSize : ℕ} {past : List Visit} {readings : List Reading}
    {restarts : ℕ} (hrestarting : Restarting pageSize past readings restarts) {last : Visit}
    (hlast : last.readings.length ≤ readings.length + 1) :
    ∀ visit ∈ past ++ [last], visit.readings.length ≤ maxRestarts + 1 := by
  intro visit hvisit
  rcases List.mem_append.mp hvisit with hearlier | hthis
  · exact (hrestarting.earlier visit hearlier).length_readings_le
  · rw [List.mem_singleton.mp hthis]
    rw [hrestarting.often] at hlast
    exact hlast.trans (Nat.succ_le_succ hrestarting.few)

theorem Underway.length_readings_le {pageSize : ℕ} {verifiers : Verifiers} {stage : Stage σ}
    {visits : List Visit} (hunderway : Underway pageSize verifiers stage visits) :
    ∀ visit ∈ visits, visit.readings.length ≤ maxRestarts + 1 := by
  cases hunderway with
  | next hover | ended totals hover =>
      exact fun visit hvisit => (hover visit hvisit).length_readings_le
  | read hrestarting | failed path failure hrestarting =>
      exact hrestarting.length_readings_le (Nat.le_succ _)
  | page hrestarting =>
      refine hrestarting.length_readings_le ?_
      rw [List.length_append, List.length_singleton]

/-- Every restart follows on a reading. -/
theorem Consistent.restarts_le {bounds : Bounds} {loops : Loops ι σ}
    (hconsistent : Consistent bounds loops) :
    loops.state.totals.restarts ≤ (maxRestarts + 1) * loops.state.totals.directories := by
  have hlosses : ∀ losses ∈ loops.state.visits.map (Visit.losses bounds.pageSize),
      losses ≤ maxRestarts + 1 := by
    intro losses hmem
    obtain ⟨visit, hvisit, rfl⟩ := List.mem_map.mp hmem
    exact List.countP_le_length.trans (hconsistent.underway.length_readings_le visit hvisit)
  calc loops.state.totals.restarts
      ≤ loops.state.totals.restarts + loops.stage.pending := Nat.le_add_right ..
    _ = (loops.state.visits.map (Visit.losses bounds.pageSize)).sum :=
        hconsistent.accounted.restarts
    _ ≤ (loops.state.visits.map (Visit.losses bounds.pageSize)).length • (maxRestarts + 1) :=
        List.sum_le_card_nsmul _ _ hlosses
    _ = (maxRestarts + 1) * loops.state.totals.directories := by
        rw [List.length_map, smul_eq_mul, Nat.mul_comm, hconsistent.accounted.directories]

/-- **A walk ends, and its restarts are bounded.**  Whatever an export answers, however much
its listings change, and whichever lookups are lost: the loops of a walk come to an end
after finitely many turns.  On one visit, a directory is read at most once more than a
read may start over; when the walk ends with a read that is refused, that read is among
these.  A directory that a restart has queued again is visited again, and the bound holds
on each of these visits.  When the walk ends without a failure, there were no more restarts
than so many for each visit. -/
theorem walk_ends_after_few_restarts (around : Surroundings ι σ) (maxDepth pageSize : ℕ)
    (request : String) (server : Server ι σ) :
    let bounds := Bounds.of maxDepth pageSize
    let outcome := walk around bounds request server
    let visits := visits outcome.2.events
    (∃ turns queue, (Loops.step around bounds)^[turns] (.start around request server) =
      ⟨.ended outcome.1, queue, outcome.2.unqueued⟩) ∧
    (∀ visit ∈ visits, visit.readings.length ≤ maxRestarts + 1) ∧
    match outcome.1 with
    | .ok totals => outcome.2.reads = (answers visits).length ∧
        totals.directories = visits.length ∧
        totals.restarts ≤ (maxRestarts + 1) * totals.directories
    | .error _ => ∀ last ∈ visits.getLast?, last.readings.length ≤ maxRestarts ∧
        outcome.2.reads = (answers visits).length + 1 := by
  intro bounds outcome visits
  obtain ⟨queue, turns, hends⟩ := leads_walk around bounds request server
  refine ⟨⟨turns, queue, hends⟩, ?_⟩
  rcases walk_cases around bounds request server with
    ⟨failure, inner, hfailed, hstate⟩ | ⟨store, inner, queue', -, hleads⟩
  · have hnone : visits = [] := congrArg State.visits hstate
    rw [hnone, show outcome.1 = .error failure from hfailed]
    exact ⟨List.forall_mem_nil _, nofun⟩
  · have hconsistent := Consistent.of_leads hleads
    refine ⟨hconsistent.underway.length_readings_le, ?_⟩
    cases hresult : outcome.1 with
    | ok totals =>
        rw [show (walk around bounds request server).1 = .ok totals from hresult] at hconsistent
        obtain ⟨-, htotals⟩ := hconsistent.finished totals rfl
        rw [← htotals]
        exact ⟨hconsistent.accounted.reads, hconsistent.accounted.directories,
          hconsistent.restarts_le⟩
    | error failure =>
        rw [show (walk around bounds request server).1 = .error failure from hresult] at hconsistent
        have hunderway := hconsistent.underway
        have hvisits : (walk around bounds request server).2.unqueued.visits = visits := rfl
        rw [hvisits] at hunderway
        -- the read that was refused is one more than the readings
        intro last hlast
        refine ⟨?_, hconsistent.accounted.reads⟩
        generalize visits = visited at hunderway hlast
        cases hunderway with
        | failed path failure hrestarting =>
            rw [List.getLast?_append_of_ne_nil _ (List.cons_ne_nil _ _)] at hlast
            cases hlast
            exact hrestarting.often.trans_le hrestarting.few

end HandleTable.Walk
