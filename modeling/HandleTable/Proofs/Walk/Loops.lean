import HandleTable.Proofs.Walk.Recounting
import Mathlib.Logic.Function.Iterate

/-!
# The loops of a walk

A walk is described by recursion: over the levels, the handles of a level, the reads of a
directory and the pages of a listing.  Here it is described once more as the three
loops that a machine goes through, with one queue for all levels, in which each handle
stands together with the depth of its directory.  `Loops.step` is one turn of one of
these loops.

Both descriptions come to the same: from where a walk starts, finitely many turns lead to
its end, with the result and the state of `walk` (`walk_ends`).  So what one turn keeps
holds of the end of every walk (`walk_induction`), and `Step` says all that one turn can
do.

That the levels of the recursion are stretches of the one queue is seen as follows: at any
time, the queue holds what is left of the present level, and then what has been queued for
the next one (`State.running`).  A level ends when its last handle has been taken; as
nothing is queued below the last level (`InDepth`), the recursion over the levels ends
when the queue is empty.
-/

namespace HandleTable.Walk

variable {ι σ : Type}

/-! ## One turn -/

/-- A directory that is being read: where it is, at which depth its handle was queued, and
how often its read has started over on this visit. -/
structure Site (σ : Type) where
  store : σ
  path : Path
  depth : ℕ
  restarts : ℕ

/-- Where a walk stands in its loops. -/
inductive Stage (σ : Type) where
  /-- The next handle is to be taken from the queue. -/
  | next
  /-- A directory is to be read. -/
  | read (site : Site σ)
  /-- A page is to be served from the listing under a verifier. -/
  | page (site : Site σ) (verifier : Verifier) (cookie : ℕ)
  /-- The walk is over. -/
  | ended (result : Except Failure Totals)

/-- A walk between two turns of its loops. -/
structure Loops (ι σ : Type) where
  stage : Stage σ
  queue : List (Handle × ℕ)
  state : State ι σ

/-- After a loss the read starts over, or the directory is given up. -/
def Site.afterLoss (site : Site σ) : Stage σ :=
  if site.restarts < maxRestarts then .read { site with restarts := site.restarts + 1 } else .next

/-- After a page comes the next one, or the next handle. -/
def Site.afterPage (site : Site σ) (bounds : Bounds) (verifier : Verifier) (cookie : ℕ)
    (listing : Listing) : Stage σ :=
  if listing.length ≤ cookie + bounds.pageSize then .next
  else .page site verifier (cookie + bounds.pageSize)

namespace State

/-- The state once a stale handle has been skipped. -/
def skipped (state : State ι σ) (handle : Handle) : State ι σ :=
  { state with
    server := (state.server.fromHandle handle.bytes).2
    totals := { state.totals with staleHandles := state.totals.staleHandles + 1 }
    trace := .stale :: state.trace }

/-- The state once a directory could not be read. -/
def failed (state : State ι σ) : State ι σ :=
  { state with reads := state.reads + 1 }

/-- The state once a lookup that found nothing has been counted. -/
def restarted (around : Surroundings ι σ) (site : Site σ) (verifier : Verifier)
    (state : State ι σ) : State ι σ :=
  let looked := (state.lookUp around site.path.text verifier).2
  { looked with totals := { looked.totals with restarts := looked.totals.restarts + 1 } }

/-- The state once a page has been looked up and served. -/
def served (around : Surroundings ι σ) (bounds : Bounds) (site : Site σ) (verifier : Verifier)
    (cookie : ℕ) (listing : Listing) (state : State ι σ) : State ι σ :=
  (state.lookUp around site.path.text verifier).2.takePage around bounds site.store site.path
    site.depth cookie ((listing.drop cookie).take bounds.pageSize)

/-- The state with an empty queue: in the loops, the queue is kept apart. -/
def unqueued (state : State ι σ) : State ι σ :=
  { state with queue := [] }

end State

namespace Loops

/-- One turn of the loops.  What a page has queued is moved to the end of the one queue. -/
def step (around : Surroundings ι σ) (bounds : Bounds) (loops : Loops ι σ) : Loops ι σ :=
  match loops.stage with
  | .ended _ => loops
  | .next =>
    match loops.queue with
    | [] => ⟨.ended (.ok loops.state.totals), [], loops.state⟩
    | (handle, depth) :: rest =>
      match (loops.state.server.fromHandle handle.bytes).1 with
      | .error _ => ⟨.next, rest, loops.state.skipped handle⟩
      | .ok target =>
        ⟨.read ⟨target.store, target.path, depth, 0⟩, rest, loops.state.entered handle target.path⟩
  | .read site =>
    match around.readDir loops.state.reads site.store site.path with
    | .error failure => ⟨.ended (.error failure), loops.queue, loops.state.failed⟩
    | .ok listing =>
      ⟨.page site (loops.state.server.verifierFor site.path.text listing).1 0, loops.queue,
        loops.state.opened site.path listing⟩
  | .page site verifier cookie =>
    match (loops.state.lookUp around site.path.text verifier).1 with
    | none => ⟨site.afterLoss, loops.queue, loops.state.restarted around site verifier⟩
    | some listing =>
      let served := loops.state.served around bounds site verifier cookie listing
      ⟨site.afterPage bounds verifier cookie listing,
        loops.queue ++ served.queue.map fun handle => (handle, site.depth + 1), served.unqueued⟩

/-- A walk that is about to visit the root of a store. -/
def rooted (around : Surroundings ι σ) (store : σ) (server : Server ι σ) : Loops ι σ :=
  let state := (State.start server).enqueue around store [] 0
  ⟨.next, state.queue.map fun handle => (handle, 0), state.unqueued⟩

/-- Where a walk that finds a server starts: at the root, or at its end when the export
cannot be mounted or its usage cannot be told. -/
def start (around : Surroundings ι σ) (request : String) (server : Server ι σ) : Loops ι σ :=
  match server.mount around.service request with
  | (.error failure, server) => ⟨.ended (.error failure), [], .start server⟩
  | (.ok store, server) =>
    match server.usage around.service store [] with
    | (.error failure, server) => ⟨.ended (.error failure), [], .start server⟩
    | (.ok _, server) => .rooted around store server

/-- Whether a walk gets as far as the root is decided by the export service. -/
theorem start_cases (around : Surroundings ι σ) (request : String) (server : Server ι σ) :
    (∃ failure inner, start around request server =
      ⟨.ended (.error failure), [], .start { server with inner := inner }⟩) ∨
    ∃ store inner, (around.service.mount request server.inner).1 = .ok store ∧
      start around request server = .rooted around store { server with inner := inner } := by
  unfold start
  cases hmount : (around.service.mount request server.inner).1 with
  | error failure =>
      simp only [Server.mount, hmount]
      exact Or.inl ⟨failure, _, rfl⟩
  | ok store =>
      let mounted := (around.service.mount request server.inner).2
      cases husage : (around.service.usage store [] mounted).1 with
      | error failure =>
          simp only [Server.mount, Server.usage, hmount, husage, mounted]
          exact Or.inl ⟨failure, _, rfl⟩
      | ok usage =>
          simp only [Server.mount, Server.usage, hmount, husage, mounted]
          exact Or.inr ⟨store, _, rfl, rfl⟩

end Loops

/-- What one turn can do. -/
inductive Step (around : Surroundings ι σ) (bounds : Bounds) : Loops ι σ → Loops ι σ → Prop
  | stay (result : Except Failure Totals) (queue : List (Handle × ℕ)) (state : State ι σ) :
      Step around bounds ⟨.ended result, queue, state⟩ ⟨.ended result, queue, state⟩
  | finish (state : State ι σ) :
      Step around bounds ⟨.next, [], state⟩ ⟨.ended (.ok state.totals), [], state⟩
  | skip {handle : Handle} {state : State ι σ} {failure : HandleError} (depth : ℕ)
      (rest : List (Handle × ℕ))
      (stale : (state.server.fromHandle handle.bytes).1 = .error failure) :
      Step around bounds ⟨.next, (handle, depth) :: rest, state⟩
        ⟨.next, rest, state.skipped handle⟩
  | enter {handle : Handle} {state : State ι σ} {target : Target σ} (depth : ℕ)
      (rest : List (Handle × ℕ)) (live : (state.server.fromHandle handle.bytes).1 = .ok target) :
      Step around bounds ⟨.next, (handle, depth) :: rest, state⟩
        ⟨.read ⟨target.store, target.path, depth, 0⟩, rest, state.entered handle target.path⟩
  | fail {site : Site σ} {state : State ι σ} {failure : Failure} (queue : List (Handle × ℕ))
      (failed : around.readDir state.reads site.store site.path = .error failure) :
      Step around bounds ⟨.read site, queue, state⟩
        ⟨.ended (.error failure), queue, state.failed⟩
  | opened {site : Site σ} {state : State ι σ} {listing : Listing} (queue : List (Handle × ℕ))
      (read : around.readDir state.reads site.store site.path = .ok listing) :
      Step around bounds ⟨.read site, queue, state⟩
        ⟨.page site (fingerprint site.path.text listing) 0, queue, state.opened site.path listing⟩
  | lose {site : Site σ} {verifier : Verifier} {state : State ι σ} (cookie : ℕ)
      (queue : List (Handle × ℕ))
      (missing : (state.lookUp around site.path.text verifier).1 = none) :
      Step around bounds ⟨.page site verifier cookie, queue, state⟩
        ⟨site.afterLoss, queue, state.restarted around site verifier⟩
  | serve {site : Site σ} {verifier : Verifier} {state : State ι σ} {listing : Listing}
      (cookie : ℕ) (queue : List (Handle × ℕ))
      (found : (state.lookUp around site.path.text verifier).1 = some listing) :
      Step around bounds ⟨.page site verifier cookie, queue, state⟩
        ⟨site.afterPage bounds verifier cookie listing,
          queue ++ (state.served around bounds site verifier cookie listing).queue.map
            fun handle => (handle, site.depth + 1),
          (state.served around bounds site verifier cookie listing).unqueued⟩

theorem Step.of_step (around : Surroundings ι σ) (bounds : Bounds) (loops : Loops ι σ) :
    Step around bounds loops (loops.step around bounds) := by
  obtain ⟨stage, queue, state⟩ := loops
  unfold Loops.step
  dsimp only
  cases stage with
  | ended result => exact .stay result queue state
  | next =>
      cases queue with
      | nil => exact .finish state
      | cons item rest =>
          obtain ⟨handle, depth⟩ := item
          dsimp only
          split
          · rename_i hstale
            exact .skip depth rest hstale
          · rename_i hlive
            exact .enter depth rest hlive
  | read site =>
      dsimp only
      split
      · rename_i hfailed
        exact .fail queue hfailed
      · rename_i hread
        exact .opened queue hread
  | page site verifier cookie =>
      dsimp only
      split
      · rename_i hmissing
        exact .lose cookie queue hmissing
      · rename_i hfound
        exact .serve cookie queue hfound

/-- There is only one thing that a turn can do. -/
theorem Step.eq_step {around : Surroundings ι σ} {bounds : Bounds} {before after : Loops ι σ}
    (hstep : Step around bounds before after) : before.step around bounds = after := by
  cases hstep with
  | stay | finish => rfl
  | skip depth rest hstale => simp only [Loops.step, hstale]
  | enter depth rest hlive => simp only [Loops.step, hlive]
  | fail queue hfailed => simp only [Loops.step, hfailed]
  | opened queue hread =>
      simp only [Loops.step, hread]
      rfl
  | lose cookie queue hmissing => simp only [Loops.step, hmissing]
  | serve cookie queue hfound => simp only [Loops.step, hfound]

/-! ## Many turns -/

/-- Some number of turns leads from one point of a walk to another. -/
def Leads (around : Surroundings ι σ) (bounds : Bounds) (first last : Loops ι σ) : Prop :=
  ∃ turns, (Loops.step around bounds)^[turns] first = last

section Leads

variable {around : Surroundings ι σ} {bounds : Bounds} {first middle last : Loops ι σ}

protected theorem Leads.refl (loops : Loops ι σ) : Leads around bounds loops loops :=
  ⟨0, rfl⟩

protected theorem Leads.trans (hfirst : Leads around bounds first middle)
    (hsecond : Leads around bounds middle last) : Leads around bounds first last := by
  obtain ⟨turns, hturns⟩ := hfirst
  obtain ⟨turns', hturns'⟩ := hsecond
  refine ⟨turns' + turns, ?_⟩
  rw [Function.iterate_add_apply, hturns, hturns']

protected theorem Step.leads (hstep : Step around bounds first last) :
    Leads around bounds first last :=
  ⟨1, hstep.eq_step⟩

/-- What every turn keeps is kept by any number of turns. -/
theorem Leads.keeps (hleads : Leads around bounds first last) (kept : Loops ι σ → Prop)
    (hstep : ∀ {before after : Loops ι σ}, Step around bounds before after → kept before →
      kept after) (hfirst : kept first) : kept last := by
  obtain ⟨turns, rfl⟩ := hleads
  exact Function.Iterate.rec kept hfirst
    (fun loops => hstep (Step.of_step around bounds loops)) turns

end Leads

/-! ## The queue -/

theorem queue_takePage_of_last {around : Surroundings ι σ} {bounds : Bounds} {depth : ℕ}
    (hlast : ¬ depth + 1 < bounds.maxDepth) (store : σ) (path : Path) (cookie : ℕ) (page : Listing)
    (state : State ι σ) :
    (state.takePage around bounds store path depth cookie page).queue = state.queue := by
  have hserved := (served_takePage around bounds store path depth cookie page state).frontier
  rw [children, if_neg hlast] at hserved
  exact congrArg Frontier.queue hserved

theorem queue_lookUp (around : Surroundings ι σ) (directory : String) (verifier : Verifier)
    (state : State ι σ) : (state.lookUp around directory verifier).2.queue = state.queue := by
  unfold State.lookUp
  split <;> rfl

/-- All queued handles are in the one queue, and their directories are the root or lie at a
depth that may be visited. -/
structure InDepth (maxDepth : ℕ) (loops : Loops ι σ) : Prop where
  apart : loops.state.queue = []
  depths : ∀ item ∈ loops.queue, item.2 = 0 ∨ item.2 < maxDepth

theorem InDepth.step {around : Surroundings ι σ} {bounds : Bounds} {before after : Loops ι σ}
    (hstep : Step around bounds before after) (hbefore : InDepth bounds.maxDepth before) :
    InDepth bounds.maxDepth after := by
  cases hstep with
  | stay | finish | fail | opened => exact ⟨hbefore.apart, hbefore.depths⟩
  | skip depth rest | enter depth rest =>
      exact ⟨hbefore.apart, fun item hitem => hbefore.depths item (List.mem_cons_of_mem _ hitem)⟩
  | lose cookie queue => exact ⟨(queue_lookUp ..).trans hbefore.apart, hbefore.depths⟩
  | @serve site verifier state listing cookie queue =>
      refine ⟨rfl, fun item hitem => ?_⟩
      rcases List.mem_append.mp hitem with hold | hnew
      · exact hbefore.depths item hold
      · obtain ⟨handle, hhandle, rfl⟩ := List.mem_map.mp hnew
        by_cases hinner : site.depth + 1 < bounds.maxDepth
        · exact Or.inr hinner
        · rw [State.served, queue_takePage_of_last hinner, queue_lookUp, hbefore.apart] at hhandle
          exact absurd hhandle List.not_mem_nil

/-- A walk that has ended without a failure has emptied its queue and comes to what it has
counted. -/
def Finished (loops : Loops ι σ) : Prop :=
  ∀ totals, loops.stage = .ended (.ok totals) → loops.queue = [] ∧ loops.state.totals = totals

theorem Finished.step {around : Surroundings ι σ} {bounds : Bounds} {before after : Loops ι σ}
    (hstep : Step around bounds before after) (hbefore : Finished before) : Finished after := by
  intro totals hended
  cases hstep with
  | stay => exact hbefore totals hended
  | finish =>
      cases hended
      exact ⟨rfl, rfl⟩
  | skip | enter | fail | opened => cases hended
  | lose =>
      unfold Site.afterLoss at hended
      split at hended <;> cases hended
  | serve =>
      unfold Site.afterPage at hended
      split at hended <;> cases hended

/-! ## The recursion goes through the loops -/

namespace State

/-- A state whose queue stands behind other handles. -/
def behind (queued : List Handle) (state : State ι σ) : State ι σ :=
  { state with queue := queued ++ state.queue }

theorem behind_unqueued (state : State ι σ) : state.unqueued.behind state.queue = state := by
  simp [behind, unqueued]

theorem takePage_behind (around : Surroundings ι σ) (bounds : Bounds) (store : σ) (path : Path)
    (depth cookie : ℕ) (page : Listing) (queued : List Handle) (state : State ι σ) :
    (state.behind queued).takePage around bounds store path depth cookie page =
      (state.takePage around bounds store path depth cookie page).behind queued := by
  have hentry : ∀ (current : State ι σ) (entry : Entry),
      (current.behind queued).takeEntry around bounds store path depth entry =
        (current.takeEntry around bounds store path depth entry).behind queued := by
    intro current entry
    unfold takeEntry
    dsimp only
    split
    · simp [behind, enqueue]
    · rfl
  have hentries : ∀ current : State ι σ,
      page.foldl (takeEntry around bounds store path depth) (current.behind queued) =
        (page.foldl (takeEntry around bounds store path depth) current).behind queued :=
    fun _ => List.foldl_hom (behind queued) hentry
  exact hentries { state with
    totals := { state.totals with pages := state.totals.pages + 1 }
    trace := .page path.text cookie page :: state.trace }

theorem lookUp_unqueued (around : Surroundings ι σ) (directory : String) (verifier : Verifier)
    (state : State ι σ) :
    state.unqueued.lookUp around directory verifier =
      ((state.lookUp around directory verifier).1,
        (state.lookUp around directory verifier).2.unqueued) := by
  have hlookups : state.unqueued.lookups = state.lookups := rfl
  rw [lookUp, lookUp, hlookups]
  split <;> rfl

/-- A page that is served without looking at the queue puts the same handles behind it. -/
theorem served_unqueued (around : Surroundings ι σ) (bounds : Bounds) (site : Site σ)
    (verifier : Verifier) (cookie : ℕ) (listing : Listing) (state : State ι σ) :
    state.served around bounds site verifier cookie listing =
      (state.unqueued.served around bounds site verifier cookie listing).behind state.queue := by
  have hlooked : (state.lookUp around site.path.text verifier).2 =
      (state.unqueued.lookUp around site.path.text verifier).2.behind state.queue := by
    rw [lookUp_unqueued, ← queue_lookUp around site.path.text verifier state, behind_unqueued]
  rw [served, served, hlooked, takePage_behind]

/-- A walk at a stage of the loops: what is left of the present level waits before what has
been queued for the next one. -/
def running (stage : Stage σ) (depth : ℕ) (waiting : List Handle) (state : State ι σ) :
    Loops ι σ :=
  ⟨stage, waiting.map (fun handle => (handle, depth)) ++
    state.queue.map fun handle => (handle, depth + 1), state.unqueued⟩

end State

/-- What the loops go on with after the visit of a directory. -/
def resume : Except Failure Unit → Stage σ
  | .ok () => .next
  | .error failure => .ended (.error failure)

section Recursion

variable (around : Surroundings ι σ) (bounds : Bounds)

theorem leads_served (site : Site σ) (waiting : List Handle) {verifier : Verifier} (cookie : ℕ)
    {state : State ι σ} {listing : Listing}
    (hfound : (state.lookUp around site.path.text verifier).1 = some listing) :
    Leads around bounds (state.running (.page site verifier cookie) site.depth waiting)
      ((state.served around bounds site verifier cookie listing).running
        (site.afterPage bounds verifier cookie listing) site.depth waiting) := by
  have hfound' : (state.unqueued.lookUp around site.path.text verifier).1 = some listing := by
    rw [State.lookUp_unqueued, hfound]
  have hturn : Step around bounds (state.running (.page site verifier cookie) site.depth waiting)
      _ := .serve cookie _ hfound'
  have hleads := hturn.leads
  rw [List.append_assoc, ← List.map_append] at hleads
  rwa [State.served_unqueued]

theorem leads_lost (site : Site σ) (waiting : List Handle) {verifier : Verifier} (cookie : ℕ)
    {state : State ι σ} (hmissing : (state.lookUp around site.path.text verifier).1 = none) :
    Leads around bounds (state.running (.page site verifier cookie) site.depth waiting)
      ((state.restarted around site verifier).running site.afterLoss site.depth waiting) := by
  have hmissing' : (state.unqueued.lookUp around site.path.text verifier).1 = none := by
    rw [State.lookUp_unqueued, hmissing]
  have hturn : Step around bounds (state.running (.page site verifier cookie) site.depth waiting)
      _ := .lose cookie _ hmissing'
  have hafter : state.unqueued.restarted around site verifier =
      (state.restarted around site verifier).unqueued := by
    rw [State.restarted, State.lookUp_unqueued]
    rfl
  rw [hafter] at hturn
  have hqueue : (state.restarted around site verifier).queue = state.queue := queue_lookUp ..
  rw [State.running, State.running, hqueue]
  exact hturn.leads

/-- Serving the pages of a listing takes one turn for each of them, and one for a loss. -/
theorem leads_takePages (site : Site σ) (waiting : List Handle) (verifier : Verifier) (cookie : ℕ)
    (state : State ι σ) :
    let outcome := state.takePages around bounds site.store site.path site.depth verifier cookie
    Leads around bounds (state.running (.page site verifier cookie) site.depth waiting)
      (if outcome.1 then outcome.2.running .next site.depth waiting
      else State.running site.afterLoss site.depth waiting { outcome.2 with
        totals := { outcome.2.totals with restarts := outcome.2.totals.restarts + 1 } }) := by
  fun_induction State.takePages around bounds site.store site.path site.depth verifier cookie state
    with
  | case1 cookie state after hlookup =>
      have hlost := leads_lost around bounds site waiting cookie (congrArg Prod.fst hlookup)
      rw [State.restarted, hlookup] at hlost
      exact hlost
  | case2 cookie state listing after hlookup served hends =>
      have hserved := leads_served around bounds site waiting cookie (congrArg Prod.fst hlookup)
      rw [State.served, hlookup, Site.afterPage, if_pos hends] at hserved
      exact hserved
  | case3 cookie state listing after hlookup served hmore ih =>
      have hserved := leads_served around bounds site waiting cookie (congrArg Prod.fst hlookup)
      rw [State.served, hlookup, Site.afterPage, if_neg hmore] at hserved
      exact hserved.trans ih

/-- The read of a directory, from any number of restarts on. -/
theorem leads_readDirectory {site : Site σ} {restartsLeft : ℕ}
    (hleft : site.restarts + restartsLeft = maxRestarts) (waiting : List Handle)
    (state : State ι σ) :
    let outcome :=
      state.readDirectory around bounds site.store site.path site.depth restartsLeft
    Leads around bounds (state.running (.read site) site.depth waiting)
      (outcome.2.running (resume outcome.1) site.depth waiting) := by
  -- only after the pages does it matter whether a restart is left: hence strong induction
  induction restartsLeft using Nat.strong_induction_on generalizing site state with
  | _ restartsLeft ih =>
      cases hread : around.readDir state.reads site.store site.path with
      | error failure =>
          have hfailed : Step around bounds (state.running (.read site) site.depth waiting)
              (state.failed.running (.ended (.error failure)) site.depth waiting) := .fail _ hread
          rw [State.readDirectory, hread]
          exact hfailed.leads
      | ok listing =>
          have hopened : Step around bounds (state.running (.read site) site.depth waiting)
              ((state.opened site.path listing).running
                (.page site (fingerprint site.path.text listing) 0) site.depth waiting) :=
            .opened _ hread
          have hpages := leads_takePages around bounds site waiting
            (fingerprint site.path.text listing) 0 (state.opened site.path listing)
          rcases htaken : (state.opened site.path listing).takePages around bounds site.store
            site.path site.depth (fingerprint site.path.text listing) 0 with ⟨all, after⟩
          rw [htaken] at hpages
          refine hopened.leads.trans ?_
          cases all with
          | true =>
              rw [readDirectory_of_served hread htaken]
              exact hpages
          | false =>
              rw [readDirectory_of_lost hread htaken]
              refine hpages.trans ?_
              cases restartsLeft with
              | zero =>
                  have hoften : ¬ site.restarts < maxRestarts := by omega
                  rw [Site.afterLoss, if_neg hoften]
                  exact .refl _
              | succ fewer =>
                  have hfew : site.restarts < maxRestarts := by omega
                  have hagain : (⟨site.store, site.path, site.depth, site.restarts + 1⟩ :
                      Site σ).restarts + fewer = maxRestarts := by
                    dsimp only
                    omega
                  rw [Site.afterLoss, if_pos hfew]
                  exact ih fewer (Nat.lt_succ_self fewer) hagain _

theorem leads_visit (depth : ℕ) (handle : Handle) (waiting : List Handle) (state : State ι σ) :
    let outcome := state.visit around bounds depth handle
    Leads around bounds (state.running .next depth (handle :: waiting))
      (outcome.2.running (resume outcome.1) depth waiting) := by
  cases hlive : (state.server.fromHandle handle.bytes).1 with
  | error failure =>
      have hskipped : Step around bounds (state.running .next depth (handle :: waiting))
          ((state.skipped handle).running .next depth waiting) := .skip depth _ hlive
      rw [State.visit_of_error hlive]
      exact hskipped.leads
  | ok target =>
      rw [State.visit_of_ok hlive]
      have hentered : Step around bounds (state.running .next depth (handle :: waiting))
          ((state.entered handle target.path).running (.read ⟨target.store, target.path, depth, 0⟩)
            depth waiting) := .enter depth _ hlive
      have hread := leads_readDirectory around bounds
        (show (⟨target.store, target.path, depth, 0⟩ : Site σ).restarts + maxRestarts = maxRestarts
          from Nat.zero_add _) waiting (state.entered handle target.path)
      exact hentered.leads.trans hread

/-- A level is visited to its end, or up to a failure. -/
theorem leads_visitAll (depth : ℕ) (handles : List Handle) (state : State ι σ) :
    let outcome := state.visitAll around bounds depth handles
    ∃ waiting, (outcome.1 = .ok () → waiting = []) ∧
      Leads around bounds (state.running .next depth handles)
        (outcome.2.running (resume outcome.1) depth waiting) := by
  induction handles generalizing state with
  | nil => exact ⟨[], fun _ => rfl, .refl _⟩
  | cons handle rest ih =>
      have hvisit := leads_visit around bounds depth handle rest state
      rw [visitAll_cons]
      generalize state.visit around bounds depth handle = outcome at hvisit ⊢
      obtain ⟨failure | ⟨⟩, after⟩ := outcome
      · exact ⟨rest, nofun, hvisit⟩
      · obtain ⟨waiting, hwaiting, hrest⟩ := ih after
        exact ⟨waiting, hwaiting, hvisit.trans hrest⟩

/-- All levels are visited to their ends, or up to a failure, and then the walk is over. -/
theorem leads_descend {depth : ℕ} (hdepth : depth = 0 ∨ depth < bounds.maxDepth)
    (state : State ι σ) :
    let outcome := state.descend around bounds depth
    ∃ queue, Leads around bounds (state.unqueued.running .next depth state.queue)
      ⟨.ended (outcome.1.map fun _ => outcome.2.totals), queue, outcome.2.unqueued⟩ := by
  induction hleft : bounds.maxDepth - depth using Nat.strong_induction_on
    generalizing depth state with
  | _ left ih =>
      obtain ⟨waiting, hwaiting, hlevel⟩ :=
        leads_visitAll around bounds depth state.queue state.unqueued
      rw [descend_eq, show ({ state with queue := [] } : State ι σ) = state.unqueued from rfl]
      generalize state.unqueued.visitAll around bounds depth state.queue = outcome
        at hlevel hwaiting ⊢
      obtain ⟨failure | ⟨⟩, after⟩ := outcome
      · exact ⟨_, hlevel⟩
      · obtain rfl := hwaiting rfl
        -- what has been queued is now all of the queue
        have hnext : after.running .next depth [] =
            after.unqueued.running .next (depth + 1) after.queue := by
          simp [State.running, State.unqueued]
        have hstart : InDepth bounds.maxDepth
            (state.unqueued.running .next depth state.queue) := by
          refine ⟨rfl, fun item hitem => ?_⟩
          simp only [State.running, State.unqueued, List.map_nil, List.append_nil] at hitem
          obtain ⟨handle, -, rfl⟩ := List.mem_map.mp hitem
          exact hdepth
        have hqueued := (hlevel.keeps _ InDepth.step hstart).depths
        show ∃ queue, Leads around bounds (state.unqueued.running .next depth state.queue)
          ⟨.ended ((below around bounds depth after).1.map fun _ =>
            (below around bounds depth after).2.totals), queue,
            (below around bounds depth after).2.unqueued⟩
        unfold below
        split
        · rename_i hgoes
          obtain ⟨queue, hrest⟩ := ih _ (by omega) (Or.inr hgoes.1) after rfl
          rw [← hnext] at hrest
          exact ⟨queue, hlevel.trans hrest⟩
        · rename_i hends
          have hnone : after.queue = [] := by
            by_contra hsome
            obtain ⟨handle, hhandle⟩ := List.exists_mem_of_ne_nil _ hsome
            have := hqueued (handle, depth + 1)
              (List.mem_append_right _ (List.mem_map.mpr ⟨handle, hhandle, rfl⟩))
            exact hends ⟨by simpa using this, hsome⟩
          have hfinish : Step around bounds (after.running .next depth [])
              ⟨.ended (.ok after.totals), [], after.unqueued⟩ := by
            rw [State.running, hnone]
            exact .finish _
          exact ⟨[], hlevel.trans hfinish.leads⟩

end Recursion

/-- **A walk ends.**  From where it starts, finitely many turns of its loops lead to its
end, which is what `walk` comes to. -/
theorem leads_walk (around : Surroundings ι σ) (bounds : Bounds) (request : String)
    (server : Server ι σ) :
    let outcome := walk around bounds request server
    ∃ queue, Leads around bounds (.start around request server)
      ⟨.ended outcome.1, queue, outcome.2.unqueued⟩ := by
  unfold walk Loops.start
  rcases server.mount around.service request with ⟨failure | store, mounted⟩
  · exact ⟨[], .refl _⟩
  · dsimp only
    rcases mounted.usage around.service store [] with ⟨failure | usage, found⟩
    · exact ⟨[], .refl _⟩
    · obtain ⟨queue, hends⟩ := leads_descend around bounds (Or.inl rfl)
        ((State.start found).enqueue around store [] 0)
      refine ⟨queue, ?_⟩
      dsimp only at hends ⊢
      generalize ((State.start found).enqueue around store [] 0).descend around bounds 0 =
        outcome at hends ⊢
      have hrooted : Loops.rooted around store found =
          ((State.start found).enqueue around store [] 0).unqueued.running .next 0
            ((State.start found).enqueue around store [] 0).queue := by
        simp [Loops.rooted, State.running, State.unqueued]
      rw [← hrooted] at hends
      obtain ⟨failure | ⟨⟩, after⟩ := outcome <;> exact hends

theorem Leads.of_ended {around : Surroundings ι σ} {bounds : Bounds} {last : Loops ι σ}
    {result : Except Failure Totals} {queue : List (Handle × ℕ)} {state : State ι σ}
    (hleads : Leads around bounds ⟨.ended result, queue, state⟩ last) :
    last = ⟨.ended result, queue, state⟩ := by
  obtain ⟨turns, rfl⟩ := hleads
  exact Function.iterate_fixed rfl turns

theorem walk_cases (around : Surroundings ι σ) (bounds : Bounds) (request : String)
    (server : Server ι σ) :
    let outcome := walk around bounds request server
    (∃ failure inner, outcome.1 = .error failure ∧
      outcome.2.unqueued = .start { server with inner := inner }) ∨
    ∃ store inner queue, (around.service.mount request server.inner).1 = .ok store ∧
      Leads around bounds (.rooted around store { server with inner := inner })
        ⟨.ended outcome.1, queue, outcome.2.unqueued⟩ := by
  intro outcome
  obtain ⟨queue, hends⟩ := leads_walk around bounds request server
  rcases Loops.start_cases around request server with
    ⟨failure, inner, hstart⟩ | ⟨store, inner, hmount, hstart⟩
  · rw [hstart] at hends
    have hended := hends.of_ended
    simp only [Loops.mk.injEq, Stage.ended.injEq] at hended
    exact Or.inl ⟨failure, inner, hended.1, hended.2.2⟩
  · rw [hstart] at hends
    exact Or.inr ⟨store, inner, queue, hmount, hends⟩

end HandleTable.Walk
