import HandleTable.Memory
import HandleTable.Proofs.Walk.Reading

/-!
# Page size and room for listings

Neither the number of entries per page nor the room for listings changes what a walk
sees.  Two walks that differ in these two alone fail alike or count the same, pages
apart, and leave the same table of handles; this holds for any room for handles,
however many of them are evicted before they are visited.

The two walks are compared step by step.  They mint and resolve the same handles in
the same order, so that the same ones are evicted (`Alike.frontier`).  As to the table
of listings, a read puts one snapshot there, and the lookups that follow, few or many,
use what has just been used last (`settled_takePages`).  So whatever the page size is,
a read leaves nothing behind but its snapshot, and tables with the same room stay
equal (`Alike.verifiers`).
-/

namespace HandleTable.Walk

variable {ι σ : Type}

/-- What a walk counts apart from pages. -/
def Totals.apartFromPages (totals : Totals) : Totals :=
  { totals with pages := 0 }

theorem Totals.apartFromPages_add (first second : Totals) :
    (first + second).apartFromPages = first.apartFromPages + second.apartFromPages := rfl

/-! ## The table of listings during a read -/

/-- A step leaves the table of listings and the number of reads as they were. -/
structure Settled (before after : State ι σ) : Prop where
  verifiers : after.server.verifiers = before.server.verifiers
  reads : after.reads = before.reads

protected theorem Settled.trans {before middle after : State ι σ} (hfirst : Settled before middle)
    (hsecond : Settled middle after) : Settled before after :=
  ⟨hsecond.verifiers.trans hfirst.verifiers, hsecond.reads.trans hfirst.reads⟩

section Read

variable (around : Surroundings ι σ) (bounds : Bounds) (store : σ) (path : Path) (depth : ℕ)

theorem settled_takePage (cookie : ℕ) (page : Listing) (state : State ι σ) :
    Settled state (state.takePage around bounds store path depth cookie page) := by
  refine ⟨State.verifiers_takePage around bounds store path depth cookie page state, ?_⟩
  have hentry : ∀ (current : State ι σ) (entry : Entry),
      (current.takeEntry around bounds store path depth entry).reads = current.reads := by
    intro current entry
    unfold State.takeEntry
    dsimp only
    split <;> rfl
  unfold State.takePage
  refine List.foldlRecOn (motive := fun current => current.reads = state.reads) page _ ?_
    fun current hcurrent entry _ => (hentry current entry).trans hcurrent
  rfl

variable {around} (hkept : ∀ lookup, around.lost lookup = false)

include hkept

theorem settled_lookUp (directory : String) {verifier : Verifier} {state : State ι σ}
    (hlast : (state.server.verifiers.get verifier).2 = state.server.verifiers) :
    Settled state (state.lookUp around directory verifier).2 := by
  unfold State.lookUp
  rw [hkept, if_neg Bool.false_ne_true]
  exact ⟨hlast, rfl⟩

/-- However many pages there are, they leave the table of listings as it was when the
snapshot had been taken. -/
theorem settled_takePages (verifier : Verifier) (cookie : ℕ) (state : State ι σ)
    (hlast : (state.server.verifiers.get verifier).2 = state.server.verifiers) :
    Settled state (state.takePages around bounds store path depth verifier cookie).2 := by
  have hlooked := settled_lookUp hkept path.text hlast
  fun_induction State.takePages around bounds store path depth verifier cookie state with
  | case1 cookie state after hlookup =>
      rwa [hlookup] at hlooked
  | case2 cookie state listing after hlookup served hends =>
      rw [hlookup] at hlooked
      exact hlooked.trans (settled_takePage around bounds store path depth cookie _ after)
  | case3 cookie state listing after hlookup served hmore ih =>
      -- a page leaves the snapshot the one used last, which is all the next page needs
      rw [hlookup] at hlooked
      have hserved : Settled state served :=
        hlooked.trans (settled_takePage around bounds store path depth cookie _ after)
      have hstill : (served.server.verifiers.get verifier).2 = served.server.verifiers := by
        rw [hserved.verifiers, hlast]
      exact hserved.trans (ih hstill (settled_lookUp hkept path.text hstill))

/-- Of a read, the table of listings keeps the snapshot and nothing else. -/
theorem readDirectory_settles {state : State ι σ} {listing : Listing}
    (hread : around.readDir state.reads store path = .ok listing) (restartsLeft : ℕ) :
    (state.readDirectory around bounds store path depth restartsLeft).2.server.verifiers =
        (state.server.verifiers.snapshot path.text listing).2 ∧
      (state.readDirectory around bounds store path depth restartsLeft).2.reads =
        state.reads + 1 := by
  obtain ⟨after, hpages, -⟩ := takePages_of_kept hkept bounds store path depth 0
    (state.peek_opened path listing)
  have hsettled := settled_takePages bounds store path depth hkept
    (fingerprint path.text listing) 0 (state.opened path listing)
    (state.server.verifiers.get_snd_insert_self _ _)
  rw [hpages] at hsettled
  rw [readDirectory_of_served hread hpages]
  exact ⟨hsettled.verifiers, hsettled.reads⟩

end Read

/-! ## Two walks -/

/-- Two walks have seen the same so far: the same handles are live and wait, and pages
apart the counts are the same; and if there is the same room for listings, the same
ones are kept. -/
structure Alike (sameRoom : Prop) (first second : State ι σ) : Prop where
  frontier : first.frontier = second.frontier
  reads : first.reads = second.reads
  totals : first.totals.apartFromPages = second.totals.apartFromPages
  verifiers : sameRoom → first.server.verifiers = second.server.verifiers

/-- Parts of two walks fail alike, or both do not fail, and have seen the same. -/
def EndAlike (sameRoom : Prop) (first second : Except Failure Unit × State ι σ) : Prop :=
  first.1 = second.1 ∧ Alike sameRoom first.2 second.2

/-- What follows on parts that end alike need only be compared where they did not fail. -/
theorem EndAlike.andThen {sameRoom : Prop} {first second : Except Failure Unit × State ι σ}
    (halike : EndAlike sameRoom first second)
    {next next' : State ι σ → Except Failure Unit × State ι σ}
    (hnext : ∀ {after after' : State ι σ}, Alike sameRoom after after' →
      EndAlike sameRoom (next after) (next' after')) :
    EndAlike sameRoom (Walk.andThen first next) (Walk.andThen second next') := by
  obtain ⟨result, after⟩ := first
  obtain ⟨result', after'⟩ := second
  obtain ⟨hresult, hafter⟩ := halike
  cases hresult
  cases result with
  | error failure => exact ⟨rfl, hafter⟩
  | ok => exact hnext hafter

theorem EndAlike.totals {sameRoom : Prop} {first second : Except Failure Unit × State ι σ}
    (halike : EndAlike sameRoom first second) :
    (first.1.map fun _ => first.2.totals).map Totals.apartFromPages =
      (second.1.map fun _ => second.2.totals).map Totals.apartFromPages := by
  obtain ⟨result, after⟩ := first
  obtain ⟨result', after'⟩ := second
  obtain ⟨hresult, hafter⟩ := halike
  cases hresult
  cases result with
  | error failure => rfl
  | ok => exact congrArg Except.ok hafter.totals

namespace Alike

variable {around : Surroundings ι σ} (hkept : ∀ lookup, around.lost lookup = false)
  {firstBounds secondBounds : Bounds} (hdepths : firstBounds.maxDepth = secondBounds.maxDepth)
  {sameRoom : Prop} {first second : State ι σ}

theorem handles (halike : Alike sameRoom first second) :
    first.server.handles = second.server.handles :=
  congrArg Frontier.handles halike.frontier

include hkept hdepths

protected theorem readDirectory (halike : Alike sameRoom first second) (store : σ) (path : Path)
    (depth restartsLeft : ℕ) :
    EndAlike sameRoom
      (first.readDirectory around firstBounds store path depth restartsLeft)
      (second.readDirectory around secondBounds store path depth restartsLeft) := by
  cases hfirst : around.readDir first.reads store path with
  | error failure =>
      have hsecond : around.readDir second.reads store path = .error failure := by
        rw [← halike.reads, hfirst]
      rw [State.readDirectory, State.readDirectory, hfirst, hsecond]
      exact ⟨rfl, halike.frontier, congrArg Nat.succ halike.reads, halike.totals,
        halike.verifiers⟩
  | ok listing =>
      have hsecond : around.readDir second.reads store path = .ok listing := by
        rw [← halike.reads, hfirst]
      obtain ⟨after, hafter, hserved⟩ :=
        readDirectory_of_ok hkept firstBounds depth hfirst restartsLeft
      obtain ⟨after', hafter', hserved'⟩ :=
        readDirectory_of_ok hkept secondBounds depth hsecond restartsLeft
      obtain ⟨hverifiers, hreads⟩ :=
        readDirectory_settles firstBounds store path depth hkept hfirst restartsLeft
      obtain ⟨hverifiers', hreads'⟩ :=
        readDirectory_settles secondBounds store path depth hkept hsecond restartsLeft
      have hchildren : children firstBounds depth path listing =
          children secondBounds depth path listing := by
        rw [children, children, hdepths]
      rw [hafter] at hverifiers hreads
      rw [hafter'] at hverifiers' hreads'
      -- whole listings were served, so how they were cut does not show
      rw [hafter, hafter']
      refine ⟨rfl, ?_, ?_, ?_, ?_⟩
      · rw [hserved.frontier, hserved'.frontier, halike.frontier, hchildren]
      · rw [hreads, hreads', halike.reads]
      · rw [hserved.totals, hserved'.totals, Totals.apartFromPages_add,
          Totals.apartFromPages_add, halike.totals]
        rfl
      · intro hroom
        rw [hverifiers, hverifiers', halike.verifiers hroom]

/-- A handle is live in both walks, for the same directory, or in neither. -/
protected theorem visit (halike : Alike sameRoom first second) (depth : ℕ) (handle : Handle) :
    EndAlike sameRoom (first.visit around firstBounds depth handle)
      (second.visit around secondBounds depth handle) := by
  have hhandles := halike.handles
  have hminted : first.minted = second.minted := congrArg Frontier.minted halike.frontier
  have hqueue : first.queue = second.queue := congrArg Frontier.queue halike.frontier
  cases hlive : (first.server.fromHandle handle.bytes).1 with
  | error failure =>
      have hlive' : (second.server.fromHandle handle.bytes).1 = .error failure := by
        rwa [Server.fromHandle, ← hhandles]
      rw [State.visit_of_error hlive, State.visit_of_error hlive']
      refine ⟨rfl, ?_, halike.reads, ?_, halike.verifiers⟩
      · simp only [State.frontier, Server.fromHandle, hhandles, hminted, hqueue]
      · exact congrArg (· + ⟨0, 0, 0, 1, 0⟩) halike.totals
  | ok target =>
      have hlive' : (second.server.fromHandle handle.bytes).1 = .ok target := by
        rwa [Server.fromHandle, ← hhandles]
      rw [State.visit_of_ok hlive, State.visit_of_ok hlive']
      refine Alike.readDirectory hkept hdepths ?_ target.store target.path depth maxRestarts
      refine ⟨?_, halike.reads, ?_, halike.verifiers⟩
      · simp only [State.frontier, Server.fromHandle, hhandles, hminted, hqueue]
      · exact congrArg (· + ⟨1, 0, 0, 0, 0⟩) halike.totals

protected theorem visitAll (halike : Alike sameRoom first second) (depth : ℕ)
    (handles : List Handle) :
    EndAlike sameRoom (first.visitAll around firstBounds depth handles)
      (second.visitAll around secondBounds depth handles) := by
  induction handles generalizing first second with
  | nil => exact ⟨rfl, halike⟩
  | cons handle rest ih =>
      rw [visitAll_cons, visitAll_cons]
      exact (halike.visit hkept hdepths depth handle).andThen fun hafter => ih hafter

/-- The same handles wait on each level, and so the levels below are the same. -/
protected theorem descend (halike : Alike sameRoom first second) (depth : ℕ) :
    EndAlike sameRoom (first.descend around firstBounds depth)
      (second.descend around secondBounds depth) := by
  induction hleft : firstBounds.maxDepth - depth using Nat.strong_induction_on
    generalizing depth first second with
  | _ left ih =>
      have hqueue : first.queue = second.queue := congrArg Frontier.queue halike.frontier
      have hemptied : Alike sameRoom { first with queue := [] } { second with queue := [] } :=
        ⟨congrArg (fun frontier : Frontier σ => { frontier with queue := [] }) halike.frontier,
          halike.reads, halike.totals, halike.verifiers⟩
      rw [descend_eq, descend_eq, ← hqueue]
      refine (hemptied.visitAll hkept hdepths depth first.queue).andThen ?_
      intro after after' hafter
      have hqueue' : after.queue = after'.queue := congrArg Frontier.queue hafter.frontier
      unfold below
      rw [← hdepths, ← hqueue']
      split
      · exact ih _ (by omega) hafter (depth + 1) rfl
      · exact ⟨rfl, hafter⟩

end Alike

/-- **Page size and room for listings change nothing that a walk sees.**  Take two walks
of the same export that find their tables empty and have the same room for handles,
the same supply of fresh handles and the same depth, and in which no lookup is lost.
Whatever their page sizes and their room for listings are, they fail alike, or come
to the same counts of directories, entries, stale handles and restarts; and they
leave the same handles, in the same order of their last uses.  With the same room for
listings they leave the same listings, in the same order as well. -/
theorem page_size_unseen {around : Surroundings ι σ} (hkept : ∀ lookup, around.lost lookup = false)
    (maxDepth firstSize secondSize : ℕ) (request : String) (inner : ι)
    (limit firstRoom secondRoom : Capacity) :
    let first := walk around (.of maxDepth firstSize) request (.new inner limit firstRoom)
    let second := walk around (.of maxDepth secondSize) request (.new inner limit secondRoom)
    first.1.map Totals.apartFromPages = second.1.map Totals.apartFromPages ∧
      first.2.server.handles = second.2.server.handles ∧
      (firstRoom = secondRoom → first.2.server.verifiers = second.2.server.verifiers) := by
  intro first second
  rcases walk_new around.service request inner with
    ⟨failure, inner', hwalk⟩ | ⟨store, inner', hwalk⟩
  · have hfirst := hwalk around (.of maxDepth firstSize) limit firstRoom rfl
    have hsecond := hwalk around (.of maxDepth secondSize) limit secondRoom rfl
    rw [show first = _ from hfirst, show second = _ from hsecond]
    exact ⟨rfl, rfl, congrArg Recency.empty⟩
  · have hfirst := hwalk around (.of maxDepth firstSize) limit firstRoom rfl
    have hsecond := hwalk around (.of maxDepth secondSize) limit secondRoom rfl
    have hrooted : Alike (firstRoom = secondRoom)
        ((State.start (.new inner' limit firstRoom)).enqueue around store [] 0)
        ((State.start (.new inner' limit secondRoom)).enqueue around store [] 0) :=
      ⟨rfl, rfl, rfl, congrArg Recency.empty⟩
    have hdepths : (Bounds.of maxDepth firstSize).maxDepth =
        (Bounds.of maxDepth secondSize).maxDepth := rfl
    have hends := hrooted.descend hkept hdepths 0
    rw [show first = _ from hfirst, show second = _ from hsecond]
    exact ⟨hends.totals, hends.2.handles, hends.2.verifiers⟩

/-- With room for two handles, the first of the three directories below the root is stale
when its turn comes; with room for one listing, that of the root is gone by then.  A
walk that takes one entry per page and keeps two listings leaves the same handles. -/
theorem walk_with_stale_handle_in_pages :
    let file : Memory.Node := .file ⟨"f", 7, false, 0⟩
    let around : Surroundings (List String) Unit :=
      { service := Memory.Export.service ⟨"none", "stale", ⟨9, 5, 5, 4, 2⟩⟩ ()
        readDir := fun _ _ path => Memory.readDir [.directory ⟨"a", 0, true, 0⟩ [file],
          .directory ⟨"b", 0, true, 0⟩ [file, file], .directory ⟨"c", 0, true, 0⟩ []] path
        fresh := Handle.ofSeed
        lost := fun _ => false
        lostDrops := false }
    let first := walk around (.of 2 5) "/" (.new [] ⟨2, by decide⟩ ⟨1, by decide⟩)
    let second := walk around (.of 2 1) "/" (.new [] ⟨2, by decide⟩ ⟨2, by decide⟩)
    first.1 = .ok ⟨3, 5, 3, 1, 0⟩ ∧ second.1 = .ok ⟨3, 5, 6, 1, 0⟩ ∧
      first.2.server.handles = second.2.server.handles := by
  intro file around first second
  have hkept : ∀ lookup, around.lost lookup = false := fun _ => rfl
  obtain ⟨-, hhandles, -⟩ := page_size_unseen hkept 2 5 1 "/" [] ⟨2, by decide⟩ ⟨1, by decide⟩
    ⟨2, by decide⟩
  exact ⟨by decide +kernel, by decide +kernel, hhandles⟩

end HandleTable.Walk
