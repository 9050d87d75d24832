import HandleTable.Proofs.Walk.Whereabouts

/-!
# The sums of a walk have room in a word

A walk adds one to the depth of the directory that is being read, and the page size to the
cookie of a page that has been served.  The greatest depth and the page size may be any
numbers of sixty-four bits, and neither sum is checked.

Handles are queued for depths below the greatest one only, so that no directory but the root
lies at it or beyond (`Shallow`).  A cookie that is not zero belongs to a listing which was
longer than that when the page before was served (`Step.cookie`).  So it is at most as large as
a listing is long, and so is the page size, which has been added to it before.  As long as no
listing takes half of all words, both sums are words (`sums_fit_word`).
-/

namespace HandleTable.Walk

variable {ι σ : Type}

-- stages can be told apart, so that it can be decided where a walk of a given export stands
deriving instance DecidableEq for Site
deriving instance DecidableEq for Stage

/-! ## Depths -/

/-- All directories of a walk are the root, or lie at a depth that may be visited: those for
which a handle waits, and the one that is being read. -/
structure Shallow (maxDepth : ℕ) (loops : Loops ι σ) : Prop where
  inDepth : InDepth maxDepth loops
  site : ∀ site ∈ loops.stage.site?, site.depth = 0 ∨ site.depth < maxDepth

protected theorem Shallow.step {around : Surroundings ι σ} {bounds : Bounds}
    {before after : Loops ι σ} (hstep : Step around bounds before after)
    (hbefore : Shallow bounds.maxDepth before) : Shallow bounds.maxDepth after := by
  refine ⟨hbefore.inDepth.step hstep, ?_⟩
  obtain ⟨hqueue, hsite⟩ := hbefore
  cases hstep with
  | stay | opened => exact hsite
  | finish | skip | fail => exact forall_site?_of_none rfl
  | enter =>
      rintro site ⟨⟩
      exact hqueue.depths _ List.mem_cons_self
  | lose =>
      intro again hagain
      rw [(site?_afterLoss hagain).2.2]
      exact hsite _ rfl
  | serve =>
      intro again hagain
      rw [site?_afterPage hagain]
      exact hsite _ rfl

/-! ## Cookies -/

theorem afterLoss_ne_page {site site' : Site σ} {verifier : Verifier} {cookie : ℕ} :
    site.afterLoss ≠ .page site' verifier cookie := by
  unfold Site.afterLoss
  split <;> exact nofun

/-- After a page, the next one is of the same listing, and the listing goes on there. -/
theorem eq_of_afterPage {bounds : Bounds} {site site' : Site σ} {verifier verifier' : Verifier}
    {cookie cookie' : ℕ} {listing : Listing}
    (hpage : site.afterPage bounds verifier cookie listing = .page site' verifier' cookie') :
    site' = site ∧ verifier' = verifier ∧ cookie' = cookie + bounds.pageSize ∧
      cookie' < listing.length := by
  unfold Site.afterPage at hpage
  split at hpage
  · cases hpage
  · rename_i hmore
    cases hpage
    exact ⟨rfl, rfl, rfl, Nat.not_le.mp hmore⟩

/-- A turn serves a page of a listing, from a cookie on. -/
structure Loops.Serves (around : Surroundings ι σ) (loops : Loops ι σ) (site : Site σ)
    (verifier : Verifier) (cookie : ℕ) (listing : Listing) : Prop where
  stage : loops.stage = .page site verifier cookie
  found : (loops.state.lookUp around site.path.text verifier).1 = some listing

/-- A page is the first one of a listing, or follows on another one of a listing that is
longer than its cookie. -/
theorem Step.cookie {around : Surroundings ι σ} {bounds : Bounds} {before after : Loops ι σ}
    (hstep : Step around bounds before after) {site : Site σ} {verifier : Verifier} {cookie : ℕ}
    (hpage : after.stage = .page site verifier cookie) :
    cookie = 0 ∨ ∃ earlier listing, before.Serves around site verifier earlier listing ∧
      cookie = earlier + bounds.pageSize ∧ cookie < listing.length := by
  cases hstep with
  | stay | finish | skip | enter | fail => cases hpage
  | opened =>
      cases hpage
      exact Or.inl rfl
  | lose => exact absurd hpage afterLoss_ne_page
  | @serve _ _ _ listing earlier _ hfound =>
      obtain ⟨rfl, rfl, hcookie, hmore⟩ := eq_of_afterPage hpage
      exact Or.inr ⟨earlier, listing, ⟨rfl, hfound⟩, hcookie, hmore⟩

/-- The listing from which pages are served has at most so many entries. -/
def Brief (most : ℕ) (loops : Loops ι σ) : Prop :=
  ∀ site verifier cookie, loops.stage = .page site verifier cookie →
    loops.state.snapshotLength verifier ≤ most

theorem Brief.length_le {around : Surroundings ι σ} {most : ℕ} {loops : Loops ι σ}
    (hbrief : Brief most loops) {site : Site σ} {verifier : Verifier} {cookie : ℕ}
    {listing : Listing} (hserves : loops.Serves around site verifier cookie listing) :
    listing.length ≤ most := by
  rw [← (State.snapshotLength_lookUp hserves.found).1]
  exact hbrief site verifier cookie hserves.stage

/-- Under the verifier there is what has been read, as long as it is found. -/
protected theorem Brief.step {around : Surroundings ι σ} {bounds : Bounds} {most : ℕ}
    (hreads : ∀ read store path listing, around.readDir read store path = .ok listing →
      listing.length ≤ most)
    {before after : Loops ι σ} (hstep : Step around bounds before after)
    (hbefore : Brief most before) : Brief most after := by
  intro site verifier cookie hpage
  cases hstep with
  | stay | finish | skip | enter | fail => cases hpage
  | @opened _ state listing _ hread =>
      cases hpage
      rw [State.snapshotLength, State.peek_opened]
      exact hreads _ _ _ _ hread
  | lose => exact absurd hpage afterLoss_ne_page
  | @serve _ _ state listing earlier _ hfound =>
      obtain ⟨rfl, rfl, -, -⟩ := eq_of_afterPage hpage
      obtain ⟨hlength, hstays⟩ := State.snapshotLength_lookUp hfound
      have hserved : (state.served around bounds site verifier earlier listing).snapshotLength
          verifier = state.snapshotLength verifier := by
        rw [State.served, State.snapshotLength, State.verifiers_takePage]
        exact hstays.trans hlength.symm
      exact hserved.trans_le (hbefore site verifier earlier rfl)

/-! ## Every turn of a walk -/

/-- A walk is where it started, or one turn away from where it has been. -/
theorem Leads.last_turn {around : Surroundings ι σ} {bounds : Bounds} {first last : Loops ι σ}
    (hleads : Leads around bounds first last) :
    last = first ∨
      ∃ before, Leads around bounds first before ∧ Step around bounds before last := by
  obtain ⟨turns, rfl⟩ := hleads
  cases turns with
  | zero => exact Or.inl rfl
  | succ turns =>
      refine Or.inr ⟨_, ⟨turns, rfl⟩, ?_⟩
      rw [Function.iterate_succ_apply']
      exact Step.of_step around bounds _

section Start

variable (around : Surroundings ι σ) (request : String) (server : Server ι σ)

theorem start_ne_page (site : Site σ) (verifier : Verifier) (cookie : ℕ) :
    (Loops.start around request server).stage ≠ .page site verifier cookie := by
  rcases Loops.start_cases around request server with ⟨_, _, hstart⟩ | ⟨_, _, -, hstart⟩ <;>
    rw [hstart] <;> exact nofun

theorem shallow_start (maxDepth : ℕ) : Shallow maxDepth (.start around request server) := by
  rcases Loops.start_cases around request server with ⟨_, _, hstart⟩ | ⟨store, inner, -, hstart⟩
  · rw [hstart]
    exact ⟨⟨rfl, List.forall_mem_nil _⟩, forall_site?_of_none rfl⟩
  · rw [hstart]
    have hrooted := consistent_rooted around (.of maxDepth 1) store { server with inner := inner }
    exact ⟨hrooted.inDepth, forall_site?_of_none rfl⟩

end Start

/-- **The sums of a walk have room in a word.**  Let the greatest depth and the page size be
any numbers of sixty-four bits, and let no directory list more than `2 ^ 63 - 1` entries.
Whatever else an export answers, however many handles and listings a server keeps, and
whichever lookups are lost, at every turn of a walk:

* the depth of a handle that waits, and that of the directory which is being read, is zero or
  less than the greatest depth, and one more is a word;
* when a page is served, its cookie is zero, or the turn before served a page from a listing
  with more entries than that, and it is not less than the page size; and with the page size
  added to it, it is a word. -/
theorem sums_fit_word (around : Surroundings ι σ) (maxDepth pageSize : UInt64)
    (request : String) (server : Server ι σ)
    (hreads : ∀ read store path listing, around.readDir read store path = .ok listing →
      listing.length ≤ 2 ^ 63 - 1) {loops : Loops ι σ}
    (hreached : Leads around (.of maxDepth.toNat pageSize.toNat) (.start around request server)
      loops) :
    let bounds := Bounds.of maxDepth.toNat pageSize.toNat
    (∀ item ∈ loops.queue, (item.2 = 0 ∨ item.2 < maxDepth.toNat) ∧ item.2 + 1 < 2 ^ 64) ∧
    (∀ site ∈ loops.stage.site?,
      (site.depth = 0 ∨ site.depth < maxDepth.toNat) ∧ site.depth + 1 < 2 ^ 64) ∧
    ∀ site verifier cookie listing, loops.Serves around site verifier cookie listing →
      (cookie = 0 ∨ ∃ before earlier previous,
        Leads around bounds (.start around request server) before ∧
        Step around bounds before loops ∧
        before.Serves around site verifier earlier previous ∧
        cookie = earlier + bounds.pageSize ∧ bounds.pageSize ≤ cookie ∧
        cookie < previous.length) ∧
      cookie + bounds.pageSize < 2 ^ 64 := by
  intro bounds
  have hdepth {depth : ℕ} (hshallow : depth = 0 ∨ depth < maxDepth.toNat) :
      (depth = 0 ∨ depth < maxDepth.toNat) ∧ depth + 1 < 2 ^ 64 := by
    have hword := maxDepth.toNat_lt
    exact ⟨hshallow, by omega⟩
  have hsize : bounds.pageSize < 2 ^ 64 := max_lt pageSize.toNat_lt (by decide)
  have hshallow := hreached.keeps _ Shallow.step (shallow_start around request server _)
  refine ⟨fun item hitem => hdepth (hshallow.inDepth.depths item hitem),
    fun site hsite => hdepth (hshallow.site site hsite), ?_⟩
  intro site verifier cookie listing hserves
  obtain rfl | ⟨before, hbefore, hstep⟩ := hreached.last_turn
  · exact absurd hserves.stage (start_ne_page around request server site verifier cookie)
  rcases hstep.cookie hserves.stage with rfl | ⟨earlier, previous, hprevious, hcookie, hmore⟩
  · exact ⟨Or.inl rfl, by omega⟩
  · -- the cookie is below the length of a listing, and a page size is below a word
    have hbrief := hbefore.keeps (Brief (2 ^ 63 - 1)) (Brief.step hreads)
      fun _ _ _ hpage => absurd hpage (start_ne_page around request server _ _ _)
    have hlength := hbrief.length_le hprevious
    have hleast : bounds.pageSize ≤ cookie := hcookie ▸ Nat.le_add_left ..
    exact ⟨Or.inr ⟨before, earlier, previous, hbefore, hstep, hprevious, hcookie, hleast, hmore⟩,
      by omega⟩

/-- An export whose root lists a directory and a file, where the second lookup of a walk is
lost: after six turns, the second page of the root is served from a second snapshot.  With the
greatest of all depths, the directory has been queued twice. -/
theorem second_page_after_restart :
    let listing : Listing := [⟨"a", 0, true, 0⟩, ⟨"top", 7, false, 0⟩]
    let around : Surroundings (List String) Unit :=
      { secondLookupLost with readDir := fun _ _ path => .ok (if path = [] then listing else []) }
    let maxDepth : UInt64 := 18446744073709551615
    let bounds := Bounds.of maxDepth.toNat 1
    let start := Loops.start around "/" (.new [] ⟨4, by decide⟩ ⟨1, by decide⟩)
    let loops := (Loops.step around bounds)^[6] start
    let root : Site Unit := ⟨(), [], 0, 1⟩
    let verifier := fingerprint "/" listing
    loops.queue.map Prod.snd = [1, 1] ∧ loops.Serves around root verifier 1 listing ∧
      ∃ before earlier previous, Leads around bounds start before ∧
        before.Serves around root verifier earlier previous ∧ 1 < previous.length := by
  intro listing around maxDepth bounds start loops root verifier
  have hreads : ∀ read store path found, around.readDir read store path = .ok found →
      found.length ≤ 2 ^ 63 - 1 := by
    intro read store path found hfound
    obtain rfl := Except.ok.inj hfound
    split <;> decide
  have hturns : loops.queue.map Prod.snd = [1, 1] ∧ loops.stage = .page root verifier 1 ∧
      (loops.state.lookUp around root.path.text verifier).1 = some listing := by
    decide +kernel
  obtain ⟨hqueue, hstage, hfound⟩ := hturns
  obtain ⟨-, -, hpages⟩ := sums_fit_word around maxDepth 1 "/" _ hreads ⟨6, rfl⟩
  obtain ⟨hnone | ⟨before, earlier, previous, hbefore, -, hserves, -, -, hmore⟩, -⟩ :=
    hpages root verifier 1 listing ⟨hstage, hfound⟩
  · contradiction
  · exact ⟨hqueue, ⟨hstage, hfound⟩, before, earlier, previous, hbefore, hserves, hmore⟩

end HandleTable.Walk
