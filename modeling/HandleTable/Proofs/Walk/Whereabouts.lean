import HandleTable.Proofs.Walk.Accounts

/-!
# Which directories the handles of a walk stand for

A walk that starts with empty tables mints a handle for the root and for each directory to
which the visited ones lead: `issued bounds visits`, in this order.  Handles are queued as
they are minted and taken from the queue in the same order, so that at every turn the
queue holds the numbers from the first one that has not been taken on (`Traced.queue`).

As long as no handle is supplied twice, a handle that is live stands for the directory for
which it was minted, however many others have been evicted (`Faithful`).  So the visited
directories are, in order, among those for which handles were minted
(`Traced.visited`).  No turn of the loops looks further back than this, which is why lost
lookups and changing listings make no difference.

That a walk comes upon nothing but what the directories that it lists lead to (`Only`), that
all of this belongs to the store that was mounted (`OneStore`), and that each reading has the
listing which the export answered (`Answered`), does not even need the handles to be
different.
-/

namespace HandleTable.Walk

open scoped List

variable {ι σ : Type}

/-- The directory that is being read. -/
def Stage.site? : Stage σ → Option (Site σ)
  | .read site | .page site _ _ => some site
  | .next | .ended _ => none

theorem forall_site?_of_none {stage : Stage σ} {kind : Site σ → Prop}
    (hnone : stage.site? = none) : ∀ site ∈ stage.site?, kind site := by
  intro site hsite
  rw [hnone] at hsite
  contradiction

theorem site?_afterLoss {site after : Site σ} (hsite : after ∈ site.afterLoss.site?) :
    after.store = site.store ∧ after.path = site.path ∧ after.depth = site.depth := by
  unfold Site.afterLoss at hsite
  split at hsite
  · cases hsite
    exact ⟨rfl, rfl, rfl⟩
  · contradiction

theorem site?_afterPage {bounds : Bounds} {site after : Site σ} {verifier : Verifier} {cookie : ℕ}
    {listing : Listing}
    (hsite : after ∈ (site.afterPage bounds verifier cookie listing).site?) : after = site := by
  unfold Site.afterPage at hsite
  split at hsite
  · contradiction
  · exact (Option.some.inj hsite).symm

/-! ## What a page leads to -/

theorem children_sublist (bounds : Bounds) (depth : ℕ) (path : Path) (listing : Listing) :
    children bounds depth path listing <+ subdirectories path listing := by
  unfold children
  split
  · exact List.Sublist.refl _
  · exact List.nil_sublist _

/-- A page leads nowhere but the whole listing does. -/
theorem children_page_sublist (bounds : Bounds) (depth : ℕ) (path : Path) (listing : Listing)
    (cookie count : ℕ) :
    children bounds depth path ((listing.drop cookie).take count) <+
      subdirectories path listing := by
  have hpage : (listing.drop cookie).take count <+ listing :=
    (List.take_sublist ..).trans (List.drop_sublist ..)
  exact (children_sublist ..).trans ((hpage.filter _).map _)

theorem eq_append_of_mem_children {bounds : Bounds} {depth : ℕ} {path child : Path}
    {listing : Listing} (hchild : child ∈ children bounds depth path listing) :
    ∃ name, child = path ++ [name] := by
  obtain ⟨entry, -, rfl⟩ := List.mem_map.mp ((children_sublist ..).subset hchild)
  exact ⟨entry.name, rfl⟩

theorem length_of_mem_children {bounds : Bounds} {depth : ℕ} {path child : Path}
    {listing : Listing} (hchild : child ∈ children bounds depth path listing) :
    child.length = path.length + 1 := by
  obtain ⟨name, rfl⟩ := eq_append_of_mem_children hchild
  rw [List.length_append, List.length_singleton]

/-! ## What a walk comes upon -/

theorem Frontier.peek_issueAll {fresh : ℕ → Handle} {store : σ} {frontier : Frontier σ}
    {paths : List Path} {handle : Handle} {target : Target σ}
    (hlive : (frontier.issueAll fresh store paths).handles.peek handle = some target) :
    (∃ path ∈ paths, target = ⟨store, path⟩) ∨ frontier.handles.peek handle = some target := by
  induction paths generalizing frontier with
  | nil => exact Or.inr hlive
  | cons path rest ih =>
      rcases ih hlive with ⟨later, hlater, htarget⟩ | hearlier
      · exact Or.inl ⟨later, List.mem_cons_of_mem _ hlater, htarget⟩
      · by_cases hnew : handle = fresh frontier.minted
        · rw [hnew, issue, Handles.mint, Recency.peek_insert_self] at hearlier
          exact Or.inl ⟨path, List.mem_cons_self, (Option.some.inj hearlier).symm⟩
        · exact Or.inr (Recency.peek_of_peek_insert hnew hearlier)

/-- Everything that a walk has come upon is of one kind: what live handles stand for, the
directory that is being read, and those that have been visited. -/
structure Only (kind : Target σ → Prop) (loops : Loops ι σ) : Prop where
  targets : ∀ handle target, loops.state.server.handles.peek handle = some target → kind target
  site : ∀ site ∈ loops.stage.site?, kind ⟨site.store, site.path⟩
  visits : ∀ path ∈ loops.state.visits.map Visit.path, ∃ store, kind ⟨store, path⟩

/-- A walk comes upon nothing else as long as the directories that it lists lead to nothing
else. -/
protected theorem Only.step {around : Surroundings ι σ} {bounds : Bounds} {kind : Target σ → Prop}
    {before after : Loops ι σ} (hstep : Step around bounds before after)
    (hchildren : ∀ site verifier cookie listing, before.stage = .page site verifier cookie →
      (before.state.lookUp around site.path.text verifier).1 = some listing →
      kind ⟨site.store, site.path⟩ →
      ∀ child ∈ subdirectories site.path listing, kind ⟨site.store, child⟩)
    (hbefore : Only kind before) : Only kind after := by
  obtain ⟨htargets, hsite, hvisits⟩ := hbefore
  cases hstep with
  | stay => exact ⟨htargets, hsite, hvisits⟩
  | finish => exact ⟨htargets, forall_site?_of_none rfl, hvisits⟩
  | skip =>
      refine ⟨fun handle target hpeek => htargets handle target ?_, forall_site?_of_none rfl, ?_⟩
      · rwa [State.skipped, Server.fromHandle, Handles.peek_resolve] at hpeek
      · rwa [State.visits_skipped]
  | @enter handle state target depth rest hlive =>
      have hkind := htargets _ _ (Handles.resolve_bytes_eq_ok_iff.mp hlive)
      refine ⟨fun handle target hpeek => htargets handle target ?_, ?_, ?_⟩
      · rwa [State.entered, Server.fromHandle, Handles.peek_resolve] at hpeek
      · rintro site ⟨⟩
        exact hkind
      · intro path hpath
        rw [State.visits_entered, List.map_append] at hpath
        rcases List.mem_append.mp hpath with hearlier | hthis
        · exact hvisits path hearlier
        · rw [List.mem_singleton.mp hthis]
          exact ⟨target.store, hkind⟩
  | fail => exact ⟨htargets, forall_site?_of_none rfl, hvisits⟩
  | opened =>
      refine ⟨htargets, hsite, ?_⟩
      rwa [State.visits_opened, map_path_reread]
  | @lose site verifier state cookie queue hmissing =>
      have hhandles := congrArg Frontier.handles
        (frontier_lookUp around site.path.text verifier state)
      refine ⟨fun handle target hpeek => htargets handle target ?_, ?_, ?_⟩
      · rwa [← show _ = state.server.handles from hhandles]
      · intro again hagain
        obtain ⟨hstore, hpath, -⟩ := site?_afterLoss hagain
        rw [hstore, hpath]
        exact hsite site rfl
      · rwa [State.visits_restarted]
  | @serve site verifier state listing cookie queue hfound =>
      have hkind := hsite site rfl
      have hfrontier := (served_served around bounds site verifier cookie listing state).frontier
      refine ⟨fun handle target hpeek => ?_, ?_, ?_⟩
      · have hissued : ((state.served around bounds site verifier cookie
            listing).frontier.handles).peek handle = some target := hpeek
        rw [hfrontier] at hissued
        -- a handle was issued for this page, or it was live before
        rcases Frontier.peek_issueAll hissued with ⟨child, hchild, htarget⟩ | hearlier
        · rw [htarget]
          exact hchildren site verifier cookie listing rfl hfound hkind child
            ((children_page_sublist ..).subset hchild)
        · exact htargets _ _ hearlier
      · intro again hagain
        rw [site?_afterPage hagain]
        exact hkind
      · rwa [State.visits_unqueued, State.visits_served, map_path_turn]

theorem only_rooted (around : Surroundings ι σ) {kind : Target σ → Prop} {store : σ} (inner : ι)
    (limit room : Capacity) (hroot : kind ⟨store, []⟩) :
    Only kind (.rooted around store (.new inner limit room)) := by
  refine ⟨fun handle target hpeek => ?_, forall_site?_of_none rfl, List.forall_mem_nil _⟩
  have hissued : ((⟨.empty limit, 0, []⟩ : Frontier σ).issueAll around.fresh store
      [[]]).handles.peek handle = some target := hpeek
  rcases Frontier.peek_issueAll hissued with ⟨path, hpath, htarget⟩ | hnone
  · rwa [htarget, List.mem_singleton.mp hpath]
  · contradiction

/-- Everything that the walk has come upon belongs to one store. -/
def OneStore (store : σ) (loops : Loops ι σ) : Prop :=
  Only (fun target => target.store = store) loops

protected theorem OneStore.step {around : Surroundings ι σ} {bounds : Bounds} {store : σ}
    {before after : Loops ι σ} (hstep : Step around bounds before after)
    (hbefore : OneStore store before) : OneStore store after :=
  Only.step hstep (fun _ _ _ _ _ _ hstore _ _ => hstore) hbefore

/-! ## What was read -/

/-- The directories that were read listed what their reads answered, one after another. -/
def Answered (readDir : ℕ → Path → Except Failure Listing) (answers : List (Path × Listing)) :
    Prop :=
  ∀ number path listing, answers[number]? = some (path, listing) →
    readDir number path = .ok listing

theorem Answered.append {readDir : ℕ → Path → Except Failure Listing}
    {answers : List (Path × Listing)} {path : Path} {listing : Listing}
    (hanswered : Answered readDir answers)
    (hread : readDir answers.length path = .ok listing) :
    Answered readDir (answers ++ [(path, listing)]) := by
  intro number path' listing' hnumber
  rw [List.getElem?_append] at hnumber
  split at hnumber
  · exact hanswered number path' listing' hnumber
  · rename_i hlast
    rw [List.getElem?_singleton] at hnumber
    split at hnumber
    · cases hnumber
      have hsame : number = answers.length := by omega
      rwa [hsame]
    · contradiction

protected theorem Answered.step {around : Surroundings ι σ} {bounds : Bounds} {store : σ}
    {before after : Loops ι σ} (hstep : Step around bounds before after)
    (hconsistent : Consistent bounds before) (hstore : OneStore store before)
    (hbefore : Answered (fun read => around.readDir read store) (answers before.state.visits)) :
    Answered (fun read => around.readDir read store) (answers after.state.visits) := by
  obtain ⟨-, -, hunderway, haccounted⟩ := hconsistent
  cases hstep with
  | stay | finish | fail => exact hbefore
  | @skip handle state =>
      rwa [State.visits_skipped]
  | @enter handle state target =>
      rw [State.visits_entered]
      simpa using hbefore
  | @opened site state listing queue hread =>
      have hreads := haccounted.reads
      have hsame : site.store = store := hstore.site site rfl
      rw [hsame, hreads] at hread
      rw [State.visits_opened]
      generalize state.visits = visits at hunderway hbefore hread ⊢
      cases hunderway with
      | read hrestarting =>
          have hboth := hbefore.append hread
          rw [Visit.reread_last]
          simpa [Visit.reread] using hboth
  | @lose site verifier state =>
      rwa [State.visits_restarted]
  | @serve site verifier state listing cookie queue hfound =>
      rw [State.visits_unqueued, State.visits_served]
      generalize state.visits = visits at hunderway hbefore ⊢
      cases hunderway with
      | page =>
          rw [Visit.turn_last]
          simpa using hbefore

/-! ## What the handles stand for -/

/-- The directories for which handles have been minted, in order: the root, and those to
which the visited directories lead. -/
def issued (bounds : Bounds) (visits : List Visit) : List Path :=
  [] :: visits.flatMap (Visit.leadsTo bounds)

theorem issued_enter (bounds : Bounds) (visits : List Visit) (path : Path) :
    issued bounds (visits ++ [⟨path, []⟩]) = issued bounds visits := by
  simp [issued, Visit.leadsTo]

theorem issued_reread (bounds : Bounds) (listing : Listing) (visits : List Visit) :
    issued bounds (visits.modifyLast (Visit.reread listing)) = issued bounds visits := by
  rcases visits.eq_nil_or_concat' with rfl | ⟨past, last, rfl⟩
  · rfl
  · simp [Visit.reread_last, Visit.reread, issued, Visit.leadsTo, children, subdirectories]

/-- A page adds what it leads to. -/
theorem issued_turn {bounds : Bounds} {verifiers : Verifiers} {site : Site σ}
    {verifier : Verifier} {cookie : ℕ} {visits : List Visit}
    (hunderway : Underway bounds.pageSize verifiers (.page site verifier cookie) visits)
    (page : Listing) :
    issued bounds (visits.modifyLast (Visit.turn page)) =
      issued bounds visits ++ children bounds site.path.length site.path page := by
  cases hunderway with
  | page =>
      rw [Visit.turn_last]
      simp [issued, Visit.leadsTo, children_append]

/-- Handles are minted for the root, and for directories in one that leads further. -/
theorem length_of_mem_issued {bounds : Bounds} {visits : List Visit} {path : Path}
    (hpath : path ∈ issued bounds visits) : path.length < max 1 bounds.maxDepth := by
  rcases List.mem_cons.mp hpath with rfl | hlower
  · exact lt_max_of_lt_left Nat.zero_lt_one
  · obtain ⟨visit, -, hled⟩ := List.mem_flatMap.mp hlower
    obtain ⟨reading, -, hchild⟩ := List.mem_flatMap.mp hled
    rw [length_of_mem_children hchild]
    unfold children at hchild
    split at hchild
    · rename_i hinner
      exact lt_max_of_lt_right hinner
    · contradiction

/-- A handle that was minted for one of `paths` and is still live stands for it. -/
def Faithful (fresh : ℕ → Handle) (store : σ) (paths : List Path) (handles : Handles σ) : Prop :=
  ∀ number path, paths[number]? = some path → ∀ target,
    handles.peek (fresh number) = some target → target = ⟨store, path⟩

/-- A handle that has not been supplied before changes nothing for the others, of which one
may be evicted. -/
theorem Faithful.mint {fresh : ℕ → Handle} {store : σ} {paths : List Path} {handles : Handles σ}
    (hfaithful : Faithful fresh store paths handles)
    (hfresh : Set.InjOn fresh (Set.Iio (paths.length + 1))) (path : Path) :
    Faithful fresh store (paths ++ [path]) (handles.mint (fresh paths.length) store path) := by
  intro number other hnumber target hlive
  by_cases hlast : number = paths.length
  · subst hlast
    rw [Handles.mint, Recency.peek_insert_self] at hlive
    rw [List.getElem?_concat_length] at hnumber
    cases hlive
    cases hnumber
    rfl
  · have hbound : number < paths.length := by
      have hin := (List.getElem?_eq_some_iff.mp hnumber).1
      rw [List.length_append, List.length_singleton] at hin
      omega
    have hother : fresh number ≠ fresh paths.length := by
      intro hsame
      exact hlast (hfresh (Set.mem_Iio.mpr (by omega)) (Set.mem_Iio.mpr (by omega)) hsame)
    rw [List.getElem?_append_left hbound] at hnumber
    exact hfaithful number other hnumber target (Recency.peek_of_peek_insert hother hlive)

theorem Faithful.issueAll {fresh : ℕ → Handle} {store : σ} {paths more : List Path}
    {frontier : Frontier σ} (hfaithful : Faithful fresh store paths frontier.handles)
    (hminted : frontier.minted = paths.length)
    (hfresh : Set.InjOn fresh (Set.Iio (paths.length + more.length))) :
    Faithful fresh store (paths ++ more) (frontier.issueAll fresh store more).handles := by
  induction more generalizing paths frontier with
  | nil => rwa [List.append_nil]
  | cons path rest ih =>
      rw [List.length_cons] at hfresh
      have hone : Faithful fresh store (paths ++ [path])
          (frontier.issue fresh store path).handles := by
        have hmint := hfaithful.mint (hfresh.mono (Set.Iio_subset_Iio (by omega))) path
        rwa [← hminted] at hmint
      rw [List.append_cons]
      refine ih hone ?_ (hfresh.mono ?_)
      · rw [List.length_append, ← hminted]
        rfl
      · refine Set.Iio_subset_Iio ?_
        rw [List.length_append, List.length_singleton]
        omega

/-- The handles that wait are those minted last, in the order in which they were minted,
and the visited directories are among those for which the others were minted. -/
structure Traced (fresh : ℕ → Handle) (store : σ) (paths visited : List Path)
    (taken minted : ℕ) (handles : Handles σ) (queue : List (Handle × ℕ)) : Prop where
  length : minted = paths.length
  bound : taken ≤ paths.length
  faithful : Faithful fresh store paths handles
  queue : queue = (paths.zipIdx.drop taken).map fun item => (fresh item.2, item.1.length)
  visited : visited <+ paths.take taken

namespace Traced

variable {fresh : ℕ → Handle} {store : σ} {paths visited : List Path} {taken minted : ℕ}
  {handles : Handles σ} {queue : List (Handle × ℕ)}

/-- The next handle is that of the first directory that has not been visited or skipped. -/
theorem pop {handle : Handle} {depth : ℕ} {rest : List (Handle × ℕ)}
    (htraced : Traced fresh store paths visited taken minted handles ((handle, depth) :: rest)) :
    ∃ path, paths[taken]? = some path ∧ handle = fresh taken ∧ depth = path.length ∧
      rest = (paths.zipIdx.drop (taken + 1)).map fun item => (fresh item.2, item.1.length) := by
  obtain ⟨⟨path, number⟩, rest', hdrop, hfirst, hrest⟩ :=
    List.map_eq_cons_iff.mp htraced.queue.symm
  have hitem : paths.zipIdx[taken]? = some (path, number) := by
    rw [← List.head?_drop, hdrop]
    rfl
  rw [List.getElem?_zipIdx, Nat.zero_add, Option.map_eq_some_iff] at hitem
  obtain ⟨path', hpath, hsame⟩ := hitem
  cases hsame
  cases hfirst
  refine ⟨path, hpath, rfl, rfl, ?_⟩
  rw [← List.tail_drop, hdrop, ← hrest]
  rfl

/-- A use of the next handle, whether it is live or stale. -/
theorem use {handle : Handle} {depth : ℕ} {rest : List (Handle × ℕ)} {path : Path}
    {visited' : List Path}
    (htraced : Traced fresh store paths visited taken minted handles ((handle, depth) :: rest))
    (hpath : paths[taken]? = some path) (hvisited : visited' <+ visited ++ [path])
    (wire : List UInt8) :
    Traced fresh store paths visited' (taken + 1) minted (handles.resolve wire).2 rest := by
  obtain ⟨-, -, -, -, hrest⟩ := htraced.pop
  refine ⟨htraced.length, (List.getElem?_eq_some_iff.mp hpath).1, ?_, hrest, ?_⟩
  · intro number other hnumber target hlive
    rw [Handles.peek_resolve] at hlive
    exact htraced.faithful number other hnumber target hlive
  · rw [List.take_add_one, hpath]
    exact hvisited.trans (htraced.visited.append (List.Sublist.refl [path]))

theorem issue {more : List Path} {depth : ℕ} {frontier : Frontier σ}
    (htraced : Traced fresh store paths visited taken minted frontier.handles queue)
    (hminted : frontier.minted = minted) (hdepth : ∀ path ∈ more, path.length = depth)
    (hfresh : Set.InjOn fresh (Set.Iio (minted + more.length))) :
    Traced fresh store (paths ++ more) visited taken (minted + more.length)
      (frontier.issueAll fresh store more).handles
      (queue ++ ((List.range' minted more.length).map fresh).map
        fun handle => (handle, depth)) := by
  obtain ⟨hlength, hbound, hfaithful, hqueue, hvisited⟩ := htraced
  refine ⟨?_, ?_, ?_, ?_, ?_⟩
  · rw [hlength, List.length_append]
  · rw [List.length_append]
    exact Nat.le_add_right_of_le hbound
  · rw [hlength] at hfresh hminted
    exact hfaithful.issueAll hminted hfresh
  · have hnew : (more.zipIdx minted).map (fun item => (fresh item.2, item.1.length)) =
        ((List.range' minted more.length).map fresh).map fun handle => (handle, depth) := by
      rw [List.map_map, ← List.zipIdx_map_snd minted more, List.map_map]
      refine List.map_congr_left fun item hitem => ?_
      have hmem : item.1 ∈ more := List.fst_mem_of_mem_zipIdx hitem
      exact congrArg (Prod.mk (fresh item.2)) (hdepth item.1 hmem)
    rw [List.zipIdx_append, List.drop_append_of_le_length, List.map_append, ← hqueue, Nat.zero_add,
      ← hlength, hnew]
    rwa [List.length_zipIdx]
  · rwa [List.take_append_of_le_length hbound]

end Traced

/-- At every turn, the handles stand for what they were minted for, and the directory that
is being read lies as deep as its handle was queued. -/
structure Tracked (around : Surroundings ι σ) (bounds : Bounds) (store : σ)
    (loops : Loops ι σ) : Prop where
  traced : Traced around.fresh store (issued bounds loops.state.visits)
    (loops.state.visits.map Visit.path)
    (loops.state.totals.directories + loops.state.totals.staleHandles) loops.state.minted
    loops.state.server.handles loops.queue
  site : ∀ site ∈ loops.stage.site?, site.path.length = site.depth

theorem Tracked.step {around : Surroundings ι σ} {bounds : Bounds} {store : σ}
    {before after : Loops ι σ} (hstep : Step around bounds before after)
    (hconsistent : Consistent bounds before) (hstore : OneStore store before)
    (hfresh : Set.InjOn around.fresh (Set.Iio after.state.minted))
    (hbefore : Tracked around bounds store before) : Tracked around bounds store after := by
  obtain ⟨htraced, hsite⟩ := hbefore
  obtain ⟨⟨hqueue, -⟩, -, hunderway, -⟩ := hconsistent
  cases hstep with
  | stay => exact ⟨htraced, hsite⟩
  | finish => exact ⟨htraced, forall_site?_of_none rfl⟩
  | @skip handle state failure depth rest hstale =>
      obtain ⟨path, hpath, -, -, -⟩ := htraced.pop
      refine ⟨?_, forall_site?_of_none rfl⟩
      rw [State.visits_skipped]
      exact htraced.use hpath (List.sublist_append_left _ _) handle.bytes
  | @enter handle state target depth rest hlive =>
      obtain ⟨path, hpath, hhandle, hdepth, -⟩ := htraced.pop
      -- a handle that is live can only stand for what it was minted for
      have htarget : target = ⟨store, path⟩ := by
        have hpeek := Handles.resolve_bytes_eq_ok_iff.mp hlive
        rw [hhandle] at hpeek
        exact htraced.faithful _ path hpath target hpeek
      subst htarget
      refine ⟨?_, ?_⟩
      · rw [State.visits_entered, issued_enter, List.map_append]
        have hused := htraced.use hpath (List.Sublist.refl _) handle.bytes
        rw [Nat.add_right_comm] at hused
        exact hused
      · rintro site ⟨⟩
        exact hdepth.symm
  | fail => exact ⟨htraced, forall_site?_of_none rfl⟩
  | @opened site state listing queue hread =>
      refine ⟨?_, hsite⟩
      rw [State.visits_opened, issued_reread, map_path_reread]
      exact htraced
  | @lose site verifier state cookie queue hmissing =>
      obtain ⟨htotals, hminted, -⟩ := restarted_counts around site verifier state
      have hhandles :
          (state.restarted around site verifier).server.handles = state.server.handles :=
        congrArg Frontier.handles (frontier_lookUp around site.path.text verifier state)
      refine ⟨?_, ?_⟩
      · rw [State.visits_restarted, htotals, hminted, hhandles]
        exact htraced
      · intro again hagain
        obtain ⟨-, hpath, hdepth⟩ := site?_afterLoss hagain
        rw [hpath, hdepth]
        exact hsite site rfl
  | @serve site verifier state listing cookie queue hfound =>
      refine ⟨?_, fun again hagain => ?_⟩
      · obtain ⟨hminted, hqueued, htotals, -⟩ :=
          served_counts around bounds site verifier cookie listing state
        have hhandles : (state.served around bounds site verifier cookie listing).server.handles =
            _ := congrArg Frontier.handles
          (served_served around bounds site verifier cookie listing state).frontier
        have hdepth := hsite site rfl
        have hsame : site.store = store := hstore.site site rfl
        rw [hqueue, List.nil_append] at hqueued
        rw [hsame, ← hdepth] at hhandles
        rw [State.visits_unqueued, State.visits_served, issued_turn hunderway, map_path_turn]
        dsimp only [State.unqueued] at hfresh ⊢
        rw [hminted, ← hdepth] at hfresh
        rw [← hdepth] at hminted hqueued ⊢
        rw [hminted, hhandles, hqueued, htotals]
        exact htraced.issue rfl (fun _ => length_of_mem_children) hfresh
      · rw [site?_afterPage hagain]
        exact hsite site rfl

/-! ## Every walk -/

/-- What is known at every turn of a walk that started with empty tables. -/
structure Known (around : Surroundings ι σ) (bounds : Bounds) (store : σ) (loops : Loops ι σ) :
    Prop where
  consistent : Consistent bounds loops
  oneStore : OneStore store loops
  answered : Answered (fun read => around.readDir read store) (answers loops.state.visits)
  tracked : Set.InjOn around.fresh (Set.Iio loops.state.minted) →
    Tracked around bounds store loops

theorem Step.minted_le {around : Surroundings ι σ} {bounds : Bounds} {before after : Loops ι σ}
    (hstep : Step around bounds before after) : before.state.minted ≤ after.state.minted := by
  cases hstep with
  | stay | finish | skip | enter | fail | opened => exact le_rfl
  | lose => exact (restarted_counts ..).2.1.ge
  | serve =>
      rw [show (State.unqueued _).minted = _ from (served_counts ..).1]
      exact Nat.le_add_right ..

protected theorem Known.step {around : Surroundings ι σ} {bounds : Bounds} {store : σ}
    {before after : Loops ι σ} (hstep : Step around bounds before after)
    (hbefore : Known around bounds store before) : Known around bounds store after where
  consistent := hbefore.consistent.step hstep
  oneStore := hbefore.oneStore.step hstep
  answered := hbefore.answered.step hstep hbefore.consistent hbefore.oneStore
  tracked hfresh :=
    (hbefore.tracked (hfresh.mono (Set.Iio_subset_Iio hstep.minted_le))).step hstep
      hbefore.consistent hbefore.oneStore hfresh

theorem known_rooted (around : Surroundings ι σ) (bounds : Bounds) (store : σ) (inner : ι)
    (limit room : Capacity) :
    Known around bounds store (.rooted around store (.new inner limit room)) where
  consistent := consistent_rooted ..
  oneStore := only_rooted around inner limit room rfl
  answered := nofun
  tracked hfresh := by
    have hempty : Traced around.fresh store [] [] 0 0 (⟨.empty limit, 0, []⟩ : Frontier σ).handles
        [] := ⟨rfl, le_rfl, nofun, rfl, List.Sublist.refl _⟩
    have hroot : ∀ path ∈ [([] : Path)], path.length = 0 := by simp
    exact ⟨hempty.issue rfl hroot hfresh, forall_site?_of_none rfl⟩

theorem Known.of_leads {around : Surroundings ι σ} {bounds : Bounds} {store : σ} {inner : ι}
    {limit room : Capacity} {loops : Loops ι σ}
    (hleads : Leads around bounds (.rooted around store (.new inner limit room)) loops) :
    Known around bounds store loops :=
  hleads.keeps _ Known.step (known_rooted around bounds store inner limit room)

section Known

variable {around : Surroundings ι σ} {bounds : Bounds} {store : σ} {loops : Loops ι σ}
  (hknown : Known around bounds store loops)
  (hfresh : ((List.range loops.state.minted).map around.fresh).Nodup)

include hknown hfresh

/-- No handle is supplied twice, so that handles stand for what they were minted for. -/
theorem Known.tracked_of_nodup : Tracked around bounds store loops := by
  exact hknown.tracked (injOn_of_nodup_map_range hfresh)

/-- The visited directories are, in order, among those for which handles were minted. -/
theorem Known.visited_sublist :
    loops.state.visits.map Visit.path <+ issued bounds loops.state.visits :=
  (hknown.tracked_of_nodup hfresh).traced.visited.trans (List.take_sublist ..)

theorem Known.length_lt {path : Path} (hpath : path ∈ loops.state.visits.map Visit.path) :
    path.length < max 1 bounds.maxDepth :=
  length_of_mem_issued ((hknown.visited_sublist hfresh).subset hpath)

end Known

end HandleTable.Walk
