import HandleTable.Proofs.Walk.Evictions

/-!
# What a walk visits

Every directory that a walk visits is the root, or one of the visited directories lists it.
So whatever holds of the root, and is handed on from a directory to the directories that it
lists, holds of all that is visited (`walk_visits_only`).  This needs nothing of the walk:
handles may be evicted or even supplied twice, and lookups may be lost.

When no handle is supplied twice, no directory is visited below the last level
(`walk_stays_in_depth`).  And when no lookup is lost either and no listing leads to the
same directory twice, then no directory is visited twice (`walk_visits_once`): it could
only be visited again through its parent, which would have been visited again before it.
-/

namespace HandleTable.Walk

open scoped List

variable {ι σ : Type}

/-! ## What the visited directories list -/

theorem Answered.of_mem {readDir : ℕ → Path → Except Failure Listing}
    {answers : List (Path × Listing)} {path : Path} {listing : Listing}
    (hanswered : Answered readDir answers) (hanswer : (path, listing) ∈ answers) :
    ∃ read, readDir read path = .ok listing := by
  obtain ⟨read, hread⟩ := List.mem_iff_getElem?.mp hanswer
  exact ⟨read, hanswered read path listing hread⟩

theorem Known.readDir_of_found {around : Surroundings ι σ} {bounds : Bounds} {store : σ}
    {site : Site σ} {verifier : Verifier} {cookie : ℕ} {queue : List (Handle × ℕ)}
    {state : State ι σ} {listing : Listing}
    (hknown : Known around bounds store ⟨.page site verifier cookie, queue, state⟩)
    (hfound : (state.lookUp around site.path.text verifier).1 = some listing) :
    ∃ read, around.readDir read store site.path = .ok listing := by
  obtain ⟨⟨-, -, hunderway, -⟩, -, hanswered, -⟩ := hknown
  apply hanswered.of_mem
  dsimp only at hunderway ⊢
  generalize state.visits = visits at hunderway ⊢
  cases hunderway with
  | page hrestarting hkept hmore =>
      obtain ⟨rfl, -⟩ := lookUp_of_found hkept hfound
      simp

/-- A walk either visits nothing, or its loops lead from the root to its end. -/
theorem visited_cases (around : Surroundings ι σ) (bounds : Bounds) (request : String) (inner : ι)
    (limit verifierLimit : Capacity) :
    let outcome := walk around bounds request (.new inner limit verifierLimit)
    outcome.2.visited = [] ∨
      ∃ store inner' queue, Leads around bounds
        (.rooted around store (.new inner' limit verifierLimit))
        ⟨.ended outcome.1, queue, outcome.2.unqueued⟩ := by
  intro outcome
  rcases walk_cases around bounds request (.new inner limit verifierLimit) with
    ⟨failure, inner', -, hstart⟩ | ⟨store, inner', queue, -, hleads⟩
  · exact Or.inl (congrArg State.visited hstart)
  · exact Or.inr ⟨store, inner', queue, hleads⟩

/-- **Nothing is visited but what the visited directories list.**  What holds of the root,
and holds of the directories that a directory lists whenever it holds of the directory
itself, holds of every directory that a walk visits, however the walk goes. -/
theorem walk_visits_only {around : Surroundings ι σ} {kept : Path → Prop} (hroot : kept [])
    (hlisted : ∀ read store path listing, kept path →
      around.readDir read store path = .ok listing →
      ∀ child ∈ subdirectories path listing, kept child)
    (bounds : Bounds) (request : String) (inner : ι) (limit verifierLimit : Capacity) :
    ∀ path ∈ (walk around bounds request (.new inner limit verifierLimit)).2.visited,
      kept path := by
  intro path hpath
  rcases visited_cases around bounds request inner limit verifierLimit with
    hnone | ⟨store, inner', queue, hleads⟩
  · rw [hnone] at hpath
    contradiction
  · let invariant (loops : Loops ι σ) : Prop :=
      Known around bounds store loops ∧ Only (fun target => kept target.path) loops
    have hrooted : invariant (.rooted around store (.new inner' limit verifierLimit)) :=
      ⟨known_rooted .., only_rooted around inner' limit verifierLimit hroot⟩
    have hstep : ∀ {before after}, Step around bounds before after → invariant before →
        invariant after := by
      rintro before after hstep ⟨hknown, honly⟩
      refine ⟨hknown.step hstep, honly.step hstep ?_⟩
      -- what is found under a verifier is what some read answered
      rintro site verifier cookie listing hstage hfound hsite
      obtain ⟨stage, queue, state⟩ := before
      cases hstage
      obtain ⟨read, hread⟩ := hknown.readDir_of_found hfound
      exact hlisted read store site.path listing hsite hread
    obtain ⟨-, -, -, hvisits⟩ := hleads.keeps invariant hstep hrooted
    rw [← State.map_path_visits] at hpath
    obtain ⟨_, hkept⟩ := hvisits path hpath
    exact hkept

/-! ## How often a directory is visited -/

theorem eq_append_of_mem_leadsTo {bounds : Bounds} {visit : Visit} {child : Path}
    (hchild : child ∈ visit.leadsTo bounds) : ∃ name, child = visit.path ++ [name] := by
  obtain ⟨reading, -, hled⟩ := List.mem_flatMap.mp hchild
  exact eq_append_of_mem_children hled

/-- A directory gets at most one handle on each visit of its parent. -/
theorem count_flatMap_leadsTo_le {bounds : Bounds} {visits : List Visit}
    (hdistinct : ∀ visit ∈ visits, (visit.leadsTo bounds).Nodup) (parent : Path) (name : String) :
    (visits.flatMap (Visit.leadsTo bounds)).count (parent ++ [name]) ≤
      (visits.map Visit.path).count parent := by
  induction visits with
  | nil => exact le_rfl
  | cons visit rest ih =>
      rw [List.forall_mem_cons] at hdistinct
      obtain ⟨hfirst, hrest⟩ := hdistinct
      rw [List.flatMap_cons, List.count_append, List.map_cons, List.count_cons, Nat.add_comm]
      apply Nat.add_le_add (ih hrest)
      by_cases hparent : visit.path = parent
      · rw [if_pos (beq_iff_eq.mpr hparent)]
        exact List.nodup_iff_count_le_one.mp hfirst _
      · have hother : parent ++ [name] ∉ visit.leadsTo bounds := by
          intro hled
          obtain ⟨other, hchild⟩ := eq_append_of_mem_leadsTo hled
          exact hparent (List.append_inj_left' hchild rfl).symm
        rw [List.count_eq_zero_of_not_mem hother]
        exact Nat.zero_le _

/-- Directories that were visited because their parents were, each child once, are visited
once. -/
theorem nodup_of_sublist_issued {bounds : Bounds} {visits : List Visit}
    (hlisted : visits.map Visit.path <+ issued bounds visits)
    (hdistinct : ∀ visit ∈ visits, (visit.leadsTo bounds).Nodup) :
    (visits.map Visit.path).Nodup := by
  rw [List.nodup_iff_count_le_one]
  intro path
  have hissued := hlisted.count_le path
  -- along the path: it is visited no more often than its parent
  induction path using List.reverseRecOn with
  | nil =>
      have hroot : [] ∉ visits.flatMap (Visit.leadsTo bounds) := by
        intro hled
        obtain ⟨visit, -, hchild⟩ := List.mem_flatMap.mp hled
        obtain ⟨name, hnil⟩ := eq_append_of_mem_leadsTo hchild
        exact List.append_ne_nil_of_right_ne_nil _ (List.cons_ne_nil _ _) hnil.symm
      rwa [issued, List.count_cons_self, List.count_eq_zero_of_not_mem hroot] at hissued
  | append_singleton parent name ih =>
      calc (visits.map Visit.path).count (parent ++ [name])
          ≤ (issued bounds visits).count (parent ++ [name]) := hissued
        _ = (visits.flatMap (Visit.leadsTo bounds)).count (parent ++ [name]) :=
          List.count_cons_of_ne (by simp)
        _ ≤ (visits.map Visit.path).count parent := count_flatMap_leadsTo_le hdistinct parent name
        _ ≤ 1 := ih (hlisted.count_le parent)

theorem nodup_subdirectories {listing : Listing} (hnames : listing.names.Nodup) (path : Path) :
    (subdirectories path listing).Nodup := by
  have hkept : ((listing.filter Entry.isDir).map Entry.name).Nodup :=
    hnames.sublist (List.filter_sublist.map _)
  have happend : Function.Injective fun name : String => path ++ [name] := by
    intro first second hsame
    exact List.singleton_inj.mp (List.append_cancel_left hsame)
  have hpaths := hkept.map happend
  rwa [List.map_map] at hpaths

section Fresh

variable (around : Surroundings ι σ) {maxDepth pageSize : ℕ} {request : String} {inner : ι}
  {limit verifierLimit : Capacity}
  (hfresh : ((List.range (walk around (.of maxDepth pageSize) request
    (.new inner limit verifierLimit)).2.minted).map around.fresh).Nodup)

include hfresh

/-- No walk goes below the last level, whether it ends well or not. -/
theorem walk_stays_in_depth :
    ∀ path ∈ (walk around (.of maxDepth pageSize) request
      (.new inner limit verifierLimit)).2.visited, path.length < max 1 maxDepth := by
  intro path hpath
  rcases visited_cases around (.of maxDepth pageSize) request inner limit verifierLimit with
    hnone | ⟨store, inner', queue, hleads⟩
  · rw [hnone] at hpath
    contradiction
  · rw [← State.map_path_visits] at hpath
    exact (Known.of_leads hleads).length_lt hfresh hpath

/-- **No directory is visited twice** when no lookup is lost and no listing of a visited
directory leads to the same directory twice. -/
theorem walk_visits_once (hkept : ∀ lookup, around.lost lookup = false)
    (hdistinct : ∀ read store listing, ∀ path ∈ (walk around (.of maxDepth pageSize) request
      (.new inner limit verifierLimit)).2.visited,
      around.readDir read store path = .ok listing → (subdirectories path listing).Nodup) :
    (walk around (.of maxDepth pageSize) request
      (.new inner limit verifierLimit)).2.visited.Nodup := by
  rcases visited_cases around (.of maxDepth pageSize) request inner limit verifierLimit with
    hnone | ⟨store, inner', queue, hleads⟩
  · rw [hnone]
    exact List.nodup_nil
  · have hknown := Known.of_leads hleads
    rw [← State.map_path_visits]
    apply nodup_of_sublist_issued (hknown.visited_sublist hfresh)
    intro visit hvisit
    rcases readOnce_of_leads hkept hleads visit hvisit with honce | ⟨hnone, -⟩
    · obtain ⟨listing, hanswers, -, -, hled⟩ := honce.counts
      have hanswer : (visit.path, listing) ∈ answers [visit] := by
        rw [hanswers]
        exact List.mem_singleton_self _
      obtain ⟨read, hread⟩ := hknown.answered.of_mem (answers_subset hvisit hanswer)
      have hvisited := List.mem_map_of_mem (f := Visit.path) hvisit
      rw [State.map_path_visits] at hvisited
      rw [hled]
      exact (hdistinct read store listing visit.path hvisited hread).sublist (children_sublist ..)
    · rw [Visit.leadsTo, hnone]
      exact List.nodup_nil

end Fresh

end HandleTable.Walk
