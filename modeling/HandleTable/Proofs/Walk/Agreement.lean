import HandleTable.Memory
import HandleTable.Proofs.Walk.Reading
import Mathlib.Data.Set.Function

/-!
# A walk with room enough is the plain traversal

A walk that finds both tables empty and has room for a handle of every directory that
the plain traversal enqueues visits the same directories in the same order, or fails
where the plain traversal fails first.

The invariant is `Supplied`: as no more handles are minted than there is room for,
nothing is ever evicted, and the handles that wait, those left of the level that is
being visited and those queued for the next one, stand for the right paths one by
one.  Minting keeps it as long as there are handles left (`Supplied.issueAll`), and
so does a use (`Supplied.resolve`).

`Surveys paths` says how a part of a walk ends that visits `paths`.  It is shown for
one directory (`visit_surveys`), by induction for a level (`visitAll_surveys`), and by
induction on the levels that are left for the rest of the walk (`descend_surveys`).
-/

namespace HandleTable.Walk

variable {ι σ : Type}

/-- Surroundings in which a directory of a store always lists the same, and no lookup is
lost. -/
structure Surroundings.Steady (around : Surroundings ι σ) (store : σ)
    (readDir : Path → Except Failure Listing) : Prop where
  readDir : ∀ read path, around.readDir read store path = readDir path
  kept : ∀ lookup, around.lost lookup = false

/-- Handles stand for the paths of a store, one by one. -/
def Stands (handles : Handles σ) (store : σ) (waiting : List Handle) (paths : List Path) : Prop :=
  List.Forall₂ (fun handle path => handles.peek handle = some ⟨store, path⟩) waiting paths

theorem Stands.mono {before after : Handles σ} {store : σ} {waiting : List Handle}
    {paths : List Path} (hstands : Stands before store waiting paths)
    (hkept : ∀ handle target, before.peek handle = some target →
      after.peek handle = some target) :
    Stands after store waiting paths :=
  hstands.imp fun handle path hpeek => hkept handle ⟨store, path⟩ hpeek

/-! ## Nothing is evicted -/

/-- There is room for `count` handles, all live ones have been minted by the walk, and
those that wait stand for their paths: those left of the present level for `paths`,
those of the next level for `queued`. -/
structure Supplied (fresh : ℕ → Handle) (count : ℕ) (store : σ) (waiting : List Handle)
    (paths queued : List Path) (frontier : Frontier σ) : Prop where
  room : count ≤ frontier.handles.capacity.val
  minted_of_mem : ∀ handle ∈ frontier.handles.keys,
    ∃ number < frontier.minted, fresh number = handle
  waiting : Stands frontier.handles store waiting paths
  queue : Stands frontier.handles store frontier.queue queued

namespace Supplied

variable {fresh : ℕ → Handle} {count : ℕ} {store : σ} {waiting : List Handle}
  {paths queued : List Path} {frontier : Frontier σ}

theorem size_le (hsupplied : Supplied fresh count store waiting paths queued frontier) :
    frontier.handles.size ≤ frontier.minted := by
  have hnodup : frontier.handles.keys.Nodup := frontier.handles.keys_nodup
  have hsubset : frontier.handles.keys ⊆ (List.range frontier.minted).map fresh := by
    intro handle hkey
    obtain ⟨number, hnumber, hhandle⟩ := hsupplied.minted_of_mem handle hkey
    exact List.mem_map.mpr ⟨number, List.mem_range.mpr hnumber, hhandle⟩
  have hlength := (hnodup.subperm hsubset).length_le
  rwa [List.length_map, List.length_range, Recency.keys, List.length_map] at hlength

/-- A handle that was not used before finds room, and the others stay. -/
protected theorem issue (hsupplied : Supplied fresh count store waiting paths queued frontier)
    (hfresh : Set.InjOn fresh (Set.Iio count)) (hmore : frontier.minted < count) (path : Path) :
    Supplied fresh count store waiting paths (queued ++ [path])
      (frontier.issue fresh store path) := by
  have hnew : fresh frontier.minted ∉ frontier.handles.keys := by
    intro hkey
    obtain ⟨number, hnumber, hhandle⟩ := hsupplied.minted_of_mem _ hkey
    have := hfresh (hnumber.trans hmore) hmore hhandle
    omega
  have hroom : (frontier.handles.refreshed (fresh frontier.minted) ⟨store, path⟩).length ≤
      frontier.handles.capacity.val := by
    have hothers := (frontier.handles.others_sublist (fresh frontier.minted)).length_le
    have hsize := hsupplied.size_le
    have hcapacity := hsupplied.room
    rw [Recency.size] at hsize
    rw [Recency.refreshed, List.length_append, List.length_singleton]
    omega
  have hkept : ∀ handle target, frontier.handles.peek handle = some target →
      (frontier.issue fresh store path).handles.peek handle = some target := by
    intro handle target hpeek
    have hother : handle ≠ fresh frontier.minted := by
      rintro rfl
      exact hnew (Recency.mem_keys_iff.mpr ⟨target, hpeek⟩)
    rw [Frontier.issue, Handles.mint, Recency.peek_insert_of_room hroom, if_neg hother, hpeek]
  have hissued : (frontier.issue fresh store path).handles.peek (fresh frontier.minted) =
      some ⟨store, path⟩ := Recency.peek_insert_self ..
  refine ⟨?_, ?_, hsupplied.waiting.mono hkept, ?_⟩
  · exact hsupplied.room.trans_eq (congrArg Capacity.val (Recency.capacity_insert ..).symm)
  · intro handle hkey
    rcases Recency.mem_keys_of_mem_keys_insert hkey with hold | rfl
    · obtain ⟨number, hnumber, hhandle⟩ := hsupplied.minted_of_mem handle hold
      exact ⟨number, Nat.lt_succ_of_lt hnumber, hhandle⟩
    · exact ⟨frontier.minted, Nat.lt_succ_self _, rfl⟩
  · exact List.rel_append (hsupplied.queue.mono hkept) (.cons hissued .nil)

protected theorem issueAll
    (hsupplied : Supplied fresh count store waiting paths queued frontier)
    (hfresh : Set.InjOn fresh (Set.Iio count)) {more : List Path}
    (hmore : frontier.minted + more.length ≤ count) :
    Supplied fresh count store waiting paths (queued ++ more)
      (frontier.issueAll fresh store more) := by
  induction more generalizing frontier queued with
  | nil => rwa [List.append_nil]
  | cons path rest ih =>
      rw [List.length_cons] at hmore
      have hone := hsupplied.issue hfresh (by omega) path
      rw [List.append_cons]
      refine ih hone ?_
      show frontier.minted + 1 + rest.length ≤ count
      omega

/-- Uses of handles evict nothing. -/
protected theorem resolve
    (hsupplied : Supplied fresh count store waiting paths queued frontier) (wire : List UInt8) :
    Supplied fresh count store waiting paths queued
      { frontier with handles := (frontier.handles.resolve wire).2 } := by
  have hkept : ∀ handle target, frontier.handles.peek handle = some target →
      (frontier.handles.resolve wire).2.peek handle = some target := by
    intro handle target hpeek
    rw [Handles.peek_resolve, hpeek]
  refine ⟨?_, ?_, hsupplied.waiting.mono hkept, hsupplied.queue.mono hkept⟩
  · exact hsupplied.room.trans_eq (by rw [Handles.capacity_resolve])
  · intro handle hkey
    rw [Recency.mem_keys_iff] at hkey
    simp only [Handles.peek_resolve, ← Recency.mem_keys_iff] at hkey
    exact hsupplied.minted_of_mem handle hkey

protected theorem next (hsupplied : Supplied fresh count store [] [] queued frontier) :
    Supplied fresh count store frontier.queue queued [] { frontier with queue := [] } :=
  ⟨hsupplied.room, hsupplied.minted_of_mem, hsupplied.queue, .nil⟩

theorem queued_eq_nil (hsupplied : Supplied fresh count store waiting paths queued frontier)
    (hqueue : frontier.queue = []) : queued = [] := by
  have hstands := hsupplied.queue
  rw [hqueue] at hstands
  exact List.forall₂_nil_left_iff.mp hstands

end Supplied

/-! ## How a part of a walk ends -/

/-- A part of a walk visits `paths`: it ends with the failure of the first one that
cannot be read, or else all of them have been visited and counted and `goal` holds. -/
def Surveys (readDir : Path → Except Failure Listing) (pageSize : ℕ) (paths : List Path)
    (before : State ι σ) (goal : State ι σ → Prop)
    (outcome : Except Failure Unit × State ι σ) : Prop :=
  match firstFailure readDir paths with
  | some failure => outcome.1 = .error failure
  | none => outcome.1 = .ok () ∧
      outcome.2.totals = before.totals + plainTotals readDir pageSize paths ∧
      outcome.2.visited = before.visited ++ paths ∧ goal outcome.2

/-- Two parts one after the other, of which the second is only reached when the first
one has not failed. -/
theorem Surveys.trans {readDir : Path → Except Failure Listing} {pageSize : ℕ}
    {first second : List Path} {before : State ι σ} {reached goal : State ι σ → Prop}
    {middle outcome : Except Failure Unit × State ι σ}
    (hfirst : Surveys readDir pageSize first before reached middle)
    (hfails : ∀ failure, middle.1 = .error failure → outcome.1 = .error failure)
    (hsecond : firstFailure readDir first = none → middle.1 = .ok () → reached middle.2 →
      Surveys readDir pageSize second middle.2 goal outcome) :
    Surveys readDir pageSize (first ++ second) before goal outcome := by
  unfold Surveys at hfirst ⊢
  have hboth : firstFailure readDir (first ++ second) =
      (firstFailure readDir first).or (firstFailure readDir second) := List.findSome?_append
  rw [hboth]
  cases hfailure : firstFailure readDir first with
  | some failure =>
      -- the second part is not reached
      rw [hfailure] at hfirst
      exact hfails failure hfirst
  | none =>
      rw [hfailure] at hfirst
      obtain ⟨hok, htotals, hvisited, hreached⟩ := hfirst
      have hrest := hsecond hfailure hok hreached
      unfold Surveys at hrest
      rw [Option.none_or]
      cases hfailure' : firstFailure readDir second with
      | some failure =>
          rw [hfailure'] at hrest
          exact hrest
      | none =>
          rw [hfailure'] at hrest
          obtain ⟨hok', htotals', hvisited', hgoal⟩ := hrest
          refine ⟨hok', ?_, ?_, hgoal⟩
          · rw [htotals', htotals, Totals.add_assoc, plainTotals_append]
          · rw [hvisited', hvisited, List.append_assoc]

/-! ## One directory, one level, all levels -/

section Steady

variable {around : Surroundings ι σ} {store : σ} {readDir : Path → Except Failure Listing}
  (hsteady : around.Steady store readDir) {bounds : Bounds} {count : ℕ}
  (hfresh : Set.InjOn around.fresh (Set.Iio count))

include hsteady hfresh

/-- A handle that stands for a directory leads to a visit of it. -/
theorem visit_surveys {handle : Handle} {path : Path} {waiting : List Handle}
    {paths queued : List Path} {state : State ι σ}
    (hsupplied : Supplied around.fresh count store (handle :: waiting) (path :: paths) queued
      state.frontier)
    (hroom : state.minted + (followed readDir bounds.maxDepth path).length ≤ count) :
    Surveys readDir bounds.pageSize [path] state
      (fun after =>
        Supplied around.fresh count store waiting paths
          (queued ++ followed readDir bounds.maxDepth path) after.frontier ∧
        after.minted = state.minted + (followed readDir bounds.maxDepth path).length)
      (state.visit around bounds path.length handle) := by
  obtain ⟨hpeek, hwaiting⟩ := List.forall₂_cons.mp hsupplied.waiting
  -- the handle is live, so the visit goes on to the read
  let entered : State ι σ := { state with
    server := (state.server.fromHandle handle.bytes).2
    totals := { state.totals with directories := state.totals.directories + 1 }
    trace := .resolved path :: state.trace }
  have hvisit : state.visit around bounds path.length handle =
      entered.readDirectory around bounds store path path.length maxRestarts :=
    State.visit_of_ok (Handles.resolve_bytes_eq_ok_iff.mpr hpeek)
  have hentered : Supplied around.fresh count store waiting paths queued entered.frontier :=
    ({ hsupplied with waiting := hwaiting } : Supplied _ _ _ _ _ _ _).resolve handle.bytes
  rw [hvisit, Surveys, firstFailure, List.findSome?_singleton, failure?]
  cases hread : readDir path with
  | error failure =>
      exact readDirectory_of_error path.length ((hsteady.readDir _ path).trans hread) maxRestarts
  | ok listing =>
      have hlisting : listingOf readDir path = listing := by rw [listingOf, hread]
      obtain ⟨after, hafter, hserved⟩ := readDirectory_of_ok hsteady.kept bounds
        path.length ((hsteady.readDir entered.reads path).trans hread) maxRestarts
      have hchildren : children bounds path.length path listing =
          followed readDir bounds.maxDepth path := by rw [children, followed, hlisting]
      rw [hchildren] at hserved
      rw [hafter]
      refine ⟨rfl, ?_, ?_, ?_, ?_⟩
      · rw [hserved.totals]
        simp [entered, plainTotals, Totals.add_def, hlisting]
      · rw [hserved.visited]
        simp [entered, State.visited, State.events, Event.entered?]
      · rw [hserved.frontier]
        exact hentered.issueAll hfresh hroom
      · have hminted := congrArg Frontier.minted hserved.frontier
        rw [Frontier.minted_issueAll] at hminted
        exact hminted

/-- The handles of a level lead to visits of its directories, which queue what follows
on them. -/
theorem visitAll_surveys {depth : ℕ} {waiting : List Handle} {paths queued : List Path}
    {state : State ι σ} (hdepth : ∀ path ∈ paths, path.length = depth)
    (hsupplied : Supplied around.fresh count store waiting paths queued state.frontier)
    (hroom : state.minted +
      ((readable readDir paths).flatMap (followed readDir bounds.maxDepth)).length ≤ count) :
    Surveys readDir bounds.pageSize paths state
      (fun after =>
        Supplied around.fresh count store [] []
          (queued ++ paths.flatMap (followed readDir bounds.maxDepth)) after.frontier ∧
        after.minted =
          state.minted + (paths.flatMap (followed readDir bounds.maxDepth)).length)
      (state.visitAll around bounds depth waiting) := by
  induction paths generalizing waiting queued state with
  | nil =>
      cases hsupplied.waiting
      refine ⟨rfl, rfl, (List.append_nil _).symm, ?_, rfl⟩
      rwa [List.flatMap_nil, List.append_nil]
  | cons path rest ih =>
      obtain ⟨handle, others, -, -, rfl⟩ := List.forall₂_cons_right_iff.mp hsupplied.waiting
      obtain rfl := hdepth path List.mem_cons_self
      -- the rest of the level needs room only if this directory can be read
      have hsplit := readable_append readDir [path] rest
      rw [List.singleton_append] at hsplit
      have hmore := length_flatMap_readable_le readDir [path] rest
        (followed readDir bounds.maxDepth)
      rw [flatMap_followed_readable_singleton, List.singleton_append] at hmore
      have hfirst : state.minted + (followed readDir bounds.maxDepth path).length ≤ count := by
        omega
      rw [← List.singleton_append]
      refine (visit_surveys hsteady hfresh hsupplied hfirst).trans
        (fun _ => State.visitAll_cons_of_error) ?_
      rintro hread hok ⟨hafter, hminted⟩
      rw [State.visitAll_cons_of_ok hok]
      rw [hsplit, if_pos hread, List.singleton_append, List.flatMap_cons,
        List.length_append] at hroom
      have hrest := ih (fun path hpath => hdepth path (List.mem_cons_of_mem _ hpath)) hafter
        (by omega)
      rw [hminted] at hrest
      simpa only [List.singleton_append, List.flatMap_cons, List.length_append,
        List.append_assoc, Nat.add_assoc] using hrest

/-- The queue of a level leads to visits of its directories and of all that lie below
them, as far down as the walk goes: `left` levels more. -/
theorem descend_surveys {depth left : ℕ} {state : State ι σ}
    (hdepth : depth + left + 1 = max bounds.maxDepth 1)
    (hsupplied : Supplied around.fresh count store state.queue (level readDir depth) []
      { state.frontier with queue := [] })
    (hroom : state.minted + ((readable readDir
      ((List.range' depth (left + 1)).flatMap (level readDir))).flatMap
        (followed readDir bounds.maxDepth)).length ≤ count) :
    Surveys readDir bounds.pageSize ((List.range' depth (left + 1)).flatMap (level readDir)) state
      (fun _ => True) (state.descend around bounds depth) := by
  induction left using Nat.strong_induction_on generalizing depth state with
  | _ left ih =>
      rw [List.range'_succ, List.flatMap_cons] at hroom ⊢
      have hmore := length_flatMap_readable_le readDir (level readDir depth)
        ((List.range' (depth + 1) left).flatMap (level readDir)) (followed readDir bounds.maxDepth)
      have hfirst : state.minted + ((readable readDir (level readDir depth)).flatMap
          (followed readDir bounds.maxDepth)).length ≤ count := by
        omega
      have hemptied : Supplied around.fresh count store state.queue (level readDir depth) []
          { state with queue := [] }.frontier := hsupplied
      have hlevel := visitAll_surveys hsteady hfresh (fun _ => length_of_mem_level readDir)
        hemptied hfirst
      show Surveys readDir bounds.pageSize
        (level readDir depth ++ (List.range' (depth + 1) left).flatMap (level readDir))
        { state with queue := [] } (fun _ => True) (state.descend around bounds depth)
      refine hlevel.trans (fun _ => State.descend_of_error) ?_
      rintro hread hok ⟨hafter, hminted⟩
      rw [State.descend_of_ok hok]
      generalize (State.visitAll around bounds depth state.queue { state with queue := [] }).2 =
        after at hafter hminted ⊢
      dsimp only at hafter hminted ⊢
      rw [readable_append, if_pos hread, List.flatMap_append, List.length_append] at hroom
      rw [List.nil_append, flatMap_followed_level] at hafter
      split
      · rename_i hgoes
        obtain ⟨hinner, -⟩ := hgoes
        rw [if_pos hinner] at hafter
        obtain ⟨fewer, rfl⟩ : ∃ fewer, left = fewer + 1 := ⟨left - 1, by omega⟩
        exact ih fewer (Nat.lt_succ_self fewer) (by omega) hafter.next (by omega)
      · -- the walk ends here, as no level below has anything to visit
        rename_i hends
        have hbelow : (List.range' (depth + 1) left).flatMap (level readDir) = [] := by
          refine flatMap_level_below_eq_nil readDir hdepth fun hinner => ?_
          have hqueue : after.queue = [] := not_ne_iff.mp (not_and.mp hends hinner)
          have hnone := hafter.queued_eq_nil hqueue
          rwa [if_pos hinner] at hnone
        rw [hbelow]
        exact ⟨rfl, rfl, (List.append_nil _).symm, trivial⟩

end Steady

theorem injOn_of_nodup_map_range {fresh : ℕ → Handle} {count : ℕ}
    (hnodup : ((List.range count).map fresh).Nodup) : Set.InjOn fresh (Set.Iio count) := by
  intro first hfirst second hsecond
  exact List.inj_on_of_nodup_map hnodup (List.mem_range.mpr hfirst) (List.mem_range.mpr hsecond)

theorem supplied_root {around : Surroundings ι σ} {count : ℕ} (store : σ)
    (readDir : Path → Except Failure Listing) (hfresh : Set.InjOn around.fresh (Set.Iio count))
    (hpositive : 0 < count) (inner : ι) {limit : Capacity} (hlimit : count ≤ limit.val)
    (room : Capacity) :
    let root := (State.start (.new inner limit room)).enqueue around store [] 0
    Supplied around.fresh count store root.queue (level readDir 0) []
      { root.frontier with queue := [] } := by
  have hempty : Supplied around.fresh count store [] [] [] ⟨.empty limit, 0, []⟩ :=
    ⟨hlimit, fun _ hkey => absurd hkey List.not_mem_nil, .nil, .nil⟩
  exact (hempty.issue hfresh hpositive []).next

/-- **A walk with room enough is the plain traversal.**  Take a walk that finds both
tables empty, in an export that can be mounted, whose directories always list the
same.  If there is room for every directory that the plain traversal enqueues, and as
many handles are supplied without repetition, then the walk fails exactly when a
directory of the plain traversal cannot be read, and as the first such one does;
otherwise it visits the same directories in the same order, counts what there is to
count in them, and meets no stale handle and no restart.  Neither the bound on the
table of listings nor the page size plays a part, except for the number of pages. -/
theorem walk_eq_plain_traversal {around : Surroundings ι σ} {store : σ}
    {readDir : Path → Except Failure Listing} {request : String} {inner : ι} {usage : Usage}
    {maxDepth : ℕ} (pageSize : ℕ) {limit : Capacity} (verifierLimit : Capacity)
    (hmount : (around.service.mount request inner).1 = .ok store)
    (husage : (around.service.usage store [] (around.service.mount request inner).2).1 = .ok usage)
    (hsteady : around.Steady store readDir)
    (hfresh : ((List.range (enqueued readDir maxDepth).length).map around.fresh).Nodup)
    (hlimit : (enqueued readDir maxDepth).length ≤ limit.val) :
    let outcome := walk around (.of maxDepth pageSize) request (.new inner limit verifierLimit)
    let visits := directories readDir maxDepth
    (outcome.1 = match firstFailure readDir visits with
      | some failure => .error failure
      | none => .ok (plainTotals readDir (max pageSize 1) visits)) ∧
    (firstFailure readDir visits = none → outcome.2.visited = visits) := by
  intro outcome visits
  obtain ⟨inner', hwalk⟩ := walk_of_ok (.of maxDepth pageSize) (.new inner limit verifierLimit)
    hmount husage
  let rooted : State ι σ := (State.start ⟨inner', .empty limit, .empty verifierLimit⟩).enqueue
    around store [] 0
  have hinjective := injOn_of_nodup_map_range hfresh
  have hrooted := supplied_root store readDir hinjective (Nat.succ_pos _) inner' hlimit
    verifierLimit
  obtain ⟨left, hleft⟩ : ∃ left, max maxDepth 1 = left + 1 := ⟨max maxDepth 1 - 1, by omega⟩
  have hvisits : visits = (List.range' 0 (left + 1)).flatMap (level readDir) := by
    rw [← List.range_eq_range', ← hleft]
    rfl
  -- the root has its handle, and the other enqueued directories find room
  have hroom : rooted.minted + ((readable readDir
      ((List.range' 0 (left + 1)).flatMap (level readDir))).flatMap
        (followed readDir maxDepth)).length ≤ (enqueued readDir maxDepth).length := by
    rw [← hvisits, enqueued, List.length_cons, Nat.add_comm]
    exact le_rfl
  have hsurvey : Surveys readDir (max pageSize 1) visits rooted (fun _ => True)
      (rooted.descend around (.of maxDepth pageSize) 0) := by
    rw [hvisits]
    exact descend_surveys hsteady hinjective (by rw [Nat.zero_add]; exact hleft.symm) hrooted hroom
  rw [show outcome = _ from hwalk]
  unfold Surveys at hsurvey
  cases hfailure : firstFailure readDir visits with
  | some failure =>
      rw [hfailure] at hsurvey
      exact ⟨congrArg (Except.map _) hsurvey, fun hnone => by contradiction⟩
  | none =>
      rw [hfailure] at hsurvey
      obtain ⟨hok, htotals, hvisited, -⟩ := hsurvey
      refine ⟨(congrArg (Except.map _) hok).trans ?_, fun _ => hvisited⟩
      exact congrArg Except.ok (htotals.trans (Totals.zero_add _))

/-- A directory that is listed twice is visited twice, and so is what lies in it; room
for these five handles and one listing is enough, and what is closed lies too deep to
matter. -/
theorem walk_of_directory_listed_twice :
    let file : Memory.Node := .file ⟨"f", 7, false, 0⟩
    let inner : Memory.Node :=
      .directory ⟨"b", 0, true, 0⟩ [.closed ⟨"c", 0, true, 0⟩ .denied]
    let outer : Memory.Node := .directory ⟨"a", 0, true, 0⟩ [inner, file]
    let around : Surroundings (List String) Unit :=
      { service := Memory.Export.service ⟨"none", "stale", ⟨9, 5, 5, 4, 2⟩⟩ ()
        readDir := fun _ _ path => Memory.readDir [outer, file, outer] path
        fresh := Handle.ofSeed
        lost := fun _ => false
        lostDrops := false }
    let outcome := walk around (.of 3 2) "/" (.new [] ⟨5, by decide⟩ ⟨1, by decide⟩)
    outcome.1 = .ok ⟨5, 9, 6, 0, 0⟩ ∧
      outcome.2.visited = [[], ["a"], ["a"], ["a", "b"], ["a", "b"]] := by
  intro file inner outer around outcome
  let readDir := Memory.readDir [outer, file, outer]
  let limit : Capacity := ⟨5, by decide⟩
  have hmount : (around.service.mount "/" []).1 = .ok () := rfl
  have husage : (around.service.usage () [] (around.service.mount "/" []).2).1 =
      .ok ⟨9, 5, 5, 4, 2⟩ := rfl
  have hsteady : around.Steady () readDir := ⟨fun _ _ => rfl, fun _ => rfl⟩
  have hfresh : ((List.range (enqueued readDir 3).length).map around.fresh).Nodup := by decide
  have hlimit : (enqueued readDir 3).length ≤ limit.val := by decide
  obtain ⟨hresult, hvisited⟩ := walk_eq_plain_traversal 2 ⟨1, by decide⟩ hmount husage hsteady
    hfresh hlimit
  have hreadable : firstFailure readDir (directories readDir 3) = none := by rfl
  have hvisits : directories readDir 3 = [[], ["a"], ["a"], ["a", "b"], ["a", "b"]] := by decide
  have htotals : plainTotals readDir (max 2 1) (directories readDir 3) = ⟨5, 9, 6, 0, 0⟩ := by
    decide
  rw [hreadable] at hresult
  exact ⟨hresult.trans (congrArg Except.ok htotals), (hvisited hreadable).trans hvisits⟩

end HandleTable.Walk
