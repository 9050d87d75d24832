import HandleTable.Proofs.Recency.Inclusion
import HandleTable.Proofs.Handles.Run

/-!
# A larger table of handles

A larger table of handles does not simply hold more.  A handle that is stale in the
smaller table may still resolve in the larger one, and there it pins the directories
above it.  Both tables may hold these, but only the larger one moves them, and so it
may later evict a handle that the smaller one keeps.  A rename through a directory
that only the larger table remembers does the same in two steps: it rewrites paths
there, and from then on the two tables pin different directories.

`DrivesApart` describes such a request: the smaller table refuses it, and the larger
one changes the order or the targets of handles that the smaller one holds.  As long
as there is none, the smaller table stays within the larger one (`within_step`): what
both accept has the same effect on what both hold, however many more handles the
larger one uses for it.
-/

namespace HandleTable.Handles

open Recency (Within)
open scoped List

variable {σ : Type}

/-- The entries of a table whose handles another one holds as well, in order. -/
def shared (table other : Handles σ) : List (Handle × Target σ) :=
  table.entries.filter fun entry => entry.1 ∈ other.keys

/-- A request drives a smaller table and a larger one apart when the smaller one refuses
it and the larger one changes the order or the targets of what the smaller one
holds. -/
def DrivesApart (small large : Handles σ) (request : Step σ) : Prop :=
  small.accepts request = false ∧ (large.step request).shared small ≠ large.shared small

/-- No request of a run drives the two tables apart. -/
def StayTogether (small large : Handles σ) : List (Step σ) → Prop
  | [] => True
  | request :: rest =>
    ¬ DrivesApart small large request ∧ StayTogether (small.step request) (large.step request) rest

instance [DecidableEq σ] (small large : Handles σ) (request : Step σ) :
    Decidable (DrivesApart small large request) :=
  inferInstanceAs (Decidable (_ ∧ _ ≠ _))

instance decidableStayTogether [DecidableEq σ] :
    (small large : Handles σ) → (steps : List (Step σ)) → Decidable (StayTogether small large steps)
  | _, _, [] => isTrue trivial
  | small, large, request :: rest =>
    have := decidableStayTogether (small.step request) (large.step request) rest
    inferInstanceAs (Decidable (¬ _ ∧ _))

/-! ## Using several handles in both tables -/

theorem touchAll_filter_mem_keys (table : Handles σ) (handles : List Handle) :
    table.touchAll (handles.filter fun handle => handle ∈ table.keys) = table.touchAll handles := by
  induction handles generalizing table with
  | nil => rfl
  | cons handle rest ih =>
      by_cases hlive : handle ∈ table.keys
      · have hrest := ih (table.get handle).2
        simp only [Recency.mem_keys_get_iff] at hrest
        rw [List.filter_cons_of_pos (by simpa using hlive), touchAll_cons, touchAll_cons, hrest]
      · rw [List.filter_cons_of_neg (by simpa using hlive), touchAll_cons,
          Recency.get_snd_of_not_mem hlive, ih]

theorem size_touchAll (table : Handles σ) (handles : List Handle) :
    (table.touchAll handles).size = table.size := by
  induction handles generalizing table with
  | nil => rfl
  | cons handle rest ih => rw [touchAll_cons, ih, Recency.size_get]

section Within

variable {small large : Handles σ} (hwithin : Within small large)

include hwithin

theorem within_touchAll (handles : List Handle) :
    Within (small.touchAll handles) (large.touchAll handles) := by
  induction handles generalizing small large with
  | nil => exact hwithin
  | cons handle rest ih => exact ih (hwithin.get handle)

theorem live?_of_within {wire : List UInt8} {handle : Handle} {target : Target σ}
    (hlive : small.live? wire = some (handle, target)) :
    large.live? wire = some (handle, target) := by
  rw [live?_eq_some_iff] at hlive ⊢
  exact hlive.imp_right hwithin.peek

theorem map_above_eq_filter (handle : Handle) (path : Path) :
    (small.above handle path).map Prod.fst =
      ((large.above handle path).map Prod.fst).filter fun other => other ∈ small.keys := by
  unfold above
  rw [List.filter_map, List.filter_filter, hwithin.entries_eq_filter, List.filter_filter]
  congr 1
  apply List.filter_congr
  intro entry _
  exact Bool.and_comm _ _

/-- What both tables accept keeps the smaller one within the larger one. -/
theorem within_transition {request : Step σ} {uses : List Handle} {next : Handles σ}
    (htransition : Transition small request true uses next) :
    Within next (large.step request) := by
  cases htransition with
  | minted handle store path => exact hwithin.insert handle ⟨store, path⟩
  | @resolved wire handle target hlive =>
      have hpinned : small.touchAll (small.pins handle target.path) =
          small.touchAll (large.pins handle target.path) := by
        have hself : [handle].filter (fun other => other ∈ small.keys) = [handle] :=
          List.filter_cons_of_pos (decide_eq_true (mem_keys_of_live hlive))
        rw [← small.touchAll_filter_mem_keys (large.pins handle target.path), pins, pins,
          List.filter_append, hself, map_above_eq_filter hwithin]
      rw [hpinned, step, resolve_of_live (live?_of_within hwithin hlive), pinned_eq_touchAll]
      exact within_touchAll hwithin _
  | renamed hlive old new =>
      rw [step, rename_of_live (live?_of_within hwithin hlive)]
      exact (hwithin.get _).mapValues _
  | rebound hlive store path =>
      rw [step, rebind_of_live (live?_of_within hwithin hlive)]
      exact hwithin.insert _ ⟨store, path⟩

end Within

namespace Transition

variable {table next : Handles σ} {request : Step σ} {uses : List Handle}

theorem size_eq {accepted : Bool} (htransition : Transition table request accepted uses next)
    (hnone : request.minted? = none) : next.size = table.size := by
  cases htransition with
  | minted handle store path => contradiction
  | resolved hlive => exact size_touchAll _ _
  | renamed hlive old new => rw [Recency.size_mapValues, Recency.size_get]
  | rebound hlive store path => exact Recency.size_insert_of_mem (mem_keys_of_live hlive) _
  | refused hrefused => rfl

theorem eq_of_refused (htransition : Transition table request false uses next) :
    next = table ∧ request.minted? = none := by
  cases htransition with
  | refused hrefused => exact ⟨rfl, hrefused⟩

end Transition

/-! ## Steps and runs -/

theorem within_step {small large : Handles σ} (hwithin : Within small large) {request : Step σ}
    (htogether : ¬ DrivesApart small large request) :
    Within (small.step request) (large.step request) := by
  have htransition := transition_step small request
  cases haccepts : small.accepts request with
  | true =>
      rw [haccepts] at htransition
      exact within_transition hwithin htransition
  | false =>
      rw [haccepts] at htransition
      obtain ⟨hstays, hnone⟩ := htransition.eq_of_refused
      have hlarge := transition_step large request
      have hshared : (large.step request).shared small = large.shared small := by
        by_contra hmoved
        exact htogether ⟨haccepts, hmoved⟩
      rw [hstays]
      refine ⟨?_, ?_⟩
      · calc small.entries
            = large.shared small := hwithin.entries_eq_filter
          _ = (large.step request).shared small := hshared.symm
          _ <+ (large.step request).entries := List.filter_sublist
      · rw [hlarge.size_eq hnone, hlarge.capacity_eq]
        exact hwithin.room

theorem within_run {small large : Handles σ} (hwithin : Within small large)
    {steps : List (Step σ)} (htogether : StayTogether small large steps) :
    Within (small.run steps) (large.run steps) := by
  induction steps generalizing small large with
  | nil => exact hwithin
  | cons request rest ih => exact ih (within_step hwithin htogether.1) htogether.2

/-- **When a larger table resolves what a smaller one does.**  Take the same requests to
two empty tables of which one has at least as much room as the other.  If no request
that the smaller one refuses changes, in the larger one, the order or the targets of
handles that the smaller one holds, then every handle that resolves in the smaller
table resolves in the larger one to the same object. -/
theorem larger_table_resolves_alike {smaller larger : Capacity} (hle : smaller.val ≤ larger.val)
    {steps : List (Step σ)} (htogether : StayTogether (.empty smaller) (.empty larger) steps)
    {wire : List UInt8} {target : Target σ}
    (hresolve : ((run (.empty smaller) steps).resolve wire).1 = .ok target) :
    ((run (.empty larger) steps).resolve wire).1 = .ok target := by
  have hwithin : Within (run (.empty smaller) steps) (run (.empty larger) steps) :=
    within_run (Recency.within_empty hle) htogether
  obtain ⟨handle, hlive⟩ := resolve_eq_ok_iff.mp hresolve
  exact resolve_eq_ok_iff.mpr ⟨handle, live?_of_within hwithin hlive⟩

/-- A handle that only the larger table remembers may be resolved, renamed through and
rebound there, even to the root, which then is pinned with all others: as long as the
other handles stand as in the smaller table, the larger one resolves what it does. -/
theorem second_handle_in_both_tables :
    let steps : List (Step ℕ) := [.mint (.ofSeed 1) 0 ["a"], .mint (.ofSeed 2) 0 ["b"],
      .mint (.ofSeed 3) 0 ["c"], .resolve (Handle.ofSeed 1).bytes,
      .rename (Handle.ofSeed 1).bytes "x" "y", .rebind (Handle.ofSeed 1).bytes 0 [],
      .resolve (Handle.ofSeed 2).bytes, .mint (.ofSeed 4) 0 ["d"]]
    let small := run (.empty ⟨2, by decide⟩) steps
    let large := run (.empty ⟨3, by decide⟩) steps
    StayTogether (.empty ⟨2, by decide⟩) (.empty ⟨3, by decide⟩) steps ∧
      small.snapshot = [(.ofSeed 2, ["b"]), (.ofSeed 4, ["d"])] ∧
      large.snapshot = [(.ofSeed 1, []), (.ofSeed 2, ["b"]), (.ofSeed 4, ["d"])] ∧
      (large.resolve (Handle.ofSeed 2).bytes).1 = .ok ⟨0, ["b"]⟩ := by
  intro steps small large
  have hle : (⟨2, by decide⟩ : Capacity).val ≤ (⟨3, by decide⟩ : Capacity).val := by decide
  have htogether : StayTogether (.empty ⟨2, by decide⟩) (.empty ⟨3, by decide⟩) steps := by decide
  have hresolve : (small.resolve (Handle.ofSeed 2).bytes).1 = .ok ⟨0, ["b"]⟩ := by decide
  exact ⟨htogether, by decide, by decide, larger_table_resolves_alike hle htogether hresolve⟩

/-- A larger table may lose a handle that a smaller one keeps: a handle that is stale in
the smaller table resolves in the larger one and moves its directory there. -/
theorem not_larger_table_resolves :
    ¬ ∀ (smaller larger : Capacity) (steps : List (Step ℕ)), smaller.val ≤ larger.val →
      (minted steps).Nodup → ∀ (wire : List UInt8) (target : Target ℕ),
        ((run (.empty smaller) steps).resolve wire).1 = .ok target →
        ∃ found, ((run (.empty larger) steps).resolve wire).1 = .ok found := by
  intro hresolves
  obtain ⟨found, hfound⟩ := hresolves ⟨2, by decide⟩ ⟨3, by decide⟩
    [.mint (.ofSeed 1) 0 ["a", "f"], .mint (.ofSeed 2) 0 ["a"], .mint (.ofSeed 3) 0 ["b"],
      .resolve (Handle.ofSeed 1).bytes, .mint (.ofSeed 4) 0 ["x"]]
    (by decide) (by decide) (Handle.ofSeed 3).bytes ⟨0, ["b"]⟩ (by decide)
  have hstale : (Handle.ofSeed 3) ∉ (run (.empty ⟨3, by decide⟩)
      [.mint (.ofSeed 1) 0 ["a", "f"], .mint (.ofSeed 2) 0 ["a"], .mint (.ofSeed 3) 0 ["b"],
        .resolve (Handle.ofSeed 1).bytes, .mint (.ofSeed 4) 0 ["x"]]).keys := by decide
  rw [resolve_bytes_eq_stale_iff.mpr hstale] at hfound
  contradiction

/-- Without any resolve that only the larger table accepts, a rename has the same effect:
the smaller table goes on pinning the directory under its old name. -/
example :
    let steps : List (Step ℕ) := [.mint (.ofSeed 1) 0 ["d"], .mint (.ofSeed 2) 0 ["d", "x"],
      .mint (.ofSeed 3) 0 ["b"], .mint (.ofSeed 4) 0 ["c"],
      .rename (Handle.ofSeed 1).bytes "x" "y", .rebind (Handle.ofSeed 4).bytes 0 ["d", "x", "f"],
      .resolve (Handle.ofSeed 4).bytes, .mint (.ofSeed 5) 0 ["e"]]
    .ofSeed 2 ∈ (run (.empty ⟨3, by decide⟩) steps).keys ∧
      .ofSeed 2 ∉ (run (.empty ⟨4, by decide⟩) steps).keys := by
  decide

end HandleTable.Handles
