import HandleTable.Proofs.Handles.Pinning

/-!
# The order after a resolve

Resolving a handle uses the directories above it one after another, and then the handle
itself.  Each of these uses moves one entry behind all others.  Taken together they
split the table in two: the entries that were not used stay in front, those that were
used stand behind them, and neither part changes its order.

`entries_touchAll` says this of any different live handles that are used in a row.  A
resolve uses the directories above its path in the order in which the table lists them
(`above`), so they keep their order as well, and the resolved handle comes last.  A
second resolve of the same handle finds everything in its place already.
-/

namespace HandleTable.Handles

open scoped List

variable {σ : Type}

/-- The entries of the other handles whose paths do not lead to `path`, in the order of
the table. -/
def aside (table : Handles σ) (handle : Handle) (path : Path) : List (Handle × Target σ) :=
  table.entries.filter fun entry => entry.1 ≠ handle ∧ ¬ entry.2.path <+: path

theorem mem_aside_iff {table : Handles σ} {handle : Handle} {path : Path}
    {entry : Handle × Target σ} :
    entry ∈ table.aside handle path ↔
      entry ∈ table.entries ∧ entry.1 ≠ handle ∧ ¬ entry.2.path <+: path := by
  rw [aside, List.mem_filter, decide_eq_true_iff]

/-! ## Uses in a row -/

/-- **Uses in a row.**  Different live handles that are used one after another end up
behind all others, in the order of their uses, and the others keep theirs. -/
theorem entries_touchAll {table : Handles σ} {moved : List (Handle × Target σ)}
    (hstored : ∀ entry ∈ moved, entry ∈ table.entries) (hnodup : (moved.map Prod.fst).Nodup) :
    (table.touchAll (moved.map Prod.fst)).entries =
      (table.entries.filter fun entry => entry.1 ∉ moved.map Prod.fst) ++ moved := by
  induction moved generalizing table with
  | nil => simp [touchAll]
  | cons entry rest ih =>
      obtain ⟨handle, target⟩ := entry
      rw [List.map_cons, List.nodup_cons] at hnodup
      obtain ⟨hlater, hnodup⟩ := hnodup
      have hused : (table.get handle).2.entries = table.others handle ++ [(handle, target)] :=
        Recency.entries_get (Recency.peek_eq_some_iff.mpr (hstored _ List.mem_cons_self))
      have hrest : ∀ entry ∈ rest, entry ∈ (table.get handle).2.entries := fun entry hentry =>
        Recency.mem_entries_get_iff.mpr (hstored entry (List.mem_cons_of_mem _ hentry))
      -- the handle used first is not used again, so it stands in front of the rest
      have hself : [(handle, target)].filter (fun entry => entry.1 ∉ rest.map Prod.fst) =
          [(handle, target)] := List.filter_cons_of_pos (decide_eq_true hlater)
      have hothers : (table.others handle).filter (fun entry => entry.1 ∉ rest.map Prod.fst) =
          table.entries.filter fun entry => entry.1 ∉ handle :: rest.map Prod.fst := by
        rw [Recency.others, List.filter_filter]
        apply List.filter_congr
        intro entry _
        rw [Bool.and_comm, ← Bool.decide_and]
        simp only [List.mem_cons, not_or]
      rw [List.map_cons, touchAll_cons, ih hrest hnodup, hused, List.filter_append, hself, hothers,
        List.append_assoc, List.singleton_append]

/-- Handles that stand behind all others already may be used in their order without any
change. -/
theorem touchAll_of_last {table : Handles σ} {front moved : List (Handle × Target σ)}
    (hentries : table.entries = front ++ moved) : table.touchAll (moved.map Prod.fst) = table := by
  have hnodup := table.keys_nodup
  rw [hentries, List.map_append, List.nodup_append'] at hnodup
  obtain ⟨-, hmoved, hdisjoint⟩ := hnodup
  have hstored : ∀ entry ∈ moved, entry ∈ table.entries := by
    intro entry hentry
    rw [hentries]
    exact List.mem_append_right _ hentry
  have hfront : front.filter (fun entry => entry.1 ∉ moved.map Prod.fst) = front := by
    rw [List.filter_eq_self]
    exact fun entry hentry => decide_eq_true (hdisjoint (List.mem_map_of_mem hentry))
  have hgone : moved.filter (fun entry => entry.1 ∉ moved.map Prod.fst) = [] := by
    rw [List.filter_eq_nil_iff]
    intro entry hentry
    simpa using ⟨entry.2, hentry⟩
  apply Recency.ext
  · rw [entries_touchAll hstored hmoved, hentries, List.filter_append, hfront, hgone,
      List.append_nil]
  · exact capacity_touchAll table _

/-! ## What a resolve leaves -/

theorem filter_not_mem_pinned (table : Handles σ) (handle : Handle) (path : Path) :
    (table.entries.filter fun entry => entry.1 ∉ table.pins handle path) =
      table.aside handle path := by
  apply List.filter_congr
  intro entry hentry
  rw [decide_eq_decide, mem_pins_iff, Recency.peek_eq_some_iff.mpr hentry]
  by_cases hself : entry.1 = handle <;> simp [hself]

section Stored

variable {table : Handles σ} {handle : Handle} {target : Target σ}
  (hstored : (handle, target) ∈ table.entries)

include hstored

theorem entries_pinned :
    (table.pinned handle target.path).entries =
      table.aside handle target.path ++ table.above handle target.path ++ [(handle, target)] := by
  have hmoved : (table.above handle target.path ++ [(handle, target)]).map Prod.fst =
      table.pins handle target.path := by
    rw [List.map_append, List.map_singleton, pins]
  have hlive : ∀ entry ∈ table.above handle target.path ++ [(handle, target)],
      entry ∈ table.entries := by
    intro entry hentry
    rcases List.mem_append.mp hentry with habove | hself
    · exact (mem_above_iff.mp habove).1
    · rw [List.mem_singleton.mp hself]
      exact hstored
  have hnodup := table.nodup_pins handle target.path
  rw [← hmoved] at hnodup
  rw [pinned_eq_touchAll, ← hmoved, entries_touchAll hlive hnodup, hmoved,
    filter_not_mem_pinned, List.append_assoc]

theorem above_pinned :
    (table.pinned handle target.path).above handle target.path =
      table.above handle target.path := by
  let leads : Handle × Target σ → Bool := fun entry =>
    entry.1 ≠ handle ∧ entry.2.path <+: target.path
  have haside : (table.aside handle target.path).filter leads = [] := by
    rw [List.filter_eq_nil_iff]
    intro entry hentry hleads
    exact (mem_aside_iff.mp hentry).2.2 (of_decide_eq_true hleads).2
  have habove : (table.above handle target.path).filter leads = table.above handle target.path := by
    rw [List.filter_eq_self]
    intro entry hentry
    exact decide_eq_true (mem_above_iff.mp hentry).2
  have hself : [(handle, target)].filter leads = [] := List.filter_cons_of_neg (by simp [leads])
  calc (table.pinned handle target.path).above handle target.path
      = (table.aside handle target.path ++ table.above handle target.path ++
          [(handle, target)]).filter leads := by
        rw [← entries_pinned hstored]
        rfl
    _ = table.above handle target.path := by
        rw [List.filter_append, List.filter_append, haside, habove, hself, List.nil_append,
          List.append_nil]

theorem pinned_pinned :
    (table.pinned handle target.path).pinned handle target.path =
      table.pinned handle target.path := by
  have hlast : (table.pinned handle target.path).entries = table.aside handle target.path ++
      (table.above handle target.path ++ [(handle, target)]) := by
    rw [entries_pinned hstored, List.append_assoc]
  have hmoved : (table.pinned handle target.path).pins handle target.path =
      (table.above handle target.path ++ [(handle, target)]).map Prod.fst := by
    rw [pins, above_pinned hstored, List.map_append, List.map_singleton]
  rw [pinned_eq_touchAll (table.pinned handle target.path), hmoved, touchAll_of_last hlast]

end Stored

/-- **What a resolve moves.**  Resolving a live handle answers with what is stored for it.
Afterwards the listing shows first the handles whose paths do not lead to the resolved
one, then the other handles whose paths do, of whatever store, each part in its old
order, and the resolved handle last.  The table holds the same entries as before, and
resolving the handle again changes nothing. -/
theorem resolve_moves_path_last {table : Handles σ} {handle : Handle} {target : Target σ}
    (hstored : (handle, target) ∈ table.entries) :
    let after := (table.resolve handle.bytes).2
    (table.resolve handle.bytes).1 = .ok target ∧
    after.snapshot =
      (table.snapshot.filter fun shown => shown.1 ≠ handle ∧ ¬ shown.2 <+: target.path) ++
      (table.snapshot.filter fun shown => shown.1 ≠ handle ∧ shown.2 <+: target.path) ++
      [(handle, target.path)] ∧
    after.entries = table.aside handle target.path ++ table.above handle target.path ++
      [(handle, target)] ∧
    after.entries ~ table.entries ∧ after.capacity = table.capacity ∧
    after.resolve handle.bytes = (.ok target, after) := by
  intro after
  have hlive := live?_eq_some_iff.mpr ⟨rfl, Recency.peek_eq_some_iff.mpr hstored⟩
  have hafter : after = table.pinned handle target.path := by
    show (table.resolve handle.bytes).2 = _
    rw [resolve_of_live hlive]
  have hentries : after.entries = table.aside handle target.path ++
      table.above handle target.path ++ [(handle, target)] := by
    rw [hafter, entries_pinned hstored]
  refine ⟨by rw [resolve_of_live hlive], ?_, hentries, ?_, capacity_resolve table _, ?_⟩
  · rw [snapshot, hentries, List.map_append, List.map_append, snapshot, List.filter_map,
      List.filter_map]
    rfl
  · exact Recency.perm_entries_of_peek_eq fun other => peek_resolve table _ other
  · have hagain : after.live? handle.bytes = some (handle, target) := by
      rw [live?_eq_some_iff]
      refine ⟨rfl, ?_⟩
      rw [peek_resolve, Recency.peek_eq_some_iff]
      exact hstored
    rw [resolve_of_live hagain, hafter, pinned_pinned hstored]

/-- The root of another store, a second handle for the same file, and a directory two
levels up are moved behind a neighbour and a deeper file, which stay in front. -/
theorem file_resolved_among_six :
    let table := run (.empty ⟨6, by decide⟩) [.mint (.ofSeed 1) 0 ["a", "b", "f"],
      .mint (.ofSeed 2) 1 [], .mint (.ofSeed 3) 0 ["ab"], .mint (.ofSeed 4) 0 ["a", "b", "f"],
      .mint (.ofSeed 5) 0 ["a", "b", "f", "g"], .mint (.ofSeed 6) 0 ["a"]]
    (.ofSeed 1, ⟨0, ["a", "b", "f"]⟩) ∈ table.entries ∧
      (table.resolve (Handle.ofSeed 1).bytes).2.snapshot =
        [(.ofSeed 3, ["ab"]), (.ofSeed 5, ["a", "b", "f", "g"]), (.ofSeed 2, []),
          (.ofSeed 4, ["a", "b", "f"]), (.ofSeed 6, ["a"]), (.ofSeed 1, ["a", "b", "f"])] := by
  intro table
  have hstored : (.ofSeed 1, ⟨0, ["a", "b", "f"]⟩) ∈ table.entries := by decide
  obtain ⟨-, hsnapshot, -⟩ := resolve_moves_path_last hstored
  refine ⟨hstored, ?_⟩
  rw [hsnapshot]
  decide

end HandleTable.Handles
