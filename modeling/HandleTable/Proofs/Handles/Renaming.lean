import HandleTable.Proofs.Handles.Run

/-!
# What a rename does to the other handles

A rename of a child of a directory rewrites the path of every live handle that
lies at or below the child.  The table compares paths only: it does not ask
whether the handle belongs to the store of the directory.  So the handles of
another store keep their store but follow the rename, when their paths happen to
lie at or below the renamed child.

`rename_spares_other_stores_iff` says when the other stores are left alone:
exactly when the two names are the same, or when no handle of another store lies
at or below the child.
-/

namespace HandleTable

theorem Path.rebase_of_not_below {old path : Path} (new : Path) (hpath : ¬ old <+: path) :
    path.rebase old new = path := by
  apply rebase_of_not_isAncestor
  rw [Bool.eq_false_iff]
  exact fun hancestor => hpath (isAncestor_iff.mp hancestor)

/-- Moving a child stays without effect exactly on the paths that do not lie at or
below it, unless it keeps its name. -/
theorem Path.rebase_child_eq_self_iff {directory path : Path} {old new : String} :
    path.rebase (directory ++ [old]) (directory ++ [new]) = path ↔
      old = new ∨ ¬ directory ++ [old] <+: path := by
  by_cases hbelow : directory ++ [old] <+: path
  · obtain ⟨rest, rfl⟩ := hbelow
    rw [Path.rebase_append]
    simp [eq_comm]
  · simp [rebase_of_not_below _ hbelow, hbelow]

namespace Handles

variable {σ : Type}

theorem peek_rename {table : Handles σ} {wire : List UInt8} {directory : Handle}
    {parent : Target σ} (hlive : table.live? wire = some (directory, parent)) (old new : String)
    (handle : Handle) :
    (table.rename wire old new).2.peek handle =
      (table.peek handle).map fun target =>
        target.rebase (parent.path ++ [old]) (parent.path ++ [new]) := by
  rw [rename_of_live hlive, Recency.peek_mapValues, Recency.peek_get]

/-- **When a rename leaves the other stores alone.**  A rename of a child of a live
directory keeps the store of every live handle and moves its path, in whatever
store it lies.  The handles of other stores all keep their paths exactly when the
child keeps its name or no handle of another store lies at or below it. -/
theorem rename_spares_other_stores_iff {table : Handles σ} {directory : Handle}
    {parent : Target σ} (hdirectory : table.peek directory = some parent) (old new : String) :
    (∀ handle target, table.peek handle = some target →
      (table.rename directory.bytes old new).2.peek handle =
        some ⟨target.store,
          target.path.rebase (parent.path ++ [old]) (parent.path ++ [new])⟩) ∧
    ((∀ handle target, table.peek handle = some target → target.store ≠ parent.store →
        (table.rename directory.bytes old new).2.peek handle = some target) ↔
      old = new ∨ ∀ handle target, table.peek handle = some target →
        target.store ≠ parent.store → ¬ parent.path ++ [old] <+: target.path) := by
  have hlive := live?_eq_some_iff.mpr ⟨rfl, hdirectory⟩
  have heffect : ∀ handle target, table.peek handle = some target →
      (table.rename directory.bytes old new).2.peek handle =
        some (target.rebase (parent.path ++ [old]) (parent.path ++ [new])) := by
    intro handle target hpeek
    rw [peek_rename hlive, hpeek, Option.map_some]
  -- for a single handle, whatever its store
  have hkept : ∀ handle target, table.peek handle = some target →
      ((table.rename directory.bytes old new).2.peek handle = some target ↔
        old = new ∨ ¬ parent.path ++ [old] <+: target.path) := by
    intro handle target hpeek
    rw [heffect handle target hpeek, ← Path.rebase_child_eq_self_iff, Option.some_inj]
    cases target
    simp [Target.rebase]
  refine ⟨heffect, ?_, ?_⟩
  · intro hspared
    by_cases hname : old = new
    · exact Or.inl hname
    · right
      intro handle target hpeek hstore
      exact ((hkept handle target hpeek).mp (hspared handle target hpeek hstore)).resolve_left hname
  · intro hnone handle target hpeek hstore
    rw [hkept handle target hpeek]
    exact hnone.imp_right fun hclear => hclear handle target hpeek hstore

/-- The handle of a second store follows a rename of the first one's root. -/
theorem rename_moves_second_store :
    let table := run (.empty ⟨2, by decide⟩)
      [.mint (.ofSeed 1) 0 [], .mint (.ofSeed 2) 1 ["a", "b"]]
    table.peek (.ofSeed 1) = some ⟨0, []⟩ ∧
      (table.rename (Handle.ofSeed 1).bytes "a" "z").2.peek (.ofSeed 2) =
        some ⟨1, ["z", "b"]⟩ := by
  intro table
  have hdirectory : table.peek (.ofSeed 1) = some ⟨0, []⟩ := by decide
  refine ⟨hdirectory, ?_⟩
  exact (rename_spares_other_stores_iff hdirectory "a" "z").1 (.ofSeed 2) ⟨1, ["a", "b"]⟩
    (by decide)

/-- Renames do not keep stores apart. -/
theorem not_rename_spares_other_stores :
    ¬ ∀ (capacity : Capacity) (steps : List (Step ℕ)) (directory : Handle) (parent : Target ℕ)
      (old new : String), (run (.empty capacity) steps).peek directory = some parent →
      ∀ handle target, (run (.empty capacity) steps).peek handle = some target →
        target.store ≠ parent.store →
        ((run (.empty capacity) steps).rename directory.bytes old new).2.peek handle =
          some target := by
  intro hspared
  have hkept := hspared ⟨2, by decide⟩ [.mint (.ofSeed 1) 0 [], .mint (.ofSeed 2) 1 ["a", "b"]]
    (.ofSeed 1) ⟨0, []⟩ "a" "z" (by decide) (.ofSeed 2) ⟨1, ["a", "b"]⟩ (by decide) (by decide)
  exact absurd hkept (by decide)

end Handles

end HandleTable
