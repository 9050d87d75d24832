import HandleTable.Proofs.Handles.Renaming

/-!
# Renaming onto a name that is taken

A rename moves the handles at or below a child to the new name.  Handles that
already stand at or below the new name stay where they are.  So two handles that
stood for different objects can end up with one path, and the one of them whose
object has just been replaced is answered with the object that replaced it.

On paths alone this is `Path.rebase_eq_rebase_iff`: a move between two places of
the same depth brings two paths together exactly when one of them is below the
old place, the other below the new one, and the rest of both is the same.
`rename_keeps_apart_iff` says the same of the table: a rename keeps the handles
of the directory's store apart exactly when the child keeps its name or no such
pair of live handles exists.
-/

namespace HandleTable

namespace Path

theorem eq_of_prefix_append {old new rest : Path} (hlength : old.length = new.length)
    (hbelow : old <+: new ++ rest) : old = new := by
  obtain ⟨tail, htail⟩ := hbelow
  exact (List.append_inj htail hlength).1

/-- **What a move brings together.**  A move between two places of the same depth
gives two different paths the same result exactly when they are what lies under one
name below the old and below the new place. -/
theorem rebase_eq_rebase_iff {old new first second : Path} (hlength : old.length = new.length)
    (hdiffer : first ≠ second) :
    first.rebase old new = second.rebase old new ↔
      ∃ rest, first = old ++ rest ∧ second = new ++ rest ∨
        first = new ++ rest ∧ second = old ++ rest := by
  constructor
  · intro hsame
    by_cases hfirst : old <+: first <;> by_cases hsecond : old <+: second
    · -- both are moved, and were the same before
      obtain ⟨one, rfl⟩ := hfirst
      obtain ⟨other, rfl⟩ := hsecond
      rw [rebase_append, rebase_append] at hsame
      rw [List.append_cancel_left hsame] at hdiffer
      exact absurd rfl hdiffer
    · obtain ⟨rest, rfl⟩ := hfirst
      rw [rebase_append, rebase_of_not_below new hsecond] at hsame
      exact ⟨rest, Or.inl ⟨rfl, hsame.symm⟩⟩
    · obtain ⟨rest, rfl⟩ := hsecond
      rw [rebase_append, rebase_of_not_below new hfirst] at hsame
      exact ⟨rest, Or.inr ⟨hsame, rfl⟩⟩
    · rw [rebase_of_not_below new hfirst, rebase_of_not_below new hsecond] at hsame
      exact absurd hsame hdiffer
  · -- what lies below the new place stays there, or else both places are the same
    have hmeet : ∀ rest, old ++ rest ≠ new ++ rest →
        (old ++ rest).rebase old new = (new ++ rest).rebase old new := by
      intro rest hplaces
      have hnew : ¬ old <+: new ++ rest := by
        intro hbelow
        exact hplaces (by rw [eq_of_prefix_append hlength hbelow])
      rw [rebase_append, rebase_of_not_below new hnew]
    rintro ⟨rest, ⟨rfl, rfl⟩ | ⟨rfl, rfl⟩⟩
    · exact hmeet rest hdiffer
    · exact (hmeet rest hdiffer.symm).symm

end Path

namespace Handles

variable {σ : Type}

/-- Some live handle stands for what a store has at a path. -/
def Names (table : Handles σ) (store : σ) (path : Path) : Prop :=
  ∃ handle : Handle, (table.resolve handle.bytes).1 = .ok ⟨store, path⟩

/-- Handles of a store that resolved to different paths before do not resolve to the
same path afterwards. -/
def KeepsApart (store : σ) (before after : Handles σ) : Prop :=
  ∀ (first second : Handle) (here there : Target σ),
    (before.resolve first.bytes).1 = .ok here → here.store = store →
    (before.resolve second.bytes).1 = .ok there → there.store = store →
    here.path ≠ there.path →
    ∀ (here' there' : Target σ), (after.resolve first.bytes).1 = .ok here' →
      (after.resolve second.bytes).1 = .ok there' → here'.path ≠ there'.path

/-- **When a rename lets two objects share a path.**  A rename of a child of a live
directory is accepted, and it keeps the handles of the directory's store apart
exactly when the child keeps its name or there are no two live handles of the store
that stand for the same place below the old and below the new name. -/
theorem rename_keeps_apart_iff {table : Handles σ} {directory : Handle} {parent : Target σ}
    (hdirectory : (table.resolve directory.bytes).1 = .ok parent) (old new : String) :
    (table.rename directory.bytes old new).1 = .ok () ∧
    (KeepsApart parent.store table (table.rename directory.bytes old new).2 ↔
      old = new ∨ ∀ rest, ¬ (table.Names parent.store (parent.path ++ [old] ++ rest) ∧
        table.Names parent.store (parent.path ++ [new] ++ rest))) := by
  have hlive := live?_eq_some_iff.mpr ⟨rfl, resolve_bytes_eq_ok_iff.mp hdirectory⟩
  have hlength : (parent.path ++ [old]).length = (parent.path ++ [new]).length := by simp
  -- what every handle resolves to afterwards
  have hafter : ∀ (handle : Handle) (target : Target σ),
      (table.resolve handle.bytes).1 = .ok target →
      ((table.rename directory.bytes old new).2.resolve handle.bytes).1 =
        .ok (target.rebase (parent.path ++ [old]) (parent.path ++ [new])) := by
    intro handle target hresolve
    rw [resolve_bytes_eq_ok_iff] at hresolve ⊢
    rw [peek_rename hlive, hresolve, Option.map_some]
  refine ⟨by rw [rename_of_live hlive], ?_, ?_⟩
  · intro hapart
    refine or_iff_not_imp_left.mpr fun hname rest hboth => ?_
    obtain ⟨⟨moved, hmoved⟩, replaced, hreplaced⟩ := hboth
    have hdiffer : parent.path ++ [old] ++ rest ≠ parent.path ++ [new] ++ rest := by
      simpa using hname
    refine hapart moved replaced _ _ hmoved rfl hreplaced rfl hdiffer _ _
      (hafter _ _ hmoved) (hafter _ _ hreplaced) ?_
    exact (Path.rebase_eq_rebase_iff hlength hdiffer).mpr ⟨rest, Or.inl ⟨rfl, rfl⟩⟩
  · intro hclear first second here there hhere hstore hthere hstore' hdiffer here' there' hhere'
      hthere' hsame
    -- the two must have met, one from below the old name, the other below the new one
    rw [hafter first here hhere, Except.ok.injEq] at hhere'
    rw [hafter second there hthere, Except.ok.injEq] at hthere'
    subst hhere' hthere'
    obtain ⟨rest, hmeet⟩ := (Path.rebase_eq_rebase_iff hlength hdiffer).mp hsame
    obtain ⟨hereStore, herePath⟩ := here
    obtain ⟨thereStore, therePath⟩ := there
    rcases hclear with hname | hclear
    · rcases hmeet with ⟨hold, hnew⟩ | ⟨hnew, hold⟩
      · exact hdiffer (by rw [hold, hnew, hname])
      · exact hdiffer (by rw [hold, hnew, hname])
    · dsimp only at hstore hstore' hmeet
      subst hstore hstore'
      rcases hmeet with ⟨rfl, rfl⟩ | ⟨rfl, rfl⟩
      · exact hclear rest ⟨⟨first, hhere⟩, second, hthere⟩
      · exact hclear rest ⟨⟨second, hthere⟩, first, hhere⟩

/-- Of two children, one may be renamed to a name that no handle stands for, but not to
the name of the other. -/
theorem renamed_onto_sibling_shares_path :
    let table := run (.empty ⟨3, by decide⟩) [.mint (.ofSeed 1) 0 [], .mint (.ofSeed 2) 0 ["a"],
      .mint (.ofSeed 3) 0 ["b"]]
    (table.resolve (Handle.ofSeed 1).bytes).1 = .ok ⟨0, []⟩ ∧
      KeepsApart 0 table (table.rename (Handle.ofSeed 1).bytes "a" "c").2 ∧
      ¬ KeepsApart 0 table (table.rename (Handle.ofSeed 1).bytes "a" "b").2 := by
  intro table
  have hdirectory : (table.resolve (Handle.ofSeed 1).bytes).1 = .ok ⟨0, []⟩ := by decide
  have hentries : table.entries =
      [(.ofSeed 1, ⟨0, []⟩), (.ofSeed 2, ⟨0, ["a"]⟩), (.ofSeed 3, ⟨0, ["b"]⟩)] := by decide
  refine ⟨hdirectory, ?_, ?_⟩
  · refine (rename_keeps_apart_iff hdirectory "a" "c").2.mpr (Or.inr ?_)
    rintro rest ⟨-, handle, hresolve⟩
    rw [resolve_bytes_eq_ok_iff, Recency.peek_eq_some_iff, hentries] at hresolve
    simp at hresolve
  · intro hapart
    rcases (rename_keeps_apart_iff hdirectory "a" "b").2.mp hapart with hname | hclear
    · exact absurd hname (by decide)
    · exact hclear [] ⟨⟨.ofSeed 2, by decide⟩, .ofSeed 3, by decide⟩

/-- A rename may let two objects share a path. -/
theorem not_rename_keeps_apart :
    ¬ ∀ (capacity : Capacity) (steps : List (Step ℕ)) (directory : Handle) (parent : Target ℕ)
      (old new : String),
      ((run (.empty capacity) steps).resolve directory.bytes).1 = .ok parent →
      KeepsApart parent.store (run (.empty capacity) steps)
        ((run (.empty capacity) steps).rename directory.bytes old new).2 := by
  intro hapart
  have hkept := hapart ⟨3, by decide⟩ [.mint (.ofSeed 1) 0 [], .mint (.ofSeed 2) 0 ["a"],
    .mint (.ofSeed 3) 0 ["b"]] (.ofSeed 1) ⟨0, []⟩ "a" "b" (by decide)
  -- the moved handle and the replaced one both resolve to `b`
  exact hkept (.ofSeed 2) (.ofSeed 3) ⟨0, ["a"]⟩ ⟨0, ["b"]⟩ (by decide) rfl (by decide) rfl
    (by decide) ⟨0, ["b"]⟩ ⟨0, ["b"]⟩ (by decide) (by decide) rfl

end Handles

end HandleTable
