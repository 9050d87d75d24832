import HandleTable.Proofs.Handles.Renaming

/-!
# Renames of different children in any order

Clients rename children of one directory and resolve handles at the same time.  Each
request is answered in one piece, so what they do together is some order of their
requests.  When the children have different names and none of them gets the name of
another, the order does not matter: in the end every handle stands for the new place of
its object.  New names may be the same, and they may be taken.

The proof goes in two steps.

* While children of a directory are renamed, the handles of the directory itself keep
  their path.  So each rename finds the directory where it was, and after any of the
  requests a live handle stands for what the renames so far make of its path, one after
  another (`RenamedBy`).  Resolves change nothing of this.
* On paths alone, renaming children one after another is the same as renaming each of
  them for itself, because no rename can catch what another one has moved
  (`Path.rebaseChildren_child`).
-/

namespace HandleTable

namespace Path

/-- Where a path leads after children of a directory have been renamed, one after
another. -/
def rebaseChildren (path directory : Path) (renames : List (String × String)) : Path :=
  renames.foldl (fun current renamed =>
    current.rebase (directory ++ [renamed.1]) (directory ++ [renamed.2])) path

theorem child_prefix_iff {directory rest : Path} {name other : String} :
    directory ++ [name] <+: directory ++ other :: rest ↔ name = other := by
  simp [List.prefix_append_right_inj]

theorem not_child_prefix_self (directory : Path) (name : String) :
    ¬ directory ++ [name] <+: directory := by
  intro hbelow
  have hlength := hbelow.length_le
  rw [List.length_append, List.length_singleton] at hlength
  omega

theorem rebaseChildren_of_not_below {path directory : Path} {renames : List (String × String)}
    (hpath : ∀ renamed ∈ renames, ¬ directory ++ [renamed.1] <+: path) :
    path.rebaseChildren directory renames = path := by
  induction renames with
  | nil => rfl
  | cons renamed rest ih =>
      rw [rebaseChildren, List.foldl_cons,
        rebase_of_not_below _ (hpath renamed List.mem_cons_self)]
      exact ih fun other hother => hpath other (List.mem_cons_of_mem _ hother)

@[simp] theorem rebaseChildren_self (directory : Path) (renames : List (String × String)) :
    directory.rebaseChildren directory renames = directory :=
  rebaseChildren_of_not_below fun renamed _ => not_child_prefix_self directory renamed.1

/-- **Each child goes to its own new name.**  When the children have different names and
none gets the name of another, what lies below a child follows this child alone. -/
theorem rebaseChildren_child {directory rest : Path} {renames : List (String × String)}
    (hsources : (renames.map Prod.fst).Nodup)
    (htargets : ∀ first ∈ renames, ∀ second ∈ renames, first.2 ≠ second.1)
    {old new : String} (hrenamed : (old, new) ∈ renames) :
    (directory ++ old :: rest).rebaseChildren directory renames = directory ++ new :: rest := by
  induction renames with
  | nil => simp at hrenamed
  | cons renamed others ih =>
      rw [List.map_cons, List.nodup_cons] at hsources
      rw [rebaseChildren, List.foldl_cons, ← rebaseChildren]
      rcases List.mem_cons.mp hrenamed with hnow | hlater
      · -- once it is moved, no later rename finds it
        have hmoved : (directory ++ old :: rest).rebase (directory ++ [renamed.1])
            (directory ++ [renamed.2]) = directory ++ new :: rest := by
          rw [← hnow, List.append_cons, rebase_append, ← List.append_cons]
        rw [hmoved]
        apply rebaseChildren_of_not_below
        intro other hother
        rw [child_prefix_iff]
        exact (htargets (old, new) hrenamed other (List.mem_cons_of_mem _ hother)).symm
      · -- another child is moved, and this one stays for now
        have hother : renamed.1 ≠ old := by
          intro hsame
          exact hsources.1 (List.mem_map.mpr ⟨(old, new), hlater, hsame.symm⟩)
        rw [rebase_of_not_below _ (by rwa [child_prefix_iff])]
        exact ih hsources.2 (fun first hfirst second hsecond =>
          htargets first (List.mem_cons_of_mem _ hfirst) second (List.mem_cons_of_mem _ hsecond))
          hlater

end Path

variable {σ : Type}

/-- What a target becomes after children of a directory have been renamed, one after
another. -/
def Target.rebaseChildren (target : Target σ) (directory : Path)
    (renames : List (String × String)) : Target σ :=
  { target with path := target.path.rebaseChildren directory renames }

namespace Handles

/-- The child that a request renames, with its new name. -/
def Step.renamed? : Step σ → Option (String × String)
  | .rename _ old new => some (old, new)
  | _ => none

/-- A request that may be made while children of a directory are renamed: it renames one
of them through a handle that stands for the directory, or it resolves any bytes. -/
inductive WorksIn (table : Handles σ) (directory : Path) : Step σ → Prop where
  | resolve (wire : List UInt8) : WorksIn table directory (.resolve wire)
  | rename {wire : List UInt8} {store : σ}
      (hdirectory : (table.resolve wire).1 = .ok ⟨store, directory⟩) (old new : String) :
      WorksIn table directory (.rename wire old new)

/-- The requests rename the children in some order, each one once, and otherwise resolve
handles. -/
structure Interleaves (table : Handles σ) (directory : Path) (renames : List (String × String))
    (steps : List (Step σ)) : Prop where
  works : ∀ request ∈ steps, WorksIn table directory request
  once : (steps.filterMap Step.renamed?).Perm renames

/-- Every handle stands for what the renames, one after another, make of its target. -/
def RenamedBy (table : Handles σ) (directory : Path) (renames : List (String × String))
    (after : Handles σ) : Prop :=
  ∀ handle, after.peek handle =
    (table.peek handle).map fun target => target.rebaseChildren directory renames

namespace RenamedBy

variable {table after : Handles σ} {directory : Path} {renames : List (String × String)}

theorem refl (table : Handles σ) (directory : Path) : RenamedBy table directory [] table :=
  fun _ => Option.map_id'.symm

theorem live?_directory (hrenamed : RenamedBy table directory renames after) {wire : List UInt8}
    {store : σ} (hdirectory : (table.resolve wire).1 = .ok ⟨store, directory⟩) :
    ∃ handle, after.live? wire = some (handle, ⟨store, directory⟩) := by
  obtain ⟨handle, hlive⟩ := resolve_eq_ok_iff.mp hdirectory
  obtain ⟨rfl, hpeek⟩ := live?_eq_some_iff.mp hlive
  refine ⟨handle, live?_eq_some_iff.mpr ⟨rfl, ?_⟩⟩
  rw [hrenamed handle, hpeek, Option.map_some, Target.rebaseChildren, Path.rebaseChildren_self]

protected theorem step (hrenamed : RenamedBy table directory renames after) {request : Step σ}
    (hworks : WorksIn table directory request) :
    RenamedBy table directory (renames ++ request.renamed?.toList) (after.step request) := by
  intro handle
  cases hworks with
  | resolve wire =>
      have hnone : (Step.resolve wire : Step σ).renamed? = none := rfl
      rw [hnone, Option.toList_none, List.append_nil, Handles.step, peek_resolve]
      exact hrenamed handle
  | rename hdirectory old new =>
      obtain ⟨parent, hlive⟩ := hrenamed.live?_directory hdirectory
      rw [Handles.step, peek_rename hlive, hrenamed handle, Option.map_map]
      congr 1
      funext target
      simp [Step.renamed?, Target.rebaseChildren, Target.rebase, Path.rebaseChildren]

protected theorem run (hrenamed : RenamedBy table directory renames after)
    {steps : List (Step σ)} (hworks : ∀ request ∈ steps, WorksIn table directory request) :
    RenamedBy table directory (renames ++ steps.filterMap Step.renamed?) (after.run steps) := by
  induction steps generalizing renames after with
  | nil => simpa [Handles.run] using hrenamed
  | cons request rest ih =>
      have hnext := ih (hrenamed.step (hworks request List.mem_cons_self))
        fun other hother => hworks other (List.mem_cons_of_mem _ hother)
      have hlist : renames ++ request.renamed?.toList ++ rest.filterMap Step.renamed? =
          renames ++ (request :: rest).filterMap Step.renamed? := by
        rw [List.append_assoc, List.filterMap_cons]
        cases request.renamed? <;> rfl
      rwa [hlist] at hnext

end RenamedBy

/-- **Independent renames commute.**  From any table, let children of a directory be
renamed through live handles of the directory, in any order and with any resolves in
between, where the children have different names and none gets the name of another.
Every rename is accepted.  In the end a handle that stood for something at or below one
of the children stands for the same place below its new name, every other live handle
stands for what it stood for, and what was stale is stale. -/
theorem independent_renames_commute {table : Handles σ} {directory : Path}
    {renames : List (String × String)} (hsources : (renames.map Prod.fst).Nodup)
    (htargets : ∀ first ∈ renames, ∀ second ∈ renames, first.2 ≠ second.1)
    {steps : List (Step σ)} (hsteps : Interleaves table directory renames steps) :
    (∀ before wire old new later, steps = before ++ .rename wire old new :: later →
      ((table.run before).rename wire old new).1 = .ok ()) ∧
    (∀ (handle : Handle) (target : Target σ), (table.resolve handle.bytes).1 = .ok target →
      (∀ old new rest, (old, new) ∈ renames → target.path = directory ++ old :: rest →
        ((table.run steps).resolve handle.bytes).1 =
          .ok ⟨target.store, directory ++ new :: rest⟩) ∧
      ((∀ renamed ∈ renames, ¬ directory ++ [renamed.1] <+: target.path) →
        ((table.run steps).resolve handle.bytes).1 = .ok target)) ∧
    ∀ handle : Handle, (table.resolve handle.bytes).1 = .error .stale →
      ((table.run steps).resolve handle.bytes).1 = .error .stale := by
  obtain ⟨hworks, honce⟩ := hsteps
  have hfinal : RenamedBy table directory (steps.filterMap Step.renamed?) (table.run steps) :=
    (RenamedBy.refl table directory).run hworks
  -- whatever their order is, the renames made are those that were asked for
  have hmade : ∀ renamed, renamed ∈ steps.filterMap Step.renamed? ↔ renamed ∈ renames :=
    fun renamed => honce.mem_iff
  have hmadeSources : ((steps.filterMap Step.renamed?).map Prod.fst).Nodup :=
    (honce.map Prod.fst).nodup_iff.mpr hsources
  refine ⟨?_, ?_, ?_⟩
  · rintro before wire old new later rfl
    have hsofar : RenamedBy table directory (before.filterMap Step.renamed?) (table.run before) :=
      (RenamedBy.refl table directory).run fun request hrequest =>
        hworks request (List.mem_append_left _ hrequest)
    cases hworks (.rename wire old new) (by simp) with
    | rename hdirectory _ _ =>
        obtain ⟨parent, hlive⟩ := hsofar.live?_directory hdirectory
        rw [rename_of_live hlive]
  · intro handle target hresolve
    rw [resolve_bytes_eq_ok_iff] at hresolve
    have hafter := hfinal handle
    rw [hresolve, Option.map_some, Target.rebaseChildren] at hafter
    refine ⟨?_, ?_⟩
    · intro old new rest hrenamed hpath
      rw [hpath, Path.rebaseChildren_child hmadeSources
        (fun first hfirst second hsecond =>
          htargets first ((hmade first).mp hfirst) second ((hmade second).mp hsecond))
        ((hmade _).mpr hrenamed)] at hafter
      exact resolve_bytes_eq_ok_iff.mpr hafter
    · intro hother
      rw [Path.rebaseChildren_of_not_below
        fun renamed hrenamed => hother renamed ((hmade renamed).mp hrenamed)] at hafter
      exact resolve_bytes_eq_ok_iff.mpr hafter
  · intro handle hstale
    rw [resolve_bytes_eq_stale_iff, ← Recency.peek_eq_none_iff] at hstale ⊢
    rw [hfinal handle, hstale, Option.map_none]

/-- Two clients, each with a handle of its own for the root, give two children the same
new name, the second one first, while a handle below the first one is resolved and
bytes that are no handle are refused. -/
theorem two_children_renamed_by_two_clients :
    let table := run (.empty ⟨5, by decide⟩) [.mint (.ofSeed 1) 0 [], .mint (.ofSeed 2) 0 [],
      .mint (.ofSeed 3) 0 ["a", "f"], .mint (.ofSeed 4) 0 ["b"], .mint (.ofSeed 5) 0 ["ab"]]
    let renames := [("a", "c"), ("b", "c")]
    let steps : List (Step ℕ) := [.resolve [7], .rename (Handle.ofSeed 2).bytes "b" "c",
      .resolve (Handle.ofSeed 3).bytes, .rename (Handle.ofSeed 1).bytes "a" "c"]
    (renames.map Prod.fst).Nodup ∧
      (∀ first ∈ renames, ∀ second ∈ renames, first.2 ≠ second.1) ∧
      Interleaves table [] renames steps ∧
      ((table.run steps).resolve (Handle.ofSeed 3).bytes).1 = .ok ⟨0, ["c", "f"]⟩ ∧
      ((table.run steps).resolve (Handle.ofSeed 4).bytes).1 = .ok ⟨0, ["c"]⟩ ∧
      ((table.run steps).resolve (Handle.ofSeed 5).bytes).1 = .ok ⟨0, ["ab"]⟩ := by
  intro table renames steps
  have hsources : (renames.map Prod.fst).Nodup := by decide
  have htargets : ∀ first ∈ renames, ∀ second ∈ renames, first.2 ≠ second.1 := by decide
  have hfirst : (table.resolve (Handle.ofSeed 1).bytes).1 = .ok ⟨0, []⟩ := by decide
  have hsecond : (table.resolve (Handle.ofSeed 2).bytes).1 = .ok ⟨0, []⟩ := by decide
  have hsteps : Interleaves table [] renames steps := by
    refine ⟨?_, List.Perm.swap _ _ _⟩
    intro request hrequest
    simp only [steps, List.mem_cons, List.not_mem_nil, or_false] at hrequest
    rcases hrequest with rfl | rfl | rfl | rfl
    · exact .resolve _
    · exact .rename hsecond _ _
    · exact .resolve _
    · exact .rename hfirst _ _
  obtain ⟨-, hsettled, -⟩ := independent_renames_commute hsources htargets hsteps
  refine ⟨hsources, htargets, hsteps, ?_, ?_, ?_⟩
  · exact (hsettled (.ofSeed 3) ⟨0, ["a", "f"]⟩ (by decide)).1 "a" "c" ["f"] (by decide) rfl
  · exact (hsettled (.ofSeed 4) ⟨0, ["b"]⟩ (by decide)).1 "b" "c" [] (by decide) rfl
  · exact (hsettled (.ofSeed 5) ⟨0, ["ab"]⟩ (by decide)).2 (by decide)

end Handles

end HandleTable
