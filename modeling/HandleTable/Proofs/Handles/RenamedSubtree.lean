import HandleTable.Proofs.Handles.IndependentRenames

/-!
# What a rename rewrites

A rename moves what lies at or below one child of a directory to the child's new name.
Every such handle keeps its store and what its path adds below the child; nothing else
changes, whatever the two names are and wherever they stand already.  The directory is
used, so it moves to the end, and the rewritten handles keep their places.

The rename says this of all entries at once.  It can also be carried out one handle at a
time: `atOrBelow` lists the handles that are concerned, and `moveEach?` takes them up one
after another, cuts the old place off the path of each and puts the new place in front of
the rest.  Two things could go wrong there.  A path could be too short to be cut, and a
path that has been rewritten could be taken for one that still waits, since the two names
may be the same.  Neither happens: what is listed lies at or below the old place until its
own turn comes (`move?_eq_some`), and each handle has one turn (`moveEach?_eq_some`).  So
this way ends with the table in which all paths have been moved at once.
-/

namespace HandleTable

namespace Path

/-- What a path adds below a place.  There is no such part when the path is shorter than
the place. -/
def below? (place path : Path) : Option Path :=
  if place.length ≤ path.length then some (path.drop place.length) else none

@[simp] theorem below?_append (place rest : Path) : below? place (place ++ rest) = some rest := by
  simp [below?]

/-- A path lies at or below a child exactly when it goes on with the child's name behind
the directory. -/
theorem child_prefix_iff_exists {directory path : Path} {name : String} :
    directory ++ [name] <+: path ↔ ∃ rest, path = directory ++ name :: rest := by
  constructor
  · rintro ⟨rest, rfl⟩
    exact ⟨rest, (List.append_cons directory name rest).symm⟩
  · rintro ⟨rest, rfl⟩
    exact ⟨rest, (List.append_cons directory name rest).symm⟩

theorem not_child_prefix_of_prefix {directory path : Path} (hleads : path <+: directory)
    (name : String) : ¬ directory ++ [name] <+: path :=
  fun hbelow => not_child_prefix_self directory name (hbelow.trans hleads)

end Path

variable {σ : Type}

theorem Target.rebase_of_not_below {old : Path} {target : Target σ} (new : Path)
    (hpath : ¬ old <+: target.path) : target.rebase old new = target := by
  rw [Target.rebase, Path.rebase_of_not_below new hpath]

theorem Target.rebase_of_path_eq {old rest : Path} {target : Target σ} (new : Path)
    (hpath : target.path = old ++ rest) :
    target.rebase old new = { target with path := new ++ rest } := by
  rw [Target.rebase, hpath, Path.rebase_append]

namespace Handles

/-- The live handles whose paths lie at or below a place, in the order of the table. -/
def atOrBelow (table : Handles σ) (place : Path) : List Handle :=
  (table.entries.filter fun entry => Path.isAncestor place entry.2.path).map Prod.fst

/-- Moves what one handle stands for from `old` to `new`.  There is no result when its
path is too short to have a part below `old`. -/
def move? (old new : Path) (table : Handles σ) (handle : Handle) : Option (Handles σ) :=
  match table.peek handle with
  | none => some table
  | some target =>
    (Path.below? old target.path).map fun rest =>
      table.modify handle fun found => { found with path := new ++ rest }

/-- Moves what several handles stand for, one after another. -/
def moveEach? (old new : Path) (table : Handles σ) (handles : List Handle) :
    Option (Handles σ) :=
  handles.foldlM (move? old new) table

/-! ## One handle at a time -/

theorem move?_eq_some (new : Path) {old rest : Path} {table : Handles σ} {handle : Handle}
    {target : Target σ} (hpeek : table.peek handle = some target)
    (hpath : target.path = old ++ rest) :
    move? old new table handle =
      some (table.modify handle fun found => { found with path := new ++ rest }) := by
  rw [move?, hpeek]
  show (Path.below? old target.path).map _ = _
  rw [hpath, Path.below?_append, Option.map_some]

/-- **One turn for each handle.**  Moving different handles that lie at or below the old
place always succeeds, and it moves these handles and no others. -/
theorem moveEach?_eq_some (new : Path) {old : Path} {table : Handles σ} {handles : List Handle}
    (hnodup : handles.Nodup)
    (hbelow : ∀ handle ∈ handles, ∃ target, table.peek handle = some target ∧ old <+: target.path) :
    ∃ after, moveEach? old new table handles = some after ∧ after.capacity = table.capacity ∧
      after.entries = table.entries.map fun entry =>
        if entry.1 ∈ handles then (entry.1, entry.2.rebase old new) else entry := by
  induction handles generalizing table with
  | nil => exact ⟨table, rfl, rfl, by simp⟩
  | cons handle rest ih =>
      rw [List.nodup_cons] at hnodup
      obtain ⟨target, hpeek, tail, htail⟩ := hbelow handle List.mem_cons_self
      let next := table.modify handle fun found => { found with path := new ++ tail }
      -- the handles that still wait are not touched by this turn
      have hrest : ∀ other ∈ rest, ∃ content, next.peek other = some content ∧
          old <+: content.path := by
        intro other hother
        have hdiffers : handle ≠ other := fun hsame => hnodup.1 (hsame ▸ hother)
        rw [Recency.peek_modify, if_neg hdiffers]
        exact hbelow other (List.mem_cons_of_mem _ hother)
      obtain ⟨after, hafter, hcapacity, hentries⟩ := ih hnodup.2 hrest
      refine ⟨after, ?_, hcapacity, ?_⟩
      · rw [moveEach?, List.foldlM_cons, move?_eq_some new hpeek htail.symm]
        exact hafter
      · rw [hentries]
        show (table.entries.map _).map _ = _
        rw [List.map_map]
        apply List.map_congr_left
        intro entry hentry
        by_cases hself : entry.1 = handle
        · have hcontent : entry.2 = target := by
            rw [← Option.some_inj, ← hpeek, ← hself, Recency.peek_eq_some_iff.mpr hentry]
          rw [if_pos (List.mem_cons.mpr (Or.inl hself)),
            Target.rebase_of_path_eq new (hcontent ▸ htail.symm)]
          simp [hself, hnodup.1]
        · simp [hself]

theorem mem_atOrBelow_iff {table : Handles σ} {place : Path} {handle : Handle} :
    handle ∈ table.atOrBelow place ↔
      ∃ target, table.peek handle = some target ∧ place <+: target.path := by
  simp only [atOrBelow, List.mem_map, List.mem_filter, Recency.peek_eq_some_iff,
    Path.isAncestor_iff]
  constructor
  · rintro ⟨⟨name, target⟩, ⟨hstored, hplace⟩, rfl⟩
    exact ⟨target, hstored, hplace⟩
  · rintro ⟨target, hstored, hplace⟩
    exact ⟨(handle, target), ⟨hstored, hplace⟩, rfl⟩

/-- Moving what is listed below the old place, one handle at a time, moves all paths. -/
theorem moveEach?_atOrBelow (table : Handles σ) (old new : Path) :
    moveEach? old new table (table.atOrBelow old) =
      some (table.mapValues fun target => target.rebase old new) := by
  have hnodup : (table.atOrBelow old).Nodup :=
    (List.filter_sublist.map Prod.fst).nodup table.keys_nodup
  obtain ⟨after, hafter, hcapacity, hentries⟩ :=
    moveEach?_eq_some new hnodup fun handle hlisted => mem_atOrBelow_iff.mp hlisted
  rw [hafter, Option.some_inj]
  apply Recency.ext
  · rw [hentries]
    apply List.map_congr_left
    intro entry hentry
    split
    · rfl
    · -- what is not listed does not lie below the old place, so it stays
      rename_i hunlisted
      have hplace : ¬ old <+: entry.2.path := fun hplace =>
        hunlisted (mem_atOrBelow_iff.mpr ⟨entry.2, Recency.peek_eq_some_iff.mpr hentry, hplace⟩)
      show entry = (entry.1, entry.2.rebase old new)
      rw [Target.rebase_of_not_below new hplace]
  · exact hcapacity

/-! ## The whole rename -/

@[simp] theorem capacity_rename (table : Handles σ) (wire : List UInt8) (old new : String) :
    (table.rename wire old new).2.capacity = table.capacity :=
  (transition_step table (.rename wire old new)).capacity_eq

section Live

variable {table : Handles σ} {wire : List UInt8} {directory : Handle} {parent : Target σ}
  (hlive : table.live? wire = some (directory, parent)) (old new : String)

include hlive

theorem keys_rename :
    (table.rename wire old new).2.keys = table.keys.erase directory ++ [directory] := by
  rw [rename_of_live hlive, Recency.keys_mapValues, Recency.keys_get (mem_keys_of_live hlive)]

theorem mem_entries_rename {handle : Handle} {target : Target σ}
    (hentry : (handle, target) ∈ table.entries) :
    (handle, target.rebase (parent.path ++ [old]) (parent.path ++ [new])) ∈
      (table.rename wire old new).2.entries := by
  rw [← Recency.peek_eq_some_iff] at hentry ⊢
  rw [peek_rename hlive, hentry, Option.map_some]

theorem mem_entries_rename_of_not_below {handle : Handle} {target : Target σ}
    (hentry : (handle, target) ∈ table.entries) (hother : ¬ parent.path ++ [old] <+: target.path) :
    (handle, target) ∈ (table.rename wire old new).2.entries := by
  have hmoved := mem_entries_rename hlive old new hentry
  rwa [Target.rebase_of_not_below _ hother] at hmoved

/-- Taking up the handles below the child one at a time leaves the table that the rename
leaves. -/
theorem moveEach?_eq_rename :
    moveEach? (parent.path ++ [old]) (parent.path ++ [new]) (table.get directory).2
        (atOrBelow (table.get directory).2 (parent.path ++ [old])) =
      some (table.rename wire old new).2 := by
  rw [moveEach?_atOrBelow, rename_of_live hlive]

end Live

/-- **What a rename rewrites.**  A rename of a child of a live directory is accepted, for
any two names.  Of the directory's own store, a handle that stands for the child or
for something below it goes to the same place below the new name, and every other
handle stays, the directory and those above it among them.  Every handle of whatever
store keeps its store.  The same handles are live as before, in the same order, but
for the directory, which stands last.  Carried out one handle at a time, the rename
never meets a path that is too short to be cut, and it ends with the same table. -/
theorem rename_rewrites_subtree {table : Handles σ} {directory : Handle} {parent : Target σ}
    (hstored : (directory, parent) ∈ table.entries) (old new : String) :
    let used : Handles σ := (table.get directory).2
    let after : Handles σ := (table.rename directory.bytes old new).2
    (table.rename directory.bytes old new).1 = .ok () ∧
    (∀ handle target, (handle, target) ∈ table.entries → target.store = parent.store →
      (∀ rest, target.path = parent.path ++ old :: rest →
        (handle, ⟨parent.store, parent.path ++ new :: rest⟩) ∈ after.entries) ∧
      ((∀ rest, target.path ≠ parent.path ++ old :: rest) → (handle, target) ∈ after.entries) ∧
      (target.path <+: parent.path → (handle, target) ∈ after.entries)) ∧
    (∀ handle, (after.peek handle).map Target.store = (table.peek handle).map Target.store) ∧
    after.keys = table.keys.erase directory ++ [directory] ∧ after.capacity = table.capacity ∧
    moveEach? (parent.path ++ [old]) (parent.path ++ [new]) used
      (used.atOrBelow (parent.path ++ [old])) = some after := by
  intro used after
  have hlive := live?_eq_some_iff.mpr ⟨rfl, Recency.peek_eq_some_iff.mpr hstored⟩
  refine ⟨by rw [rename_of_live hlive], ?_, ?_, keys_rename hlive old new,
    capacity_rename table directory.bytes old new, moveEach?_eq_rename hlive old new⟩
  · intro handle target hentry hstore
    refine ⟨?_, ?_, ?_⟩
    · intro rest hpath
      have hmoved := mem_entries_rename hlive old new hentry
      rw [List.append_cons] at hpath
      rwa [Target.rebase_of_path_eq _ hpath, hstore, ← List.append_cons] at hmoved
    · intro hother
      apply mem_entries_rename_of_not_below hlive old new hentry
      rw [Path.child_prefix_iff_exists, not_exists]
      exact hother
    · intro hleads
      apply mem_entries_rename_of_not_below hlive old new hentry
      exact Path.not_child_prefix_of_prefix hleads old
  · intro handle
    rw [peek_rename hlive, Option.map_map]
    rfl

/-- A child is renamed to a name that is taken.  What lies below the child follows it;
the handle that has the name already, a namesake of the child elsewhere and a child
whose name only starts in the same way stay, and the directory stands last. -/
theorem child_renamed_onto_taken_name :
    let table := run (.empty ⟨6, by decide⟩) [.mint (.ofSeed 1) 0 ["d"],
      .mint (.ofSeed 2) 0 ["d", "a", "f"], .mint (.ofSeed 3) 0 ["a"],
      .mint (.ofSeed 4) 0 ["d", "ab"], .mint (.ofSeed 5) 0 ["d", "c"],
      .mint (.ofSeed 6) 0 ["d", "a"]]
    let after := (table.rename (Handle.ofSeed 1).bytes "a" "c").2
    (.ofSeed 1, ⟨0, ["d"]⟩) ∈ table.entries ∧
      after.keys = [.ofSeed 2, .ofSeed 3, .ofSeed 4, .ofSeed 5, .ofSeed 6, .ofSeed 1] ∧
      (.ofSeed 2, ⟨0, ["d", "c", "f"]⟩) ∈ after.entries ∧
      (.ofSeed 6, ⟨0, ["d", "c"]⟩) ∈ after.entries ∧
      (.ofSeed 5, ⟨0, ["d", "c"]⟩) ∈ after.entries ∧
      (.ofSeed 4, ⟨0, ["d", "ab"]⟩) ∈ after.entries ∧
      (.ofSeed 3, ⟨0, ["a"]⟩) ∈ after.entries := by
  intro table after
  have hstored : (.ofSeed 1, ⟨0, ["d"]⟩) ∈ table.entries := by decide
  obtain ⟨-, hpaths, -, hkeys, -⟩ := rename_rewrites_subtree hstored "a" "c"
  refine ⟨hstored, hkeys.trans (by decide), ?_, ?_, ?_, ?_, ?_⟩
  · exact (hpaths (.ofSeed 2) ⟨0, ["d", "a", "f"]⟩ (by decide) rfl).1 ["f"] rfl
  · exact (hpaths (.ofSeed 6) ⟨0, ["d", "a"]⟩ (by decide) rfl).1 [] rfl
  · exact (hpaths (.ofSeed 5) ⟨0, ["d", "c"]⟩ (by decide) rfl).2.1 (by simp)
  · exact (hpaths (.ofSeed 4) ⟨0, ["d", "ab"]⟩ (by decide) rfl).2.1 (by simp)
  · exact (hpaths (.ofSeed 3) ⟨0, ["a"]⟩ (by decide) rfl).2.1 (by simp)

end Handles

end HandleTable
