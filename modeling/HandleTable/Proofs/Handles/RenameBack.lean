import HandleTable.Proofs.Handles.RenamedSubtree

/-!
# Renaming there and back

A rename cannot be undone in general.  When handles stand at or below the new name
already, the moved ones join them, and the way back takes all of them along.  Nothing of
this happens when the new name is vacant: then exactly the moved handles stand below it
afterwards, and the way back moves these and no others.

The same holds of a way that leads on.  On paths alone, a path that does not lie below
the place in the middle is moved by two moves as by one (`Path.rebase_rebase`), and the
way back is the case in which the second move ends where the first one began
(`Path.rebase_self`).  For the table this becomes `rename_rename`: the directory keeps its
path and stands last after either rename, and a use makes no difference to what is
written in place.
-/

namespace HandleTable

namespace Path

@[simp] theorem rebase_self (place path : Path) : path.rebase place place = path := by
  by_cases hbelow : place <+: path
  · obtain ⟨rest, rfl⟩ := hbelow
    rw [rebase_append]
  · rw [rebase_of_not_below place hbelow]

/-- **Two moves in a row.**  A path that did not lie at or below the place in the middle is
moved on from there only if it has been moved there. -/
theorem rebase_rebase {middle path : Path} (hvacant : ¬ middle <+: path) (old new : Path) :
    (path.rebase old middle).rebase middle new = path.rebase old new := by
  by_cases hbelow : old <+: path
  · obtain ⟨rest, rfl⟩ := hbelow
    rw [rebase_append, rebase_append, rebase_append]
  · rw [rebase_of_not_below middle hbelow, rebase_of_not_below new hvacant,
      rebase_of_not_below new hbelow]

/-- A path comes back from a renaming of a child and the renaming back exactly when it did
not lie below the new name, unless the child kept its name. -/
theorem rebase_back_eq_self_iff {directory path : Path} {old new : String} :
    (path.rebase (directory ++ [old]) (directory ++ [new])).rebase
        (directory ++ [new]) (directory ++ [old]) = path ↔
      old = new ∨ ¬ directory ++ [new] <+: path := by
  by_cases hbelow : directory ++ [new] <+: path
  · obtain ⟨rest, rfl⟩ := child_prefix_iff_exists.mp hbelow
    by_cases hname : old = new
    · simp [hname]
    · -- the renaming leaves it there, and the renaming back takes it along
      have hstays : ¬ directory ++ [old] <+: directory ++ new :: rest := by
        rwa [child_prefix_iff]
      rw [rebase_of_not_below _ hstays, List.append_cons, rebase_append]
      simp [hname]
  · rw [rebase_rebase hbelow, rebase_self]
    simp [hbelow]

end Path

variable {σ : Type}

@[simp] theorem Target.rebase_self (place : Path) (target : Target σ) :
    target.rebase place place = target := by
  rw [Target.rebase, Path.rebase_self]

theorem Target.rebase_rebase {middle : Path} {target : Target σ}
    (hvacant : ¬ middle <+: target.path) (old new : Path) :
    (target.rebase old middle).rebase middle new = target.rebase old new := by
  rw [Target.rebase, Target.rebase, Target.rebase, Path.rebase_rebase hvacant]

namespace Handles

/-- No live handle, of whatever store, stands for anything at or below a place. -/
def Vacant (table : Handles σ) (place : Path) : Prop :=
  ∀ entry ∈ table.entries, ¬ place <+: entry.2.path

instance (table : Handles σ) (place : Path) : Decidable (table.Vacant place) :=
  inferInstanceAs (Decidable (∀ entry ∈ table.entries, ¬ place <+: entry.2.path))

section Live

variable {table : Handles σ} {wire : List UInt8} {directory : Handle} {parent : Target σ}
  (hlive : table.live? wire = some (directory, parent))

include hlive

theorem live?_rename (old new : String) :
    (table.rename wire old new).2.live? wire = some (directory, parent) := by
  obtain ⟨hwire, hpeek⟩ := live?_eq_some_iff.mp hlive
  refine live?_eq_some_iff.mpr ⟨hwire, ?_⟩
  rw [peek_rename hlive, hpeek, Option.map_some,
    Target.rebase_of_not_below _ (Path.not_child_prefix_self parent.path old)]

/-- A child that keeps its name is not moved, but the directory is used. -/
theorem rename_self (name : String) :
    table.rename wire name name = (.ok (), (table.get directory).2) := by
  rw [rename_of_live hlive]
  simp only [Target.rebase_self, Recency.mapValues_id]

/-- **Two renames in a row.**  A child that is renamed to a vacant name, and from there to
another one, ends as if it had been renamed at once. -/
theorem rename_rename {middle : String} (hvacant : table.Vacant (parent.path ++ [middle]))
    (old new : String) :
    (table.rename wire old middle).2.rename wire middle new = table.rename wire old new := by
  let used : Handles σ := (table.get directory).2
  have hmiddle : (table.rename wire old middle).2 = used.mapValues fun target =>
      target.rebase (parent.path ++ [old]) (parent.path ++ [middle]) := by
    rw [rename_of_live hlive]
  -- nothing but the child comes to lie below the name in between
  have hstill : ∀ entry ∈ used.entries, ¬ parent.path ++ [middle] <+: entry.2.path :=
    fun entry hentry => hvacant entry (Recency.mem_entries_get_iff.mp hentry)
  rw [rename_of_live (live?_rename hlive old middle), hmiddle, Recency.get_mapValues,
    Recency.get_get, Recency.mapValues_mapValues, rename_of_live hlive]
  congr 1
  exact Recency.mapValues_congr fun entry hentry => Target.rebase_rebase (hstill entry hentry) _ _

/-- **There and back.**  A rename and the rename back amount to a use of the directory
exactly when the new name was vacant, unless the child kept its name. -/
theorem rename_back_snd_eq_iff (old new : String) :
    ((table.rename wire old new).2.rename wire new old).2 = (table.get directory).2 ↔
      old = new ∨ table.Vacant (parent.path ++ [new]) := by
  constructor
  · intro hback
    -- an entry that had the new name all along would come back under the old one
    refine or_iff_not_imp_left.mpr fun hname entry hentry => ?_
    have hpeek := Recency.peek_eq_some_iff.mpr hentry
    have hrestored : ((table.rename wire old new).2.rename wire new old).2.peek entry.1 =
        some entry.2 := by
      rw [hback, Recency.peek_get, hpeek]
    rw [peek_rename (live?_rename hlive old new), peek_rename hlive, hpeek, Option.map_some,
      Option.map_some, Option.some_inj] at hrestored
    exact (Path.rebase_back_eq_self_iff.mp (congrArg Target.path hrestored)).resolve_left hname
  · rintro (rfl | hvacant)
    · have hagain := rename_self (live?_rename hlive old old) old
      rw [hagain, rename_self hlive, Recency.get_get]
    · rw [rename_rename hlive hvacant, rename_self hlive]

end Live

/-- **Renaming there and back.**  A child of a live directory may be renamed to any name and
back.  This leaves every live handle with its store and path, in the old order but for
the directory, which stands last, exactly when the new name was vacant or the old one.
And a child that is renamed to a vacant name in between, and from there to any other
one, ends as if it had been renamed at once: the answer and the whole table are the
same. -/
theorem rename_there_and_back {table : Handles σ} {directory : Handle} {parent : Target σ}
    (hstored : (directory, parent) ∈ table.entries) (old new : String) :
    let there : Handles σ := (table.rename directory.bytes old new).2
    let back : Handles σ := (there.rename directory.bytes new old).2
    (table.rename directory.bytes old new).1 = .ok () ∧
    (there.rename directory.bytes new old).1 = .ok () ∧ back.capacity = table.capacity ∧
    (back.entries = table.others directory ++ [(directory, parent)] ↔
      old = new ∨ table.Vacant (parent.path ++ [new])) ∧
    ∀ middle, table.Vacant (parent.path ++ [middle]) →
      (table.rename directory.bytes old middle).1 = .ok () ∧
      (table.rename directory.bytes old middle).2.rename directory.bytes middle new =
        table.rename directory.bytes old new := by
  intro there back
  have hpeek : table.peek directory = some parent := Recency.peek_eq_some_iff.mpr hstored
  have hlive := live?_eq_some_iff.mpr ⟨rfl, hpeek⟩
  have haccepted : ∀ name, (table.rename directory.bytes old name).1 = .ok () := by
    intro name
    rw [rename_of_live hlive]
  have hcapacity : back.capacity = table.capacity := by
    show (there.rename directory.bytes new old).2.capacity = table.capacity
    rw [capacity_rename, capacity_rename]
  have hused : (table.get directory).2.entries = table.others directory ++ [(directory, parent)] :=
    Recency.entries_get hpeek
  have hrestored : back.entries = table.others directory ++ [(directory, parent)] ↔
      back = (table.get directory).2 := by
    refine ⟨fun hentries => ?_, fun hback => by rw [hback, hused]⟩
    apply Recency.ext
    · rw [hentries, hused]
    · rw [hcapacity, Recency.capacity_get]
  refine ⟨haccepted new, ?_, hcapacity, ?_, ?_⟩
  · rw [rename_of_live (live?_rename hlive old new)]
  · exact hrestored.trans (rename_back_snd_eq_iff hlive old new)
  · exact fun middle hvacant => ⟨haccepted middle, rename_rename hlive hvacant old new⟩

/-- Two files below a child, one of them in another store, go to a vacant name and back,
and on to a name that is taken; a child whose name starts in the same way stays. -/
theorem child_renamed_twice :
    let table := run (.empty ⟨5, by decide⟩) [.mint (.ofSeed 1) 0 [],
      .mint (.ofSeed 2) 0 ["a", "f"], .mint (.ofSeed 3) 1 ["a"], .mint (.ofSeed 4) 0 ["ab"],
      .mint (.ofSeed 5) 0 ["c"]]
    let there := (table.rename (Handle.ofSeed 1).bytes "a" "b").2
    (.ofSeed 1, ⟨0, []⟩) ∈ table.entries ∧ table.Vacant ["b"] ∧
      (there.rename (Handle.ofSeed 1).bytes "b" "a").2.entries =
        [(.ofSeed 2, ⟨0, ["a", "f"]⟩), (.ofSeed 3, ⟨1, ["a"]⟩), (.ofSeed 4, ⟨0, ["ab"]⟩),
          (.ofSeed 5, ⟨0, ["c"]⟩), (.ofSeed 1, ⟨0, []⟩)] ∧
      there.rename (Handle.ofSeed 1).bytes "b" "c" =
        table.rename (Handle.ofSeed 1).bytes "a" "c" := by
  intro table there
  have hstored : (.ofSeed 1, ⟨0, []⟩) ∈ table.entries := by decide
  have hvacant : table.Vacant ["b"] := by decide
  refine ⟨hstored, hvacant, ?_, ?_⟩
  · obtain ⟨-, -, -, hback, -⟩ := rename_there_and_back hstored "a" "b"
    exact (hback.mpr (Or.inr hvacant)).trans (by decide)
  · obtain ⟨-, -, -, -, hon⟩ := rename_there_and_back hstored "a" "c"
    exact (hon "b" hvacant).2

end Handles

end HandleTable
