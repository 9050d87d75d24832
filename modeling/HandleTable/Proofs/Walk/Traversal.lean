import HandleTable.Walk
import Mathlib.Algebra.Order.Floor.Div

/-!
# The plain traversal of an export

What a walk does through handles, verifiers and pages can be said without them: it
visits a directory, then the directories that it lists, level by level.  The
definitions here look at nothing but what the store lists at each path.

* `level readDir depth` are the directories at one depth, in the order in which the
  directories above list them; one that is listed twice stands there twice.
* `directories readDir maxDepth` are the levels down to the last one that may be
  visited, one after another.  The root is visited in any case.
* `firstFailure` is the failure of the first of them that cannot be read, and
  `plainTotals` is what there is to count when all of them can.
* `enqueued readDir maxDepth` are the directories that wait in the queue at some time
  when the traversal ends at the first directory that cannot be read: the root, and
  what the directories before that one lead to.
-/

namespace HandleTable.Walk

/-- What a store lists at a path, nothing where it cannot be read. -/
def listingOf (readDir : Path → Except Failure Listing) (path : Path) : Listing :=
  match readDir path with
  | .ok listing => listing
  | .error _ => []

/-- The directories that a listing of the directory at `path` leads to. -/
def subdirectories (path : Path) (listing : Listing) : List Path :=
  (listing.filter Entry.isDir).map fun entry => path ++ [entry.name]

/-- The directories at a depth below the root. -/
def level (readDir : Path → Except Failure Listing) : ℕ → List Path
  | 0 => [[]]
  | depth + 1 =>
    (level readDir depth).flatMap fun path => subdirectories path (listingOf readDir path)

/-- The directories of the traversal in breadth-first order. -/
def directories (readDir : Path → Except Failure Listing) (maxDepth : ℕ) : List Path :=
  (List.range (max maxDepth 1)).flatMap (level readDir)

/-- Why the directory at a path cannot be read, if it cannot. -/
def failure? (readDir : Path → Except Failure Listing) (path : Path) : Option Failure :=
  match readDir path with
  | .ok _ => none
  | .error failure => some failure

/-- The failure of the first directory that cannot be read. -/
def firstFailure (readDir : Path → Except Failure Listing) (paths : List Path) : Option Failure :=
  paths.findSome? (failure? readDir)

/-- The directories before the first one that cannot be read. -/
def readable (readDir : Path → Except Failure Listing) (paths : List Path) : List Path :=
  paths.takeWhile fun path => (failure? readDir path).isNone

/-- The directories to which a traversal goes on from `path`. -/
def followed (readDir : Path → Except Failure Listing) (maxDepth : ℕ) (path : Path) : List Path :=
  if path.length + 1 < maxDepth then subdirectories path (listingOf readDir path) else []

/-- The directories that are put into the queue until the traversal ends. -/
def enqueued (readDir : Path → Except Failure Listing) (maxDepth : ℕ) : List Path :=
  [] :: (readable readDir (directories readDir maxDepth)).flatMap (followed readDir maxDepth)

/-- How many pages a listing takes: as many as its entries fill, and at least one. -/
def pageCount (pageSize length : ℕ) : ℕ :=
  max 1 (length ⌈/⌉ pageSize)

/-- What there is to count at the given directories when nothing is lost. -/
def plainTotals (readDir : Path → Except Failure Listing) (pageSize : ℕ) (paths : List Path) :
    Totals where
  directories := paths.length
  entries := (paths.map fun path => (listingOf readDir path).length).sum
  pages := (paths.map fun path => pageCount pageSize (listingOf readDir path).length).sum
  staleHandles := 0
  restarts := 0

/-! ## Counting -/

/-- Counts are added one by one. -/
instance : Add Totals where
  add first second := ⟨first.directories + second.directories, first.entries + second.entries,
    first.pages + second.pages, first.staleHandles + second.staleHandles,
    first.restarts + second.restarts⟩

theorem Totals.add_def (first second : Totals) :
    first + second = ⟨first.directories + second.directories, first.entries + second.entries,
      first.pages + second.pages, first.staleHandles + second.staleHandles,
      first.restarts + second.restarts⟩ := rfl

theorem Totals.add_assoc (first second third : Totals) :
    first + second + third = first + (second + third) := by
  simp only [Totals.add_def, Nat.add_assoc]

theorem Totals.zero_add (totals : Totals) : (⟨0, 0, 0, 0, 0⟩ : Totals) + totals = totals := by
  simp only [Totals.add_def, Nat.zero_add]

theorem pageCount_of_le {pageSize length : ℕ} (hpositive : 0 < pageSize)
    (hfits : length ≤ pageSize) : pageCount pageSize length = 1 := by
  have hone : length ⌈/⌉ pageSize ≤ 1 := by
    rw [ceilDiv_le_iff_le_mul hpositive, Nat.mul_one]
    exact hfits
  exact Nat.max_eq_left hone

theorem pageCount_of_lt {pageSize length : ℕ} (hpositive : 0 < pageSize)
    (hmore : pageSize < length) :
    pageCount pageSize length = 1 + pageCount pageSize (length - pageSize) := by
  obtain ⟨rest, rfl⟩ := Nat.exists_eq_add_of_lt hmore
  have hrest : pageSize + rest + 1 - pageSize = rest + 1 := by omega
  rw [pageCount, pageCount, hrest, Nat.ceilDiv_eq_add_pred_div, Nat.ceilDiv_eq_add_pred_div]
  have hall : pageSize + rest + 1 + pageSize - 1 = (rest + 1 + pageSize - 1) + pageSize := by omega
  have hfirst : 1 ≤ (rest + 1 + pageSize - 1) / pageSize := by
    rw [Nat.le_div_iff_mul_le hpositive]
    omega
  rw [hall, Nat.add_div_right _ hpositive]
  omega

section

variable (readDir : Path → Except Failure Listing)

theorem plainTotals_append (pageSize : ℕ) (first second : List Path) :
    plainTotals readDir pageSize (first ++ second) =
      plainTotals readDir pageSize first + plainTotals readDir pageSize second := by
  simp [plainTotals, Totals.add_def]

/-! ## Levels -/

theorem subdirectories_append (path : Path) (first second : Listing) :
    subdirectories path (first ++ second) =
      subdirectories path first ++ subdirectories path second := by
  simp [subdirectories]

theorem level_eq_nil_of_le {shallow depth : ℕ} (hnone : level readDir shallow = [])
    (hle : shallow ≤ depth) : level readDir depth = [] := by
  induction hle with
  | refl => exact hnone
  | step _ ih => rw [level, ih, List.flatMap_nil]

/-- The depth of a directory is the number of names that lead to it. -/
theorem length_of_mem_level {depth : ℕ} {path : Path} (hpath : path ∈ level readDir depth) :
    path.length = depth := by
  induction depth generalizing path with
  | zero =>
      rw [List.mem_singleton.mp hpath]
      rfl
  | succ depth ih =>
      obtain ⟨parent, hparent, hchild⟩ := List.mem_flatMap.mp hpath
      obtain ⟨entry, -, rfl⟩ := List.mem_map.mp hchild
      rw [List.length_append, ih hparent, List.length_singleton]

/-- What follows on a level is the next level, down to the last one. -/
theorem flatMap_followed_level (maxDepth depth : ℕ) :
    (level readDir depth).flatMap (followed readDir maxDepth) =
      if depth + 1 < maxDepth then level readDir (depth + 1) else [] := by
  have hfollowed : (level readDir depth).flatMap (followed readDir maxDepth) =
      (level readDir depth).flatMap fun path =>
        if depth + 1 < maxDepth then subdirectories path (listingOf readDir path) else [] := by
    refine List.flatMap_congr fun path hpath => ?_
    rw [followed, length_of_mem_level readDir hpath]
  rw [hfollowed]
  split
  · rfl
  · exact List.flatMap_eq_nil_iff.mpr fun _ _ => rfl

/-- Below a level there is nothing to visit when the levels below are too deep, or when
nothing leads to them. -/
theorem flatMap_level_below_eq_nil {maxDepth depth left : ℕ}
    (hdepth : depth + left + 1 = max maxDepth 1)
    (hnone : depth + 1 < maxDepth → level readDir (depth + 1) = []) :
    (List.range' (depth + 1) left).flatMap (level readDir) = [] := by
  refine List.flatMap_eq_nil_iff.mpr fun deeper hdeeper => ?_
  rw [List.mem_range'_1] at hdeeper
  have hinner : depth + 1 < maxDepth := by omega
  exact level_eq_nil_of_le readDir (hnone hinner) hdeeper.1

/-! ## The directories up to the first failure -/

/-- Directories that can all be read come before what follows them. -/
theorem readable_append (first second : List Path) :
    readable readDir (first ++ second) =
      if firstFailure readDir first = none then first ++ readable readDir second
      else readable readDir first := by
  induction first with
  | nil => rfl
  | cons path rest ih =>
      unfold readable firstFailure at ih ⊢
      rw [List.cons_append, List.takeWhile_cons, List.takeWhile_cons, List.findSome?_cons]
      cases failure? readDir path with
      | some failure => rfl
      | none =>
          rw [ih]
          dsimp only [Option.isNone_none]
          rw [apply_ite (List.cons path)]
          rfl

theorem readable_of_none {paths : List Path} (hnone : firstFailure readDir paths = none) :
    readable readDir paths = paths := by
  have happend := readable_append readDir paths []
  rw [if_pos hnone, List.append_nil] at happend
  exact happend.trans (List.append_nil paths)

/-- More directories do not take anything away from what follows before a failure. -/
theorem length_flatMap_readable_le (first second : List Path) (next : Path → List Path) :
    ((readable readDir first).flatMap next).length ≤
      ((readable readDir (first ++ second)).flatMap next).length := by
  rw [readable_append]
  split
  · rename_i hnone
    rw [readable_of_none readDir hnone, List.flatMap_append, List.length_append]
    exact Nat.le_add_right ..
  · exact le_rfl

theorem flatMap_followed_readable_singleton (maxDepth : ℕ) (path : Path) :
    (readable readDir [path]).flatMap (followed readDir maxDepth) =
      followed readDir maxDepth path := by
  cases hread : readDir path with
  | ok listing => simp [readable, failure?, hread]
  | error failure => simp [readable, failure?, hread, followed, listingOf, subdirectories]

end

end HandleTable.Walk
