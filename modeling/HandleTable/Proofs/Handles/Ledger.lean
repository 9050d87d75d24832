import HandleTable.Proofs.Handles.Run
import Mathlib.Logic.Function.Basic

/-!
# A table without bound

A ledger is what the table of handles would be if it had no bound and no order:
it says for every handle what it stands for and forgets nothing.  Here a run of
the table is compared with the ledger that performs exactly the requests that
the table accepts.

`Tracks ledger table` is the relation between the two: whatever the table
answers, the ledger answers too, and an answer of the ledger can be missing in
the table only once the table is full.  Every request preserves it
(`Tracks.transition`).  The evictions need no case of their own: an eviction
removes an answer from the table and leaves the ledger alone.
-/

namespace HandleTable

variable {σ : Type}

/-- What every handle stands for, without bound and without order. -/
abbrev Ledger (σ : Type) := Handle → Option (Target σ)

namespace Ledger

/-- What presented bytes stand for. -/
def read (ledger : Ledger σ) (wire : List UInt8) : Option (Target σ) :=
  match Handle.parse wire with
  | .error _ => none
  | .ok handle => ledger handle

/-- Puts down what a handle stands for. -/
def write (ledger : Ledger σ) (handle : Handle) (target : Target σ) : Ledger σ :=
  Function.update ledger handle (some target)

/-- Moves every entry at or below `old` to `new`. -/
def move (ledger : Ledger σ) (old new : Path) : Ledger σ :=
  fun handle => (ledger handle).map fun target => target.rebase old new

/-- The ledger after a request. -/
def step (ledger : Ledger σ) : Handles.Step σ → Ledger σ
  | .mint handle store path => ledger.write handle ⟨store, path⟩
  | .resolve _ => ledger
  | .rename directory old new =>
    match ledger.read directory with
    | none => ledger
    | some parent => ledger.move (parent.path ++ [old]) (parent.path ++ [new])
  | .rebind wire store path =>
    match Handle.parse wire with
    | .error _ => ledger
    | .ok handle => ledger.write handle ⟨store, path⟩

/-- The ledger that a list of requests leaves, from the empty one on. -/
def replay (steps : List (Handles.Step σ)) : Ledger σ :=
  steps.foldl step fun _ => none

end Ledger

namespace Handles

/-- The requests of a run that the table does not refuse. -/
def accepted (table : Handles σ) : List (Step σ) → List (Step σ)
  | [] => []
  | request :: rest =>
    if table.accepts request then request :: accepted (table.step request) rest
    else accepted (table.step request) rest

/-- The table says nothing that the ledger does not say, and keeps silent about what
the ledger says only when it is full. -/
structure Tracks (ledger : Ledger σ) (table : Handles σ) : Prop where
  sound : ∀ handle target, table.peek handle = some target → ledger handle = some target
  full_of_missing : ∀ handle target, ledger handle = some target →
    table.peek handle = some target ∨ table.size = table.capacity.val

theorem tracks_empty (capacity : Capacity) :
    Tracks (fun _ => none) (.empty capacity : Handles σ) where
  sound handle target hpeek := by simp [Recency.peek] at hpeek
  full_of_missing handle target hledger := by contradiction

namespace Tracks

variable {ledger : Ledger σ} {table : Handles σ}

theorem write (htracks : Tracks ledger table) (handle : Handle) (target : Target σ) :
    Tracks (ledger.write handle target) (table.insert handle target).1 where
  sound other found hpeek := by
    by_cases hsame : other = handle
    · rw [hsame, Recency.peek_insert_self] at hpeek
      rw [hsame, Ledger.write, Function.update_self, hpeek]
    · rw [Ledger.write, Function.update_of_ne hsame]
      exact htracks.sound other found (Recency.peek_of_peek_insert hsame hpeek)
  full_of_missing other found hledger := by
    rw [Recency.capacity_insert]
    by_cases hsame : other = handle
    · rw [hsame, Ledger.write, Function.update_self] at hledger
      rw [hsame, Recency.peek_insert_self]
      exact Or.inl hledger
    · rw [Ledger.write, Function.update_of_ne hsame] at hledger
      rcases htracks.full_of_missing other found hledger with hpeek | hfull
      · -- the answer may be the one that is evicted, but then the table is full
        rw [← hpeek]
        exact table.peek_insert_eq_or_full target hsame
      · exact Or.inr (Recency.size_insert_of_full hfull handle target)

theorem get (htracks : Tracks ledger table) (handle : Handle) :
    Tracks ledger (table.get handle).2 where
  sound other found hpeek := htracks.sound other found (by rwa [Recency.peek_get] at hpeek)
  full_of_missing other found hledger := by
    rw [Recency.peek_get, Recency.capacity_get]
    refine (htracks.full_of_missing other found hledger).imp_right ?_
    exact fun hfull => Recency.size_get_of_full hfull handle

theorem touchAll (htracks : Tracks ledger table) (handles : List Handle) :
    Tracks ledger (table.touchAll handles) := by
  induction handles generalizing table with
  | nil => exact htracks
  | cons handle rest ih => exact ih (htracks.get handle)

theorem move (htracks : Tracks ledger table) (old new : Path) :
    Tracks (ledger.move old new) (table.mapValues fun entry => entry.rebase old new) where
  sound handle found hpeek := by
    rw [Recency.peek_mapValues, Option.map_eq_some_iff] at hpeek
    obtain ⟨target, hpeek, hfound⟩ := hpeek
    rw [Ledger.move, htracks.sound handle target hpeek, Option.map_some, hfound]
  full_of_missing handle found hledger := by
    rw [Ledger.move, Option.map_eq_some_iff] at hledger
    obtain ⟨target, hledger, hfound⟩ := hledger
    rcases htracks.full_of_missing handle target hledger with hpeek | hfull
    · left
      rw [Recency.peek_mapValues, hpeek, Option.map_some, hfound]
    · right
      simpa [Recency.size, Recency.mapValues] using hfull

theorem read_eq (htracks : Tracks ledger table) {wire : List UInt8} {handle : Handle}
    {target : Target σ} (hlive : table.live? wire = some (handle, target)) :
    ledger.read wire = some target := by
  obtain ⟨rfl, hpeek⟩ := live?_eq_some_iff.mp hlive
  rw [Ledger.read, Handle.parse_bytes]
  exact htracks.sound handle target hpeek

/-- One request, performed by the ledger only if the table accepts it, keeps the
ledger in step. -/
theorem transition (htracks : Tracks ledger table) {next : Handles σ} {request : Step σ}
    {accepted : Bool} {uses : List Handle}
    (htransition : Transition table request accepted uses next) :
    Tracks (if accepted then ledger.step request else ledger) next := by
  cases htransition with
  | minted handle store path => exact htracks.write handle ⟨store, path⟩
  | resolved hlive => exact htracks.touchAll _
  | renamed hlive old new =>
      -- the directory is live, so both sides read the same path for it
      simp only [if_true, Ledger.step, htracks.read_eq hlive]
      exact (htracks.get _).move _ _
  | rebound hlive store path =>
      obtain ⟨rfl, -⟩ := live?_eq_some_iff.mp hlive
      simp only [if_true, Ledger.step, Handle.parse_bytes]
      exact htracks.write _ ⟨store, path⟩
  | refused hrefused => exact htracks

/-- The ledger that performs the accepted requests of a run stays in step with the
table. -/
theorem run (htracks : Tracks ledger table) (steps : List (Step σ)) :
    Tracks ((table.accepted steps).foldl Ledger.step ledger) (table.run steps) := by
  induction steps generalizing ledger table with
  | nil => exact htracks
  | cons request rest ih =>
      have hnext := ih (htracks.transition (transition_step table request))
      cases haccepts : table.accepts request with
      | true =>
          rw [haccepts, if_pos rfl] at hnext
          rw [accepted, haccepts, if_pos rfl]
          exact hnext
      | false =>
          rw [haccepts, if_neg (by simp)] at hnext
          rw [accepted, haccepts, if_neg (by simp)]
          exact hnext

end Tracks

/-- **An eviction can only make an answer stale.**  After any requests to an empty
table, whatever a handle resolves to is what the ledger of the accepted requests
says of it; and a handle of the ledger either resolves to what the ledger says or
is stale, the latter only when the table is full. -/
theorem resolve_agrees_with_ledger (capacity : Capacity) (steps : List (Step σ)) :
    let table := run (.empty capacity) steps
    let ledger := Ledger.replay (accepted (.empty capacity) steps)
    (∀ wire target, (table.resolve wire).1 = .ok target → ledger.read wire = some target) ∧
      ∀ handle target, ledger handle = some target →
        (table.resolve handle.bytes).1 = .ok target ∨
          (table.resolve handle.bytes).1 = .error .stale ∧ table.size = capacity.val := by
  intro table ledger
  have htracks : Tracks ledger table := (tracks_empty capacity).run steps
  refine ⟨?_, ?_⟩
  · intro wire target hresolve
    obtain ⟨handle, hlive⟩ := resolve_eq_ok_iff.mp hresolve
    exact htracks.read_eq hlive
  · intro handle target hledger
    rw [resolve_bytes_eq_ok_iff, resolve_bytes_eq_stale_iff]
    by_cases hpeek : table.peek handle = some target
    · exact Or.inl hpeek
    · right
      have hfull := (htracks.full_of_missing handle target hledger).resolve_left hpeek
      refine ⟨?_, by rw [hfull, capacity_run]; rfl⟩
      -- a live handle would answer as the ledger does
      intro hkey
      obtain ⟨found, hfound⟩ := Recency.mem_keys_iff.mp hkey
      have hsame := htracks.sound handle found hfound
      rw [hledger] at hsame
      exact hpeek (hsame ▸ hfound)

/-- A rename moves a file along in both.  The fourth handle evicts the third one, which a
later rename moves in the ledger alone. -/
example :
    let steps : List (Step ℕ) := [.mint (.ofSeed 1) 0 [], .mint (.ofSeed 2) 0 ["a", "f"],
      .mint (.ofSeed 3) 0 ["x"], .rename (Handle.ofSeed 1).bytes "a" "b",
      .resolve (Handle.ofSeed 2).bytes, .mint (.ofSeed 4) 0 ["y"],
      .rename (Handle.ofSeed 1).bytes "x" "z"]
    let table := run (.empty ⟨3, by decide⟩) steps
    let ledger := Ledger.replay (accepted (.empty ⟨3, by decide⟩) steps)
    (table.resolve (Handle.ofSeed 2).bytes).1 = .ok ⟨0, ["b", "f"]⟩ ∧
      ledger (.ofSeed 2) = some ⟨0, ["b", "f"]⟩ ∧
      (table.resolve (Handle.ofSeed 3).bytes).1 = .error .stale ∧
      ledger (.ofSeed 3) = some ⟨0, ["z"]⟩ := by
  decide

end Handles

end HandleTable
