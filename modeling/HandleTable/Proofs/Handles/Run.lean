import HandleTable.Handles
import HandleTable.Proofs.Recency.Order

/-!
# Runs of the handle table

A run is a list of requests, answered one after another.  Everything that the
theory says about single requests is derived from one question: which live
handle, if any, do the presented bytes name?  `live?` answers it, and the lemmas
`resolve_of_live`, `rename_of_live` and `rebind_of_live` say what the table does
when there is one.  When there is none, the request is refused and the table
stays as it is.

Two lists are read off a run.  `minted` lists the handles that were put into the
table; they come from outside, and the run decides nothing about them.
`history` lists every single use: a handle is used when it is minted, when it is
resolved, as a live ancestor of what is resolved (before it, in the order of the
table: `pins`), when it is rebound, and as the directory of a rename.  A refused
request uses nothing.

A step uses only handles that are live or that it mints (`mem_used`), and the
table follows its history as long as no handle is minted twice
(`follows_history`).
-/

namespace HandleTable

variable {σ : Type}

/-- What a target becomes when the object at `old` is moved to `new`. -/
def Target.rebase (target : Target σ) (old new : Path) : Target σ :=
  { target with path := target.path.rebase old new }

namespace Handles

/-! ## The live handle that is presented -/

/-- The live handle that bytes name, with its target. -/
def live? (table : Handles σ) (wire : List UInt8) : Option (Handle × Target σ) :=
  match Handle.parse wire with
  | .error _ => none
  | .ok handle => (table.peek handle).map fun target => (handle, target)

theorem live?_eq_some_iff {table : Handles σ} {wire : List UInt8} {handle : Handle}
    {target : Target σ} :
    table.live? wire = some (handle, target) ↔
      wire = handle.bytes ∧ table.peek handle = some target := by
  unfold live?
  constructor
  · intro hlive
    cases hparse : Handle.parse wire with
    | error refusal => simp [hparse] at hlive
    | ok found =>
        simp only [hparse, Option.map_eq_some_iff, Prod.mk.injEq] at hlive
        obtain ⟨content, hpeek, hfound, hcontent⟩ := hlive
        rw [← hfound, ← hcontent]
        exact ⟨Handle.parse_eq_ok_iff.mp hparse, hpeek⟩
  · rintro ⟨rfl, hpeek⟩
    simp [hpeek]

theorem live?_bytes_eq_none_iff {table : Handles σ} {handle : Handle} :
    table.live? handle.bytes = none ↔ handle ∉ table.keys := by
  simp [live?, Recency.peek_eq_none_iff]

theorem mem_keys_of_live {table : Handles σ} {wire : List UInt8} {handle : Handle}
    {target : Target σ} (hlive : table.live? wire = some (handle, target)) :
    handle ∈ table.keys :=
  Recency.mem_keys_iff.mpr ⟨target, (live?_eq_some_iff.mp hlive).2⟩

section Live

variable {table : Handles σ} {wire : List UInt8} {handle : Handle} {target : Target σ}

theorem resolve_of_live (hlive : table.live? wire = some (handle, target)) :
    table.resolve wire = (.ok target, table.pinned handle target.path) := by
  obtain ⟨rfl, hpeek⟩ := live?_eq_some_iff.mp hlive
  simp [resolve, hpeek]

theorem rename_of_live (hlive : table.live? wire = some (handle, target)) (old new : String) :
    table.rename wire old new =
      (.ok (), (table.get handle).2.mapValues fun entry =>
        entry.rebase (target.path ++ [old]) (target.path ++ [new])) := by
  obtain ⟨rfl, hpeek⟩ := live?_eq_some_iff.mp hlive
  simp [rename, Recency.get, hpeek, Target.rebase]

theorem rebind_of_live (hlive : table.live? wire = some (handle, target)) (store : σ)
    (path : Path) :
    table.rebind wire store path = (.ok (), (table.insert handle ⟨store, path⟩).1) := by
  obtain ⟨rfl, hpeek⟩ := live?_eq_some_iff.mp hlive
  simp [rebind, Recency.contains, hpeek]

theorem resolve_of_not_live (hlive : table.live? wire = none) :
    table.resolve wire = (.error .stale, table) := by
  unfold live? at hlive
  unfold resolve
  cases hparse : Handle.parse wire with
  | error refusal => rfl
  | ok found => simp_all

theorem rename_of_not_live (hlive : table.live? wire = none) (old new : String) :
    table.rename wire old new = (.error .stale, table) := by
  unfold live? at hlive
  unfold rename
  cases hparse : Handle.parse wire with
  | error refusal => rfl
  | ok found => simp_all [Recency.get]

theorem rebind_of_not_live (hlive : table.live? wire = none) (store : σ) (path : Path) :
    table.rebind wire store path = (.error .stale, table) := by
  unfold live? at hlive
  unfold rebind
  cases hparse : Handle.parse wire with
  | error refusal => rfl
  | ok found => simp_all [Recency.contains]

end Live

/-- Bytes resolve exactly when they name a live handle, and then to its target. -/
theorem resolve_eq_ok_iff {table : Handles σ} {wire : List UInt8} {target : Target σ} :
    (table.resolve wire).1 = .ok target ↔ ∃ handle, table.live? wire = some (handle, target) := by
  cases hlive : table.live? wire with
  | none => simp [resolve_of_not_live hlive]
  | some found => simp [resolve_of_live hlive, Prod.ext_iff]

theorem resolve_bytes_eq_ok_iff {table : Handles σ} {handle : Handle} {target : Target σ} :
    (table.resolve handle.bytes).1 = .ok target ↔ table.peek handle = some target := by
  rw [resolve_eq_ok_iff]
  constructor
  · rintro ⟨found, hlive⟩
    obtain ⟨hbytes, hpeek⟩ := live?_eq_some_iff.mp hlive
    rwa [Handle.bytes_injective hbytes]
  · intro hpeek
    exact ⟨handle, live?_eq_some_iff.mpr ⟨rfl, hpeek⟩⟩

theorem resolve_bytes_eq_stale_iff {table : Handles σ} {handle : Handle} :
    (table.resolve handle.bytes).1 = .error .stale ↔ handle ∉ table.keys := by
  rw [← live?_bytes_eq_none_iff]
  cases hlive : table.live? handle.bytes with
  | none => simp [resolve_of_not_live hlive]
  | some found => simp [resolve_of_live hlive]

/-! ## Using several handles -/

/-- The entries of the other handles whose paths are `path` or lead to it, in the order
of the table. -/
def above (table : Handles σ) (handle : Handle) (path : Path) : List (Handle × Target σ) :=
  table.entries.filter fun entry => entry.1 ≠ handle ∧ entry.2.path <+: path

/-- The handles that resolving `handle`, which stands for `path`, uses: those above it,
and then the handle itself. -/
def pins (table : Handles σ) (handle : Handle) (path : Path) : List Handle :=
  (table.above handle path).map Prod.fst ++ [handle]

theorem mem_above_iff {table : Handles σ} {handle : Handle} {path : Path}
    {entry : Handle × Target σ} :
    entry ∈ table.above handle path ↔
      entry ∈ table.entries ∧ entry.1 ≠ handle ∧ entry.2.path <+: path := by
  rw [above, List.mem_filter, decide_eq_true_iff]

theorem ancestors_eq_map_above (table : Handles σ) (handle : Handle) (path : Path) :
    table.ancestors handle path = (table.above handle path).map Prod.fst := by
  unfold ancestors above
  congr 1
  apply List.filter_congr
  intro entry _
  rw [Bool.decide_and]
  congr 1
  rw [Bool.eq_iff_iff, decide_eq_true_iff, Path.isAncestor_iff]

theorem pinned_eq_touchAll (table : Handles σ) (handle : Handle) (path : Path) :
    table.pinned handle path = table.touchAll (table.pins handle path) := by
  simp [pinned, pins, touchAll, ancestors_eq_map_above]

theorem touchAll_cons (table : Handles σ) (handle : Handle) (rest : List Handle) :
    table.touchAll (handle :: rest) = touchAll (table.get handle).2 rest := rfl

theorem mem_keys_of_mem_pins {table : Handles σ} {wire : List UInt8} {handle other : Handle}
    {target : Target σ} (hlive : table.live? wire = some (handle, target))
    (hother : other ∈ table.pins handle target.path) : other ∈ table.keys := by
  rcases List.mem_append.mp hother with habove | hself
  · exact (List.filter_sublist.map Prod.fst).subset habove
  · rw [List.mem_singleton.mp hself]
    exact mem_keys_of_live hlive

@[simp] theorem peek_touchAll (table : Handles σ) (handles : List Handle) (other : Handle) :
    (table.touchAll handles).peek other = table.peek other := by
  induction handles generalizing table with
  | nil => rfl
  | cons handle rest ih => rw [touchAll_cons, ih, Recency.peek_get]

@[simp] theorem capacity_touchAll (table : Handles σ) (handles : List Handle) :
    (table.touchAll handles).capacity = table.capacity := by
  induction handles generalizing table with
  | nil => rfl
  | cons handle rest ih => rw [touchAll_cons, ih, Recency.capacity_get]

@[simp] theorem peek_resolve (table : Handles σ) (wire : List UInt8) (other : Handle) :
    (table.resolve wire).2.peek other = table.peek other := by
  cases hlive : table.live? wire with
  | none => rw [resolve_of_not_live hlive]
  | some found => rw [resolve_of_live hlive, pinned_eq_touchAll, peek_touchAll]

@[simp] theorem capacity_resolve (table : Handles σ) (wire : List UInt8) :
    (table.resolve wire).2.capacity = table.capacity := by
  cases hlive : table.live? wire with
  | none => rw [resolve_of_not_live hlive]
  | some found => rw [resolve_of_live hlive, pinned_eq_touchAll, capacity_touchAll]

theorem follows_touchAll {table : Handles σ} {uses handles : List Handle}
    (hfollows : table.Follows uses) (hlive : ∀ handle ∈ handles, handle ∈ table.keys) :
    (table.touchAll handles).Follows (uses ++ handles) := by
  induction handles generalizing table uses with
  | nil => simpa [touchAll] using hfollows
  | cons handle rest ih =>
      have hhead := hfollows.get (hlive handle (List.mem_cons_self ..))
      have hrest : ∀ other ∈ rest, other ∈ (table.get handle).2.keys := by
        intro other hother
        rw [Recency.mem_keys_get_iff]
        exact hlive other (List.mem_cons_of_mem _ hother)
      rw [touchAll_cons, List.append_cons]
      exact ih hhead hrest

/-! ## Minting several handles -/

/-- Mints handles for objects, one after another. -/
def mintAll (table : Handles σ) (fresh : List (Handle × Target σ)) : Handles σ :=
  fresh.foldl (fun current object => current.mint object.1 object.2.store object.2.path) table

theorem mintAll_cons (table : Handles σ) (handle : Handle) (target : Target σ)
    (rest : List (Handle × Target σ)) :
    table.mintAll ((handle, target) :: rest) = mintAll (table.insert handle target).1 rest := rfl

@[simp] theorem capacity_mintAll (table : Handles σ) (fresh : List (Handle × Target σ)) :
    (table.mintAll fresh).capacity = table.capacity := by
  induction fresh generalizing table with
  | nil => rfl
  | cons object rest ih => rw [mintAll_cons, ih, Recency.capacity_insert]

/-- Handles that were never used before are what the history shows once they are
minted. -/
theorem follows_mintAll {table : Handles σ} {uses : List Handle}
    {fresh : List (Handle × Target σ)} (hfollows : table.Follows uses)
    (hnodup : (fresh.map Prod.fst).Nodup) (hfresh : ∀ handle ∈ fresh.map Prod.fst, handle ∉ uses) :
    (table.mintAll fresh).Follows (uses ++ fresh.map Prod.fst) := by
  induction fresh generalizing table uses with
  | nil => simpa [mintAll] using hfollows
  | cons object rest ih =>
      obtain ⟨handle, target⟩ := object
      rw [List.map_cons, List.nodup_cons] at hnodup
      have hhead := hfollows.insert target (Or.inr (hfresh handle (List.mem_cons_self ..)))
      have hrest : ∀ other ∈ rest.map Prod.fst, other ∉ uses ++ [handle] := by
        intro other hother huse
        rcases List.mem_append.mp huse with hearlier | hlast
        · exact hfresh other (List.mem_cons_of_mem _ hother) hearlier
        · exact hnodup.1 (List.mem_singleton.mp hlast ▸ hother)
      rw [mintAll_cons, List.map_cons, List.append_cons]
      exact ih hhead hnodup.2 hrest

/-! ## Steps and runs -/

/-- One request to the table.  The handle that is minted comes from outside. -/
inductive Step (σ : Type) where
  | mint (handle : Handle) (store : σ) (path : Path)
  | resolve (wire : List UInt8)
  | rename (directory : List UInt8) (old new : String)
  | rebind (wire : List UInt8) (store : σ) (path : Path)
deriving DecidableEq

/-- The table after a request. -/
def step (table : Handles σ) : Step σ → Handles σ
  | .mint handle store path => table.mint handle store path
  | .resolve wire => (table.resolve wire).2
  | .rename directory old new => (table.rename directory old new).2
  | .rebind wire store path => (table.rebind wire store path).2

/-- Whether the table answers a request otherwise than by refusing it. -/
def accepts (table : Handles σ) : Step σ → Bool
  | .mint _ _ _ => true
  | .resolve wire => (table.resolve wire).1.isOk
  | .rename directory old new => (table.rename directory old new).1.isOk
  | .rebind wire store path => (table.rebind wire store path).1.isOk

/-- The table after a list of requests. -/
def run (table : Handles σ) (steps : List (Step σ)) : Handles σ :=
  steps.foldl step table

/-- The handle that a request puts into the table. -/
def Step.minted? : Step σ → Option Handle
  | .mint handle _ _ => some handle
  | _ => none

/-- The handles put into the table, in order. -/
def minted (steps : List (Step σ)) : List Handle :=
  steps.filterMap Step.minted?

/-- The uses that a request makes, in order; a refused one makes none. -/
def used (table : Handles σ) : Step σ → List Handle
  | .mint handle _ _ => [handle]
  | .resolve wire =>
    match table.live? wire with
    | none => []
    | some (handle, target) => table.pins handle target.path
  | .rename wire _ _ => ((table.live? wire).map Prod.fst).toList
  | .rebind wire _ _ => ((table.live? wire).map Prod.fst).toList

/-- All uses of a run, in order. -/
def history (table : Handles σ) : List (Step σ) → List Handle
  | [] => []
  | request :: rest => table.used request ++ history (table.step request) rest

@[simp] theorem run_append (table : Handles σ) (first second : List (Step σ)) :
    table.run (first ++ second) = (table.run first).run second := by
  simp [run]

@[simp] theorem minted_append (first second : List (Step σ)) :
    minted (first ++ second) = minted first ++ minted second := by
  simp [minted]

theorem history_append (table : Handles σ) (first second : List (Step σ)) :
    table.history (first ++ second) = table.history first ++ (table.run first).history second := by
  induction first generalizing table with
  | nil => rfl
  | cons request rest ih =>
      rw [List.cons_append, history, history, ih, List.append_assoc]
      rfl

/-! ## What a request can do -/

/-- Everything that a request can do to a table: whether it is accepted, which uses it
makes, and the table that it leaves. -/
inductive Transition (table : Handles σ) : Step σ → Bool → List Handle → Handles σ → Prop where
  | minted (handle : Handle) (store : σ) (path : Path) :
      Transition table (.mint handle store path) true [handle]
        (table.insert handle ⟨store, path⟩).1
  | resolved {wire : List UInt8} {handle : Handle} {target : Target σ}
      (hlive : table.live? wire = some (handle, target)) :
      Transition table (.resolve wire) true (table.pins handle target.path)
        (table.touchAll (table.pins handle target.path))
  | renamed {wire : List UInt8} {handle : Handle} {target : Target σ}
      (hlive : table.live? wire = some (handle, target)) (old new : String) :
      Transition table (.rename wire old new) true [handle]
        ((table.get handle).2.mapValues fun entry =>
          entry.rebase (target.path ++ [old]) (target.path ++ [new]))
  | rebound {wire : List UInt8} {handle : Handle} {target : Target σ}
      (hlive : table.live? wire = some (handle, target)) (store : σ) (path : Path) :
      Transition table (.rebind wire store path) true [handle]
        (table.insert handle ⟨store, path⟩).1
  | refused {request : Step σ} (hrefused : request.minted? = none) :
      Transition table request false [] table

theorem transition_step (table : Handles σ) (request : Step σ) :
    Transition table request (table.accepts request) (table.used request)
      (table.step request) := by
  cases request with
  | mint handle store path => exact .minted handle store path
  | resolve wire =>
      cases hlive : table.live? wire with
      | none =>
          simp only [accepts, used, step, resolve_of_not_live hlive, hlive]
          exact .refused rfl
      | some found =>
          obtain ⟨handle, target⟩ := found
          simp only [accepts, used, step, resolve_of_live hlive, hlive, pinned_eq_touchAll]
          exact .resolved hlive
  | rename wire old new =>
      cases hlive : table.live? wire with
      | none =>
          simp only [accepts, used, step, rename_of_not_live hlive, hlive]
          exact .refused rfl
      | some found =>
          obtain ⟨handle, target⟩ := found
          simp only [accepts, used, step, rename_of_live hlive, hlive]
          exact .renamed hlive old new
  | rebind wire store path =>
      cases hlive : table.live? wire with
      | none =>
          simp only [accepts, used, step, rebind_of_not_live hlive, hlive]
          exact .refused rfl
      | some found =>
          obtain ⟨handle, target⟩ := found
          simp only [accepts, used, step, rebind_of_live hlive, hlive]
          exact .rebound hlive store path

namespace Transition

variable {table next : Handles σ} {request : Step σ} {accepted : Bool} {uses : List Handle}

theorem capacity_eq (htransition : Transition table request accepted uses next) :
    next.capacity = table.capacity := by
  cases htransition with
  | minted handle store path => simp
  | resolved hlive => simp
  | renamed hlive old new => simp [Recency.mapValues]
  | rebound hlive store path => simp
  | refused hrefused => rfl

theorem mem_uses (htransition : Transition table request accepted uses next) {handle : Handle}
    (huse : handle ∈ uses) : handle ∈ table.keys ∨ request.minted? = some handle := by
  cases htransition with
  | minted minted store path => exact Or.inr (by simp_all [Step.minted?])
  | resolved hlive => exact Or.inl (mem_keys_of_mem_pins hlive huse)
  | renamed hlive old new => exact Or.inl (List.mem_singleton.mp huse ▸ mem_keys_of_live hlive)
  | rebound hlive store path => exact Or.inl (List.mem_singleton.mp huse ▸ mem_keys_of_live hlive)
  | refused hrefused => contradiction

theorem mem_keys (htransition : Transition table request accepted uses next) {handle : Handle}
    (hkey : handle ∈ next.keys) : handle ∈ table.keys ∨ request.minted? = some handle := by
  cases htransition with
  | minted minted store path =>
      refine (Recency.mem_keys_of_mem_keys_insert hkey).imp_right ?_
      rintro rfl
      rfl
  | resolved hlive =>
      rw [Recency.mem_keys_iff] at hkey
      simp only [peek_touchAll, ← Recency.mem_keys_iff] at hkey
      exact Or.inl hkey
  | renamed hlive old new =>
      rw [Recency.keys_mapValues, Recency.mem_keys_get_iff] at hkey
      exact Or.inl hkey
  | rebound hlive store path =>
      -- what is written was live already
      refine Or.inl ((Recency.mem_keys_of_mem_keys_insert hkey).elim id ?_)
      rintro rfl
      exact mem_keys_of_live hlive
  | refused hrefused => exact Or.inl hkey

theorem mem_uses_of_minted (htransition : Transition table request accepted uses next)
    {handle : Handle} (hminted : request.minted? = some handle) : handle ∈ uses := by
  cases htransition with
  | minted minted store path => simp_all [Step.minted?]
  | resolved hlive => contradiction
  | renamed hlive old new => contradiction
  | rebound hlive store path => contradiction
  | refused hrefused => simp_all

/-- A table that follows its history still does so after a request, provided that a
handle that is minted was never used before. -/
theorem follows (htransition : Transition table request accepted uses next)
    {earlier : List Handle} (hfollows : table.Follows earlier)
    (hfresh : ∀ handle, request.minted? = some handle → handle ∉ earlier) :
    next.Follows (earlier ++ uses) := by
  cases htransition with
  | minted handle store path => exact hfollows.insert _ (Or.inr (hfresh handle rfl))
  | resolved hlive =>
      exact follows_touchAll hfollows fun other hother => mem_keys_of_mem_pins hlive hother
  | renamed hlive old new => exact (hfollows.get (mem_keys_of_live hlive)).mapValues _
  | rebound hlive store path => exact hfollows.insert _ (Or.inl (mem_keys_of_live hlive))
  | refused hrefused => rwa [List.append_nil]

end Transition

/-! ## What a run keeps -/

theorem mem_minted_cons {request : Step σ} {rest : List (Step σ)} {handle : Handle} :
    handle ∈ minted (request :: rest) ↔ request.minted? = some handle ∨ handle ∈ minted rest := by
  simp [minted, List.mem_filterMap]

theorem mem_keys_run {table : Handles σ} {steps : List (Step σ)} {handle : Handle}
    (hkey : handle ∈ (table.run steps).keys) : handle ∈ table.keys ∨ handle ∈ minted steps := by
  induction steps generalizing table with
  | nil => exact Or.inl hkey
  | cons request rest ih =>
      rw [mem_minted_cons]
      have hmiddle : handle ∈ (table.step request).keys ∨ handle ∈ minted rest := ih hkey
      rcases hmiddle with hstep | hrest
      · exact ((transition_step table request).mem_keys hstep).imp_right Or.inl
      · exact Or.inr (Or.inr hrest)

theorem mem_history {table : Handles σ} {steps : List (Step σ)} {handle : Handle}
    (huse : handle ∈ table.history steps) : handle ∈ table.keys ∨ handle ∈ minted steps := by
  induction steps generalizing table with
  | nil => simp [history] at huse
  | cons request rest ih =>
      rw [mem_minted_cons]
      rcases List.mem_append.mp huse with hnow | hlater
      · exact ((transition_step table request).mem_uses hnow).imp_right Or.inl
      · rcases ih hlater with hstep | hrest
        · exact ((transition_step table request).mem_keys hstep).imp_right Or.inl
        · exact Or.inr (Or.inr hrest)

theorem mem_history_of_mem_minted {table : Handles σ} {steps : List (Step σ)} {handle : Handle}
    (hminted : handle ∈ minted steps) : handle ∈ table.history steps := by
  induction steps generalizing table with
  | nil => simp [minted] at hminted
  | cons request rest ih =>
      rcases mem_minted_cons.mp hminted with hnow | hlater
      · exact List.mem_append_left _ ((transition_step table request).mem_uses_of_minted hnow)
      · exact List.mem_append_right _ (ih hlater)

/-- From an empty table on, exactly the minted handles are ever used. -/
theorem mem_history_empty_iff {capacity : Capacity} {steps : List (Step σ)} {handle : Handle} :
    handle ∈ history (.empty capacity) steps ↔ handle ∈ minted steps := by
  refine ⟨fun huse => ?_, mem_history_of_mem_minted⟩
  rcases mem_history huse with hkey | hminted
  · simp [Recency.keys] at hkey
  · exact hminted

@[simp] theorem capacity_run (table : Handles σ) (steps : List (Step σ)) :
    (table.run steps).capacity = table.capacity := by
  induction steps generalizing table with
  | nil => rfl
  | cons request rest ih =>
      exact (ih (table.step request)).trans (transition_step table request).capacity_eq

/-- As long as no handle is minted twice, the table holds the last used handles of
its history. -/
theorem follows_history {capacity : Capacity} {steps : List (Step σ)}
    (hfresh : (minted steps).Nodup) :
    (run (.empty capacity) steps).Follows (history (.empty capacity) steps) := by
  induction steps using List.reverseRecOn with
  | nil => exact Recency.follows_empty capacity
  | append_singleton steps request ih =>
      rw [minted_append, List.nodup_append'] at hfresh
      obtain ⟨hsteps, _, hdisjoint⟩ := hfresh
      rw [run_append, history_append, history, history, List.append_nil]
      refine (transition_step _ request).follows (ih hsteps) ?_
      -- a handle minted now is not among those minted, hence used, before
      intro handle hminted huse
      rw [mem_history_empty_iff] at huse
      exact hdisjoint huse (mem_minted_cons.mpr (Or.inl hminted))

end Handles

end HandleTable
