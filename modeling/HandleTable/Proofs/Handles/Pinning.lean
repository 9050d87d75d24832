import HandleTable.Proofs.Handles.Run

/-!
# How long a pinned directory lives

Resolving a handle uses the live handles of the directories above it, in the order
of the table, and the resolved handle last.  Pinning therefore protects a directory
against every handle that is not pinned with it: those are evicted first.  It does
not protect the directory against the resolved handle, which has been used after
it.  When handles are minted from then on, the resolved handle is the last of the
old ones to go, and each directory goes before it.

`pinned_directory_outlives_iff` counts this out.  `pinnedAfter` lists the handles
that one resolve uses after a directory; the resolved handle is always one of them.
As each mint uses a new handle, the directory is live as long as these and the
mints together are fewer than the table has room for, while for the resolved handle
the mints alone count.
-/

namespace HandleTable.Handles

variable {σ : Type}

/-- Whether presenting a handle leads to an object. -/
def IsLive (table : Handles σ) (handle : Handle) : Prop :=
  ∃ target, (table.resolve handle.bytes).1 = .ok target

/-- One handle stays live as long as another one while handles are minted: it is live
at every point at which the other one is. -/
def Outlives (table : Handles σ) (lasting other : Handle) (fresh : List (Handle × Target σ)) :
    Prop :=
  ∀ soon, soon <+: fresh → (table.mintAll soon).IsLive other → (table.mintAll soon).IsLive lasting

/-- The handles that resolving `handle`, which stands for `path`, uses after
`directory`. -/
def pinnedAfter (table : Handles σ) (handle : Handle) (path : Path) (directory : Handle) :
    List Handle :=
  usedSince (table.pins handle path) directory

theorem isLive_iff {table : Handles σ} {handle : Handle} :
    table.IsLive handle ↔ handle ∈ table.keys := by
  simp only [IsLive, resolve_bytes_eq_ok_iff, Recency.mem_keys_iff]

theorem mem_pins_iff {table : Handles σ} {handle other : Handle} {path : Path} :
    other ∈ table.pins handle path ↔
      other = handle ∨ ∃ above, table.peek other = some above ∧ above.path <+: path := by
  simp only [pins, List.mem_append, List.mem_map, mem_above_iff, List.mem_singleton,
    Recency.peek_eq_some_iff]
  constructor
  · rintro (⟨⟨name, above⟩, ⟨hentry, -, habove⟩, rfl⟩ | hself)
    · exact Or.inr ⟨above, hentry, habove⟩
    · exact Or.inl hself
  · rintro (hself | ⟨above, hentry, habove⟩)
    · exact Or.inr hself
    · exact (em (other = handle)).symm.imp_left fun hother =>
        ⟨(other, above), ⟨hentry, hother, habove⟩, rfl⟩

theorem nodup_pins (table : Handles σ) (handle : Handle) (path : Path) :
    (table.pins handle path).Nodup := by
  have habove : ((table.above handle path).map Prod.fst).Nodup :=
    (List.filter_sublist.map Prod.fst).nodup table.keys_nodup
  rw [pins, List.nodup_append']
  refine ⟨habove, List.nodup_singleton handle, ?_⟩
  intro other hother hself
  obtain ⟨entry, hentry, rfl⟩ := List.mem_map.mp hother
  exact (mem_above_iff.mp hentry).2.1 (List.mem_singleton.mp hself)

theorem mem_pinnedAfter {table : Handles σ} {handle directory : Handle} {path : Path}
    (hother : directory ≠ handle) : handle ∈ table.pinnedAfter handle path directory := by
  rw [pinnedAfter, usedSince, pins,
    List.rtakeWhile_concat_pos _ _ _ (by simpa using hother.symm)]
  simp

section Resolved

variable {table : Handles σ} {handle : Handle} {target : Target σ}
  (hresolve : (table.resolve handle.bytes).1 = .ok target)

include hresolve

/-- After a resolve the table follows its old order, the directories above, and the
resolved handle. -/
theorem follows_resolve :
    (table.resolve handle.bytes).2.Follows (table.keys ++ table.pins handle target.path) := by
  have hlive := live?_eq_some_iff.mpr ⟨rfl, resolve_bytes_eq_ok_iff.mp hresolve⟩
  rw [resolve_of_live hlive, pinned_eq_touchAll]
  exact follows_touchAll table.follows_keys fun other hother => mem_keys_of_mem_pins hlive hother

theorem mem_keys_of_mem_uses {other : Handle}
    (hother : other ∈ table.keys ++ table.pins handle target.path) : other ∈ table.keys := by
  have hlive := live?_eq_some_iff.mpr ⟨rfl, resolve_bytes_eq_ok_iff.mp hresolve⟩
  rcases List.mem_append.mp hother with hkey | hpinned
  · exact hkey
  · exact mem_keys_of_mem_pins hlive hpinned

/-- A handle that was live when another one was resolved is live after some mints as
long as the handles used since, by the resolve and by the mints, are fewer than
there is room for. -/
theorem isLive_mintAll_resolve_iff {other : Handle} (hother : other ∈ table.keys)
    {fresh : List (Handle × Target σ)} (hnodup : (fresh.map Prod.fst).Nodup)
    (hfresh : ∀ minted ∈ fresh.map Prod.fst, minted ∉ table.keys) :
    ((table.resolve handle.bytes).2.mintAll fresh).IsLive other ↔
      (usedSince (table.keys ++ table.pins handle target.path) other).toFinset.card +
        fresh.length < table.capacity.val := by
  have hnew : ∀ minted ∈ fresh.map Prod.fst,
      minted ∉ table.keys ++ table.pins handle target.path := by
    intro minted hminted huse
    exact hfresh minted hminted (mem_keys_of_mem_uses hresolve huse)
  have huse : other ∈ table.keys ++ table.pins handle target.path :=
    List.mem_append_left _ hother
  have hfollows := follows_mintAll (follows_resolve hresolve) hnodup hnew
  rw [isLive_iff, hfollows.held_iff (List.mem_append_left _ huse),
    card_usedSince_append huse hnodup hnew, capacity_mintAll, capacity_resolve,
    List.length_map]

/-- A directory above the resolved handle is live after some mints as long as these
and the handles pinned after it are fewer than there is room for. -/
theorem isLive_directory_iff {directory : Handle}
    (hpinned : directory ∈ table.pins handle target.path)
    {fresh : List (Handle × Target σ)} (hnodup : (fresh.map Prod.fst).Nodup)
    (hfresh : ∀ minted ∈ fresh.map Prod.fst, minted ∉ table.keys) :
    ((table.resolve handle.bytes).2.mintAll fresh).IsLive directory ↔
      (table.pinnedAfter handle target.path directory).length + fresh.length <
        table.capacity.val := by
  have hkey : directory ∈ table.keys :=
    mem_keys_of_mem_uses hresolve (List.mem_append_right _ hpinned)
  have hafter : (table.pinnedAfter handle target.path directory).Nodup :=
    (table.nodup_pins handle target.path).sublist (usedSince_suffix _ _).sublist
  rw [isLive_mintAll_resolve_iff hresolve hkey hnodup hfresh, usedSince_append_of_mem _ hpinned,
    ← pinnedAfter, List.toFinset_card_of_nodup hafter]

theorem isLive_resolved_iff {fresh : List (Handle × Target σ)}
    (hnodup : (fresh.map Prod.fst).Nodup)
    (hfresh : ∀ minted ∈ fresh.map Prod.fst, minted ∉ table.keys) :
    ((table.resolve handle.bytes).2.mintAll fresh).IsLive handle ↔
      fresh.length < table.capacity.val := by
  have hlast : table.pinnedAfter handle target.path handle = [] := by
    rw [pinnedAfter, usedSince, pins, List.rtakeWhile_concat_neg _ _ _ (by simp)]
  have hcount := isLive_directory_iff hresolve
    (mem_pins_iff.mpr (Or.inl rfl)) hnodup hfresh
  rwa [hlast, List.length_nil, Nat.zero_add] at hcount

/-- As long as a handle is live that the resolve did not pin, so is every directory that
it did pin: the whole resolve came after the last use of that handle. -/
theorem isLive_directory_of_isLive_unpinned {directory unpinned : Handle}
    (hpinned : directory ∈ table.pins handle target.path)
    (hkey : unpinned ∈ table.keys)
    (hunpinned : unpinned ∉ table.pins handle target.path)
    {fresh : List (Handle × Target σ)} (hnodup : (fresh.map Prod.fst).Nodup)
    (hfresh : ∀ minted ∈ fresh.map Prod.fst, minted ∉ table.keys)
    (hlive : ((table.resolve handle.bytes).2.mintAll fresh).IsLive unpinned) :
    ((table.resolve handle.bytes).2.mintAll fresh).IsLive directory := by
  have hdirectory : directory ∈ table.keys :=
    mem_keys_of_mem_uses hresolve (List.mem_append_right _ hpinned)
  rw [isLive_mintAll_resolve_iff hresolve hkey hnodup hfresh,
    usedSince_append_of_not_mem _ hunpinned] at hlive
  rw [isLive_mintAll_resolve_iff hresolve hdirectory hnodup hfresh,
    usedSince_append_of_mem _ hpinned]
  have hsubset : (usedSince (table.pins handle target.path) directory).toFinset ⊆
      (usedSince table.keys unpinned ++
        table.pins handle target.path).toFinset := by
    intro other hsince
    rw [List.mem_toFinset] at hsince ⊢
    exact List.mem_append_right _ ((usedSince_suffix _ _).subset hsince)
  have := Finset.card_le_card hsubset
  omega

end Resolved

theorem freshness_of_prefix {table : Handles σ} {soon fresh : List (Handle × Target σ)}
    (hsoon : soon <+: fresh) (hnodup : (fresh.map Prod.fst).Nodup)
    (hfresh : ∀ minted ∈ fresh.map Prod.fst, minted ∉ table.keys) :
    (soon.map Prod.fst).Nodup ∧ ∀ minted ∈ soon.map Prod.fst, minted ∉ table.keys := by
  have hsublist : (soon.map Prod.fst).Sublist (fresh.map Prod.fst) := hsoon.sublist.map _
  exact ⟨hnodup.sublist hsublist, fun minted hminted => hfresh minted (hsublist.subset hminted)⟩

/-- **How long a pinned directory lives.**  After a handle has been resolved, take any
other live handle whose path is above it, and mint new handles.  The directory is
live as long as the mints and the handles pinned after it, one of which is the
resolved handle, are fewer than there is room for; for the resolved handle the
mints alone count.  So the directory stays live as long as the resolved handle
exactly when there are that few mints; but it always stays live as long as any
handle that the resolve did not pin. -/
theorem pinned_directory_outlives_iff {table : Handles σ} {handle directory : Handle}
    {target above : Target σ} (hhandle : (table.resolve handle.bytes).1 = .ok target)
    (hdirectory : (table.resolve directory.bytes).1 = .ok above) (hother : directory ≠ handle)
    (habove : above.path <+: target.path) {fresh : List (Handle × Target σ)}
    (hnodup : (fresh.map Prod.fst).Nodup)
    (hfresh : ∀ minted ∈ fresh.map Prod.fst, minted ∉ table.keys) :
    let pinned := (table.resolve handle.bytes).2
    let behind := table.pinnedAfter handle target.path directory
    handle ∈ behind ∧
    ((pinned.mintAll fresh).IsLive directory ↔
      behind.length + fresh.length < table.capacity.val) ∧
    ((pinned.mintAll fresh).IsLive handle ↔ fresh.length < table.capacity.val) ∧
    (pinned.Outlives directory handle fresh ↔
      behind.length + fresh.length < table.capacity.val) ∧
    ∀ unpinned, table.IsLive unpinned →
      unpinned ∉ table.pins handle target.path →
        pinned.Outlives directory unpinned fresh := by
  intro pinned behind
  have hpinned : directory ∈ table.pins handle target.path :=
    mem_pins_iff.mpr (Or.inr ⟨above, resolve_bytes_eq_ok_iff.mp hdirectory, habove⟩)
  have hbehind : handle ∈ behind := mem_pinnedAfter hother
  have hpositive : 0 < behind.length := List.length_pos_of_mem hbehind
  refine ⟨hbehind, isLive_directory_iff hhandle hpinned hnodup hfresh,
    isLive_resolved_iff hhandle hnodup hfresh, ⟨?_, ?_⟩, ?_⟩
  · intro houtlives
    by_contra hmany
    -- as soon as there is no room for the directory, there still is for the handle
    let soon := fresh.take (table.capacity.val - behind.length)
    have hsoon : soon <+: fresh := List.take_prefix _ _
    have hlength : soon.length = table.capacity.val - behind.length := by
      rw [List.length_take]
      omega
    have hcapacity := table.capacity.pos
    obtain ⟨hnodup', hfresh'⟩ := freshness_of_prefix hsoon hnodup hfresh
    have hlive := houtlives soon hsoon
      ((isLive_resolved_iff hhandle hnodup' hfresh').mpr (by omega))
    have hfew := (isLive_directory_iff hhandle hpinned hnodup' hfresh').mp hlive
    change behind.length + soon.length < table.capacity.val at hfew
    omega
  · intro hfew soon hsoon _
    obtain ⟨hnodup', hfresh'⟩ := freshness_of_prefix hsoon hnodup hfresh
    rw [isLive_directory_iff hhandle hpinned hnodup' hfresh']
    exact (Nat.add_le_add_left hsoon.length_le behind.length).trans_lt hfew
  · intro unpinned hlive hunpinned soon hsoon hunpinnedLive
    obtain ⟨hnodup', hfresh'⟩ := freshness_of_prefix hsoon hnodup hfresh
    exact isLive_directory_of_isLive_unpinned hhandle hpinned (isLive_iff.mp hlive) hunpinned
      hnodup' hfresh' hunpinnedLive

/-- With room for three, a directory that was pinned after its parent outlives one mint,
but with the second one it goes before the handle below it. -/
theorem directory_goes_with_second_mint :
    let table := run (.empty ⟨3, by decide⟩)
      [.mint (.ofSeed 1) 0 [], .mint (.ofSeed 2) 0 ["a"], .mint (.ofSeed 3) 0 ["a", "f"]]
    let pinned := (table.resolve (Handle.ofSeed 3).bytes).2
    let fresh : List (Handle × Target ℕ) := [(.ofSeed 4, ⟨0, ["x"]⟩), (.ofSeed 5, ⟨1, []⟩)]
    pinned.Outlives (.ofSeed 2) (.ofSeed 3) (fresh.take 1) ∧
      ¬ pinned.Outlives (.ofSeed 2) (.ofSeed 3) fresh ∧
      (pinned.mintAll fresh).IsLive (.ofSeed 3) := by
  intro table pinned fresh
  have hhandle : (table.resolve (Handle.ofSeed 3).bytes).1 = .ok ⟨0, ["a", "f"]⟩ := by decide
  have hdirectory : (table.resolve (Handle.ofSeed 2).bytes).1 = .ok ⟨0, ["a"]⟩ := by decide
  have hfirst : ((fresh.take 1).map Prod.fst).Nodup := by decide
  have hboth : (fresh.map Prod.fst).Nodup := by decide
  have hone := pinned_directory_outlives_iff hhandle hdirectory (by decide) (by decide) hfirst
    (by decide)
  have htwo := pinned_directory_outlives_iff hhandle hdirectory (by decide) (by decide) hboth
    (by decide)
  refine ⟨hone.2.2.2.1.mpr (by decide), ?_, htwo.2.2.1.mpr (by decide)⟩
  exact fun houtlives => absurd (htwo.2.2.2.1.mp houtlives) (by decide)

/-- A pinned directory may become stale while the resolved handle is still live. -/
theorem not_pinned_directory_outlives :
    ¬ ∀ (capacity : Capacity) (steps : List (Step ℕ)) (handle directory : Handle)
      (target above : Target ℕ),
      ((run (.empty capacity) steps).resolve handle.bytes).1 = .ok target →
      ((run (.empty capacity) steps).resolve directory.bytes).1 = .ok above →
      directory ≠ handle → above.store = target.store → above.path <+: target.path →
      above.path ≠ target.path →
      ∀ fresh : List (Handle × Target ℕ), (minted steps ++ fresh.map Prod.fst).Nodup →
        ((run (.empty capacity) steps).resolve handle.bytes).2.Outlives directory handle fresh := by
  intro houtlives
  have hlive := houtlives ⟨2, by decide⟩
    [.mint (.ofSeed 1) 0 ["a"], .mint (.ofSeed 2) 0 ["a", "f"]] (.ofSeed 2) (.ofSeed 1)
    ⟨0, ["a", "f"]⟩ ⟨0, ["a"]⟩ (by decide) (by decide) (by decide) rfl (by decide) (by decide)
    [(.ofSeed 3, ⟨0, ["x"]⟩)] (by decide) _ List.prefix_rfl ⟨⟨0, ["a", "f"]⟩, by decide⟩
  rw [isLive_iff] at hlive
  exact absurd hlive (by decide)

end HandleTable.Handles
