import HandleTable.Proofs.Handles.Run

/-!
# The live handles are the last used ones

Which handles are live after a run, and in which order, is determined by the
use history alone.  A handle is live as long as fewer other handles have been
used since its last use than the table has room for; the listing of the table
shows the live handles by last use; and their number is that of the minted
handles, as far as there is room.  In particular a handle that has become stale
stays stale.

The invariant is `Recency.Follows`, kept by every request (`Transition.follows`)
and hence by every run (`follows_history`).  What remains is to read the four
statements off it.
-/

namespace HandleTable.Handles

variable {σ : Type}

theorem mem_snapshot_iff {table : Handles σ} {handle : Handle} {path : Path} :
    (handle, path) ∈ table.snapshot ↔
      ∃ store, (table.resolve handle.bytes).1 = .ok ⟨store, path⟩ := by
  simp only [resolve_bytes_eq_ok_iff, Recency.peek_eq_some_iff, snapshot, List.mem_map,
    Prod.mk.injEq]
  constructor
  · rintro ⟨⟨name, store, place⟩, hentry, rfl, rfl⟩
    exact ⟨store, hentry⟩
  · rintro ⟨store, hentry⟩
    exact ⟨_, hentry, rfl, rfl⟩

theorem map_fst_snapshot (table : Handles σ) : table.snapshot.map Prod.fst = table.keys := by
  simp [snapshot, Recency.keys, Function.comp_def]

theorem stale_run {table : Handles σ} {later : List (Step σ)} {handle : Handle}
    (hstale : (table.resolve handle.bytes).1 = .error .stale) (hfresh : handle ∉ minted later) :
    ((table.run later).resolve handle.bytes).1 = .error .stale := by
  rw [resolve_bytes_eq_stale_iff] at hstale ⊢
  intro hkey
  exact (mem_keys_run hkey).elim hstale hfresh

/-- **The table is strictly ordered by last use.**  After any requests to an empty
table in which no handle is minted twice: a minted handle resolves exactly when
fewer different other handles than the capacity have been used since its last
use; the listing shows the live handles with their paths, each of them used since
the last use of all that stand before it; the number of live handles is that of
the minted ones, capped by the capacity; and a minted handle that is stale stays
stale. -/
theorem live_iff_used_lately (capacity : Capacity) {steps : List (Step σ)}
    (hfresh : (minted steps).Nodup) :
    let table := run (.empty capacity) steps
    let uses := history (.empty capacity) steps
    (∀ handle ∈ minted steps,
      (∃ target, (table.resolve handle.bytes).1 = .ok target) ↔
        (usedSince uses handle).toFinset.card < capacity.val) ∧
    ((∀ handle path, (handle, path) ∈ table.snapshot ↔
        ∃ store, (table.resolve handle.bytes).1 = .ok ⟨store, path⟩) ∧
      (table.snapshot.map Prod.fst).Pairwise fun older newer =>
        newer ∈ usedSince uses older) ∧
    table.size = min capacity.val (minted steps).length ∧
    ∀ later, (minted (steps ++ later)).Nodup → ∀ handle ∈ minted steps,
      (table.resolve handle.bytes).1 = .error .stale →
        ((run (.empty capacity) (steps ++ later)).resolve handle.bytes).1 = .error .stale := by
  intro table uses
  have hfollows : table.Follows uses := follows_history hfresh
  have hcapacity : table.capacity = capacity := capacity_run _ steps
  have hkeys : table.keys = lastUsed capacity.val uses := hcapacity ▸ hfollows
  refine ⟨?_, ⟨fun handle path => mem_snapshot_iff, ?_⟩, ?_, ?_⟩
  · intro handle hminted
    rw [← mem_lastUsed_iff (mem_history_of_mem_minted hminted), ← hkeys, Recency.mem_keys_iff]
    simp only [resolve_bytes_eq_ok_iff]
  · rw [map_fst_snapshot, hkeys]
    exact pairwise_lastUsed capacity.val uses
  · -- the handles used are the minted ones, and no two of these are the same
    have hsame : uses.toFinset = (minted steps).toFinset := by
      ext handle
      rw [List.mem_toFinset, List.mem_toFinset]
      exact mem_history_empty_iff
    rw [hfollows.size_eq, hcapacity, hsame, List.toFinset_card_of_nodup hfresh]
  · intro later hlater handle hminted hstale
    rw [run_append]
    rw [minted_append, List.nodup_append'] at hlater
    exact stale_run hstale fun hagain => hlater.2.2 hminted hagain

/-- With room for three, the second of three handles is stale once a fourth is minted,
because resolving the third one pinned the first one, a directory above it; a rename
that the stale handle is refused is no use of it. -/
theorem second_of_three_stale :
    let steps : List (Step Unit) := [.mint (.ofSeed 1) () [], .mint (.ofSeed 2) () ["x"],
      .mint (.ofSeed 3) () ["a", "f"], .resolve (Handle.ofSeed 3).bytes,
      .mint (.ofSeed 4) () ["b"], .rename (Handle.ofSeed 2).bytes "b" "c"]
    let table := run (.empty ⟨3, by decide⟩) steps
    (minted steps).Nodup ∧
      (∃ target, (table.resolve (Handle.ofSeed 1).bytes).1 = .ok target) ∧
      (¬ ∃ target, (table.resolve (Handle.ofSeed 2).bytes).1 = .ok target) ∧
      table.size = 3 := by
  intro steps table
  have hfresh : (minted steps).Nodup := by decide
  obtain ⟨hlive, -, hsize, -⟩ := live_iff_used_lately ⟨3, by decide⟩ hfresh
  refine ⟨hfresh, ?_, ?_, hsize⟩
  · exact (hlive (.ofSeed 1) (by decide)).mpr (by decide)
  · exact fun hresolves => absurd ((hlive (.ofSeed 2) (by decide)).mp hresolves) (by decide)

end HandleTable.Handles
