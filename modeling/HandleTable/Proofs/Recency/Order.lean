import HandleTable.Recency
import HandleTable.Proofs.Recency.UseHistory

/-!
# The order of a bounded map and its use history

`Recency.lean` says what every operation does to the entries.  Here the entries
are read in two ways: as the answers that the keys give (`peek`), and as the
order in which the keys stand (`keys`).

* For the answers, `peek_of_peek_insert` says that an insertion makes no other
  key answer that did not answer so before; whatever is evicted answers nothing.
* For the order, `keys_insert` says that an insertion moves its key to the end
  and keeps as many keys as there is room for.

`Follows table uses` ties the order to the history: the keys of the table are
the last used ones of `uses`.  Every use preserves it, provided that the key is
held or was never used before.  An evicted key must not come back by a use that
the history does not show, and this is what the proviso excludes.
-/

namespace HandleTable.Recency

variable {κ ν : Type} [DecidableEq κ]

/-! ## Answers -/

theorem peek_eq_some_iff {table : Recency κ ν} {key : κ} {value : ν} :
    table.peek key = some value ↔ (key, value) ∈ table.entries := by
  have hlookup : ∀ entries : List (κ × ν), (entries.map Prod.fst).Nodup →
      (entries.lookup key = some value ↔ (key, value) ∈ entries) := by
    intro entries
    induction entries with
    | nil => intro _; simp
    | cons entry rest ih =>
        obtain ⟨name, content⟩ := entry
        intro hnodup
        rw [List.map_cons, List.nodup_cons] at hnodup
        by_cases hsame : key = name
        · have hgone : (key, value) ∉ rest := by
            intro hmem
            exact hnodup.1 (List.mem_map.mpr ⟨(key, value), hmem, hsame⟩)
          simp [hsame, hsame ▸ hgone, eq_comm]
        · have hdiffers : (key == name) = false := by simp [hsame]
          simp [List.lookup_cons, hdiffers, hsame, ih hnodup.2]
  exact hlookup table.entries table.keys_nodup

theorem mem_keys_iff {table : Recency κ ν} {key : κ} :
    key ∈ table.keys ↔ ∃ value, table.peek key = some value := by
  simp [keys, peek_eq_some_iff]

theorem peek_eq_none_iff {table : Recency κ ν} {key : κ} :
    table.peek key = none ↔ key ∉ table.keys := by
  rw [mem_keys_iff, ← Option.isSome_iff_exists, Option.not_isSome_iff_eq_none]

theorem entries_insert_eq_rtake (table : Recency κ ν) (key : κ) (value : ν) :
    (table.insert key value).1.entries =
      (table.refreshed key value).rtake table.capacity.val := by
  rw [entries_insert]
  split
  · rename_i hroom
    rw [rtake_of_length_le hroom]
  · -- there is exactly one entry too many
    rename_i hfull
    have hothers := table.length_others_le key
    have hlength : (table.refreshed key value).length = (table.others key).length + 1 := by
      rw [refreshed, List.length_append, List.length_singleton]
    rw [List.rtake, ← List.drop_one]
    congr 1
    omega

/-- Writing a key evicts nothing, unless the key is new and the map is full; then it
evicts the entry at the front. -/
theorem insert_snd (table : Recency κ ν) (key : κ) (value : ν) :
    (table.insert key value).2 =
      if key ∉ table.keys ∧ table.size = table.capacity.val then table.entries.head? else none := by
  by_cases hheld : key ∈ table.keys
  · have hcontains : table.contains key = true := by
      obtain ⟨found, hfound⟩ := mem_keys_iff.mp hheld
      rw [contains, hfound, Option.isSome_some]
    rw [(insert_of_contains hcontains value).2, if_neg (by simp [hheld])]
  · have hothers : table.others key = table.entries := by
      rw [others, List.filter_eq_self]
      intro entry hentry
      exact decide_eq_true fun hsame => hheld (hsame ▸ List.mem_map_of_mem hentry)
    have hlength : (table.refreshed key value).length = table.size + 1 := by
      rw [refreshed, hothers, List.length_append, List.length_singleton, size]
    have hroom : table.size ≤ table.capacity.val := table.length_le
    unfold insert
    split
    · rw [if_neg (by omega)]
    · -- the map is full, so it has a first entry
      have hfull : table.size = table.capacity.val := by omega
      have hpositive := table.capacity.pos
      show (table.refreshed key value).head? = _
      rw [if_pos ⟨hheld, hfull⟩, refreshed, hothers]
      cases hentries : table.entries with
      | nil => simp [size, hentries] at hfull; omega
      | cons oldest rest => rfl

/-- An insertion evicts exactly when its key is new and the map is full. -/
theorem isSome_insert_snd_iff {table : Recency κ ν} {key : κ} {value : ν} :
    (table.insert key value).2.isSome ↔ key ∉ table.keys ∧ table.size = table.capacity.val := by
  rw [insert_snd]
  split
  · rename_i hevicts
    refine iff_of_true ?_ hevicts
    -- a full map has a first entry
    have hpositive := table.capacity.pos
    rw [List.isSome_head?, ← List.length_pos_iff]
    show 0 < table.size
    omega
  · rename_i hkeeps
    exact iff_of_false Bool.false_ne_true hkeeps

/-- As long as there is room, writing a key changes no other answer. -/
theorem peek_insert_of_room {table : Recency κ ν} {key : κ} {value : ν}
    (hroom : (table.refreshed key value).length ≤ table.capacity.val) (other : κ) :
    (table.insert key value).1.peek other =
      if other = key then some value else table.peek other := by
  rw [← lookup_refreshed, peek, entries_insert, if_pos hroom]

/-- After a key has been written it answers with what was written, the evicted key
answers nothing, and all others answer as before. -/
theorem peek_insert (table : Recency κ ν) (key : κ) (value : ν) (other : κ) :
    (table.insert key value).1.peek other =
      if (table.insert key value).2.map Prod.fst = some other then none
      else if other = key then some value else table.peek other := by
  rw [← lookup_refreshed table key value other]
  have hnodup := table.nodup_keys_refreshed key value
  unfold insert peek
  split
  · simp
  · show (table.refreshed key value).tail.lookup other =
      if (table.refreshed key value).head?.map Prod.fst = some other then none
      else (table.refreshed key value).lookup other
    cases hrefreshed : table.refreshed key value with
    | nil => simp
    | cons oldest rest =>
        obtain ⟨name, content⟩ := oldest
        rw [hrefreshed, List.map_cons, List.nodup_cons] at hnodup
        by_cases hsame : name = other
        · -- the evicted key does not stand a second time behind
          have hgone : rest.lookup other = none := by
            rw [List.lookup_eq_none_iff]
            intro entry hentry
            rw [bne_iff_ne]
            intro hagain
            exact hnodup.1 (List.mem_map.mpr ⟨entry, hentry, hagain.symm.trans hsame.symm⟩)
          simp [hsame, hgone]
        · have hdiffers : (other == name) = false := by
            rw [beq_eq_false_iff_ne]
            exact Ne.symm hsame
          simp [hsame, List.lookup_cons, hdiffers]

theorem peek_of_peek_insert {table : Recency κ ν} {key other : κ} {value found : ν}
    (hother : other ≠ key) (hfound : (table.insert key value).1.peek other = some found) :
    table.peek other = some found := by
  rw [peek_insert, if_neg hother] at hfound
  split at hfound
  · contradiction
  · exact hfound

theorem peek_modify (table : Recency κ ν) (key : κ) (change : ν → ν) (other : κ) :
    (table.modify key change).peek other =
      if key = other then (table.peek other).map change else table.peek other := by
  have hlookup : ∀ entries : List (κ × ν),
      (entries.map fun entry => if entry.1 = key then (entry.1, change entry.2) else entry
        ).lookup other =
        if key = other then (entries.lookup other).map change else entries.lookup other := by
    intro entries
    induction entries with
    | nil => simp
    | cons entry rest ih =>
        obtain ⟨name, content⟩ := entry
        by_cases hother : other = name
        · by_cases hsame : name = key
          · simp [hother, hsame]
          · simp [hother, hsame, Ne.symm hsame]
        · have hdiffers : (other == name) = false := by simp [hother]
          by_cases hsame : name = key
          · subst hsame
            simpa [List.lookup_cons, hdiffers] using ih
          · simpa [hsame, List.lookup_cons, hdiffers] using ih
  exact hlookup table.entries

theorem peek_of_peek_eraseWhere {table : Recency κ ν} {doomed : κ → ν → Bool} {key : κ}
    {found : ν} (hfound : (table.eraseWhere doomed).peek key = some found) :
    table.peek key = some found := by
  rw [peek_eq_some_iff] at hfound ⊢
  exact (List.mem_filter.mp hfound).1

omit [DecidableEq κ] in
theorem nodup_entries (table : Recency κ ν) : table.entries.Nodup :=
  table.keys_nodup.of_map

theorem perm_entries_of_peek_eq {first second : Recency κ ν}
    (hpeek : ∀ key, first.peek key = second.peek key) :
    first.entries.Perm second.entries := by
  rw [List.perm_ext_iff_of_nodup first.nodup_entries second.nodup_entries]
  intro entry
  rw [← peek_eq_some_iff, ← peek_eq_some_iff, hpeek]

/-! ## Order -/

theorem keys_refreshed (table : Recency κ ν) (key : κ) (value : ν) :
    (table.refreshed key value).map Prod.fst = table.keys.erase key ++ [key] := by
  have hkeys : table.keys.Nodup := table.keys_nodup
  rw [refreshed, others, List.map_append, hkeys.erase_eq_filter, keys, List.filter_map]
  congr 2
  apply List.filter_congr
  intro entry _
  by_cases hname : entry.1 = key <;> simp [hname]

/-- Writing a key moves it to the end; the keys used longest ago are dropped when
there are too many. -/
theorem keys_insert (table : Recency κ ν) (key : κ) (value : ν) :
    (table.insert key value).1.keys =
      (table.keys.erase key ++ [key]).rtake table.capacity.val := by
  rw [keys, entries_insert_eq_rtake, ← keys_refreshed table key value, List.rtake, List.rtake,
    List.map_drop, List.length_map]

theorem mem_keys_of_mem_keys_insert {table : Recency κ ν} {key other : κ} {value : ν}
    (hother : other ∈ (table.insert key value).1.keys) : other ∈ table.keys ∨ other = key := by
  rw [keys_insert] at hother
  rcases List.mem_append.mp ((rtake_suffix _ _).subset hother) with hkept | hnew
  · exact Or.inl (List.mem_of_mem_erase hkept)
  · exact Or.inr (List.mem_singleton.mp hnew)

@[simp] theorem mem_keys_get_iff {table : Recency κ ν} {key other : κ} :
    other ∈ (table.get key).2.keys ↔ other ∈ table.keys := by
  simp only [mem_keys_iff, peek_get]

theorem keys_get {table : Recency κ ν} {key : κ} (hkey : key ∈ table.keys) :
    (table.get key).2.keys = table.keys.erase key ++ [key] := by
  obtain ⟨value, hpeek⟩ := mem_keys_iff.mp hkey
  rw [← keys_refreshed table key value, ← entries_get hpeek, keys]

@[simp] theorem mem_entries_get_iff {table : Recency κ ν} {key : κ} {entry : κ × ν} :
    entry ∈ (table.get key).2.entries ↔ entry ∈ table.entries := by
  obtain ⟨other, value⟩ := entry
  rw [← peek_eq_some_iff, ← peek_eq_some_iff, peek_get]

theorem size_insert (table : Recency κ ν) (key : κ) (value : ν) :
    (table.insert key value).1.size =
      min table.capacity.val (table.refreshed key value).length := by
  rw [size, entries_insert_eq_rtake, length_rtake]

theorem size_le_size_insert (table : Recency κ ν) (key : κ) (value : ν) :
    table.size ≤ (table.insert key value).1.size := by
  have hkeys := congrArg List.length (table.keys_refreshed key value)
  have herase := List.le_length_erase (a := key) (l := table.keys)
  have hsize : table.keys.length = table.size := by rw [keys, List.length_map, size]
  have := table.length_le
  rw [List.length_map, List.length_append, List.length_singleton] at hkeys
  rw [size_insert]
  unfold size at hsize ⊢
  omega

theorem size_insert_of_full {table : Recency κ ν} (hfull : table.size = table.capacity.val)
    (key : κ) (value : ν) : (table.insert key value).1.size = table.capacity.val := by
  apply Nat.le_antisymm
  · rw [size_insert]
    exact Nat.min_le_left _ _
  · rw [← hfull]
    exact table.size_le_size_insert key value

theorem size_get_of_full {table : Recency κ ν} (hfull : table.size = table.capacity.val)
    (key : κ) : (table.get key).2.size = table.capacity.val := by
  unfold get
  split
  · exact hfull
  · exact size_insert_of_full hfull key _

/-- Another answer can only be lost when the map is full. -/
theorem peek_insert_eq_or_full (table : Recency κ ν) {key other : κ} (value : ν)
    (hother : other ≠ key) :
    (table.insert key value).1.peek other = table.peek other ∨
      (table.insert key value).1.size = table.capacity.val := by
  by_cases hroom : (table.refreshed key value).length ≤ table.capacity.val
  · left
    rw [peek_insert_of_room hroom, if_neg hother]
  · right
    rw [size_insert]
    omega

/-- A use of a key that is held is a writing of the value that it has. -/
theorem get_snd_of_peek {table : Recency κ ν} {key : κ} {value : ν}
    (hpeek : table.peek key = some value) : (table.get key).2 = (table.insert key value).1 := by
  simp [get, hpeek]

theorem get_snd_insert_self (table : Recency κ ν) (key : κ) (value : ν) :
    ((table.insert key value).1.get key).2 = (table.insert key value).1 := by
  have hentries : (table.insert key value).1.entries =
      (table.others key).rtake (table.capacity.val - 1) ++ [(key, value)] := by
    have hcapacity : table.capacity.val = table.capacity.val - 1 + 1 :=
      (Nat.succ_pred_eq_of_pos table.capacity.pos).symm
    rw [entries_insert_eq_rtake, refreshed, hcapacity, List.rtake_concat_succ,
      Nat.add_sub_cancel]
  have hfront : ((table.others key).rtake (table.capacity.val - 1)).filter
      (fun entry => entry.1 ≠ key) = (table.others key).rtake (table.capacity.val - 1) := by
    rw [List.filter_eq_self]
    exact fun entry hentry => (List.mem_filter.mp ((rtake_suffix _ _).subset hentry)).2
  apply ext
  · rw [entries_get (table.peek_insert_self key value), refreshed, others, hentries,
      List.filter_append, hfront]
    simp
  · rw [capacity_get]

@[simp] theorem keys_modify (table : Recency κ ν) (key : κ) (change : ν → ν) :
    (table.modify key change).keys = table.keys := by
  simp only [keys, modify, List.map_map]
  apply List.map_congr_left
  intro entry _
  simp only [Function.comp]
  split <;> rfl

theorem keys_erase_sublist (table : Recency κ ν) (key : κ) :
    (table.erase key).keys.Sublist table.keys :=
  (table.others_sublist key).map _

omit [DecidableEq κ] in
@[simp] theorem keys_mapValues (table : Recency κ ν) (change : ν → ν) :
    (table.mapValues change).keys = table.keys := by
  simp [keys, mapValues, Function.comp_def]

/-! ## Uses and changes in place -/

/-- A second use of a key changes nothing more. -/
theorem get_get (table : Recency κ ν) (key : κ) :
    ((table.get key).2.get key).2 = (table.get key).2 := by
  cases hpeek : table.peek key with
  | none => simp [get, hpeek]
  | some value => rw [get_snd_of_peek hpeek, get_snd_insert_self]

theorem get_mapValues (table : Recency κ ν) (change : ν → ν) (key : κ) :
    ((table.mapValues change).get key).2 = (table.get key).2.mapValues change := by
  cases hpeek : table.peek key with
  | none => simp [get, hpeek, peek_mapValues]
  | some value =>
      have hchanged : (table.mapValues change).peek key = some (change value) := by
        rw [peek_mapValues, hpeek, Option.map_some]
      apply ext
      · rw [entries_get hchanged]
        show _ = (table.get key).2.entries.map _
        rw [entries_get hpeek, refreshed, refreshed, List.map_append, others, others, mapValues,
          List.filter_map]
        rfl
      · simp [mapValues]

omit [DecidableEq κ] in
theorem mapValues_congr {table : Recency κ ν} {first second : ν → ν}
    (hsame : ∀ entry ∈ table.entries, first entry.2 = second entry.2) :
    table.mapValues first = table.mapValues second := by
  apply ext
  · apply List.map_congr_left
    intro entry hentry
    rw [hsame entry hentry]
  · rfl

omit [DecidableEq κ] in
theorem mapValues_mapValues (table : Recency κ ν) (first second : ν → ν) :
    (table.mapValues first).mapValues second =
      table.mapValues fun value => second (first value) := by
  apply ext
  · simp [mapValues]
  · rfl

omit [DecidableEq κ] in
@[simp] theorem mapValues_id (table : Recency κ ν) :
    (table.mapValues fun value => value) = table := by
  apply ext
  · simp [mapValues]
  · rfl

/-! ## Following a history -/

/-- The keys of the table are the last used ones of a history, as many as there is
room for. -/
def Follows (table : Recency κ ν) (uses : List κ) : Prop :=
  table.keys = lastUsed table.capacity.val uses

theorem follows_empty (capacity : Capacity) : (empty capacity : Recency κ ν).Follows [] := by
  simp [Follows, keys, lastUsed]

theorem follows_keys (table : Recency κ ν) : table.Follows table.keys := by
  have hnodup : table.keys.Nodup := table.keys_nodup
  have hlength : table.keys.length ≤ table.capacity.val := by
    rw [keys, List.length_map]
    exact table.length_le
  rw [Follows, lastUsed, hnodup.dedup, rtake_of_length_le hlength]

namespace Follows

variable {table : Recency κ ν} {uses : List κ} {key : κ}

/-- A key that was used is held as long as fewer different keys than there is room for
have been used since. -/
theorem held_iff (hfollows : table.Follows uses) (hkey : key ∈ uses) :
    key ∈ table.keys ↔ (usedSince uses key).toFinset.card < table.capacity.val := by
  rw [hfollows, mem_lastUsed_iff hkey]

protected theorem insert (hfollows : table.Follows uses) (value : ν)
    (hkey : key ∈ table.keys ∨ key ∉ uses) :
    (table.insert key value).1.Follows (uses ++ [key]) := by
  unfold Follows at hfollows ⊢
  rw [hfollows] at hkey
  rw [capacity_insert, keys_insert, lastUsed_append hkey, hfollows]

protected theorem get (hfollows : table.Follows uses) (hkey : key ∈ table.keys) :
    (table.get key).2.Follows (uses ++ [key]) := by
  obtain ⟨value, hpeek⟩ := mem_keys_iff.mp hkey
  rw [get_snd_of_peek hpeek]
  exact hfollows.insert value (Or.inl hkey)

protected theorem mapValues (hfollows : table.Follows uses) (change : ν → ν) :
    (table.mapValues change).Follows uses := by
  unfold Follows
  rw [keys_mapValues]
  exact hfollows

/-- How many keys are held: the different ones of the history, as far as there is
room. -/
theorem size_eq (hfollows : table.Follows uses) :
    table.size = min table.capacity.val uses.toFinset.card := by
  rw [← length_lastUsed, ← hfollows, keys, List.length_map]
  rfl

end Follows

end HandleTable.Recency
