import HandleTable.Proofs.Recency.Order

/-!
# Two maps of different capacity

Two bounded maps that serve the same requests drift apart: what the smaller one has
evicted, the larger one may still hold, and a use of it moves entries in the larger
map alone.  What stays is that the larger map lists all entries of the smaller one,
with their values and in their order, and perhaps others in between.

An insertion into both keeps this only if the larger map does not evict what the
smaller one goes on holding.  The larger map evicts its first entry; if the smaller
one holds that entry, it is the first one there as well, and it goes there too as
long as the smaller map is full whenever the larger one is.  This is why `Within`
speaks of the order and of the room that is left at the same time.

Each operation keeps the relation when it is applied to both maps.  A use of a key
that only the larger map holds may also be applied to that one alone
(`Within.insert_right`), since it stands between the entries of the smaller map and
not among them.
-/

namespace HandleTable.Recency

variable {κ ν : Type}

theorem length_sub_length_filter_le {α : Type} {part whole : List α} (hpart : part.Sublist whole)
    (keep : α → Bool) :
    part.length - (part.filter keep).length ≤ whole.length - (whole.filter keep).length := by
  have hdropped := (hpart.filter fun entry => !keep entry).length_le
  have hpartLength := part.length_eq_length_filter_add keep
  have hwholeLength := whole.length_eq_length_filter_add keep
  omega

@[simp] theorem size_mapValues (table : Recency κ ν) (change : ν → ν) :
    (table.mapValues change).size = table.size := by
  simp [mapValues, size]

section Held

variable [DecidableEq κ] {table : Recency κ ν} {key : κ}

theorem get_snd_of_not_mem (hkey : key ∉ table.keys) : (table.get key).2 = table := by
  simp [Recency.get, peek_eq_none_iff.mpr hkey]

theorem size_insert_of_mem (hkey : key ∈ table.keys) (value : ν) :
    (table.insert key value).1.size = table.size := by
  have hplaces := congrArg List.length (table.keys_refreshed key value)
  have hkeys : table.keys.length = table.size := List.length_map _
  have hpositive := List.length_pos_of_mem hkey
  have hroom : table.size ≤ table.capacity.val := table.length_le
  rw [List.length_map, List.length_append, List.length_singleton,
    List.length_erase_of_mem hkey] at hplaces
  rw [size_insert]
  omega

@[simp] theorem size_get (table : Recency κ ν) (key : κ) : (table.get key).2.size = table.size := by
  cases hpeek : table.peek key with
  | none => rw [get_snd_of_not_mem (peek_eq_none_iff.mp hpeek)]
  | some value =>
      rw [get_snd_of_peek hpeek, size_insert_of_mem (mem_keys_iff.mpr ⟨value, hpeek⟩)]

end Held

/-- The larger map lists the entries of the smaller one in the same order, perhaps with
others in between, and has no less room left. -/
structure Within (small large : Recency κ ν) : Prop where
  entries : small.entries.Sublist large.entries
  room : small.capacity.val - small.size ≤ large.capacity.val - large.size

theorem within_empty {smaller larger : Capacity} (hle : smaller.val ≤ larger.val) :
    Within (empty smaller : Recency κ ν) (empty larger) where
  entries := List.Sublist.refl []
  room := hle

namespace Within

variable {small large : Recency κ ν}

protected theorem mapValues (hwithin : Within small large) (change : ν → ν) :
    Within (small.mapValues change) (large.mapValues change) where
  entries := hwithin.entries.map _
  room := by
    rw [size_mapValues, size_mapValues]
    exact hwithin.room

/-- What is dropped from both maps leaves the larger one at least as much more room. -/
protected theorem eraseWhere (hwithin : Within small large) (doomed : κ → ν → Bool) :
    Within (small.eraseWhere doomed) (large.eraseWhere doomed) where
  entries := hwithin.entries.filter _
  room := by
    have hdropped := length_sub_length_filter_le hwithin.entries
      fun entry => !doomed entry.1 entry.2
    have hroom := hwithin.room
    have hkeptSmall := (small.entries.filter_sublist
      (p := fun entry => !doomed entry.1 entry.2)).length_le
    have hkeptLarge := (large.entries.filter_sublist
      (p := fun entry => !doomed entry.1 entry.2)).length_le
    have := small.length_le
    have := large.length_le
    unfold size at hroom ⊢
    simp only [Recency.eraseWhere]
    omega

variable [DecidableEq κ]

protected theorem peek (hwithin : Within small large) {key : κ} {value : ν}
    (hpeek : small.peek key = some value) : large.peek key = some value := by
  rw [peek_eq_some_iff] at hpeek ⊢
  exact hwithin.entries.subset hpeek

/-- When the larger map has to evict for a written key, so has the smaller one. -/
theorem room_refreshed (hwithin : Within small large) (key : κ) (value : ν) :
    small.capacity.val - (small.refreshed key value).length ≤
        large.capacity.val - (large.refreshed key value).length ∧
      ((small.refreshed key value).length ≤ small.capacity.val →
        (large.refreshed key value).length ≤ large.capacity.val) := by
  have hdropped := length_sub_length_filter_le hwithin.entries fun entry => entry.1 ≠ key
  have hroom := hwithin.room
  have hkeptSmall := (small.others_sublist key).length_le
  have hkeptLarge := (large.others_sublist key).length_le
  have := small.length_le
  have := large.length_le
  unfold size at hroom
  unfold others at hkeptSmall hkeptLarge
  simp only [refreshed, others, List.length_append, List.length_singleton]
  constructor <;> omega

/-- A key that is written in both maps evicts from the larger one nothing that the
smaller one keeps. -/
protected theorem insert (hwithin : Within small large) (key : κ) (value : ν) :
    Within (small.insert key value).1 (large.insert key value).1 := by
  have hrefreshed : (small.refreshed key value).Sublist (large.refreshed key value) :=
    (hwithin.entries.filter _).append (List.Sublist.refl _)
  obtain ⟨hroom, hfits⟩ := hwithin.room_refreshed key value
  refine ⟨?_, ?_⟩
  · rw [entries_insert, entries_insert]
    by_cases hsmall : (small.refreshed key value).length ≤ small.capacity.val
    · rw [if_pos hsmall, if_pos (hfits hsmall)]
      exact hrefreshed
    · rw [if_neg hsmall]
      split
      · exact (List.tail_sublist _).trans hrefreshed
      · exact hrefreshed.tail
  · rw [size_insert, size_insert, capacity_insert, capacity_insert]
    omega

/-- A use of a key that only the larger map holds evicts nothing and moves no entry of
the smaller one. -/
theorem insert_right (hwithin : Within small large) {key : κ} (hsmall : key ∉ small.keys)
    (hlarge : key ∈ large.keys) (value : ν) : Within small (large.insert key value).1 := by
  have hcontains : large.contains key = true := by
    obtain ⟨found, hfound⟩ := mem_keys_iff.mp hlarge
    rw [contains, hfound, Option.isSome_some]
  have hsame : small.others key = small.entries := by
    rw [others, List.filter_eq_self]
    intro entry hentry
    exact decide_eq_true fun hkey => hsmall (hkey ▸ List.mem_map_of_mem hentry)
  have hothers : small.entries.Sublist (large.others key) := by
    rw [← hsame]
    exact hwithin.entries.filter _
  refine ⟨?_, ?_⟩
  · rw [(insert_of_contains hcontains value).1]
    exact hothers.trans (List.sublist_append_left _ _)
  · rw [size_insert_of_mem hlarge, capacity_insert]
    exact hwithin.room

protected theorem get (hwithin : Within small large) (key : κ) :
    Within (small.get key).2 (large.get key).2 := by
  cases hsmall : small.peek key with
  | some value =>
      rw [get_snd_of_peek hsmall, get_snd_of_peek (hwithin.peek hsmall)]
      exact hwithin.insert key value
  | none =>
      rw [peek_eq_none_iff] at hsmall
      rw [get_snd_of_not_mem hsmall]
      cases hlarge : large.peek key with
      | some value =>
          rw [get_snd_of_peek hlarge]
          exact hwithin.insert_right hsmall (mem_keys_iff.mpr ⟨value, hlarge⟩) value
      | none => rwa [get_snd_of_not_mem (peek_eq_none_iff.mp hlarge)]

/-- What the larger map holds of the keys of the smaller one is what the smaller one
holds. -/
theorem entries_eq_filter (hwithin : Within small large) :
    small.entries = large.entries.filter fun entry => entry.1 ∈ small.keys := by
  have hself : (small.entries.filter fun entry => entry.1 ∈ small.keys) = small.entries := by
    rw [List.filter_eq_self]
    exact fun entry hentry => decide_eq_true (List.mem_map_of_mem hentry)
  have hsublist := hwithin.entries.filter fun entry => entry.1 ∈ small.keys
  rw [hself] at hsublist
  apply hsublist.eq_of_length_le
  -- each key stands only once, so there are no more such entries than keys
  have hnodup : ((large.entries.filter fun entry => entry.1 ∈ small.keys).map Prod.fst).Nodup :=
    (List.filter_sublist.map Prod.fst).nodup large.keys_nodup
  have hsubset : (large.entries.filter fun entry => entry.1 ∈ small.keys).map Prod.fst ⊆
      small.keys := by
    intro key hkey
    obtain ⟨entry, hentry, rfl⟩ := List.mem_map.mp hkey
    simpa using (List.mem_filter.mp hentry).2
  have hlength := (hnodup.subperm hsubset).length_le
  rwa [List.length_map, keys, List.length_map] at hlength

end Within

end HandleTable.Recency
