import HandleTable.Proofs.Recency.Order

/-!
# What has been used before an eviction

`Recency.Follows` says exactly what a map holds, as long as keys go only by being
evicted.  When keys are also erased, the history of uses alone no longer tells what
is held.  Two things are left.  The keys that are held stand in the order of their
last use (`ListedByUse`), and a key that is evicted has been followed by uses of as
many different keys as there is room for (`card_usedSince_of_evicted`): all the
others that are held, and the one that takes the room.
-/

namespace HandleTable.Recency

variable {κ ν : Type} [DecidableEq κ]

/-- The keys stand in the order of their last use in a history: each one has been used
since the last use of all that stand before it. -/
def ListedByUse (table : Recency κ ν) (uses : List κ) : Prop :=
  table.keys.Pairwise fun older newer => newer ∈ usedSince uses older

theorem listedByUse_empty (capacity : Capacity) :
    (empty capacity : Recency κ ν).ListedByUse [] :=
  List.Pairwise.nil

namespace ListedByUse

variable {table : Recency κ ν} {uses : List κ} {key : κ}

theorem pairwise_erase_append (hlisted : table.ListedByUse uses) (key : κ) :
    (table.keys.erase key ++ [key]).Pairwise fun older newer =>
      newer ∈ usedSince (uses ++ [key]) older := by
  have hnodup : table.keys.Nodup := table.keys_nodup
  have hsince : ∀ older ∈ table.keys.erase key,
      usedSince (uses ++ [key]) older = usedSince uses older ++ [key] := by
    intro older holder
    refine usedSince_append_of_not_mem uses fun hmem => ?_
    exact hnodup.not_mem_erase (List.mem_singleton.mp hmem ▸ holder)
  rw [List.pairwise_append]
  refine ⟨?_, List.pairwise_singleton _ _, ?_⟩
  · refine (hlisted.sublist List.erase_sublist).imp_of_mem ?_
    intro older newer holder _ hnewer
    rw [hsince older holder]
    exact List.mem_append_left _ hnewer
  · intro older holder newer hnewer
    rw [hsince older holder]
    exact List.mem_append_right _ hnewer

protected theorem insert (hlisted : table.ListedByUse uses) (key : κ) (value : ν) :
    (table.insert key value).1.ListedByUse (uses ++ [key]) := by
  unfold ListedByUse
  rw [keys_insert]
  exact (hlisted.pairwise_erase_append key).sublist (rtake_suffix _ _).sublist

protected theorem eraseWhere (hlisted : table.ListedByUse uses) (doomed : κ → ν → Bool) :
    (table.eraseWhere doomed).ListedByUse uses :=
  hlisted.sublist (List.filter_sublist.map Prod.fst)

/-- A key that is evicted has been followed by as many different keys as there is room
for. -/
theorem card_usedSince_of_evicted (hlisted : table.ListedByUse uses) {older : κ} {value : ν}
    (hheld : older ∈ table.keys) (hgone : older ∉ (table.insert key value).1.keys) :
    table.capacity.val ≤ (usedSince (uses ++ [key]) older).toFinset.card := by
  have hpairwise := hlisted.pairwise_erase_append key
  have hkept := keys_insert table key value
  obtain ⟨missing, hsplit, hfull⟩ :=
    exists_append_rtake table.capacity.val (table.keys.erase key ++ [key])
  rw [← hkept] at hsplit hfull
  -- the key stands in the part that is cut off, so the rest fills the map
  have hplace : older ∈ missing ++ (table.insert key value).1.keys := by
    rw [← hsplit]
    by_cases hsame : older = key
    · exact List.mem_append_right _ (List.mem_singleton.mpr hsame)
    · exact List.mem_append_left _ ((List.mem_erase_of_ne hsame).mpr hheld)
  have hmissing : older ∈ missing := (List.mem_append.mp hplace).resolve_right hgone
  have hlength : (table.insert key value).1.keys.length = table.capacity.val :=
    hfull.resolve_left (List.ne_nil_of_mem hmissing)
  have hnodup : (table.insert key value).1.keys.Nodup := (table.insert key value).1.keys_nodup
  rw [hsplit, List.pairwise_append] at hpairwise
  have hsubset : (table.insert key value).1.keys.toFinset ⊆
      (usedSince (uses ++ [key]) older).toFinset := by
    intro newer hnewer
    rw [List.mem_toFinset] at hnewer ⊢
    exact hpairwise.2.2 older hmissing newer hnewer
  calc table.capacity.val
      = (table.insert key value).1.keys.toFinset.card := by
        rw [List.toFinset_card_of_nodup hnodup, hlength]
    _ ≤ (usedSince (uses ++ [key]) older).toFinset.card := Finset.card_le_card hsubset

end ListedByUse

end HandleTable.Recency
