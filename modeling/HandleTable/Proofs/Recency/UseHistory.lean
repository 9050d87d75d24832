import Mathlib.Data.Finset.Card
import Mathlib.Data.List.Dedup
import Mathlib.Data.List.DropRight

/-!
# Histories of uses

A bounded map that evicts the key used longest ago can be described without
the map, by the list of all uses so far.  `lastUsed count uses` is what such a
map of capacity `count` holds: the different keys of the history by their last
use, oldest first, of which only the last `count` are left.  `usedSince uses
key` is the part of the history that follows the last use of `key`.

The three facts that the rest of the theory needs:

* `lastUsed_append`: one more use of a key, either one that is held or one that
  was never used, takes it out of its place, puts it at the end, and drops what
  is then too much at the front;
* `mem_lastUsed_iff`: a key that was used is held as long as fewer than `count`
  different keys have been used since;
* `pairwise_lastUsed`: of two keys that are held, the later one has been used
  since the last use of the earlier one.

`List.dedup` keeps the last occurrence of every element, which is why it lists
the keys by their last use.
-/

namespace HandleTable

variable {κ : Type} [DecidableEq κ]

/-- The different keys of a history by their last use, oldest first; only the last
`count` of them. -/
def lastUsed (count : ℕ) (uses : List κ) : List κ :=
  uses.dedup.rtake count

/-- What was used after the last use of `key`. -/
def usedSince (uses : List κ) (key : κ) : List κ :=
  uses.rtakeWhile fun use => use ≠ key

/-! ## Ends of lists -/

theorem rtake_append_of_length_le {α : Type} {count : ℕ} (first : List α) {second : List α}
    (hlength : count ≤ second.length) : (first ++ second).rtake count = second.rtake count := by
  unfold List.rtake
  rw [List.length_append, List.drop_append]
  have hfirst : first.drop (first.length + second.length - count) = [] :=
    List.drop_eq_nil_of_le (by omega)
  rw [hfirst, List.nil_append]
  congr 1
  omega

theorem rtake_of_length_le {α : Type} {count : ℕ} {entries : List α}
    (hlength : entries.length ≤ count) : entries.rtake count = entries := by
  unfold List.rtake
  rw [Nat.sub_eq_zero_of_le hlength, List.drop_zero]

theorem length_rtake {α : Type} (count : ℕ) (entries : List α) :
    (entries.rtake count).length = min count entries.length := by
  unfold List.rtake
  rw [List.length_drop]
  omega

theorem rtake_suffix {α : Type} (count : ℕ) (entries : List α) :
    entries.rtake count <:+ entries :=
  List.drop_suffix _ _

/-- The end of a list in front of which something is missing is the end of the
whole list, unless nothing is missing. -/
theorem exists_append_rtake {α : Type} (count : ℕ) (entries : List α) :
    ∃ missing, entries = missing ++ entries.rtake count ∧
      (missing = [] ∨ (entries.rtake count).length = count) := by
  obtain ⟨missing, hmissing⟩ := rtake_suffix count entries
  refine ⟨missing, hmissing.symm, ?_⟩
  have hlengths := congrArg List.length hmissing
  rw [List.length_append, length_rtake] at hlengths
  -- either the whole list fits, or exactly `count` elements are left
  rcases Nat.le_total entries.length count with hle | hle
  · left
    exact List.eq_nil_of_length_eq_zero (by omega)
  · right
    rw [length_rtake]
    omega

/-! ## One more use -/

theorem dedup_append_singleton (uses : List κ) (key : κ) :
    (uses ++ [key]).dedup = uses.dedup.erase key ++ [key] := by
  induction uses with
  | nil => simp
  | cons use rest ih =>
      rw [List.cons_append]
      by_cases hagain : use ∈ rest
      · rw [List.dedup_cons_of_mem hagain, List.dedup_cons_of_mem (by simp [hagain]), ih]
      · rw [List.dedup_cons_of_notMem hagain]
        by_cases hsame : use = key
        · have hgone : key ∉ rest.dedup := by
            rw [List.mem_dedup]
            exact hsame ▸ hagain
          rw [List.dedup_cons_of_mem (by simp [hsame]), ih, hsame, List.erase_cons_head,
            List.erase_of_not_mem hgone]
        · rw [List.dedup_cons_of_notMem (by simp [hagain, hsame]), ih,
            List.erase_cons_tail (by simpa using hsame), List.cons_append]

/-- A use of a key that is held, or of one that was never used before, moves it to
the end; what is then too much is dropped at the front. -/
theorem lastUsed_append {count : ℕ} {uses : List κ} {key : κ}
    (hkey : key ∈ lastUsed count uses ∨ key ∉ uses) :
    lastUsed count (uses ++ [key]) =
      ((lastUsed count uses).erase key ++ [key]).rtake count := by
  obtain ⟨missing, hsplit, hfull⟩ := exists_append_rtake count uses.dedup
  have hnodup : uses.dedup.Nodup := List.nodup_dedup uses
  -- neither a held key nor a new one stands among those that have been dropped
  have hmissing : key ∉ missing := by
    intro hmem
    rcases hkey with hheld | hnew
    · rw [hsplit] at hnodup
      exact (List.nodup_append'.mp hnodup).2.2 hmem hheld
    · apply hnew
      rw [← List.mem_dedup, hsplit]
      exact List.mem_append_left _ hmem
  have huse : (uses ++ [key]).dedup =
      missing ++ ((lastUsed count uses).erase key ++ [key]) := by
    rw [dedup_append_singleton, hsplit, List.erase_append_right _ hmissing, List.append_assoc]
    rfl
  rcases hfull with hnone | hlength
  · rw [lastUsed, huse, hnone, List.nil_append]
  · -- something has been dropped, so the list was full and stays so
    rw [lastUsed, huse]
    refine rtake_append_of_length_le missing ?_
    have hone : (lastUsed count uses).length ≤ ((lastUsed count uses).erase key).length + 1 := by
      rw [List.length_erase]
      split <;> omega
    rw [List.length_append, List.length_singleton]
    unfold lastUsed at hone ⊢
    omega

/-! ## What is held -/

theorem exists_append_usedSince {uses : List κ} {key : κ} (hkey : key ∈ uses) :
    ∃ before, uses = before ++ key :: usedSince uses key := by
  induction uses using List.reverseRecOn with
  | nil => simp at hkey
  | append_singleton rest use ih =>
      by_cases hsame : use = key
      · refine ⟨rest, ?_⟩
        rw [usedSince, List.rtakeWhile_concat_neg _ _ _ (by simp [hsame]), hsame]
      · have hrest : key ∈ rest := by
          rcases List.mem_append.mp hkey with hrest | hlast
          · exact hrest
          · exact absurd (List.mem_singleton.mp hlast).symm hsame
        obtain ⟨before, hbefore⟩ := ih hrest
        refine ⟨before, ?_⟩
        rw [usedSince, List.rtakeWhile_concat_pos _ _ _ (by simpa using hsame)]
        nth_rewrite 1 [hbefore]
        simp [usedSince]

theorem not_mem_usedSince (uses : List κ) (key : κ) : key ∉ usedSince uses key := by
  intro hmem
  have := List.mem_rtakeWhile_imp hmem
  simp at this

/-- In the order of last uses a key is followed by exactly the different keys used
since. -/
theorem exists_dedup_eq_append {uses : List κ} {key : κ} (hkey : key ∈ uses) :
    ∃ older, uses.dedup = older ++ key :: (usedSince uses key).dedup := by
  obtain ⟨before, hbefore⟩ := exists_append_usedSince hkey
  have hlast : ∀ earlier : List κ, ∃ older,
      (earlier ++ key :: usedSince uses key).dedup =
        older ++ key :: (usedSince uses key).dedup := by
    intro earlier
    -- the earlier uses only decide what stands in front of the key
    induction earlier with
    | nil => exact ⟨[], List.dedup_cons_of_notMem (not_mem_usedSince uses key)⟩
    | cons use rest ih =>
        obtain ⟨older, holder⟩ := ih
        rw [List.cons_append, List.dedup_cons]
        split
        · exact ⟨older, holder⟩
        · exact ⟨use :: older, by rw [holder, List.cons_append]⟩
  obtain ⟨older, holder⟩ := hlast before
  exact ⟨older, by rw [← hbefore] at holder; exact holder⟩

/-- A key that was used is held as long as fewer than `count` different keys have
been used since. -/
theorem mem_lastUsed_iff {count : ℕ} {uses : List κ} {key : κ} (hkey : key ∈ uses) :
    key ∈ lastUsed count uses ↔ (usedSince uses key).toFinset.card < count := by
  obtain ⟨older, hsplit⟩ := exists_dedup_eq_append hkey
  have hnodup : (older ++ key :: (usedSince uses key).dedup).Nodup := hsplit ▸ uses.nodup_dedup
  rw [List.card_toFinset]
  constructor
  · intro hheld
    by_contra hmany
    -- then the keys used since fill the whole list
    have hend : lastUsed count uses = (usedSince uses key).dedup.rtake count := by
      rw [lastUsed, hsplit, List.append_cons]
      exact rtake_append_of_length_le _ (by omega)
    rw [hend] at hheld
    exact not_mem_usedSince uses key (List.mem_dedup.mp ((rtake_suffix _ _).subset hheld))
  · intro hfew
    have hsuffix : key :: (usedSince uses key).dedup <:+ uses.dedup := ⟨older, hsplit.symm⟩
    have hlength : (key :: (usedSince uses key).dedup).length ≤
        (uses.dedup.rtake count).length := by
      have := hsuffix.length_le
      rw [length_rtake]
      rw [List.length_cons] at this ⊢
      omega
    have hend := List.suffix_of_suffix_length_le hsuffix (rtake_suffix count _) hlength
    exact hend.subset (List.mem_cons_self ..)

theorem usedSince_append_cons (before : List κ) {since : List κ} {key : κ}
    (hsince : key ∉ since) : usedSince (before ++ key :: since) key = since := by
  have hall : ∀ use ∈ since.reverse, decide (use ≠ key) = true := by
    intro use huse
    rw [List.mem_reverse] at huse
    exact decide_eq_true fun hsame => hsince (hsame ▸ huse)
  rw [usedSince, List.rtakeWhile, List.reverse_append, List.reverse_cons, List.append_assoc,
    List.takeWhile_append_of_pos hall]
  simp

/-- Of a history that goes on with a use of the key, only what comes later matters. -/
theorem usedSince_append_of_mem (earlier : List κ) {later : List κ} {key : κ}
    (hkey : key ∈ later) : usedSince (earlier ++ later) key = usedSince later key := by
  obtain ⟨before, hbefore⟩ := exists_append_usedSince hkey
  calc usedSince (earlier ++ later) key
      = usedSince ((earlier ++ before) ++ key :: usedSince later key) key := by
        rw [List.append_assoc, ← hbefore]
    _ = usedSince later key := usedSince_append_cons _ (not_mem_usedSince later key)

theorem usedSince_append_of_not_mem (earlier : List κ) {later : List κ} {key : κ}
    (hlater : key ∉ later) : usedSince (earlier ++ later) key = usedSince earlier key ++ later := by
  induction later using List.reverseRecOn with
  | nil => simp
  | append_singleton rest use ih =>
      rw [List.mem_append, List.mem_singleton, not_or] at hlater
      obtain ⟨hrest, huse⟩ := hlater
      rw [← List.append_assoc, usedSince,
        List.rtakeWhile_concat_pos _ _ _ (by simpa using Ne.symm huse), ← usedSince, ih hrest,
        List.append_assoc]

theorem usedSince_suffix (uses : List κ) (key : κ) : usedSince uses key <:+ uses :=
  List.rtakeWhile_suffix _ _

/-- Each key that is used for the first time counts one more. -/
theorem card_usedSince_append {uses fresh : List κ} {key : κ} (hkey : key ∈ uses)
    (hnodup : fresh.Nodup) (hfresh : ∀ other ∈ fresh, other ∉ uses) :
    (usedSince (uses ++ fresh) key).toFinset.card =
      (usedSince uses key).toFinset.card + fresh.length := by
  have hlater : key ∉ fresh := fun hmem => hfresh key hmem hkey
  have hdisjoint : Disjoint (usedSince uses key).toFinset fresh.toFinset := by
    rw [List.disjoint_toFinset_iff_disjoint]
    intro other hsince hother
    exact hfresh other hother ((usedSince_suffix uses key).subset hsince)
  rw [usedSince_append_of_not_mem uses hlater, List.toFinset_append,
    Finset.card_union_of_disjoint hdisjoint, List.toFinset_card_of_nodup hnodup]

/-- Of two keys that are held, the later one has been used since the last use of the
earlier one. -/
theorem pairwise_lastUsed (count : ℕ) (uses : List κ) :
    (lastUsed count uses).Pairwise fun older newer => newer ∈ usedSince uses older := by
  refine List.Pairwise.sublist (rtake_suffix count uses.dedup).sublist ?_
  induction uses with
  | nil => simp
  | cons use rest ih =>
      have hrest : rest.dedup.Pairwise fun older newer =>
          newer ∈ usedSince (use :: rest) older := by
        refine ih.imp_of_mem ?_
        intro older newer holder _ hnewer
        obtain ⟨before, hbefore⟩ := exists_append_usedSince (List.mem_dedup.mp holder)
        have hsame := usedSince_append_cons (use :: before) (not_mem_usedSince rest older)
        rw [List.cons_append, ← hbefore] at hsame
        rw [hsame]
        exact hnewer
      rw [List.dedup_cons]
      split
      · exact hrest
      · -- the first use is the last one of its key, so everything else came since
        rename_i hnew
        refine List.pairwise_cons.mpr ⟨?_, hrest⟩
        intro newer hnewer
        have hall := usedSince_append_cons [] hnew
        rw [List.nil_append] at hall
        rw [hall]
        exact List.mem_dedup.mp hnewer

theorem length_lastUsed (count : ℕ) (uses : List κ) :
    (lastUsed count uses).length = min count uses.toFinset.card := by
  rw [lastUsed, length_rtake, List.card_toFinset]

end HandleTable
