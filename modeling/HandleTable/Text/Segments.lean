/-!
# Segments between separators

A sequence is cut at every separator, so there is always one segment more than
separators, and segments may be empty.
-/

namespace HandleTable.Text

/-- The segments of a sequence between its separators. -/
def segments {α : Type} [BEq α] (separator : α) : List α → List (List α)
  | [] => [[]]
  | item :: rest =>
    if item == separator then [] :: segments separator rest
    else
      match segments separator rest with
      | [] => [[item]]
      | first :: others => (item :: first) :: others

theorem segments_ne_nil {α : Type} [BEq α] (separator : α) (items : List α) :
    segments separator items ≠ [] := by
  cases items with
  | nil => simp [segments]
  | cons _ _ =>
      unfold segments
      split
      · simp
      · split <;> simp

/-- The first segment is empty only if there is nothing in front of a separator. -/
theorem segments_eq_nil_cons {α : Type} [BEq α] [LawfulBEq α] {separator : α} {items : List α}
    {others : List (List α)} (hsegments : segments separator items = [] :: others) :
    items = [] ∧ others = [] ∨ items.head? = some separator := by
  cases items with
  | nil => exact .inl ⟨rfl, by simpa [segments] using hsegments.symm⟩
  | cons item rest =>
      right
      unfold segments at hsegments
      split at hsegments
      · simp_all
      · split at hsegments <;> simp at hsegments

theorem exists_segments_eq_nil_cons {α : Type} [BEq α] [LawfulBEq α] {separator : α}
    {items : List α} (hhead : items.head? = some separator) :
    ∃ others, segments separator items = [] :: others := by
  obtain ⟨rest, rfl⟩ := List.head?_eq_some_iff.mp hhead
  exact ⟨segments separator rest, by simp [segments]⟩

/-- The segments between two parts joined by a separator are those of the parts. -/
theorem segments_append {α : Type} [BEq α] [LawfulBEq α] (separator : α)
    (first second : List α) :
    segments separator (first ++ separator :: second) =
      segments separator first ++ segments separator second := by
  induction first with
  | nil => simp [segments]
  | cons item rest ih =>
      simp only [List.cons_append, segments, ih]
      split
      · simp
      · cases hsegments : segments separator rest with
        | nil => exact absurd hsegments (segments_ne_nil separator rest)
        | cons _ _ => simp

theorem segments_of_not_mem {α : Type} [BEq α] [LawfulBEq α] {separator : α} {items : List α}
    (hitems : separator ∉ items) : segments separator items = [items] := by
  induction items with
  | nil => rfl
  | cons item rest ih =>
      rw [List.mem_cons, not_or] at hitems
      simp [segments, Ne.symm hitems.1, ih hitems.2]

theorem not_mem_of_mem_segments {α : Type} [BEq α] [LawfulBEq α] {separator : α}
    {items segment : List α} (hsegment : segment ∈ segments separator items) :
    separator ∉ segment := by
  induction items generalizing segment with
  | nil => simp_all [segments]
  | cons item rest ih =>
      simp only [segments] at hsegment
      split at hsegment
      · rcases List.mem_cons.mp hsegment with rfl | hrest
        · simp
        · exact ih hrest
      · rename_i hitem
        have hne : separator ≠ item := by rintro rfl; simp at hitem
        split at hsegment
        · simp_all
        · rename_i first others hsplit
          rcases List.mem_cons.mp hsegment with rfl | hothers
          · simp [hne, ih (hsplit ▸ List.mem_cons_self)]
          · exact ih (hsplit ▸ List.mem_cons_of_mem _ hothers)

end HandleTable.Text
