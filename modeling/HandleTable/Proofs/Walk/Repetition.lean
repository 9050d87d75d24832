import HandleTable.Proofs.Walk.Traversal
import Mathlib.Data.List.Forall2

/-!
# Lists gone through with restarts

Who goes through a list, breaks off somewhere and starts over, meets the beginning of
the list again, and again after every restart.  `Repeats plain repeated` says that
`repeated` is what may be met in this way of `plain`, when parts of the list may be
restarted by themselves.

Nothing is met out of turn: an element comes up for the first time only after all that
stand before it.  So the first failure is the same (`Repeats.firstFailure_eq`), and
what comes before it is still there (`Repeats.readable_sublist`).  When every element
stands for a list that is in turn gone through with restarts, the relation carries
over to these lists (`Repeats.flatten`), which leads from one level of a traversal to
the next.
-/

namespace HandleTable.Walk

open scoped List

variable {α β : Type}

/-- What is met of a list by someone who may start over: parts that are gone through one
after another, or a beginning that is broken off, and then all of it. -/
inductive Repeats : List α → List α → Prop
  | refl (plain : List α) : Repeats plain plain
  | append {first second met met' : List α} :
      Repeats first met → Repeats second met' → Repeats (first ++ second) (met ++ met')
  | restart {start rest broken whole : List α} :
      Repeats start broken → Repeats (start ++ rest) whole →
        Repeats (start ++ rest) (broken ++ whole)

namespace Repeats

variable {plain repeated : List α}

/-- In the end everything has been met in order. -/
protected theorem sublist (hrepeats : Repeats plain repeated) : plain <+ repeated := by
  induction hrepeats with
  | refl => exact List.Sublist.refl _
  | append _ _ ihfirst ihsecond => exact ihfirst.append ihsecond
  | restart _ _ _ ihwhole => exact ihwhole.trans (List.sublist_append_right _ _)

protected theorem subset (hrepeats : Repeats plain repeated) : repeated ⊆ plain := by
  induction hrepeats with
  | refl => exact List.Subset.refl _
  | append _ _ ihfirst ihsecond =>
      exact List.append_subset.mpr ⟨List.subset_append_of_subset_left _ ihfirst,
        List.subset_append_of_subset_right _ ihsecond⟩
  | restart _ _ ihbroken ihwhole =>
      exact List.append_subset.mpr ⟨List.subset_append_of_subset_left _ ihbroken, ihwhole⟩

/-- What is read off element by element is repeated in the same way. -/
theorem of_append {image : List α → List β}
    (himage : ∀ first second, image (first ++ second) = image first ++ image second)
    (hrepeats : Repeats plain repeated) : Repeats (image plain) (image repeated) := by
  induction hrepeats with
  | refl => exact .refl _
  | append _ _ ihfirst ihsecond =>
      rw [himage, himage]
      exact .append ihfirst ihsecond
  | restart _ _ ihbroken ihwhole =>
      rw [himage] at ihwhole
      rw [himage, himage]
      exact .restart ihbroken ihwhole

/-- Lists that are each gone through with restarts, while their order is too. -/
protected theorem flatten {next : α → List β} {met : List (List β)}
    (hrepeats : Repeats plain repeated)
    (hmet : List.Forall₂ (fun part element => Repeats (next element) part) met repeated) :
    Repeats (plain.flatMap next) met.flatten := by
  induction hrepeats generalizing met with
  | refl plain =>
      induction hmet with
      | nil => exact .refl _
      | cons hpart _ ih => exact .append hpart ih
  | @append _ _ repeated _ _ _ ihfirst ihsecond =>
      have hfirst := ihfirst (List.forall₂_take_append met repeated _ hmet)
      have hsecond := ihsecond (List.forall₂_drop_append met repeated _ hmet)
      rw [← List.take_append_drop repeated.length met, List.flatten_append, List.flatMap_append]
      exact .append hfirst hsecond
  | @restart _ _ broken _ _ _ ihbroken ihwhole =>
      have hbroken := ihbroken (List.forall₂_take_append met broken _ hmet)
      have hwhole := ihwhole (List.forall₂_drop_append met broken _ hmet)
      rw [List.flatMap_append] at hwhole
      rw [← List.take_append_drop broken.length met, List.flatten_append, List.flatMap_append]
      exact .restart hbroken hwhole

section Failures

variable (readDir : Path → Except Failure Listing) {plain repeated : List Path}

/-- Of what fails, the same comes first. -/
theorem firstFailure_eq (hrepeats : Repeats plain repeated) :
    firstFailure readDir repeated = firstFailure readDir plain := by
  unfold firstFailure
  induction hrepeats with
  | refl => rfl
  | append _ _ ihfirst ihsecond =>
      rw [List.findSome?_append, List.findSome?_append, ihfirst, ihsecond]
  | @restart start _ _ _ _ _ ihbroken ihwhole =>
      rw [List.findSome?_append, ihbroken, ihwhole, List.findSome?_append]
      cases start.findSome? (failure? readDir) <;> rfl

theorem readable_sublist (hrepeats : Repeats plain repeated) :
    readable readDir plain <+ readable readDir repeated := by
  induction hrepeats with
  | refl => exact List.Sublist.refl _
  | append hfirst hsecond ihfirst ihsecond =>
      rw [readable_append, readable_append, hfirst.firstFailure_eq]
      split
      · exact hfirst.sublist.append ihsecond
      · exact ihfirst
  | @restart start rest broken whole hbroken hwhole ihbroken ihwhole =>
      rw [readable_append readDir broken whole, hbroken.firstFailure_eq]
      split
      · exact ihwhole.trans (List.sublist_append_right _ _)
      · rename_i hfails
        rw [readable_append, if_neg hfails]
        exact ihbroken

end Failures

end Repeats

end HandleTable.Walk
