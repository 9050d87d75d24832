import HandleTable.Proofs.Recency.Inclusion
import HandleTable.Proofs.Verifiers.Run

/-!
# A larger table of listings

Giving the table of listings more room never costs a page: whatever a smaller table
would have answered, the larger one answers with the same listing, after any
requests at all.  In particular nothing is assumed about the hash.

All three requests keep the smaller table within the larger one (`within_step`).  A
lookup that only the larger table can answer moves an entry that the smaller one does
not hold.  An invalidation may take more from the larger table than from the smaller
one, never less, and so leaves it with no less room.
-/

namespace HandleTable.Verifiers

open Recency (Within)

theorem within_step {small large : Verifiers} (hwithin : Within small large) (request : Step) :
    Within (small.step request) (large.step request) := by
  cases request with
  | snapshot path listing => exact hwithin.insert _ _
  | lookup path verifier => exact hwithin.get verifier
  | invalidate path => exact hwithin.eraseWhere fun _ snapshot => snapshot.path == path

theorem within_run {small large : Verifiers} (hwithin : Within small large)
    (steps : List Step) : Within (small.run steps) (large.run steps) := by
  induction steps generalizing small large with
  | nil => exact hwithin
  | cons request rest ih => exact ih (within_step hwithin request)

/-- **A larger table never loses a page.**  After the same requests to two empty tables
of which one has at least as much room as the other, every verifier that the smaller
one answers is answered by the larger one with the same listing, and the larger one
holds what the smaller one holds, in the same order. -/
theorem larger_table_answers_alike {smaller larger : Capacity} (hle : smaller.val ≤ larger.val)
    (steps : List Step) :
    let small := run (.empty smaller) steps
    let large := run (.empty larger) steps
    (∀ verifier listing, (small.lookup verifier).1 = some listing →
      (large.lookup verifier).1 = some listing) ∧
    small.entries.Sublist large.entries := by
  intro small large
  have hwithin : Within small large := within_run (Recency.within_empty hle) steps
  refine ⟨?_, hwithin.entries⟩
  intro verifier listing hanswer
  rw [lookup_fst, Option.map_eq_some_iff] at hanswer ⊢
  obtain ⟨snapshot, hpeek, hlisting⟩ := hanswer
  exact ⟨snapshot, hwithin.peek hpeek, hlisting⟩

/-- Of three directories, a table for two has forgotten the first one when it is looked
up; in a table for three the lookup puts it behind the others.  When one of these is
invalidated and another directory is read, both tables still answer for the one that
is left, and only the larger one for the first. -/
theorem first_directory_only_in_larger_table :
    let listing : Listing := [⟨"f", 1, false, 0⟩]
    let steps : List Step :=
      [.snapshot "/a" listing, .snapshot "/b" listing, .snapshot "/c" listing,
        .lookup "/a" (fingerprint "/a" listing), .invalidate "/b", .snapshot "/d" listing]
    let small := run (.empty ⟨2, by decide⟩) steps
    let large := run (.empty ⟨3, by decide⟩) steps
    small.summaries.map SnapshotSummary.path = ["/c", "/d"] ∧
      large.summaries.map SnapshotSummary.path = ["/c", "/a", "/d"] ∧
      small.entries.Sublist large.entries ∧
      (large.lookup (fingerprint "/c" listing)).1 = some listing := by
  intro listing steps small large
  have hle : (⟨2, by decide⟩ : Capacity).val ≤ (⟨3, by decide⟩ : Capacity).val := by decide
  obtain ⟨hanswers, hentries⟩ := larger_table_answers_alike hle steps
  exact ⟨by decide +kernel, by decide +kernel, hentries,
    hanswers (fingerprint "/c" listing) listing (by decide +kernel)⟩

end HandleTable.Verifiers
