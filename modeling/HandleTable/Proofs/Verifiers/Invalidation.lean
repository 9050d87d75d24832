import HandleTable.Proofs.Recency.Order
import HandleTable.Proofs.Verifiers.Run

/-!
# Invalidating a directory

An invalidation drops the snapshots that carry the path of a directory.  Whoever
presents a verifier that came from that directory must not find anything afterwards.
This needs more than the filter: snapshots stand under a hash, and a snapshot of
another directory that got the same verifier would have taken the place, and the path,
of the first one.

As long as no two different messages collide this cannot happen, because the message
tells directories apart (`path_eq_of_fingerprintBytes_eq`).  The path is hashed with its
length in front, so that no byte of it can pass for a byte of a name.  The names
themselves run together, which is why one directory may still have two listings under
one verifier; both of them go with the directory.

The length is hashed in eight bytes.  `LengthsFit` says that it fits there, which holds
of every text that a machine with addresses of that size can hold.
-/

namespace HandleTable

/-! ## Telling directories apart -/

/-- Eight bytes are enough for the lengths that fit a word. -/
theorem Digest.Sha256.lengthBytes_injective {first second : ℕ} (hfirst : first < UInt64.size)
    (hsecond : second < UInt64.size) (hbytes : lengthBytes first = lengthBytes second) :
    first = second := by
  have hbyte : ∀ position < 8,
      first >>> (8 * (7 - position)) % 256 = second >>> (8 * (7 - position)) % 256 := by
    intro position hposition
    have hsame := List.map_inj_left.mp hbytes position (List.mem_range.mpr hposition)
    simpa using congrArg UInt8.toNat hsame
  -- from the highest byte down, what stands above a byte and the byte itself agree
  have hleading : ∀ count ≤ 8, first >>> (8 * (8 - count)) = second >>> (8 * (8 - count)) := by
    intro count
    induction count with
    | zero =>
        intro _
        rw [Nat.shiftRight_eq_div_pow, Nat.shiftRight_eq_div_pow, Nat.div_eq_of_lt hfirst,
          Nat.div_eq_of_lt hsecond]
    | succ count ih =>
        intro hcount
        have habove := ih (by omega)
        have hplace : 8 * (8 - count) = 8 * (7 - count) + 8 := by omega
        rw [hplace, Nat.shiftRight_add, Nat.shiftRight_add,
          Nat.shiftRight_eq_div_pow _ 8, Nat.shiftRight_eq_div_pow _ 8] at habove
        have hdigit := hbyte count (by omega)
        have hnext : 8 - (count + 1) = 7 - count := by omega
        rw [hnext]
        omega
  simpa using hleading 8 (le_refl 8)

/-- The message of a listing tells of which directory it was taken. -/
theorem path_eq_of_fingerprintBytes_eq {first second : String} {listing other : Listing}
    (hfirst : first.utf8ByteSize < UInt64.size) (hsecond : second.utf8ByteSize < UInt64.size)
    (hmessage : fingerprintBytes first listing = fingerprintBytes second other) :
    first = second := by
  unfold fingerprintBytes at hmessage
  rw [List.append_assoc, List.append_assoc] at hmessage
  obtain ⟨hlength, hrest⟩ := List.append_inj hmessage (by
    rw [Digest.Sha256.length_lengthBytes, Digest.Sha256.length_lengthBytes])
  have hsize := Digest.Sha256.lengthBytes_injective hfirst hsecond hlength
  obtain ⟨hbytes, -⟩ := List.append_inj hrest (by
    rw [Text.length_bytes, Text.length_bytes, hsize])
  exact Text.bytes_injective hbytes

namespace Verifiers

/-- Every directory that a run takes snapshots of has a path whose length fits the eight
bytes that are hashed for it. -/
def LengthsFit (steps : List Step) : Prop :=
  ∀ path listing, .snapshot path listing ∈ steps → path.utf8ByteSize < UInt64.size

theorem LengthsFit.sublist {some all : List Step} (hall : LengthsFit all)
    (hsublist : some.Sublist all) : LengthsFit some :=
  fun path listing hmem => hall path listing (hsublist.subset hmem)

theorem mem_hashed_of_mem {path : String} {listing : Listing} {steps : List Step}
    (hmem : .snapshot path listing ∈ steps) : fingerprintBytes path listing ∈ hashed steps :=
  List.mem_filterMap.mpr ⟨_, hmem, rfl⟩

theorem path_eq_of_fingerprint_eq {steps : List Step} (hcollision : CollisionFree (hashed steps))
    (hlengths : LengthsFit steps) {first second : String} {listing other : Listing}
    (hfirst : .snapshot first listing ∈ steps) (hsecond : .snapshot second other ∈ steps)
    (hverifier : fingerprint first listing = fingerprint second other) : first = second :=
  path_eq_of_fingerprintBytes_eq (hlengths _ _ hfirst) (hlengths _ _ hsecond)
    (hcollision _ (mem_hashed_of_mem hfirst) _ (mem_hashed_of_mem hsecond) hverifier)

/-- What stands under the verifier of a snapshot carries the path of that snapshot. -/
theorem path_of_peek_run {capacity : Capacity} {steps : List Step}
    (hcollision : CollisionFree (hashed steps)) (hlengths : LengthsFit steps) {path : String}
    {listing : Listing} (htaken : .snapshot path listing ∈ steps) {found : Snapshot}
    (hfound : (run (.empty capacity) steps).peek (fingerprint path listing) = some found) :
    found.path = path := by
  rcases peek_of_peek_run hfound with hempty | ⟨hsnapshot, hverifier⟩
  · simp [Recency.peek] at hempty
  · exact path_eq_of_fingerprint_eq hcollision hlengths hsnapshot htaken hverifier.symm

/-! ## What is dropped and what stays -/

theorem mem_entries_invalidate_iff {table : Verifiers} {path : String}
    {entry : Verifier × Snapshot} :
    entry ∈ (table.invalidate path).2.entries ↔ entry ∈ table.entries ∧ entry.2.path ≠ path := by
  simp [invalidate, Recency.eraseWhere]

theorem peek_invalidate_eq_some_iff {table : Verifiers} {path : String} {verifier : Verifier}
    {found : Snapshot} :
    (table.invalidate path).2.peek verifier = some found ↔
      table.peek verifier = some found ∧ found.path ≠ path := by
  rw [Recency.peek_eq_some_iff, Recency.peek_eq_some_iff, mem_entries_invalidate_iff]

theorem invalidate_fst_add_size (table : Verifiers) (path : String) :
    (table.invalidate path).1 + (table.invalidate path).2.size = table.size :=
  (table.entries.length_eq_length_filter_add fun entry => entry.2.path == path).symm

section Run

variable {capacity : Capacity} {before : List Step} {path : String} {listing : Listing}

/-- Nothing stands any longer under the verifiers of the directory. -/
theorem peek_invalidate_eq_none (hcollision : CollisionFree (hashed before))
    (hlengths : LengthsFit before) (htaken : .snapshot path listing ∈ before) :
    ((run (.empty capacity) before).invalidate path).2.peek (fingerprint path listing) = none := by
  cases hpeek : ((run (.empty capacity) before).invalidate path).2.peek
      (fingerprint path listing) with
  | none => rfl
  | some found =>
      obtain ⟨hheld, hpath⟩ := peek_invalidate_eq_some_iff.mp hpeek
      exact absurd (path_of_peek_run hcollision hlengths htaken hheld) hpath

theorem lookup_invalidate_of_ne (hcollision : CollisionFree (hashed before))
    (hlengths : LengthsFit before) {other : String} (htaken : .snapshot other listing ∈ before)
    (hother : other ≠ path) :
    (((run (.empty capacity) before).invalidate path).2.lookup (fingerprint other listing)).1 =
      ((run (.empty capacity) before).lookup (fingerprint other listing)).1 := by
  rw [lookup_fst, lookup_fst]
  congr 1
  apply Option.ext
  intro found
  rw [peek_invalidate_eq_some_iff, and_iff_left_iff_imp]
  intro hpeek
  rwa [path_of_peek_run hcollision hlengths htaken hpeek]

end Run

/-- **Invalidation is complete and keeps to its directory.**  After any requests to an
empty table, invalidate a directory and go on with any requests, where no two different
messages collide.  Every verifier that a snapshot of the directory returned before finds
nothing, until a later snapshot of the directory returns it again.  The verifiers of
all other directories find right afterwards what they found before; the snapshots that
do not carry the path stay, in their order; and the number returned is that by which
the table has become smaller. -/
theorem invalidate_complete_and_scoped (capacity : Capacity) (before later : List Step)
    (path : String) (hcollision : CollisionFree (hashed (before ++ .invalidate path :: later)))
    (hlengths : LengthsFit (before ++ .invalidate path :: later)) :
    let start : Verifiers := .empty capacity
    let table := start.run before
    let after := (table.invalidate path).2
    let final := start.run (before ++ .invalidate path :: later)
    (∀ verifier listing, (verifier, ⟨path, listing⟩) ∈ start.returned before →
      (final.lookup verifier).1 = none ∨
        ∃ again, (verifier, ⟨path, again⟩) ∈ after.returned later) ∧
    (∀ verifier other listing, (verifier, ⟨other, listing⟩) ∈ start.returned before →
      other ≠ path → (after.lookup verifier).1 = (table.lookup verifier).1) ∧
    ((∀ entry, entry ∈ after.entries ↔ entry ∈ table.entries ∧ entry.2.path ≠ path) ∧
      after.entries.Sublist table.entries) ∧
    (table.invalidate path).1 + after.size = table.size := by
  intro start table after final
  have hbefore : before.Sublist (before ++ .invalidate path :: later) :=
    List.sublist_append_left _ _
  have hearlier : CollisionFree (hashed before) :=
    hcollision.sublist (hbefore.filterMap _)
  have hfits : LengthsFit before := hlengths.sublist hbefore
  have hfinal : final = after.run later := by
    simp only [final, run_append]
    rfl
  refine ⟨?_, ?_, ⟨fun entry => mem_entries_invalidate_iff, List.filter_sublist⟩,
    table.invalidate_fst_add_size path⟩
  · intro verifier listing hreturned
    obtain ⟨htaken, rfl⟩ := mem_returned_iff.mp hreturned
    have hdropped : after.peek (fingerprint path listing) = none :=
      peek_invalidate_eq_none hearlier hfits htaken
    rw [hfinal, lookup_fst, Option.map_eq_none_iff]
    cases hpeek : (after.run later).peek (fingerprint path listing) with
    | none => exact Or.inl rfl
    | some found =>
        -- what is found now has been put there since, by a snapshot of the same directory
        right
        rcases peek_of_peek_run hpeek with hkept | ⟨hagain, hverifier⟩
        · rw [hdropped] at hkept
          contradiction
        · have hpath : found.path = path :=
            path_eq_of_fingerprint_eq hcollision hlengths
              (List.mem_append_right _ (List.mem_cons_of_mem _ hagain))
              (List.mem_append_left _ htaken) hverifier.symm
          rw [hpath] at hagain hverifier
          exact ⟨found.listing, mem_returned_iff.mpr ⟨hagain, hverifier⟩⟩
  · intro verifier other listing hreturned hother
    obtain ⟨htaken, rfl⟩ := mem_returned_iff.mp hreturned
    exact lookup_invalidate_of_ne hearlier hfits htaken hother

/-- Of a directory, one above it and one whose path only begins with the same letters,
the first is invalidated; its two verifiers find nothing, although one of its listings
is taken once more with other names and the others are looked up in between. -/
theorem directory_dropped_among_neighbours :
    let one : Listing := [⟨"f", 1, false, 0⟩]
    let two : Listing := [⟨"f", 1, false, 0⟩, ⟨"g", 2, false, 0⟩]
    let three : Listing := [⟨"g", 2, false, 0⟩]
    let before : List Step := [.snapshot "/d" one, .snapshot "/" one, .snapshot "/d" two,
      .snapshot "/de" one]
    let later : List Step := [.lookup "/" (fingerprint "/" one), .snapshot "/d" three]
    let table := run (.empty ⟨4, by decide⟩) before
    let final := run (.empty ⟨4, by decide⟩) (before ++ .invalidate "/d" :: later)
    CollisionFree (hashed (before ++ .invalidate "/d" :: later)) ∧
      LengthsFit (before ++ .invalidate "/d" :: later) ∧
      (final.lookup (fingerprint "/d" one)).1 = none ∧
      (final.lookup (fingerprint "/d" two)).1 = none ∧
      (table.invalidate "/d").1 = 2 ∧
      ((table.invalidate "/d").2.lookup (fingerprint "/de" one)).1 = some one := by
  intro one two three before later table final
  have hcollision : CollisionFree (hashed (before ++ .invalidate "/d" :: later)) := by
    decide +kernel
  have hlengths : LengthsFit (before ++ .invalidate "/d" :: later) := by
    intro path listing hmem
    simp only [before, later, List.cons_append, List.nil_append, List.mem_cons, List.not_mem_nil,
      or_false, Step.snapshot.injEq, reduceCtorEq, false_or] at hmem
    rcases hmem with ⟨rfl, -⟩ | ⟨rfl, -⟩ | ⟨rfl, -⟩ | ⟨rfl, -⟩ | ⟨rfl, -⟩ <;> decide
  obtain ⟨hgone, hkept, -, -⟩ :=
    invalidate_complete_and_scoped ⟨4, by decide⟩ before later "/d" hcollision hlengths
  have hreturned : ∀ path listing, .snapshot path listing ∈ before →
      (fingerprint path listing, ⟨path, listing⟩) ∈ returned (.empty ⟨4, by decide⟩) before :=
    fun _ _ htaken => mem_returned_iff.mpr ⟨htaken, rfl⟩
  have hnone : ∀ listing, .snapshot "/d" listing ∈ before →
      fingerprintBytes "/d" three ≠ fingerprintBytes "/d" listing →
      (final.lookup (fingerprint "/d" listing)).1 = none := by
    intro listing htaken hdiffers
    refine (hgone _ listing (hreturned _ _ htaken)).resolve_right ?_
    rintro ⟨again, hmem⟩
    obtain ⟨hagain, hverifier⟩ := mem_returned_iff.mp hmem
    have hthree : again = three := by simpa [later] using hagain
    subst hthree
    exact hdiffers (hcollision _ (mem_hashed_of_mem (by simp [later])) _
      (mem_hashed_of_mem (List.mem_append_left _ htaken)) hverifier.symm)
  refine ⟨hcollision, hlengths, hnone one (by simp [before]) (by decide),
    hnone two (by simp [before]) (by decide), by decide +kernel, ?_⟩
  rw [hkept _ "/de" one (hreturned _ _ (by simp [before])) (by decide)]
  decide +kernel

end Verifiers

end HandleTable
