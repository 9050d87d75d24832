import HandleTable.Proofs.Verifiers.Run

/-!
# Coherence of paged reads

The pages of one read are cut from whatever the table finds under the read's
verifier.  The verifier hashes the path with its length, but the names one
straight after the other, so different listings of a directory get the same
verifier when their names run together to the same bytes: `ab` and `a`, `b` do.
The later of two such snapshots then takes the place of the earlier one.

`lookup_coherent_iff` says what a lookup finds, as long as no two different
messages collide: nothing, or the listing taken last among the snapshots that
hashed the same bytes.  So the pages are cut from a listing with the names of the
first page exactly when this last one has them, or when nothing is found.
-/

namespace HandleTable.Verifiers

/-- The listing taken last among the snapshots that hash `message`; `listing` when
there are none. -/
def latest (message : List UInt8) (listing : Listing) : List Step → Listing
  | [] => listing
  | .snapshot path taken :: rest =>
    latest message (if fingerprintBytes path taken = message then taken else listing) rest
  | _ :: rest => latest message listing rest

/-- An answer serves the pages of a listing: it is missing, or the names are the same
and at the same positions. -/
def Coherent (answer : Option Listing) (listing : Listing) : Prop :=
  ∀ found, answer = some found → found.names = listing.names

/-- What stands under the verifier of a message is the listing last taken of it. -/
theorem peek_run_eq_latest {message : List UInt8} {table : Verifiers} {listing : Listing}
    {steps : List Step} (hcollision : CollisionFree (message :: hashed steps))
    (hbefore : ∀ found, table.peek (Digest.Sha256.leadingWord message) = some found →
      found.listing = listing) :
    ∀ found, (table.run steps).peek (Digest.Sha256.leadingWord message) = some found →
      found.listing = latest message listing steps := by
  induction steps generalizing table listing with
  | nil => exact hbefore
  | cons request rest ih =>
      have hrest : CollisionFree (message :: hashed rest) := by
        refine hcollision.sublist (List.Sublist.cons_cons _ ?_)
        exact (List.sublist_cons_self request rest).filterMap _
      cases request with
      | lookup path named =>
          exact ih hrest fun found hfound =>
            hbefore found (peek_of_peek_step_of_hashed?_eq_none rfl hfound)
      | invalidate path =>
          exact ih hrest fun found hfound =>
            hbefore found (peek_of_peek_step_of_hashed?_eq_none rfl hfound)
      | snapshot path taken =>
          refine ih hrest fun found hfound => ?_
          by_cases hsame : fingerprintBytes path taken = message
          · have hself := table.peek_snapshot_self path taken
            rw [fingerprint, hsame] at hself
            rw [if_pos hsame]
            rw [step, hself] at hfound
            cases hfound
            rfl
          · -- another message gets another verifier
            rw [if_neg hsame]
            rcases peek_of_peek_step hfound with hkept | ⟨hsnapshot, hverifier⟩
            · exact hbefore found hkept
            · cases hsnapshot
              refine absurd ?_ hsame
              exact (hcollision _ (List.mem_cons_self ..) _
                (List.mem_cons_of_mem _ (List.mem_cons_self ..)) hverifier).symm

/-- **What a later page is cut from.**  After a snapshot and any further requests, with
no two different hashed messages colliding, the verifier of the snapshot finds
nothing or the listing last taken among those that hashed the same bytes.  So it
finds nothing or the names of the snapshot, in their positions, exactly when
nothing is found or that last listing has these names. -/
theorem lookup_coherent_iff (capacity : Capacity) (before between : List Step) (path : String)
    (listing : Listing)
    (hcollision : CollisionFree (hashed (before ++ .snapshot path listing :: between))) :
    let verifier := ((run (.empty capacity) before).snapshot path listing).1
    let table := run (.empty capacity) (before ++ .snapshot path listing :: between)
    let answer := (table.lookup verifier).1
    let last := latest (fingerprintBytes path listing) listing between
    (answer = none ∨ answer = some last) ∧
      (Coherent answer listing ↔ answer = none ∨ last.names = listing.names) := by
  intro verifier table answer last
  -- from the snapshot on, only snapshots of the same message change what is found
  have hopened := (run (.empty capacity) before).peek_snapshot_self path listing
  have htail : CollisionFree (fingerprintBytes path listing :: hashed between) := by
    refine hcollision.sublist ?_
    rw [hashed_append, hashed_snapshot_cons]
    exact List.sublist_append_right _ _
  have htable : table = ((run (.empty capacity) before).snapshot path listing).2.run between := by
    simp only [table, run_append]
    rfl
  have hlatest : ∀ found, table.peek verifier = some found → found.listing = last := by
    rw [htable]
    refine peek_run_eq_latest htail fun found hfound => ?_
    rw [← fingerprint, hopened] at hfound
    cases hfound
    rfl
  have hanswer : answer = none ∨ answer = some last := by
    simp only [answer, lookup_fst]
    cases hpeek : table.peek verifier with
    | none => exact Or.inl rfl
    | some found => exact Or.inr (by rw [Option.map_some, hlatest found hpeek])
  refine ⟨hanswer, ?_⟩
  unfold Coherent
  rcases hanswer with hnone | hlast
  · simp [hnone]
  · simp [hlast]

/-- A listing with the one name `ab` is answered by a later one of the same directory
with the names `a` and `b`; the same listing of another directory does not matter. -/
theorem joined_answered_by_split :
    let joined : Listing := [⟨"ab", 0, false, 0⟩]
    let split : Listing := [⟨"a", 0, false, 0⟩, ⟨"b", 0, false, 0⟩]
    let before : List Step := [.snapshot "/e" joined]
    let steps := before ++ .snapshot "/d" joined :: [.snapshot "/d" split]
    let verifier := ((run (.empty ⟨2, by decide⟩) before).snapshot "/d" joined).1
    let answer := ((run (.empty ⟨2, by decide⟩) steps).lookup verifier).1
    CollisionFree (hashed steps) ∧ (answer = none ∨ answer = some split) ∧
      (Coherent answer joined ↔ answer = none) := by
  intro joined split before steps verifier answer
  have hcollision : CollisionFree (hashed steps) := by decide +kernel
  obtain ⟨hanswer, hcoherent⟩ := lookup_coherent_iff ⟨2, by decide⟩ _ _ _ _ hcollision
  have hlast : latest (fingerprintBytes "/d" joined) joined [.snapshot "/d" split] = split := by
    decide
  have hnames : split.names ≠ joined.names := by decide
  rw [hlast] at hanswer hcoherent
  exact ⟨hcollision, hanswer, hcoherent.trans (or_iff_left hnames)⟩

/-- A lookup may find other names than the snapshot had whose verifier it presents. -/
theorem not_lookup_coherent :
    ¬ ∀ (capacity : Capacity) (before between : List Step) (path : String) (listing : Listing),
      CollisionFree (hashed (before ++ .snapshot path listing :: between)) →
      Coherent ((run (.empty capacity) (before ++ .snapshot path listing :: between)).lookup
        ((run (.empty capacity) before).snapshot path listing).1).1 listing := by
  intro hcoherent
  have hmessage : fingerprintBytes "/d" [⟨"ab", 0, false, 0⟩] =
      fingerprintBytes "/d" [⟨"a", 0, false, 0⟩, ⟨"b", 0, false, 0⟩] := by decide
  have hverifier : fingerprint "/d" [⟨"ab", 0, false, 0⟩] =
      fingerprint "/d" [⟨"a", 0, false, 0⟩, ⟨"b", 0, false, 0⟩] := by
    rw [fingerprint, hmessage, fingerprint]
  have hsame := hcoherent ⟨1, by decide⟩ []
    [.snapshot "/d" [⟨"a", 0, false, 0⟩, ⟨"b", 0, false, 0⟩]] "/d" [⟨"ab", 0, false, 0⟩]
    (by decide +kernel) [⟨"a", 0, false, 0⟩, ⟨"b", 0, false, 0⟩] (by
      rw [snapshot_fst, lookup_fst, hverifier]
      exact congrArg (Option.map Snapshot.listing) (peek_snapshot_self _ "/d" _))
  exact absurd hsame (by decide)

end HandleTable.Verifiers
