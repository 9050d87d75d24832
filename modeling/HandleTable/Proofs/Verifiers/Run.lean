import HandleTable.Verifiers
import HandleTable.Proofs.Recency.Order

/-!
# Runs of the listing table

A run is a list of requests to the table of listing snapshots.  For the answers
only one thing matters about a request: under which verifier it puts which
snapshot.  `peek_of_peek_step` says that whatever is found after a request was
there before or was put there by it; evictions and invalidations only take away.

Verifiers are told apart by a hash.  `hashed` lists the messages that a run
hashes, and `CollisionFree` says of such a list that different messages get
different verifiers.
-/

namespace HandleTable.Verifiers

/-- One request to the table.  The path that a lookup names is not looked at. -/
inductive Step where
  | snapshot (path : String) (listing : Listing)
  | lookup (path : String) (verifier : Verifier)
  | invalidate (path : String)
deriving DecidableEq

/-- The table after a request. -/
def step (table : Verifiers) : Step → Verifiers
  | .snapshot path listing => (table.snapshot path listing).2
  | .lookup _ verifier => (table.lookup verifier).2
  | .invalidate path => (table.invalidate path).2

/-- The table after a list of requests. -/
def run (table : Verifiers) (steps : List Step) : Verifiers :=
  steps.foldl step table

@[simp] theorem run_append (table : Verifiers) (first second : List Step) :
    table.run (first ++ second) = (table.run first).run second := by
  simp [run]

/-- The verifier that a request returns to the client, with the snapshot that it was
returned for; only snapshots return one. -/
def returned? (table : Verifiers) : Step → Option (Verifier × Snapshot)
  | .snapshot path listing => some ((table.snapshot path listing).1, ⟨path, listing⟩)
  | _ => none

/-- What the requests of a run return, in order. -/
def returned (table : Verifiers) : List Step → List (Verifier × Snapshot)
  | [] => []
  | request :: rest => (table.returned? request).toList ++ returned (table.step request) rest

theorem mem_toList_returned?_iff {table : Verifiers} {request : Step} {verifier : Verifier}
    {taken : Snapshot} :
    (verifier, taken) ∈ (table.returned? request).toList ↔
      request = .snapshot taken.path taken.listing ∧
        verifier = fingerprint taken.path taken.listing := by
  cases request with
  | snapshot path listing =>
      constructor
      · intro hmem
        cases List.mem_singleton.mp hmem
        exact ⟨rfl, rfl⟩
      · rintro ⟨hrequest, rfl⟩
        cases hrequest
        exact List.mem_singleton_self _
  | lookup path named => simp [returned?]
  | invalidate path => simp [returned?]

/-- Whatever the table held at the time, a snapshot returned the fingerprint of its
listing. -/
theorem mem_returned_iff {table : Verifiers} {steps : List Step} {verifier : Verifier}
    {taken : Snapshot} :
    (verifier, taken) ∈ table.returned steps ↔
      .snapshot taken.path taken.listing ∈ steps ∧
        verifier = fingerprint taken.path taken.listing := by
  induction steps generalizing table with
  | nil => simp [returned]
  | cons request rest ih =>
      rw [returned, List.mem_append, mem_toList_returned?_iff, ih, List.mem_cons, or_and_right,
        eq_comm]

/-- The message that a request hashes. -/
def Step.hashed? : Step → Option (List UInt8)
  | .snapshot path listing => some (fingerprintBytes path listing)
  | _ => none

/-- The messages that a run hashes. -/
def hashed (steps : List Step) : List (List UInt8) :=
  steps.filterMap Step.hashed?

@[simp] theorem hashed_append (first second : List Step) :
    hashed (first ++ second) = hashed first ++ hashed second := by
  simp [hashed]

@[simp] theorem hashed_snapshot_cons (path : String) (listing : Listing) (rest : List Step) :
    hashed (.snapshot path listing :: rest) = fingerprintBytes path listing :: hashed rest := rfl

/-- No two different messages agree in the first eight bytes of their hashes. -/
def CollisionFree (messages : List (List UInt8)) : Prop :=
  ∀ first ∈ messages, ∀ second ∈ messages,
    Digest.Sha256.leadingWord first = Digest.Sha256.leadingWord second → first = second

instance (messages : List (List UInt8)) : Decidable (CollisionFree messages) :=
  inferInstanceAs (Decidable (∀ first ∈ messages, ∀ second ∈ messages, _ → _))

theorem CollisionFree.sublist {some all : List (List UInt8)} (hall : CollisionFree all)
    (hsublist : some.Sublist all) : CollisionFree some :=
  fun first hfirst second hsecond =>
    hall first (hsublist.subset hfirst) second (hsublist.subset hsecond)

theorem peek_snapshot_self (table : Verifiers) (path : String) (listing : Listing) :
    (table.snapshot path listing).2.peek (fingerprint path listing) = some ⟨path, listing⟩ :=
  table.peek_insert_self _ _

/-- **A snapshot whose verifier is held** takes the place of what was held under it: the
verifiers are those from before, and this one is the last that was used. -/
theorem snapshot_of_contains {table : Verifiers} {path : String} {listing : Listing}
    (hheld : table.contains (fingerprint path listing) = true) :
    (table.snapshot path listing).2.entries =
        table.others (fingerprint path listing) ++ [(fingerprint path listing, ⟨path, listing⟩)] ∧
      (table.snapshot path listing).2.keys.Perm table.keys := by
  have hentries : (table.snapshot path listing).2.entries =
      table.refreshed (fingerprint path listing) ⟨path, listing⟩ :=
    (Recency.insert_of_contains hheld _).1
  have hkey : fingerprint path listing ∈ table.keys := by
    obtain ⟨found, hfound⟩ := Option.isSome_iff_exists.mp hheld
    exact Recency.mem_keys_iff.mpr ⟨found, hfound⟩
  refine ⟨hentries, ?_⟩
  rw [Recency.keys, hentries, Recency.keys_refreshed]
  exact (List.perm_append_singleton _ _).trans (List.perm_cons_erase hkey).symm

theorem snapshot_of_peek {table : Verifiers} {path : String} {listing : Listing}
    (hpeek : table.peek (fingerprint path listing) = some ⟨path, listing⟩) :
    (table.snapshot path listing).2 = (table.lookup (fingerprint path listing)).2 :=
  (Recency.get_snd_of_peek hpeek).symm

/-- Whatever is found after a request was there before or was put there by it. -/
theorem peek_of_peek_step {table : Verifiers} {request : Step} {verifier : Verifier}
    {found : Snapshot} (hfound : (table.step request).peek verifier = some found) :
    table.peek verifier = some found ∨
      request = .snapshot found.path found.listing ∧
        verifier = fingerprint found.path found.listing := by
  cases request with
  | snapshot path listing =>
      by_cases hsame : verifier = fingerprint path listing
      · rw [hsame, step, peek_snapshot_self] at hfound
        cases hfound
        exact Or.inr ⟨rfl, hsame⟩
      · exact Or.inl (Recency.peek_of_peek_insert hsame hfound)
  | lookup path named =>
      rw [step, lookup, Recency.peek_get] at hfound
      exact Or.inl hfound
  | invalidate path => exact Or.inl (Recency.peek_of_peek_eraseWhere hfound)

/-- Whatever is found after a run was there before or was put there by a snapshot of the
run. -/
theorem peek_of_peek_run {table : Verifiers} {steps : List Step} {verifier : Verifier}
    {found : Snapshot} (hfound : (table.run steps).peek verifier = some found) :
    table.peek verifier = some found ∨
      .snapshot found.path found.listing ∈ steps ∧
        verifier = fingerprint found.path found.listing := by
  induction steps generalizing table with
  | nil => exact Or.inl hfound
  | cons request rest ih =>
      rcases ih hfound with hstep | ⟨hmem, hverifier⟩
      · refine (peek_of_peek_step hstep).imp_right ?_
        rintro ⟨rfl, hverifier⟩
        exact ⟨List.mem_cons_self, hverifier⟩
      · exact Or.inr ⟨List.mem_cons_of_mem _ hmem, hverifier⟩

theorem peek_of_peek_step_of_hashed?_eq_none {table : Verifiers} {request : Step}
    {verifier : Verifier} {found : Snapshot} (hnone : request.hashed? = none)
    (hfound : (table.step request).peek verifier = some found) :
    table.peek verifier = some found := by
  rcases peek_of_peek_step hfound with hkept | ⟨rfl, -⟩
  · exact hkept
  · contradiction

end HandleTable.Verifiers
