import HandleTable.Proofs.Recency.Eviction
import HandleTable.Proofs.Verifiers.Run

/-!
# What a lookup finds and why it misses

A lookup answers with the listing of the last snapshot that returned its verifier, and
it misses only for one of three causes: no snapshot ever returned the verifier, the
directory of the last one that did has been invalidated since, or as many other
verifiers as there is room for have been used since the last use of this one.

Nothing is assumed about the hash.  Different listings, or even different directories,
may share a verifier; then the last of them counts, also for the question whose
directory must not have been invalidated.

Both halves are kept by one invariant over the requests made so far and the history of
uses.  `Accounts.found` traces whatever is held back to its snapshot, `Accounts.missing`
keeps the cause for which a verifier is missing.  Evictions need the third part,
`Accounts.listed`: the verifiers stand in the order of their last use.
-/

namespace HandleTable.Verifiers

/-! ## Snapshots and uses of a run -/

/-- The verifiers that a request uses: the one that it returns, or the one that it looks
up and finds. -/
def used (table : Verifiers) : Step → List Verifier
  | .snapshot path listing => [(table.snapshot path listing).1]
  | .lookup _ verifier => if (table.lookup verifier).1.isSome then [verifier] else []
  | .invalidate _ => []

/-- All uses of a run, in order. -/
def history (table : Verifiers) : List Step → List Verifier
  | [] => []
  | request :: rest => table.used request ++ history (table.step request) rest

/-- The last request of a run that returned a verifier was the snapshot `taken`, and
`later` are the requests that followed it. -/
def LastTaken (start : Verifiers) (steps : List Step) (verifier : Verifier) (taken : Snapshot)
    (later : List Step) : Prop :=
  ∃ before, steps = before ++ .snapshot taken.path taken.listing :: later ∧
    let answer := (start.run before).snapshot taken.path taken.listing
    verifier = answer.1 ∧ ∀ again, (verifier, again) ∉ answer.2.returned later

theorem used_lookup (table : Verifiers) (path : String) (verifier : Verifier) :
    table.used (.lookup path verifier) =
      if (table.peek verifier).isSome then [verifier] else [] := by
  simp [used, lookup_fst]

theorem history_append (table : Verifiers) (first second : List Step) :
    table.history (first ++ second) = table.history first ++ (table.run first).history second := by
  induction first generalizing table with
  | nil => rfl
  | cons request rest ih =>
      rw [List.cons_append, history, history, ih, List.append_assoc]
      rfl

theorem mem_history_of_mem_returned {table : Verifiers} {steps : List Step}
    {verifier : Verifier} {taken : Snapshot}
    (hreturned : (verifier, taken) ∈ table.returned steps) :
    verifier ∈ table.history steps := by
  induction steps generalizing table with
  | nil => simp [returned] at hreturned
  | cons request rest ih =>
      rw [returned, List.mem_append, mem_toList_returned?_iff] at hreturned
      rcases hreturned with ⟨rfl, rfl⟩ | hlater
      · exact List.mem_append_left _ (List.mem_singleton_self _)
      · exact List.mem_append_right _ (ih hlater)

namespace LastTaken

variable {start : Verifiers} {steps later : List Step} {verifier : Verifier} {taken : Snapshot}

theorem now (start : Verifiers) (steps : List Step) (path : String) (listing : Listing) :
    LastTaken start (steps ++ [.snapshot path listing]) (fingerprint path listing)
      ⟨path, listing⟩ [] :=
  ⟨steps, rfl, rfl, fun _ => List.not_mem_nil⟩

theorem verifier_eq (htaken : LastTaken start steps verifier taken later) :
    verifier = fingerprint taken.path taken.listing := by
  obtain ⟨before, -, hanswer, -⟩ := htaken
  exact hanswer

protected theorem append (htaken : LastTaken start steps verifier taken later) {request : Step}
    (hother : ∀ path listing, request = .snapshot path listing →
      verifier ≠ fingerprint path listing) :
    LastTaken start (steps ++ [request]) verifier taken (later ++ [request]) := by
  obtain ⟨before, hsteps, hanswer, hlater⟩ := htaken
  refine ⟨before, by rw [hsteps, List.append_assoc, List.cons_append], hanswer, ?_⟩
  intro again hagain
  obtain ⟨hmem, hverifier⟩ := mem_returned_iff.mp hagain
  rcases List.mem_append.mp hmem with hearlier | hnow
  · exact hlater again (mem_returned_iff.mpr ⟨hearlier, hverifier⟩)
  · exact hother _ _ (List.mem_singleton.mp hnow).symm hverifier

end LastTaken

/-! ## Causes of a miss -/

/-- A cause for which a verifier that was returned is missing: the directory of its last
snapshot has been invalidated since, or as many others as there is room for have been
used since its last use. -/
def HasCause (start : Verifiers) (steps : List Step) (uses : List Verifier)
    (verifier : Verifier) : Prop :=
  (∃ taken later, LastTaken start steps verifier taken later ∧ .invalidate taken.path ∈ later) ∨
    start.capacity.val ≤ (usedSince uses verifier).toFinset.card

/-- A cause remains one as long as the verifier is neither returned nor used. -/
theorem HasCause.append {start : Verifiers} {steps : List Step} {uses more : List Verifier}
    {verifier : Verifier} {request : Step} (hcause : HasCause start steps uses verifier)
    (hother : ∀ path listing, request = .snapshot path listing →
      verifier ≠ fingerprint path listing)
    (hused : verifier ∉ more) :
    HasCause start (steps ++ [request]) (uses ++ more) verifier := by
  rcases hcause with ⟨taken, later, htaken, hinvalidated⟩ | hmany
  · exact Or.inl ⟨taken, later ++ [request], htaken.append hother,
      List.mem_append_left _ hinvalidated⟩
  · right
    rw [usedSince_append_of_not_mem uses hused, List.toFinset_append]
    exact hmany.trans (Finset.card_le_card Finset.subset_union_left)

/-- The requests made so far and the uses that they made account for the table: what is
held comes from the last snapshot that returned its verifier, whose directory has not
been invalidated since; what is missing has a cause; and the verifiers are listed by
their last use. -/
structure Accounts (start : Verifiers) (steps : List Step) (uses : List Verifier)
    (table : Verifiers) : Prop where
  capacity_eq : table.capacity = start.capacity
  found : ∀ verifier taken, table.peek verifier = some taken →
    ∃ later, LastTaken start steps verifier taken later ∧ .invalidate taken.path ∉ later
  missing : ∀ path listing, .snapshot path listing ∈ steps →
    table.peek (fingerprint path listing) = none →
      HasCause start steps uses (fingerprint path listing)
  listed : table.ListedByUse uses

theorem accounts_empty (capacity : Capacity) :
    Accounts (.empty capacity) [] [] (.empty capacity) where
  capacity_eq := rfl
  found verifier taken hpeek := by simp [Recency.peek] at hpeek
  missing path listing htaken := absurd htaken List.not_mem_nil
  listed := Recency.listedByUse_empty capacity

namespace Accounts

variable {start : Verifiers} {steps : List Step} {uses : List Verifier} {table : Verifiers}

/-- A snapshot puts itself under its verifier; the verifier that it evicts, if any, has
been followed by enough others. -/
theorem snapshot (haccounts : Accounts start steps uses table) (path : String)
    (listing : Listing) :
    Accounts start (steps ++ [.snapshot path listing]) (uses ++ [fingerprint path listing])
      (table.snapshot path listing).2 where
  capacity_eq := (table.capacity_insert _ _).trans haccounts.capacity_eq
  found verifier taken hpeek := by
    by_cases hsame : verifier = fingerprint path listing
    · rw [hsame, peek_snapshot_self, Option.some_inj] at hpeek
      subst hsame hpeek
      exact ⟨[], .now start steps path listing, List.not_mem_nil⟩
    · obtain ⟨later, htaken, hvalid⟩ :=
        haccounts.found verifier taken (Recency.peek_of_peek_insert hsame hpeek)
      refine ⟨later ++ [.snapshot path listing], htaken.append ?_, by simpa using hvalid⟩
      rintro _ _ ⟨⟩
      exact hsame
  missing other taken htaken hpeek := by
    have hsame : fingerprint other taken ≠ fingerprint path listing := by
      intro hsame
      rw [hsame, peek_snapshot_self] at hpeek
      contradiction
    have hearlier : .snapshot other taken ∈ steps := by
      refine (List.mem_append.mp htaken).resolve_right fun hnow => ?_
      cases List.mem_singleton.mp hnow
      exact hsame rfl
    cases hbefore : table.peek (fingerprint other taken) with
    | none =>
        refine (haccounts.missing other taken hearlier hbefore).append ?_ (by simpa using hsame)
        rintro _ _ ⟨⟩
        exact hsame
    | some found =>
        -- it was held until now, so it has just been evicted
        right
        rw [← haccounts.capacity_eq]
        exact haccounts.listed.card_usedSince_of_evicted
          (Recency.mem_keys_iff.mpr ⟨found, hbefore⟩) (Recency.peek_eq_none_iff.mp hpeek)
  listed := haccounts.listed.insert _ _

/-- A lookup changes no answer, and one that finds something is a use. -/
theorem lookup (haccounts : Accounts start steps uses table) (path : String)
    (named : Verifier) :
    Accounts start (steps ++ [.lookup path named]) (uses ++ table.used (.lookup path named))
      (table.lookup named).2 where
  capacity_eq := (table.capacity_get named).trans haccounts.capacity_eq
  found verifier taken hpeek := by
    rw [Verifiers.lookup, Recency.peek_get] at hpeek
    obtain ⟨later, htaken, hvalid⟩ := haccounts.found verifier taken hpeek
    exact ⟨later ++ [.lookup path named], htaken.append (by simp), by simpa using hvalid⟩
  missing other taken htaken hpeek := by
    rw [Verifiers.lookup, Recency.peek_get] at hpeek
    have hunused : fingerprint other taken ∉ table.used (.lookup path named) := by
      rw [used_lookup]
      split
      · rename_i hfound
        rw [List.mem_singleton]
        rintro rfl
        simp [hpeek] at hfound
      · exact List.not_mem_nil
    exact (haccounts.missing other taken (by simpa using htaken) hpeek).append (by simp) hunused
  listed := by
    cases hpeek : table.peek named with
    | none => simpa [Verifiers.lookup, used_lookup, Recency.get, hpeek] using haccounts.listed
    | some taken =>
        have hused : table.used (.lookup path named) = [named] := by simp [used_lookup, hpeek]
        rw [hused, Verifiers.lookup, Recency.get_snd_of_peek hpeek]
        exact haccounts.listed.insert named taken

/-- An invalidation drops the snapshots of one directory and uses nothing. -/
theorem invalidate (haccounts : Accounts start steps uses table) (path : String) :
    Accounts start (steps ++ [.invalidate path]) (uses ++ []) (table.invalidate path).2 where
  capacity_eq := haccounts.capacity_eq
  found verifier taken hpeek := by
    obtain ⟨later, htaken, hvalid⟩ :=
      haccounts.found verifier taken (Recency.peek_of_peek_eraseWhere hpeek)
    have hother : taken.path ≠ path := by
      rw [Verifiers.invalidate, Recency.peek_eq_some_iff] at hpeek
      simpa using (List.mem_filter.mp hpeek).2
    refine ⟨later ++ [.invalidate path], htaken.append (by simp), ?_⟩
    simpa [hother] using hvalid
  missing other taken htaken hpeek := by
    cases hbefore : table.peek (fingerprint other taken) with
    | none =>
        exact (haccounts.missing other taken (by simpa using htaken) hbefore).append (by simp)
          List.not_mem_nil
    | some found =>
        -- it was held until now, so it has been taken of this directory
        have hpath : found.path = path := by
          by_contra hother
          have hkept :
              (table.invalidate path).2.peek (fingerprint other taken) = some found := by
            rw [Recency.peek_eq_some_iff] at hbefore ⊢
            exact List.mem_filter.mpr ⟨hbefore, by simpa using hother⟩
          rw [hpeek] at hkept
          contradiction
        obtain ⟨later, hlast, -⟩ := haccounts.found _ found hbefore
        exact Or.inl ⟨found, later ++ [.invalidate path], hlast.append (by simp), by simp [hpath]⟩
  listed := by
    rw [List.append_nil]
    exact haccounts.listed.eraseWhere _

protected theorem step (haccounts : Accounts start steps uses table) (request : Step) :
    Accounts start (steps ++ [request]) (uses ++ table.used request) (table.step request) := by
  cases request with
  | snapshot path listing => exact haccounts.snapshot path listing
  | lookup path named => exact haccounts.lookup path named
  | invalidate path => exact haccounts.invalidate path

theorem run (capacity : Capacity) (steps : List Step) :
    Accounts (.empty capacity) steps (history (.empty capacity) steps)
      (Verifiers.run (.empty capacity) steps) := by
  induction steps using List.reverseRecOn with
  | nil => exact accounts_empty capacity
  | append_singleton steps request ih =>
      rw [run_append, history_append, history, history, List.append_nil]
      exact ih.step request

end Accounts

/-- **A lookup finds the latest snapshot and misses only for cause.**  After any requests
to an empty table: every snapshot stands under its own fingerprint; a verifier that is
answered is answered with the whole listing of the last snapshot that returned it, and
the directory of that snapshot has not been invalidated since; and a verifier that is
not answered was never returned, or the directory of the last snapshot that returned it
has been invalidated since, or at least as many other verifiers as there is room for
have been used since its last use. -/
theorem lookup_finds_latest_snapshot (capacity : Capacity) (steps : List Step) :
    let start : Verifiers := .empty capacity
    let table := start.run steps
    let uses := start.history steps
    (∀ verifier taken, (verifier, taken) ∈ table.entries →
      verifier = fingerprint taken.path taken.listing) ∧
    (∀ verifier listing, (table.lookup verifier).1 = some listing →
      ∃ path later, LastTaken start steps verifier ⟨path, listing⟩ later ∧
        .invalidate path ∉ later) ∧
    ∀ verifier, (table.lookup verifier).1 = none →
      (∀ taken, (verifier, taken) ∉ start.returned steps) ∨
      (∃ taken later, LastTaken start steps verifier taken later ∧
        .invalidate taken.path ∈ later) ∨
      verifier ∈ uses ∧ capacity.val ≤ (usedSince uses verifier).toFinset.card := by
  intro start table uses
  have haccounts : Accounts start steps uses table := .run capacity steps
  refine ⟨?_, ?_, ?_⟩
  · intro verifier taken hentry
    obtain ⟨later, htaken, -⟩ :=
      haccounts.found verifier taken (Recency.peek_eq_some_iff.mpr hentry)
    exact htaken.verifier_eq
  · intro verifier listing hanswer
    rw [lookup_fst, Option.map_eq_some_iff] at hanswer
    obtain ⟨taken, hpeek, rfl⟩ := hanswer
    obtain ⟨later, htaken, hvalid⟩ := haccounts.found verifier taken hpeek
    exact ⟨taken.path, later, htaken, hvalid⟩
  · intro verifier hanswer
    rw [lookup_fst, Option.map_eq_none_iff] at hanswer
    by_cases hreturned : ∃ taken, (verifier, taken) ∈ start.returned steps
    · right
      obtain ⟨taken, hmem⟩ := hreturned
      obtain ⟨htaken, rfl⟩ := mem_returned_iff.mp hmem
      exact (haccounts.missing _ _ htaken hanswer).imp_right fun hmany =>
        ⟨mem_history_of_mem_returned hmem, hmany⟩
    · exact Or.inl (not_exists.mp hreturned)

end HandleTable.Verifiers
