import HandleTable.Proofs.Handles.Run
import HandleTable.Proofs.Recency.Inclusion

/-!
# Refused handles

Bytes are accepted in exactly one case: when they are the sixteen bytes of a handle that
is live.  Bytes of another length, handles that were never minted and handles that have
been evicted are all refused, and nobody outside can tell them apart.  `Presents` says
when bytes are accepted; it does not speak of the request, since all requests take the
same decision.

A refusal leaves no trace.  This is not for free: a rename looks for the directory by
using it, and a rebinding writes into the table, which could evict an entry.  But neither
gets that far unless the handle is held, and then nothing has to make room for it.  So
`stale_handle_fails_cleanly` holds of every table, full ones included, and a client that
presents such bytes again and again moves nothing.
-/

namespace HandleTable.Handles

variable {σ : Type}

/-- The bytes are those of a live handle. -/
def Presents (table : Handles σ) (wire : List UInt8) : Prop :=
  ∃ handle ∈ table.keys, handle.bytes = wire

instance (table : Handles σ) (wire : List UInt8) : Decidable (table.Presents wire) :=
  inferInstanceAs (Decidable (∃ handle ∈ table.keys, handle.bytes = wire))

/-- How a request ends that presents some bytes: it is accepted when they are those of a
live handle, and otherwise refused as stale; a refusal leaves the table as it was. -/
structure FailsCleanly {α : Type} (table : Handles σ) (wire : List UInt8)
    (outcome : Except HandleError α × Handles σ) : Prop where
  accepted_iff : (∃ answer, outcome.1 = .ok answer) ↔ table.Presents wire
  refused_iff : outcome.1 = .error .stale ↔ ¬ table.Presents wire
  unchanged : outcome.1 = .error .stale → outcome.2 = table

/-- The bytes that a request presents; a mint presents none. -/
def Step.wire? : Step σ → Option (List UInt8)
  | .mint _ _ _ => none
  | .resolve wire => some wire
  | .rename wire _ _ => some wire
  | .rebind wire _ _ => some wire

theorem presents_iff {table : Handles σ} {wire : List UInt8} :
    table.Presents wire ↔ ∃ handle target, table.live? wire = some (handle, target) := by
  simp only [live?_eq_some_iff, Presents, Recency.mem_keys_iff]
  constructor
  · rintro ⟨handle, ⟨target, hpeek⟩, hbytes⟩
    exact ⟨handle, target, hbytes.symm, hpeek⟩
  · rintro ⟨handle, target, hbytes, hpeek⟩
    exact ⟨handle, ⟨target, hpeek⟩, hbytes.symm⟩

theorem live?_eq_none_of_not_presents {table : Handles σ} {wire : List UInt8}
    (hstale : ¬ table.Presents wire) : table.live? wire = none := by
  cases hlive : table.live? wire with
  | none => rfl
  | some found => exact absurd (presents_iff.mpr ⟨found.1, found.2, hlive⟩) hstale

theorem get_of_not_presents {table : Handles σ} {handle : Handle}
    (hstale : ¬ table.Presents handle.bytes) : table.get handle = (none, table) := by
  have hkey : handle ∉ table.keys := fun hkey => hstale ⟨handle, hkey, rfl⟩
  apply Prod.ext
  · rw [Recency.get_fst, Recency.peek_eq_none_iff.mpr hkey]
  · exact Recency.get_snd_of_not_mem hkey

/-- A request fails cleanly when it answers as soon as a live handle is found, and is
refused without any effect when none is. -/
theorem failsCleanly_of_live? {α : Type} {table : Handles σ} {wire : List UInt8}
    {outcome : Except HandleError α × Handles σ}
    (hlive : ∀ handle target, table.live? wire = some (handle, target) →
      ∃ answer, outcome.1 = .ok answer)
    (hstale : table.live? wire = none → outcome = (.error .stale, table)) :
    FailsCleanly table wire outcome := by
  by_cases hpresents : table.Presents wire
  · obtain ⟨handle, target, hfound⟩ := presents_iff.mp hpresents
    obtain ⟨answer, hanswer⟩ := hlive handle target hfound
    have haccepted : outcome.1 ≠ .error .stale := by simp [hanswer]
    exact ⟨iff_of_true ⟨answer, hanswer⟩ hpresents,
      iff_of_false haccepted (not_not_intro hpresents), fun hrefused => absurd hrefused haccepted⟩
  · rw [hstale (live?_eq_none_of_not_presents hpresents)]
    refine ⟨iff_of_false ?_ hpresents, iff_of_true rfl hpresents, fun _ => rfl⟩
    rintro ⟨answer, hanswer⟩
    contradiction

theorem FailsCleanly.eq_of_not_presents {α : Type} {table : Handles σ} {wire : List UInt8}
    {outcome : Except HandleError α × Handles σ} (hclean : FailsCleanly table wire outcome)
    (hstale : ¬ table.Presents wire) : outcome = (.error .stale, table) := by
  have hrefused := hclean.refused_iff.mpr hstale
  exact Prod.ext hrefused (hclean.unchanged hrefused)

theorem step_of_not_presents {table : Handles σ} {request : Step σ} {wire : List UInt8}
    (hwire : request.wire? = some wire) (hstale : ¬ table.Presents wire) :
    table.step request = table := by
  have hlive := live?_eq_none_of_not_presents hstale
  cases request with
  | mint handle store path => contradiction
  | resolve presented =>
      obtain rfl : presented = wire := Option.some_inj.mp hwire
      rw [step, resolve_of_not_live hlive]
  | rename presented old new =>
      obtain rfl : presented = wire := Option.some_inj.mp hwire
      rw [step, rename_of_not_live hlive]
  | rebind presented store path =>
      obtain rfl : presented = wire := Option.some_inj.mp hwire
      rw [step, rebind_of_not_live hlive]

theorem run_of_not_presents {table : Handles σ} {steps : List (Step σ)} {wire : List UInt8}
    (hwire : ∀ request ∈ steps, request.wire? = some wire) (hstale : ¬ table.Presents wire) :
    table.run steps = table := by
  induction steps with
  | nil => rfl
  | cons request rest ih =>
      have hstep := step_of_not_presents (hwire request List.mem_cons_self) hstale
      rw [run, List.foldl_cons, hstep]
      exact ih fun other hother => hwire other (List.mem_cons_of_mem _ hother)

/-- **A stale handle fails cleanly everywhere.**  Whatever bytes are presented to a table,
resolving them, renaming a child through them and rebinding them all end alike: the
request is accepted when the bytes are those of a live handle, and otherwise refused
as stale with the table left as it was.  Looking for such a handle by using it moves
nothing either, and so any number of requests that present bytes of no live handle
leaves the table as it was. -/
theorem stale_handle_fails_cleanly (table : Handles σ) (wire : List UInt8) :
    FailsCleanly table wire (table.resolve wire) ∧
    (∀ old new, FailsCleanly table wire (table.rename wire old new)) ∧
    (∀ store path, FailsCleanly table wire (table.rebind wire store path)) ∧
    (¬ table.Presents wire →
      (∀ handle : Handle, handle.bytes = wire → table.get handle = (none, table)) ∧
      ∀ steps : List (Step σ), (∀ request ∈ steps, request.wire? = some wire) →
        table.run steps = table) := by
  refine ⟨?_, fun old new => ?_, fun store path => ?_, fun hstale => ⟨?_, ?_⟩⟩
  · apply failsCleanly_of_live? _ resolve_of_not_live
    intro handle target hlive
    exact ⟨target, by rw [resolve_of_live hlive]⟩
  · apply failsCleanly_of_live? _ fun hlive => rename_of_not_live hlive old new
    intro handle target hlive
    exact ⟨(), by rw [rename_of_live hlive]⟩
  · apply failsCleanly_of_live? _ fun hlive => rebind_of_not_live hlive store path
    intro handle target hlive
    exact ⟨(), by rw [rebind_of_live hlive]⟩
  · rintro handle rfl
    exact get_of_not_presents hstale
  · exact fun steps hwire => run_of_not_presents hwire hstale

/-- A full table refuses the handle that it has evicted, a live one that lacks its last
byte and one with a byte too many, and it keeps both entries; the live one itself is
accepted. -/
theorem full_table_refuses_evicted_handle :
    let table := run (.empty ⟨2, by decide⟩)
      [.mint (.ofSeed 1) 0 [], .mint (.ofSeed 2) 0 ["a"], .mint (.ofSeed 3) 1 []]
    table.resolve (Handle.ofSeed 1).bytes = (.error .stale, table) ∧
      table.rename ((Handle.ofSeed 2).bytes.take 15) "a" "b" = (.error .stale, table) ∧
      table.rebind ((Handle.ofSeed 2).bytes ++ [0]) 1 ["b"] = (.error .stale, table) ∧
      ∃ answer, (table.rebind (Handle.ofSeed 2).bytes 1 ["b"]).1 = .ok answer := by
  intro table
  have hevicted := (stale_handle_fails_cleanly table (Handle.ofSeed 1).bytes).1
  have hcut := (stale_handle_fails_cleanly table ((Handle.ofSeed 2).bytes.take 15)).2.1 "a" "b"
  have hpadded := (stale_handle_fails_cleanly table ((Handle.ofSeed 2).bytes ++ [0])).2.2.1 1 ["b"]
  have hlive := (stale_handle_fails_cleanly table (Handle.ofSeed 2).bytes).2.2.1 1 ["b"]
  refine ⟨hevicted.eq_of_not_presents (by decide), hcut.eq_of_not_presents (by decide),
    hpadded.eq_of_not_presents (by decide), hlive.accepted_iff.mpr (by decide)⟩

end HandleTable.Handles
