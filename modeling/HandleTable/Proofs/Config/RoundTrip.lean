import HandleTable.Proofs.Config.Schema
import HandleTable.Proofs.Toml.NumberLines
import Mathlib.Algebra.Group.Nat.Defs

/-!
# A configuration that is written reads back

The assumed writer of configurations makes one line for each limit that is set.  It has no
text when a limit is beyond the integers of TOML, which have a sign; and otherwise the text
reads back to the configuration itself, or to the faults that its validation finds
(`text_reads_back`).  Limits that are zero are written like any others.
-/

namespace HandleTable.Config

open Toml (Setting States)

variable {config : Config}

/-! ## What is written -/

/-- The limits that are set. -/
def limits (config : Config) : List ℕ :=
  config.handleLimit :: config.verifierLimit.toList

/-- The limits that are set, with their keys, in the order of their lines. -/
def keyedLimits (config : Config) : List (String × ℕ) :=
  ("handle-limit", config.handleLimit) ::
    config.verifierLimit.toList.map fun limit => ("verifier-limit", limit)

theorem map_snd_keyedLimits (config : Config) :
    config.keyedLimits.map Prod.snd = config.limits := by
  simp [keyedLimits, limits, Function.comp_def]

theorem mem_keyedLimits_iff {pair : String × ℕ} :
    pair ∈ config.keyedLimits ↔ pair = ("handle-limit", config.handleLimit) ∨
      ∃ limit, config.verifierLimit = some limit ∧ ("verifier-limit", limit) = pair := by
  simp [keyedLimits]

theorem isBareKey_of_mem_keyedLimits : ∀ pair ∈ config.keyedLimits, Toml.IsBareKey pair.1 := by
  have hhandle : Toml.IsBareKey "handle-limit" := ⟨by decide, List.all_eq_true.mp (by decide)⟩
  have hverifier : Toml.IsBareKey "verifier-limit" :=
    ⟨by decide, List.all_eq_true.mp (by decide)⟩
  intro pair hpair
  obtain rfl | ⟨limit, -, rfl⟩ := mem_keyedLimits_iff.mp hpair
  · exact hhandle
  · exact hverifier

theorem nodup_keyedLimits (config : Config) : (config.keyedLimits.map Prod.fst).Nodup := by
  cases hlimit : config.verifierLimit <;> simp [keyedLimits, hlimit]

theorem line?_of_le {limit : ℕ} (hlimit : limit ≤ Toml.greatestInteger) (key : String) :
    line? key limit = some (String.ofList (Toml.numberLine key limit [])) := by
  rw [line?, if_pos hlimit, Option.some.injEq, ← String.toList_inj]
  simp [Toml.numberLine]

theorem line?_of_lt {limit : ℕ} (hlimit : Toml.greatestInteger < limit) (key : String) :
    line? key limit = none := by
  rw [line?, if_neg (Nat.not_le.mpr hlimit)]

theorem text?_of_lt {limit : ℕ} (hset : limit ∈ config.limits)
    (hlarge : Toml.greatestInteger < limit) : config.text? = none := by
  obtain rfl | hverifier := List.mem_cons.mp hset
  · rw [text?, line?_of_lt hlarge]
    rfl
  · rw [Option.mem_toList] at hverifier
    rw [text?, hverifier]
    dsimp only
    rw [line?_of_lt hlarge]
    cases line? "handle-limit" config.handleLimit <;> rfl

theorem text?_of_le (hlimits : ∀ limit ∈ config.limits, limit ≤ Toml.greatestInteger) :
    config.text? = some (String.ofList (Toml.numberLines config.keyedLimits)) := by
  obtain ⟨hhandle, hverifier⟩ := List.forall_mem_cons.mp hlimits
  rw [text?, line?_of_le hhandle]
  cases hlimit : config.verifierLimit with
  | none => simp [keyedLimits, Toml.numberLines, hlimit]
  | some limit =>
      rw [hlimit] at hverifier
      have hline := line?_of_le (hverifier limit (List.mem_singleton_self _)) "verifier-limit"
      simp [keyedLimits, Toml.numberLines, Toml.numberLine, hlimit, hline, ← String.toList_inj]

/-! ## What is read -/

theorem asWritten_of_map {settings : List Setting}
    (hread : settings.map (fun setting => (setting.key, setting.value)) =
      config.keyedLimits.map fun pair => (pair.1, .integer pair.2)) :
    (∀ setting ∈ settings, ∃ limit, setting.Sets limit) ∧ config.AsWritten settings := by
  -- what is written is read, and what is read was written
  have hstates {name : String} {limit : ℕ} (hpair : (name, limit) ∈ config.keyedLimits) :
      States settings name (some limit) := by
    have hmem := List.mem_map_of_mem (f := fun pair => (pair.1, Toml.Value.integer pair.2)) hpair
    rw [← hread] at hmem
    obtain ⟨setting, hsetting, hsame⟩ := List.mem_map.mp hmem
    exact ⟨setting, hsetting, (Prod.mk.inj hsame).1, (Prod.mk.inj hsame).2⟩
  have hpairs {setting : Setting} (hsetting : setting ∈ settings) :
      ∃ pair ∈ config.keyedLimits, pair.1 = setting.key ∧ .integer pair.2 = setting.value := by
    have hmem := List.mem_map_of_mem (f := fun setting => (setting.key, setting.value)) hsetting
    rw [hread] at hmem
    obtain ⟨pair, hpair, hsame⟩ := List.mem_map.mp hmem
    exact ⟨pair, hpair, (Prod.mk.inj hsame).1, (Prod.mk.inj hsame).2⟩
  refine ⟨fun setting hsetting => ?_, Or.inl (hstates List.mem_cons_self), ?_⟩
  · obtain ⟨pair, hpair, hkey, hvalue⟩ := hpairs hsetting
    refine ⟨pair.2, ?_, hvalue.symm⟩
    obtain rfl | ⟨limit, -, rfl⟩ := mem_keyedLimits_iff.mp hpair
    · exact Or.inl hkey.symm
    · exact Or.inr hkey.symm
  · cases hlimit : config.verifierLimit with
    | some limit => exact hstates (mem_keyedLimits_iff.mpr (Or.inr ⟨limit, hlimit, rfl⟩))
    | none =>
        intro setting hsetting hkey
        obtain ⟨pair, hpair, hsame, -⟩ := hpairs hsetting
        obtain rfl | ⟨limit, hset, -⟩ := mem_keyedLimits_iff.mp hpair
        · rw [hkey] at hsame
          exact absurd hsame (show "handle-limit" ≠ "verifier-limit" by decide)
        · rw [hlimit] at hset
          cases hset

/-- What has been written for a configuration is read as the validation says. -/
theorem ofText_text? {text : String} (htext : config.text? = some text) :
    ofText text = config.validated := by
  have hlimits : ∀ limit ∈ config.limits, limit ≤ Toml.greatestInteger := by
    intro limit hlimit
    by_contra hlarge
    rw [text?_of_lt hlimit (Nat.not_le.mp hlarge)] at htext
    cases htext
  rw [text?_of_le hlimits, Option.some.injEq] at htext
  have hnumbers : ∀ pair ∈ config.keyedLimits, pair.2 ≤ Toml.greatestInteger := by
    intro pair hpair
    exact hlimits pair.2 (map_snd_keyedLimits config ▸ List.mem_map_of_mem hpair)
  obtain ⟨settings, hsettings, hread⟩ :=
    Toml.settings?_numberLines isBareKey_of_mem_keyedLimits hnumbers (nodup_keyedLimits config)
  rw [htext] at hsettings
  obtain ⟨hsets, hwritten⟩ := asWritten_of_map hread
  rw [ofText, hsettings]
  exact ofSettings_of_asWritten (Toml.nodup_keys_of_settings? hsettings) hsets hwritten

/-- **A configuration reads back from its text.**  It has no text exactly when one of its
limits is beyond the integers with a sign of sixty-four bits.  Where it has one, that text is
read as the same configuration if no limit is zero, and is refused with the limits that are
zero otherwise. -/
theorem text_reads_back (config : Config) :
    (config.text? = none ↔ ∃ limit ∈ config.limits, 2 ^ 63 - 1 < limit) ∧
    ∀ text, config.text? = some text →
      (config.faults = [] → ofText text = .ok config) ∧
      (config.faults ≠ [] → ofText text = .error (.limits config.faults)) := by
  refine ⟨⟨fun hnone => ?_, fun ⟨limit, hset, hlarge⟩ => text?_of_lt hset hlarge⟩, ?_⟩
  · by_contra hall
    have hlimits : ∀ limit ∈ config.limits, limit ≤ Toml.greatestInteger :=
      fun limit hset => Nat.not_lt.mp fun hlarge => hall ⟨limit, hset, hlarge⟩
    rw [text?_of_le hlimits] at hnone
    cases hnone
  · intro text htext
    rw [ofText_text? htext, validated]
    exact ⟨fun hvalid => by rw [hvalid]; rfl, fun hfaults => if_neg (by simpa using hfaults)⟩

/-- The greatest limit that has a text, and a limit that is zero behind it. -/
example : (Config.mk 9223372036854775807 (some 0)).text? =
    some "handle-limit = 9223372036854775807\nverifier-limit = 0\n" := by decide

end HandleTable.Config
