import HandleTable.Proofs.Toml.DistinctKeys
import HandleTable.Server
import Mathlib.Data.List.Induction

/-!
# Which documents are configurations

A document is taken setting by setting, in document order.  A setting either gives one of
the two limits a number (`Toml.Setting.Sets`), or its shape is wrong
(`Toml.Setting.Misshapen`), and then it decides alone what the document comes to, whatever
stands behind it.  Only when all settings have the right shape are the limits looked at
that are zero.

`Verdict` puts this down without saying how documents are read, and
`ofSettings_eq_iff_verdict` says that reading comes to it.  It rests on the fact that no
document gives a key twice, so that there is at most one number for each limit.  What is
accepted goes into the tables of a server as it was written (`schema_enforced`).
-/

namespace HandleTable

/-! ## Settings -/

namespace Toml

/-- The setting gives one of the limits a number. -/
structure Setting.Sets (setting : Setting) (limit : ℕ) : Prop where
  known : setting.key = "handle-limit" ∨ setting.key = "verifier-limit"
  value : setting.value = .integer limit

/-- **What is wrong with the shape of a setting**, and where.  The key is looked at before
the value. -/
inductive Setting.Misshapen (setting : Setting) : ShapeFault → Position → Prop
  | unknownKey (noHandleLimit : setting.key ≠ "handle-limit")
      (noVerifierLimit : setting.key ≠ "verifier-limit") :
      Misshapen setting (.unknownKey setting.key) setting.keyAt
  | wrongKind (known : setting.key = "handle-limit" ∨ setting.key = "verifier-limit")
      (noLimit : ∀ limit : ℕ, setting.value ≠ .integer limit) :
      Misshapen setting (.wrongKind setting.value) setting.valueAt

/-- What a document says of a name: a number, or nothing at all. -/
def States (settings : List Setting) (name : String) : Option ℕ → Prop
  | some limit => ∃ setting ∈ settings, setting.key = name ∧ setting.value = .integer limit
  | none => ∀ setting ∈ settings, setting.key ≠ name

instance (settings : List Setting) (name : String) : (stated : Option ℕ) →
    Decidable (States settings name stated)
  | some limit => inferInstanceAs
      (Decidable (∃ setting ∈ settings, setting.key = name ∧ setting.value = .integer limit))
  | none => inferInstanceAs (Decidable (∀ setting ∈ settings, setting.key ≠ name))

variable {settings : List Setting} {setting : Setting} {name : String}

theorem States.append {stated : Option ℕ} (hstates : States settings name stated)
    (hother : setting.key ≠ name) : States (settings ++ [setting]) name stated := by
  cases stated with
  | some limit =>
      obtain ⟨earlier, hearlier, hgiven⟩ := hstates
      exact ⟨earlier, List.mem_append_left _ hearlier, hgiven⟩
  | none =>
      intro either heither
      rcases List.mem_append.mp heither with hearlier | hlast
      · exact hstates either hearlier
      · rwa [List.mem_singleton.mp hlast]

theorem States.last {limit : ℕ} (hkey : setting.key = name)
    (hvalue : setting.value = .integer limit) :
    States (settings ++ [setting]) name (some limit) :=
  ⟨setting, List.mem_append_right _ (List.mem_singleton_self _), hkey, hvalue⟩

/-- A document in which no key is given twice says one thing of each name. -/
theorem States.unique (hkeys : (settings.map Setting.key).Nodup) {first second : Option ℕ}
    (hfirst : States settings name first) (hsecond : States settings name second) :
    first = second := by
  cases first with
  | none =>
      cases second with
      | none => rfl
      | some limit =>
          obtain ⟨setting, hsetting, hkey, -⟩ := hsecond
          exact absurd hkey (hfirst setting hsetting)
  | some limit =>
      obtain ⟨setting, hsetting, hkey, hvalue⟩ := hfirst
      cases second with
      | none => exact absurd hkey (hsecond setting hsetting)
      | some limit' =>
          obtain ⟨setting', hsetting', hkey', hvalue'⟩ := hsecond
          obtain rfl : setting = setting' :=
            List.inj_on_of_nodup_map hkeys hsetting hsetting' (hkey.trans hkey'.symm)
          rw [hvalue, Value.integer.injEq] at hvalue'
          exact congrArg some (Int.ofNat.inj hvalue')

end Toml

namespace Config

open Toml (Setting Position States)

variable {settings : List Setting} {setting : Setting} {config : Config} {limit : ℕ}

/-! ## One setting -/

theorem limit?_eq_some_iff {value : Toml.Value} :
    limit? value = some limit ↔ value = .integer limit := by
  cases value with
  | integer number =>
      simp only [limit?, Toml.Value.integer.injEq]
      split
      · rw [Option.some.injEq]
        omega
      · simp only [reduceCtorEq, false_iff]
        omega
  | string | float | boolean | dateTime | array | table => simp [limit?]

theorem limit?_eq_none_iff {value : Toml.Value} :
    limit? value = none ↔ ∀ limit : ℕ, value ≠ .integer limit := by
  rw [Option.eq_none_iff_forall_ne_some]
  exact forall_congr' fun limit => not_congr limit?_eq_some_iff

/-- Every setting gives a limit a number, or its shape is wrong. -/
theorem sets_or_misshapen (setting : Setting) :
    (∃ limit, setting.Sets limit) ∨ ∃ fault place, setting.Misshapen fault place := by
  by_cases hknown : setting.key = "handle-limit" ∨ setting.key = "verifier-limit"
  · cases hlimit : limit? setting.value with
    | some limit => exact Or.inl ⟨limit, hknown, limit?_eq_some_iff.mp hlimit⟩
    | none => exact Or.inr ⟨_, _, .wrongKind hknown (limit?_eq_none_iff.mp hlimit)⟩
  · rw [not_or] at hknown
    exact Or.inr ⟨_, _, .unknownKey hknown.1 hknown.2⟩

/-- The configuration with another number for the limit of a name. -/
def withLimit (config : Config) (name : String) (limit : ℕ) : Config :=
  if name = "handle-limit" then { config with handleLimit := limit }
  else { config with verifierLimit := some limit }

theorem withSetting_of_sets (config : Config) (hsets : setting.Sets limit) :
    config.withSetting setting = .ok (config.withLimit setting.key limit) := by
  obtain ⟨hknown, hvalue⟩ := hsets
  have hlimit := limit?_eq_some_iff.mpr hvalue
  rcases hknown with hkey | hkey <;> simp [withSetting, withLimit, hkey, hlimit]

theorem withSetting_of_misshapen (config : Config) {fault : ShapeFault} {place : Position}
    (hwrong : setting.Misshapen fault place) :
    config.withSetting setting = .error (.shape fault place) := by
  cases hwrong with
  | unknownKey hfirst hsecond => simp [withSetting, hfirst, hsecond]
  | wrongKind hknown hvalue =>
      have hlimit := limit?_eq_none_iff.mpr hvalue
      rcases hknown with hkey | hkey <;> simp [withSetting, hkey, hlimit]

/-! ## All settings -/

/-- The configuration has the limits that a document gives, and 1024 handles and no limit
of the verifiers where it says nothing. -/
structure AsWritten (config : Config) (settings : List Setting) : Prop where
  handleLimit : States settings "handle-limit" (some config.handleLimit) ∨
    States settings "handle-limit" none ∧ config.handleLimit = 1024
  verifierLimit : States settings "verifier-limit" config.verifierLimit

theorem asWritten_default : default.AsWritten [] :=
  ⟨Or.inr ⟨List.forall_mem_nil _, rfl⟩, List.forall_mem_nil _⟩

theorem AsWritten.withLimit (hwritten : config.AsWritten settings) (hsets : setting.Sets limit) :
    (config.withLimit setting.key limit).AsWritten (settings ++ [setting]) := by
  obtain ⟨hhandle, hverifier⟩ := hwritten
  obtain ⟨hkey | hkey, hvalue⟩ := hsets
  · have hother : setting.key ≠ "verifier-limit" := by simp [hkey]
    rw [Config.withLimit, if_pos hkey]
    exact ⟨Or.inl (.last hkey hvalue), hverifier.append hother⟩
  · have hother : setting.key ≠ "handle-limit" := by simp [hkey]
    rw [Config.withLimit, if_neg hother]
    exact ⟨hhandle.imp (·.append hother) (And.imp_left (·.append hother)), .last hkey hvalue⟩

/-- There is one configuration that has what a document gives. -/
theorem AsWritten.unique {config' : Config} (hkeys : (settings.map Setting.key).Nodup)
    (hwritten : config.AsWritten settings) (hwritten' : config'.AsWritten settings) :
    config = config' := by
  have hverifier := hwritten.verifierLimit.unique hkeys hwritten'.verifierLimit
  have hhandle : config.handleLimit = config'.handleLimit := by
    rcases hwritten.handleLimit with hgiven | ⟨hsilent, hdefault⟩ <;>
      rcases hwritten'.handleLimit with hgiven' | ⟨hsilent', hdefault'⟩
    · exact Option.some.inj (hgiven.unique hkeys hgiven')
    · exact absurd (hgiven.unique hkeys hsilent') nofun
    · exact absurd (hgiven'.unique hkeys hsilent) nofun
    · rw [hdefault, hdefault']
  cases config
  cases config'
  exact congrArg₂ Config.mk hhandle hverifier

/-- Settings of the right shape are all taken into account. -/
theorem exists_foldlM_withSetting (hsets : ∀ setting ∈ settings, ∃ limit, setting.Sets limit) :
    ∃ config : Config, settings.foldlM withSetting default = .ok config ∧
      config.AsWritten settings := by
  induction settings using List.reverseRecOn with
  | nil => exact ⟨default, rfl, asWritten_default⟩
  | append_singleton settings setting ih =>
      obtain ⟨config, hconfig, hwritten⟩ :=
        ih fun earlier hearlier => hsets earlier (List.mem_append_left _ hearlier)
      obtain ⟨limit, hlimit⟩ :=
        hsets setting (List.mem_append_right _ (List.mem_singleton_self _))
      refine ⟨config.withLimit setting.key limit, ?_, hwritten.withLimit hlimit⟩
      rw [List.foldlM_append, hconfig]
      exact (bind_pure _).trans (withSetting_of_sets config hlimit)

/-- A document of settings that all have the right shape comes to what the validation of
its limits comes to. -/
theorem ofSettings_of_asWritten (hkeys : (settings.map Setting.key).Nodup)
    (hsets : ∀ setting ∈ settings, ∃ limit, setting.Sets limit)
    (hwritten : config.AsWritten settings) : ofSettings settings = config.validated := by
  obtain ⟨config', hconfig', hwritten'⟩ := exists_foldlM_withSetting hsets
  obtain rfl := hwritten.unique hkeys hwritten'
  rw [ofSettings, hconfig']
  rfl

/-- The first setting of a wrong shape decides. -/
theorem ofSettings_of_misshapen {before after : List Setting} {fault : ShapeFault}
    {place : Position} (hbefore : ∀ earlier ∈ before, ∃ limit, earlier.Sets limit)
    (hwrong : setting.Misshapen fault place) :
    ofSettings (before ++ setting :: after) = .error (.shape fault place) := by
  obtain ⟨config, hconfig, -⟩ := exists_foldlM_withSetting hbefore
  have hfold : (before ++ setting :: after).foldlM withSetting default =
      .error (.shape fault place) := by
    rw [List.foldlM_append, hconfig]
    show (setting :: after).foldlM withSetting config = _
    rw [List.foldlM_cons, withSetting_of_misshapen config hwrong]
    rfl
  rw [ofSettings, hfold]
  rfl

/-- When not all settings have the right shape, there is a first one that has not. -/
theorem exists_first_misshapen (settings : List Setting) :
    (∀ setting ∈ settings, ∃ limit, setting.Sets limit) ∨
    ∃ before setting after fault place, settings = before ++ setting :: after ∧
      (∀ earlier ∈ before, ∃ limit, earlier.Sets limit) ∧ setting.Misshapen fault place := by
  induction settings with
  | nil => exact Or.inl (List.forall_mem_nil _)
  | cons setting rest ih =>
      rcases sets_or_misshapen setting with hsets | ⟨fault, place, hwrong⟩
      · rcases ih with hrest | ⟨before, later, after, fault, place, rfl, hbefore, hwrong⟩
        · exact Or.inl (List.forall_mem_cons.mpr ⟨hsets, hrest⟩)
        · exact Or.inr ⟨setting :: before, later, after, fault, place, rfl,
            List.forall_mem_cons.mpr ⟨hsets, hbefore⟩, hwrong⟩
      · exact Or.inr ⟨[], setting, rest, fault, place, rfl, List.forall_mem_nil _, hwrong⟩

/-! ## Limits that are zero -/

/-- The limits that a document sets to zero, that of the handles first. -/
def zeroLimits (settings : List Setting) : List LimitFault :=
  (if States settings "handle-limit" (some 0) then [.handleLimit] else []) ++
    (if States settings "verifier-limit" (some 0) then [.verifierLimit] else [])

theorem AsWritten.faults_eq (hkeys : (settings.map Setting.key).Nodup)
    (hwritten : config.AsWritten settings) : config.faults = zeroLimits settings := by
  obtain ⟨hhandle, hverifier⟩ := hwritten
  have hfirst : config.handleLimit = 0 ↔ States settings "handle-limit" (some 0) := by
    constructor
    · intro hzero
      rcases hhandle with hgiven | ⟨-, hdefault⟩
      · rwa [← hzero]
      · omega
    · intro hzero
      rcases hhandle with hgiven | ⟨hsilent, -⟩
      · exact Option.some.inj (hgiven.unique hkeys hzero)
      · exact absurd (hzero.unique hkeys hsilent) nofun
  have hsecond : config.verifierLimit = some 0 ↔ States settings "verifier-limit" (some 0) :=
    ⟨fun hzero => hzero ▸ hverifier, fun hzero => hverifier.unique hkeys hzero⟩
  simp only [faults, zeroLimits, hfirst, hsecond]

theorem zeroLimits_eq_nil_iff :
    zeroLimits settings = [] ↔ ∀ setting ∈ settings, ¬ setting.Sets 0 := by
  have hnames (name : String) (fault : LimitFault) :
      (if States settings name (some 0) then [fault] else []) = [] ↔
        ¬ States settings name (some 0) := by
    simp
  rw [zeroLimits, List.append_eq_nil_iff, hnames, hnames, ← not_or]
  constructor
  · rintro hnone setting hsetting ⟨hkey | hkey, hvalue⟩
    · exact hnone (Or.inl ⟨setting, hsetting, hkey, hvalue⟩)
    · exact hnone (Or.inr ⟨setting, hsetting, hkey, hvalue⟩)
  · rintro hnone (⟨setting, hsetting, hkey, hvalue⟩ | ⟨setting, hsetting, hkey, hvalue⟩)
    · exact hnone setting hsetting ⟨Or.inl hkey, hvalue⟩
    · exact hnone setting hsetting ⟨Or.inr hkey, hvalue⟩

theorem exists_positive_iff (hsets : ∃ limit, setting.Sets limit) :
    (∃ limit, 1 ≤ limit ∧ setting.Sets limit) ↔ ¬ setting.Sets 0 := by
  constructor
  · rintro ⟨limit, hpositive, hlimit⟩ hzero
    have hsame := hlimit.value.symm.trans hzero.value
    rw [Toml.Value.integer.injEq] at hsame
    omega
  · intro hnonzero
    obtain ⟨limit, hlimit⟩ := hsets
    rcases Nat.eq_zero_or_pos limit with rfl | hpositive
    · exact absurd hlimit hnonzero
    · exact ⟨limit, hpositive, hlimit⟩

theorem zeroLimits_eq_nil_iff_positive
    (hsets : ∀ setting ∈ settings, ∃ limit, setting.Sets limit) :
    zeroLimits settings = [] ↔ ∀ setting ∈ settings, ∃ limit, 1 ≤ limit ∧ setting.Sets limit :=
  zeroLimits_eq_nil_iff.trans
    (forall₂_congr fun setting hsetting => (exists_positive_iff (hsets setting hsetting)).symm)

/-! ## What a document comes to -/

/-- **What a document of settings comes to.** -/
inductive Verdict (settings : List Setting) : Except ConfigError Config → Prop
  | accepted {config : Config}
      (positive : ∀ setting ∈ settings, ∃ limit, 1 ≤ limit ∧ setting.Sets limit)
      (written : config.AsWritten settings) : Verdict settings (.ok config)
  | misshapen {before after : List Setting} {setting : Setting} {fault : ShapeFault}
      {place : Position} (cut : settings = before ++ setting :: after)
      (first : ∀ earlier ∈ before, ∃ limit, earlier.Sets limit)
      (wrong : setting.Misshapen fault place) : Verdict settings (.error (.shape fault place))
  | zero (shaped : ∀ setting ∈ settings, ∃ limit, setting.Sets limit)
      (zero : ∃ setting ∈ settings, setting.Sets 0) :
      Verdict settings (.error (.limits (zeroLimits settings)))

/-- **Reading a document in which no key is given twice comes to its verdict.** -/
theorem ofSettings_eq_iff_verdict (hkeys : (settings.map Setting.key).Nodup)
    {result : Except ConfigError Config} :
    ofSettings settings = result ↔ Verdict settings result := by
  -- once every setting has its shape, only limits of zero are left to refuse
  have hshaped (config : Config) (hsets : ∀ setting ∈ settings, ∃ limit, setting.Sets limit)
      (hwritten : config.AsWritten settings) :
      ofSettings settings =
        if zeroLimits settings = [] then .ok config
        else .error (.limits (zeroLimits settings)) := by
    rw [ofSettings_of_asWritten hkeys hsets hwritten, validated, hwritten.faults_eq hkeys]
    simp only [List.isEmpty_iff]
  constructor
  · rintro rfl
    rcases exists_first_misshapen settings with
      hsets | ⟨before, setting, after, fault, place, rfl, hbefore, hwrong⟩
    · obtain ⟨config, -, hwritten⟩ := exists_foldlM_withSetting hsets
      rw [hshaped config hsets hwritten]
      split
      · rename_i hnone
        exact .accepted ((zeroLimits_eq_nil_iff_positive hsets).mp hnone) hwritten
      · rename_i hsome
        have hzero : ∃ setting ∈ settings, setting.Sets 0 := by
          by_contra hnone
          exact hsome (zeroLimits_eq_nil_iff.mpr fun setting hsetting hzero =>
            hnone ⟨setting, hsetting, hzero⟩)
        exact .zero hsets hzero
    · rw [ofSettings_of_misshapen hbefore hwrong]
      exact .misshapen rfl hbefore hwrong
  · rintro (⟨hpositive, hwritten⟩ | ⟨rfl, hbefore, hwrong⟩ | ⟨hsets, setting, hsetting, hzero⟩)
    · have hsets := fun setting hsetting => (hpositive setting hsetting).imp fun _ => And.right
      rw [hshaped _ hsets hwritten, if_pos ((zeroLimits_eq_nil_iff_positive hsets).mpr hpositive)]
    · exact ofSettings_of_misshapen hbefore hwrong
    · obtain ⟨config, -, hwritten⟩ := exists_foldlM_withSetting hsets
      rw [hshaped config hsets hwritten, if_neg]
      exact fun hnone => zeroLimits_eq_nil_iff.mp hnone setting hsetting hzero

/-! ## What is accepted is used -/

theorem capacities_of_faults_eq_nil (hvalid : config.faults = []) :
    config.handleCapacity.val = config.handleLimit ∧
      config.verifierCapacity.val = config.verifierLimit.getD config.handleLimit := by
  simp only [faults, List.append_eq_nil_iff, ite_eq_right_iff, reduceCtorEq, imp_false] at hvalid
  obtain ⟨hhandle, hverifier⟩ := hvalid
  have hfirst : config.handleCapacity.val = config.handleLimit :=
    Capacity.ofLimit_val (Nat.pos_of_ne_zero hhandle)
  refine ⟨hfirst, ?_⟩
  unfold verifierCapacity
  cases hlimit : config.verifierLimit with
  | none => exact hfirst
  | some limit =>
      rw [hlimit, Option.some.injEq] at hverifier
      exact Capacity.ofLimit_val (Nat.pos_of_ne_zero hverifier)

/-- **The shape of a configuration is enforced, and one that is accepted is used as it is
written.**  A text that is TOML comes to the verdict on its settings: it is accepted when
each of them gives a limit a positive number, and what is not given has its default.
Otherwise the first setting with another key or another value is reported, its key before
its value, even when limits are zero; and otherwise the limits that are zero are, that of
the handles first.  The tables of a server with a configuration that was accepted have the
capacities that it gives, the listings that of the handles when none is set. -/
theorem schema_enforced {ι σ : Type} (inner : ι) {text : String} {settings : List Setting}
    (hread : Toml.settings? text = some settings) :
    (∀ result, ofText text = result ↔ Verdict settings result) ∧
    ∀ config, ofText text = .ok config →
      let server : Server ι σ := .ofConfig inner config
      server.handles.capacity.val = config.handleLimit ∧
        server.verifiers.capacity.val = config.verifierLimit.getD config.handleLimit := by
  have hkeys := Toml.nodup_keys_of_settings? hread
  have hdocument : ofText text = ofSettings settings := by rw [ofText, hread]
  rw [hdocument]
  refine ⟨fun result => ofSettings_eq_iff_verdict hkeys, fun config hok => ?_⟩
  cases (ofSettings_eq_iff_verdict hkeys).mp hok with
  | accepted hpositive hwritten =>
      have hsets := fun setting hsetting => (hpositive setting hsetting).imp fun _ => And.right
      have hvalid : config.faults = [] := by
        rw [hwritten.faults_eq hkeys]
        exact (zeroLimits_eq_nil_iff_positive hsets).mpr hpositive
      exact capacities_of_faults_eq_nil hvalid

/-- A key that no configuration has is reported before the limit that is negative behind it,
and in spite of the limit that is zero before it.  With one limit that is set, the other
table has room for 1024 handles. -/
theorem unknown_key_before_negative_limit :
    let wrong := "handle-limit = 0\nlimit = true\nverifier-limit = -1\n"
    let right := "verifier-limit = 0x1F # listings\n"
    let server : Server Unit Unit := .ofConfig () ⟨1024, some 31⟩
    ofText wrong = .error (.shape (.unknownKey "limit") ⟨2, 1⟩) ∧
      ofText right = .ok ⟨1024, some 31⟩ ∧
      server.handles.capacity.val = 1024 ∧ server.verifiers.capacity.val = 31 := by
  intro wrong right server
  let zero : Setting := ⟨"handle-limit", ⟨1, 1⟩, .integer 0, ⟨1, 16⟩⟩
  let unknown : Setting := ⟨"limit", ⟨2, 1⟩, .boolean true, ⟨2, 9⟩⟩
  let negative : Setting := ⟨"verifier-limit", ⟨3, 1⟩, .integer (-1), ⟨3, 18⟩⟩
  let only : Setting := ⟨"verifier-limit", ⟨1, 1⟩, .integer 31, ⟨1, 18⟩⟩
  have hwrong : Toml.settings? wrong = some [zero, unknown, negative] := by decide +kernel
  have hright : Toml.settings? right = some [only] := by decide +kernel
  have hzero : zero.Sets 0 := ⟨Or.inl rfl, rfl⟩
  have honly : only.Sets 31 := ⟨Or.inr rfl, rfl⟩
  have hunknown : unknown.Misshapen (.unknownKey "limit") ⟨2, 1⟩ :=
    .unknownKey (by decide) (by decide)
  obtain ⟨hverdict, -⟩ := schema_enforced (ι := Unit) (σ := Unit) () hwrong
  obtain ⟨hverdict', hused⟩ := schema_enforced (ι := Unit) (σ := Unit) () hright
  have hok : ofText right = .ok ⟨1024, some 31⟩ := by
    refine (hverdict' _).mpr (.accepted ?_ ⟨Or.inr ⟨?_, rfl⟩, ?_⟩)
    · simpa using ⟨31, by decide, honly⟩
    · simp [States, only]
    · exact ⟨only, List.mem_singleton_self _, rfl, rfl⟩
  refine ⟨(hverdict _).mpr ?_, hok, hused _ hok⟩
  exact .misshapen (show [zero, unknown, negative] = [zero] ++ unknown :: [negative] from rfl)
    (by simpa using ⟨0, hzero⟩) hunknown

end Config

end HandleTable
