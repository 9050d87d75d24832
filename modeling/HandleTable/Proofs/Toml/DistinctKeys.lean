import HandleTable.Toml.Document
import Mathlib.Data.List.Nodup
import Mathlib.Data.Option.Basic

/-!
# No key is given twice

A document that can be read gives each of its top-level keys once
(`nodup_keys_of_settings?`).  Tables are only ever changed in three ways: a new name comes
last, a name that is there stands for something else, or a name is dropped.  None of them
gives a name twice, whatever happens to the tables below.
-/

namespace HandleTable.Toml

/-! ## Tables -/

namespace Entries

/-- The names of a table, in document order. -/
def names (entries : Entries) : List String :=
  entries.map fun entry => entry.1.name

theorem item?_eq_none_iff {entries : Entries} {name : String} :
    entries.item? name = none ↔ name ∉ entries.names := by
  simp [item?, names]

theorem nodup_names_append {entries : Entries} {key : Key} (hnodup : entries.names.Nodup)
    (hnew : entries.item? key.name = none) (item : Item) :
    (entries ++ [(key, item)]).names.Nodup := by
  have hnames : (entries ++ [(key, item)]).names = entries.names.concat key.name := by
    rw [names, List.map_append, List.concat_eq_append]
    rfl
  rw [hnames]
  exact hnodup.concat (item?_eq_none_iff.mp hnew)

theorem nodup_names_put {entries : Entries} (hnodup : entries.names.Nodup) (key : Key)
    (item : Item) : (entries.put key item).names.Nodup := by
  unfold put
  split
  · have hnames : names (entries.map fun entry =>
        if entry.1.name == key.name then (entry.1, item) else entry) = entries.names := by
      rw [names, names, List.map_map]
      refine List.map_congr_left fun entry _ => ?_
      rw [Function.comp_apply]
      split <;> rfl
    rwa [hnames]
  · rename_i hnew
    exact nodup_names_append hnodup (by simpa using hnew) item

theorem nodup_names_drop {entries : Entries} (hnodup : entries.names.Nodup) (name : String) :
    (entries.drop name).names.Nodup :=
  hnodup.sublist (List.filter_sublist.map _)

/-- A change at the end of a path of keys gives no name twice: above the end, the tables on
the path are only put back in their places. -/
theorem nodup_names_alter {α : Type} {step : Origin}
    {change : Origin → Entries → Option (α × Entries)}
    (hchange : ∀ {origin inner result after}, change origin inner = some (result, after) →
      inner.names.Nodup → after.names.Nodup)
    {path : List Key} {origin : Origin} {entries after : Entries} {result : α}
    (halter : alter step change path origin entries = some (result, after))
    (hnodup : entries.names.Nodup) : after.names.Nodup := by
  cases path with
  | nil => exact hchange halter hnodup
  | cons key path =>
      simp only [alter] at halter
      split at halter
      · simp only [bind, Option.bind_eq_some_iff, pure, Option.some.injEq, Prod.mk.injEq] at halter
        obtain ⟨-, -, -, rfl⟩ := halter
        exact nodup_names_put hnodup ..
      · cases halter
      · simp only [bind, Option.bind_eq_some_iff, pure, Option.some.injEq, Prod.mk.injEq] at halter
        obtain ⟨-, -, -, rfl⟩ := halter
        exact nodup_names_put hnodup ..
      · simp only [bind, Option.bind_eq_some_iff, pure, Option.some.injEq, Prod.mk.injEq] at halter
        obtain ⟨-, -, -, -, -, rfl⟩ := halter
        exact nodup_names_put hnodup ..

theorem nodup_names_define {entries after : Entries} {path : List Key} {item : Item}
    (hdefine : entries.define path item = some after) (hnodup : entries.names.Nodup) :
    after.names.Nodup := by
  simp only [define, bind, Option.bind_eq_some_iff, pure, Option.some.injEq] at hdefine
  obtain ⟨key, -, ⟨⟨⟩, _⟩, halter, rfl⟩ := hdefine
  refine nodup_names_alter (fun hchange hinner => ?_) halter hnodup
  simp only [Option.bind_eq_some_iff, Option.guard_eq_some', Option.some.injEq, Prod.mk.injEq,
    Option.isNone_iff_eq_none] at hchange
  obtain ⟨-, -, -, hnew, -, rfl⟩ := hchange
  exact nodup_names_append hinner hnew item

theorem nodup_names_openTable {entries after taken : Entries} {path : List Key}
    (hopen : entries.openTable path = some (taken, after)) (hnodup : entries.names.Nodup) :
    after.names.Nodup := by
  simp only [openTable, bind, Option.bind_eq_some_iff] at hopen
  obtain ⟨key, -, halter⟩ := hopen
  refine nodup_names_alter (fun hchange hinner => ?_) halter hnodup
  split at hchange
  · cases hchange
    exact hinner
  · cases hchange
    exact nodup_names_drop hinner _
  · cases hchange

theorem nodup_names_closeTable {entries after body : Entries} {path : List Key} {start : Mark}
    (hclose : entries.closeTable path start body = some after) (hnodup : entries.names.Nodup) :
    after.names.Nodup := by
  simp only [closeTable, bind, Option.bind_eq_some_iff, pure, Option.some.injEq] at hclose
  obtain ⟨key, -, ⟨⟨⟩, _⟩, halter, rfl⟩ := hclose
  refine nodup_names_alter (fun hchange hinner => ?_) halter hnodup
  simp only [Option.bind_eq_some_iff, Option.guard_eq_some', Option.some.injEq, Prod.mk.injEq,
    Option.isNone_iff_eq_none] at hchange
  obtain ⟨-, hnew, -, rfl⟩ := hchange
  exact nodup_names_append hinner hnew _

theorem nodup_names_closeElement {entries after body : Entries} {path : List Key} {start : Mark}
    (hclose : entries.closeElement path start body = some after) (hnodup : entries.names.Nodup) :
    after.names.Nodup := by
  simp only [closeElement, bind, Option.bind_eq_some_iff, pure, Option.some.injEq] at hclose
  obtain ⟨key, -, ⟨⟨⟩, _⟩, halter, rfl⟩ := hclose
  refine nodup_names_alter (fun hchange hinner => ?_) halter hnodup
  split at hchange
  · rename_i hnew
    cases hchange
    exact nodup_names_append hinner hnew _
  · cases hchange
    exact nodup_names_put hinner ..
  · cases hchange

end Entries

/-! ## Documents -/

namespace Draft

/-- The table of all top-level keys in a draft, as far as it is in place. -/
def topLevel (draft : Draft) : Entries :=
  match draft.current with
  | .top => draft.entries
  | .table .. | .element .. => draft.placed

theorem nodup_names_close {draft : Draft} {after : Entries} (hclose : draft.close = some after)
    (hnodup : draft.topLevel.names.Nodup) : after.names.Nodup := by
  obtain ⟨placed, current, entries⟩ := draft
  cases current with
  | top =>
      cases hclose
      exact hnodup
  | table path start => exact Entries.nodup_names_closeTable hclose hnodup
  | element path start => exact Entries.nodup_names_closeElement hclose hnodup

theorem nodup_names_openTable {draft after : Draft} {path : List Key} {start : Mark}
    (hopen : draft.openTable path start = some after) (hnodup : draft.topLevel.names.Nodup) :
    after.topLevel.names.Nodup := by
  simp only [openTable, bind, Option.bind_eq_some_iff, pure, Option.some.injEq] at hopen
  obtain ⟨placed, hclose, ⟨entries, left⟩, htaken, rfl⟩ := hopen
  exact Entries.nodup_names_openTable htaken (nodup_names_close hclose hnodup)

theorem nodup_names_openElement {draft after : Draft} {path : List Key} {start : Mark}
    (hopen : draft.openElement path start = some after) (hnodup : draft.topLevel.names.Nodup) :
    after.topLevel.names.Nodup := by
  simp only [openElement, bind, Option.bind_eq_some_iff, pure, Option.some.injEq] at hopen
  obtain ⟨placed, hclose, rfl⟩ := hopen
  exact nodup_names_close hclose hnodup

theorem nodup_names_define {draft after : Draft} {path : List Key} {value : Value} {start : Mark}
    (hdefine : draft.define path value start = some after)
    (hnodup : draft.topLevel.names.Nodup) : after.topLevel.names.Nodup := by
  obtain ⟨placed, current, entries⟩ := draft
  simp only [define, bind, Option.bind_eq_some_iff, pure, Option.some.injEq] at hdefine
  obtain ⟨extended, hentries, rfl⟩ := hdefine
  cases current with
  | top => exact Entries.nodup_names_define hentries hnodup
  | table | element => exact hnodup

end Draft

theorem nodup_names_expression {draft after : Draft} {text rest : List Char}
    (hread : expression draft text = some (after, rest)) (hnodup : draft.topLevel.names.Nodup) :
    after.topLevel.names.Nodup := by
  unfold expression at hread
  split at hread
  all_goals
    simp only [bind, Option.bind_eq_some_iff, pure, Option.some.injEq, Prod.mk.injEq] at hread
  · obtain ⟨_, -, _, -, _, -, _, hopen, rfl, -⟩ := hread
    exact Draft.nodup_names_openElement hopen hnodup
  · obtain ⟨_, -, _, -, _, -, _, hopen, rfl, -⟩ := hread
    exact Draft.nodup_names_openTable hopen hnodup
  · obtain ⟨_, -, _, -, _, -, _, -, _, hdefine, rfl, -⟩ := hread
    exact Draft.nodup_names_define hdefine hnodup

theorem nodup_names_lines {bound : ℕ} {draft after : Draft} {text : List Char}
    (hread : lines bound draft text = some after) (hnodup : draft.topLevel.names.Nodup) :
    after.topLevel.names.Nodup := by
  fun_induction lines bound draft text with
  | case1 => cases hread
  | case2 =>
      cases hread
      exact hnodup
  | case3 bound draft text comment hcomment ih =>
      obtain ⟨rest, -, hrest⟩ := Option.bind_eq_some_iff.mp hread
      exact ih rest hrest hnodup
  | case4 bound draft text rest hfilled hcode hempty ih => exact ih hread hnodup
  | case5 bound draft text hfilled hcode hfull ih =>
      obtain ⟨⟨next, rest⟩, hexpression, hrest⟩ := Option.bind_eq_some_iff.mp hread
      exact ih next rest hrest (nodup_names_expression hexpression hnodup)

/-- **No key is given twice** in a document that can be read. -/
theorem nodup_keys_of_settings? {text : String} {settings : List Setting}
    (hread : settings? text = some settings) : (settings.map Setting.key).Nodup := by
  simp only [settings?, bind, Option.bind_eq_some_iff, pure, Option.some.injEq] at hread
  obtain ⟨draft, hlines, entries, hclose, rfl⟩ := hread
  have hnodup := Draft.nodup_names_close hclose (nodup_names_lines hlines List.nodup_nil)
  rwa [List.map_map]

end HandleTable.Toml
