import HandleTable.Proofs.Host.Following
import Mathlib.Logic.Relation
import Mathlib.Data.List.Induction

/-!
# What a store serves below its root

The components of a request are checked as texts, one by one: none of them names
the parent of a directory, and none takes more than one step.  So without links
a request stays in the tree below the root of the store.  But the host follows a
link wherever a component names one, and the target of a link is not checked.
The store therefore serves nothing outside its root exactly when no link that a
request can name inside the root leads out of it.
-/

namespace HandleTable.Host

/-! ## The tree of directories -/

/-- The object at the second place is one of those in the directory at the first. -/
def Place.Contains (here there : Place) : Prop :=
  ∃ name node, here.Holds name node ∧ there = here.enter name node

/-- A place is the root or lies below it in the tree of directories. -/
def Place.Within (root place : Place) : Prop :=
  Relation.ReflTransGen Place.Contains root place

theorem Place.Within.location_prefix {root place : Place} (hplace : root.Within place) :
    root.location <+: place.location := by
  induction hplace with
  | refl => exact List.prefix_rfl
  | tail _ hcontains ih =>
      obtain ⟨name, node, -, rfl⟩ := hcontains
      refine ih.trans ?_
      simp [Place.location, Place.enter]

namespace LocalStore

/-! ## What an answer is about -/

theorem stat_eq_ok_iff {store : LocalStore} {path : Path} {entry : Entry} :
    store.stat path = .ok entry ↔
      ∃ place, store.locate path = .ok place ∧
        entry = place.node.entry (path.getLast?.getD "") := by
  unfold stat
  cases store.locate path <;> simp [bind, Except.bind, pure, Except.pure, eq_comm]

theorem readDir_eq_ok_iff {store : LocalStore} {path : Path} {listing : Listing} :
    store.readDir path = .ok listing ↔
      ∃ place entries size modified, store.locate path = .ok place ∧
        place.node = .directory entries size modified ∧ listing = listingOf entries := by
  unfold readDir
  cases hlocate : store.locate path with
  | error failure => simp [bind, Except.bind]
  | ok place =>
      cases hnode : place.node <;> simp [bind, Except.bind, hnode, eq_comm]

/-- **A store that serves nothing outside its root**: an entry is that of the root or of
an object below it, and a listing is that of the root or of a directory below it. -/
structure Confined (store : LocalStore) : Prop where
  stat : ∀ {path entry}, store.stat path = .ok entry →
    ∃ root place, store.origin [] = .ok root ∧ root.Within place ∧
      store.locate path = .ok place ∧ entry = place.node.entry (path.getLast?.getD "")
  readDir : ∀ {path listing}, store.readDir path = .ok listing →
    ∃ root place entries size modified, store.origin [] = .ok root ∧ root.Within place ∧
      store.locate path = .ok place ∧ place.node = .directory entries size modified ∧
      listing = listingOf entries

/-- **A link that leads out**: below the root the directory at `parent` holds a link under
the name of `component`, and a request for it ends outside the root. -/
def LeadsOut (store : LocalStore) (root : Place) (parent : Path) (component : String) : Prop :=
  ∃ here name target modified outside,
    store.origin parent = .ok here ∧ root.Within here ∧
      plainName? component = some name ∧
      here.Holds name (.link target modified) ∧
      store.locate (parent ++ [component]) = .ok outside ∧ ¬ root.Within outside

/-! ## Requests that stay inside -/

theorem within_or_leadsOut {store : LocalStore} {root here place : Place} {parent : Path}
    {component : String} (hparent : store.origin parent = .ok here) (hhere : root.Within here)
    (hplace : store.locate (parent ++ [component]) = .ok place) :
    root.Within place ∨ store.LeadsOut root parent component := by
  obtain ⟨start, name, left, hstart, hname, hstep⟩ := locate_append hplace
  obtain rfl : here = start := Except.ok.inj (hparent.symm.trans hstart)
  obtain ⟨node, hholds, ⟨target, modified, rfl⟩ | rfl⟩ :=
    follow_name (isName_of_plainName? hname) hstep
  · by_cases hinside : root.Within place
    · exact .inl hinside
    · exact .inr ⟨here, name, target, modified, place, hparent, hhere, hname, hholds, hplace,
        hinside⟩
  · exact .inl (hhere.tail ⟨_, node, hholds, rfl⟩)

/-- **The first way out is a link.**  Whatever a request leads to is inside the root, or
one of its components names a link that leads out. -/
theorem within_or_exists_leadsOut {store : LocalStore} {path : Path} {place : Place}
    (hplace : store.origin path = .ok place) :
    ∃ root, store.origin [] = .ok root ∧
      (root.Within place ∨
        ∃ parent component, parent ++ [component] <+: path ∧
          store.LeadsOut root parent component) := by
  -- along the components, the last one first: its parent is inside or already led out
  induction path using List.reverseRecOn generalizing place with
  | nil => exact ⟨place, hplace, .inl .refl⟩
  | append_singleton parent component ih =>
      rw [origin_append] at hplace
      obtain ⟨here, -, -, hhere, -⟩ := locate_append hplace
      obtain ⟨root, hroot, hinside | ⟨above, link, hprefix, hout⟩⟩ := ih hhere
      · refine ⟨root, hroot, ?_⟩
        rcases within_or_leadsOut hhere hinside hplace with hwithin | hout
        · exact .inl hwithin
        · exact .inr ⟨parent, component, List.prefix_rfl, hout⟩
      · exact ⟨root, hroot, .inr ⟨above, link, hprefix.trans (List.prefix_append ..), hout⟩⟩

/-- **A store serves nothing outside its root exactly when no link leads out of it.** -/
theorem confined_iff_no_link_leads_out (store : LocalStore) :
    store.Confined ↔
      ∀ root parent component, store.origin [] = .ok root →
        ¬ store.LeadsOut root parent component := by
  constructor
  · rintro hconfined root parent component hroot
      ⟨here, name, target, modified, outside, -, -, -, -, hlocate, houtside⟩
    obtain ⟨root', place, hroot', hwithin, hplace, -⟩ :=
      hconfined.stat (stat_eq_ok_iff.mpr ⟨outside, hlocate, rfl⟩)
    obtain rfl := Except.ok.inj (hroot.symm.trans hroot')
    obtain rfl := Except.ok.inj (hlocate.symm.trans hplace)
    -- what lies behind the link would be inside
    exact houtside hwithin
  · intro hlinks
    have hinside : ∀ {path place}, store.locate path = .ok place →
        ∃ root, store.origin [] = .ok root ∧ root.Within place := by
      intro path place hplace
      obtain ⟨root, hroot, hwithin | ⟨parent, component, -, hout⟩⟩ :=
        within_or_exists_leadsOut (origin_of_locate hplace)
      · exact ⟨root, hroot, hwithin⟩
      · exact absurd hout (hlinks root parent component hroot)
    constructor
    · intro path entry hstat
      obtain ⟨place, hplace, hentry⟩ := stat_eq_ok_iff.mp hstat
      obtain ⟨root, hroot, hwithin⟩ := hinside hplace
      exact ⟨root, place, hroot, hwithin, hplace, hentry⟩
    · intro path listing hreadDir
      obtain ⟨place, entries, size, modified, hplace, hnode, hlisting⟩ :=
        readDir_eq_ok_iff.mp hreadDir
      obtain ⟨root, hroot, hwithin⟩ := hinside hplace
      exact ⟨root, place, entries, size, modified, hroot, hwithin, hplace, hnode, hlisting⟩

/-! ## A link to a file beside the root -/

/-- A host with a directory that is served, a file beside it, and in the directory a link
to that file. -/
def besideSecret : LocalStore where
  host :=
    { current :=
        { node := .directory
            [(Text.bytes "served",
                .directory [(Text.bytes "out", .link (Text.bytes "../secret") 0)] 0 0),
              (Text.bytes "secret", .file (Text.bytes "hidden") 0)] 0 0
          above := [] }
      volume := ⟨1, 0, 0, 0, 0, 0⟩ }
  root := Text.bytes "served"

/-- A plain component that names a link is accepted, and the host follows the link out of
the root. -/
theorem not_confined : ¬ ∀ store : LocalStore, store.Confined := by
  intro hconfined
  have hstat : besideSecret.stat ["out"] = .ok ⟨"out", 6, false, 0⟩ := by rfl
  obtain ⟨root, place, hroot, hwithin, hplace, -⟩ := (hconfined besideSecret).stat hstat
  have hrootAt : (besideSecret.origin []).map Place.location = .ok [Text.bytes "served"] := by rfl
  have hplaceAt : (besideSecret.locate ["out"]).map Place.location =
      .ok [Text.bytes "secret"] := by rfl
  rw [hroot] at hrootAt
  rw [hplace] at hplaceAt
  have hprefix := hwithin.location_prefix
  rw [Except.ok.inj hrootAt, Except.ok.inj hplaceAt] at hprefix
  exact absurd hprefix (by decide)

end LocalStore

end HandleTable.Host
