import HandleTable.Program
import HandleTable.Proofs.Host.Confinement
import HandleTable.Proofs.Walk.Visited

/-!
# What a walk sees of a host

The host follows a link wherever a request names one, but a walk names none.  A listing
reports each object as what it is, and a link is not a directory, whatever it leads to; so
links are never queued.  What is queued is one real directory below another, and the path
to it is followed by the host name by name, without any link on the way.

So the links of a host do not matter for a walk: no directory outside the root is visited,
and none is visited twice, although links may lead out of the root or back to a directory
above (`walk_follows_no_link`).
-/

namespace HandleTable.Host

/-! ## Hosts and their directories -/

/-- A directory, and not a link that leads to one. -/
def Node.IsDirectory (node : Node) : Prop :=
  ∃ entries size modified, node = .directory entries size modified

theorem Node.IsDirectory.not_link {node : Node} (hnode : node.IsDirectory) (target : List UInt8)
    (modified : Int) : node ≠ .link target modified := by
  obtain ⟨entries, size, time, rfl⟩ := hnode
  simp

/-- What every host keeps to: the objects in a directory have names, and no two of them the
same one. -/
inductive Node.Proper : Node → Prop
  | file (data : List UInt8) (modified : Int) : Proper (.file data modified)
  | link (target : List UInt8) (modified : Int) : Proper (.link target modified)
  | directory {entries : List (FileName × Node)} (size : Nat) (modified : Int)
      (named : ∀ object ∈ entries, IsName object.1) (distinct : (entries.map Prod.fst).Nodup)
      (below : ∀ object ∈ entries, object.2.Proper) : Proper (.directory entries size modified)

/-- A path that leads from a root through real directories alone, by names that are texts. -/
inductive RealPath (root : Place) : Path → Place → Prop
  | root (real : root.node.IsDirectory) : RealPath root [] root
  | enter {path : Path} {place : Place} {name : String} {node : Node}
      (parent : RealPath root path place) (holds : place.Holds (Text.bytes name) node)
      (real : node.IsDirectory) :
      RealPath root (path ++ [name]) (place.enter (Text.bytes name) node)

theorem lookup_of_mem {entries : List (FileName × Node)} {name : FileName} {node : Node}
    (hdistinct : (entries.map Prod.fst).Nodup) (hobject : (name, node) ∈ entries) :
    entries.lookup name = some node := by
  induction entries with
  | nil => contradiction
  | cons first rest ih =>
      rw [List.map_cons, List.nodup_cons] at hdistinct
      obtain ⟨hfirst, hrest⟩ := hdistinct
      rcases List.mem_cons.mp hobject with rfl | hlater
      · exact List.lookup_cons_self
      · have hother : name ≠ first.1 := by
          intro hsame
          exact hfirst (List.mem_map.mpr ⟨(name, node), hlater, hsame⟩)
        rw [List.lookup_cons, beq_false_of_ne hother]
        exact ih hrest hlater

theorem Place.Holds.mem {place : Place} {name : FileName} {node : Node}
    (hholds : place.Holds name node) :
    ∃ entries size modified, place.node = .directory entries size modified ∧
      (name, node) ∈ entries := by
  obtain ⟨entries, size, modified, hnode, hlookup⟩ := hholds
  obtain ⟨before, after, rfl, -⟩ := List.lookup_eq_some_iff.mp hlookup
  exact ⟨_, size, modified, hnode, List.mem_append_right _ List.mem_cons_self⟩

theorem RealPath.proper {root place : Place} {path : Path} (hreal : RealPath root path place)
    (hproper : root.node.Proper) : place.node.Proper := by
  induction hreal with
  | root => exact hproper
  | @enter path place name node hparent hholds hnode ih =>
      obtain ⟨entries, size, modified, hplace, hobject⟩ := hholds.mem
      rw [hplace] at ih
      cases ih with
      | directory _ _ hnamed hdistinct hbelow => exact hbelow _ hobject

/-! ## Listings -/

theorem Node.entry_name (name : String) (node : Node) : (node.entry name).name = name := by
  cases node <;> rfl

/-- A listing reports a link as a link. -/
theorem Node.isDirectory_of_entry {name : String} {node : Node}
    (hdir : (node.entry name).isDir = true) : node.IsDirectory := by
  cases node with
  | file | link => contradiction
  | directory entries size modified => exact ⟨entries, size, modified, rfl⟩

theorem mem_listingOf {entries : List (FileName × Node)} {entry : Entry}
    (hentry : entry ∈ listingOf entries) :
    ∃ node, (Text.bytes entry.name, node) ∈ entries ∧ entry = node.entry entry.name := by
  have hread := (List.mergeSort_perm _ _).mem_iff.mp hentry
  obtain ⟨⟨name, node⟩, hobject, htext⟩ := List.mem_filterMap.mp hread
  obtain ⟨text, hbytes, rfl⟩ := Option.map_eq_some_iff.mp htext
  rw [Node.entry_name, Text.bytes_of_ofBytes? hbytes]
  exact ⟨node, hobject, rfl⟩

theorem names_listingOf (entries : List (FileName × Node)) :
    (listingOf entries).names.Perm ((entries.map Prod.fst).filterMap Text.ofBytes?) := by
  have hread : (entries.filterMap fun object =>
      (Text.ofBytes? object.1).map object.2.entry).map Entry.name =
        (entries.map Prod.fst).filterMap Text.ofBytes? := by
    rw [List.map_filterMap, List.filterMap_map]
    refine List.filterMap_congr fun object _ => ?_
    cases htext : Text.ofBytes? object.1 with
    | none => simp [htext]
    | some text => simp [htext, Node.entry_name]
  rw [← hread]
  exact (List.mergeSort_perm _ _).map Entry.name

theorem nodup_names_listingOf {entries : List (FileName × Node)}
    (hdistinct : (entries.map Prod.fst).Nodup) : (listingOf entries).names.Nodup := by
  rw [(names_listingOf entries).nodup_iff]
  apply hdistinct.filterMap
  intro first second text hfirst hsecond
  rw [← Text.bytes_of_ofBytes? hfirst, ← Text.bytes_of_ofBytes? hsecond]

namespace LocalStore

variable {store : LocalStore} {root place : Place} {path : Path}

/-- The host goes from a directory to what it holds without following a link, unless it is
asked for a link itself. -/
theorem locate_child {found : Place} {name : String} {node : Node}
    (hplace : store.locate path = .ok place) (hname : IsName (Text.bytes name))
    (hholds : place.Holds (Text.bytes name) node)
    (hnode : ∀ target modified, node ≠ .link target modified)
    (hfound : store.locate (path ++ [name]) = .ok found) :
    (Text.bytes name).length ≤ maxName ∧ found = place.enter (Text.bytes name) node := by
  obtain ⟨here, plain, left, hhere, hplain, hstep⟩ := locate_append hfound
  rw [plainName?_of_isName hname] at hplain
  cases hplain
  obtain rfl := Except.ok.inj (hhere.symm.trans (origin_of_locate hplace))
  rw [follow_name_of_holds left hname hholds hnode] at hstep
  split at hstep
  · cases hstep
  · rename_i hshort
    exact ⟨Nat.le_of_not_lt hshort, (Except.ok.inj hstep).symm⟩

/-- A request that leads through real directories, and the host takes no other way. -/
structure RealRequest (store : LocalStore) (root : Place) (path : Path) (place : Place) :
    Prop where
  real : RealPath root path place
  located : ∀ found, store.locate path = .ok found → found = place

namespace RealRequest

variable (hproper : root.node.Proper) (hrequest : store.RealRequest root path place)
  {listing : Listing} (hread : store.readDir path = .ok listing)

include hproper hrequest hread

theorem listing_eq :
    ∃ entries size modified, place.node = .directory entries size modified ∧
      listing = listingOf entries ∧ (∀ object ∈ entries, IsName object.1) ∧
      (entries.map Prod.fst).Nodup := by
  obtain ⟨found, entries, size, modified, hfound, hnode, hlisting⟩ := readDir_eq_ok_iff.mp hread
  obtain rfl := hrequest.located found hfound
  have hhere := hrequest.real.proper hproper
  rw [hnode] at hhere
  cases hhere with
  | directory _ _ hnamed hdistinct hbelow =>
      exact ⟨entries, size, modified, hnode, hlisting, hnamed, hdistinct⟩

/-- What is listed as a directory is one, and is requested by one name more. -/
protected theorem child {child : Path} (hchild : child ∈ Walk.subdirectories path listing) :
    ∃ below, store.RealRequest root child below := by
  obtain ⟨entries, size, modified, hnode, rfl, hnamed, hdistinct⟩ :=
    hrequest.listing_eq hproper hread
  obtain ⟨entry, hentry, rfl⟩ := List.mem_map.mp hchild
  obtain ⟨hlisted, hdir⟩ := List.mem_filter.mp hentry
  obtain ⟨node, hobject, hsame⟩ := mem_listingOf hlisted
  rw [hsame] at hdir
  have hdirectory := Node.isDirectory_of_entry hdir
  have hholds : place.Holds (Text.bytes entry.name) node :=
    ⟨entries, size, modified, hnode, lookup_of_mem hdistinct hobject⟩
  have hplace : store.locate path = .ok place := by
    obtain ⟨found, -, -, -, hfound, -⟩ := readDir_eq_ok_iff.mp hread
    rwa [hrequest.located found hfound] at hfound
  refine ⟨place.enter (Text.bytes entry.name) node, hrequest.real.enter hholds hdirectory, ?_⟩
  intro found hfound
  exact (locate_child hplace (hnamed _ hobject) hholds hdirectory.not_link hfound).2

theorem nodup_subdirectories : (Walk.subdirectories path listing).Nodup := by
  obtain ⟨entries, -, -, -, rfl, -, hdistinct⟩ := hrequest.listing_eq hproper hread
  exact Walk.nodup_subdirectories (nodup_names_listingOf hdistinct) path

end RealRequest

/-- **A walk follows no link.**  Take a store whose root is a directory, on a host in whose
directories every object has a name of its own, with links wherever and to whatever they
like.  Whatever the bounds of the walk are and the capacities of its tables, each directory
that it visits is reached from the root through real directories, by names that are texts,
and this is the directory that the host finds at its path.  If no handle was supplied twice,
no directory is visited twice, and none lies below the last level. -/
theorem walk_follows_no_link (served : LocalExport) {store : LocalStore} {root : Place}
    (hroot : store.locate [] = .ok root) (hdirectory : root.node.IsDirectory)
    (hproper : root.node.Proper) (fresh : ℕ → Handle) (maxDepth pageSize : ℕ) (request : String)
    (limit verifierLimit : Capacity) :
    let after := (Walk.walk (Program.surroundings served store.readDir fresh)
      (.of maxDepth pageSize) request (.new () limit verifierLimit)).2
    (∀ path ∈ after.visited, ∃ place, store.RealRequest root path place) ∧
    (((List.range after.minted).map fresh).Nodup →
      after.visited.Nodup ∧ ∀ path ∈ after.visited, path.length < max 1 maxDepth) := by
  intro after
  have hreal : ∀ path ∈ after.visited, ∃ place, store.RealRequest root path place := by
    apply Walk.walk_visits_only
    · have hlocated : ∀ found, store.locate [] = .ok found → found = root := fun found hfound =>
        Except.ok.inj (hfound.symm.trans hroot)
      exact ⟨root, .root hdirectory, hlocated⟩
    · rintro _ _ path listing ⟨place, hrequest⟩ hread child hchild
      exact hrequest.child hproper hread hchild
  refine ⟨hreal, fun hfresh => ?_⟩
  let around := Program.surroundings served store.readDir fresh
  have hkept : ∀ lookup, around.lost lookup = false := fun _ => rfl
  refine ⟨Walk.walk_visits_once around hfresh hkept ?_, Walk.walk_stays_in_depth around hfresh⟩
  intro _ _ listing path hpath hread
  obtain ⟨place, hrequest⟩ := hreal path hpath
  exact hrequest.nodup_subdirectories hproper hread

/-- A directory with another one in it, which holds a link to two directories above, and a
directory whose name is no text. -/
def loopedNode : Node :=
  .directory
    [(Text.bytes "inner", .directory
      [(Text.bytes "up", .link (Text.bytes "../..") 0), ([0xff], .directory [] 0 0)] 0 0)] 0 0

/-- A host that serves this directory, which the link leads around and out of. -/
def looped : LocalStore where
  host :=
    { current := ⟨.directory [(Text.bytes "served", loopedNode)] 0 0, []⟩
      volume := ⟨1, 0, 0, 0, 0, 0⟩ }
  root := Text.bytes "served"

theorem loopedNode_proper : loopedNode.Proper := by
  have hempty : (Node.directory [] 0 0).Proper := by
    apply Node.Proper.directory <;> simp
  apply Node.Proper.directory
  · decide
  · decide
  · rw [List.forall_mem_singleton]
    apply Node.Proper.directory
    · decide
    · decide
    · simpa using ⟨.link _ _, hempty⟩

/-- There is room for one handle and one listing only, and the walk might go as deep as the
link; yet it visits the two directories, each once. -/
theorem walk_around_looped :
    let after := (Walk.walk (Program.surroundings ⟨"/", looped.usage⟩ looped.readDir Handle.ofSeed)
      (.of 5 1) "/" (.new () ⟨1, by decide⟩ ⟨1, by decide⟩)).2
    after.visited = [[], ["inner"]] ∧ after.visited.Nodup ∧
      ∃ root, looped.locate [] = .ok root ∧
        ∀ path ∈ after.visited, path.length < 5 ∧ ∃ place, looped.RealRequest root path place := by
  intro after
  have hvisited : after.visited = [[], ["inner"]] := by decide +kernel
  have hminted : after.minted = 2 := by decide +kernel
  let root : Place := ⟨loopedNode, [⟨looped.host.current.node, Text.bytes "served"⟩]⟩
  have hroot : looped.locate [] = .ok root := rfl
  obtain ⟨hreal, honce⟩ := walk_follows_no_link ⟨"/", looped.usage⟩ hroot ⟨_, _, _, rfl⟩
    loopedNode_proper Handle.ofSeed 5 1 "/" ⟨1, by decide⟩ ⟨1, by decide⟩
  have hfresh : ((List.range after.minted).map Handle.ofSeed).Nodup := by
    rw [hminted]
    decide
  obtain ⟨hnodup, hdepth⟩ := honce hfresh
  exact ⟨hvisited, hnodup, root, hroot, fun path hpath => ⟨hdepth path hpath, hreal path hpath⟩⟩

end LocalStore

end HandleTable.Host
