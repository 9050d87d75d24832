import HandleTable.Proofs.Host.Enumeration

/-!
# Asking for what is listed

What a listing tells of an entry may also be asked for, by the path of the directory with
the name of the entry behind it.  Both answers are made from what the host reports, but not
of the same object: a listing reports a link as itself, while a question about one path
follows it.

Everything but a link is told alike, as long as the host takes a path of that length
(`locate_append_iff`).  A link is told alike only if it leads to a file that happens to have
as many bytes as the text of the link and the same time; if it leads to a directory, or
nowhere, the two answers differ (`asked_as_listed_iff`).
-/

namespace HandleTable.Host

/-- **What the host can be asked for**: a name behind a host path, without a NUL byte, that is
not too long and does not make the path too long. -/
structure Askable (base : HostPath) (name : FileName) : Prop where
  nul_not_mem : 0 ∉ name
  name_length : name.length ≤ maxName
  path_length : (joinName base name).length ≤ maxPath

namespace LocalStore

variable {store : LocalStore} {path : Path} {place : Place} {base : HostPath} {name : String}
  {node : Node}

theorem exists_holds_of_mem_listing (hproper : store.host.current.Proper) {listing : Listing}
    (hread : store.readDir path = .ok listing) {entry : Entry} (hentry : entry ∈ listing) :
    ∃ place node, store.locate path = .ok place ∧ IsName (Text.bytes entry.name) ∧
      place.Holds (Text.bytes entry.name) node ∧ entry = node.entry entry.name := by
  obtain ⟨place, entries, size, modified, hplace, hnode, rfl⟩ := readDir_eq_ok_iff.mp hread
  obtain ⟨node, hobject, hreported⟩ := mem_listingOf hentry
  have hdirectory := (proper_of_locate hproper hplace).node
  rw [hnode] at hdirectory
  cases hdirectory with
  | directory _ _ named distinct _ =>
      exact ⟨place, node, hplace, named _ hobject,
        ⟨entries, size, modified, hnode, lookup_of_mem distinct hobject⟩, hreported⟩

section

variable (hbase : hostPath store.root path = .ok base) (hplace : store.locate path = .ok place)
  (hname : IsName (Text.bytes name)) (hholds : place.Holds (Text.bytes name) node)

include hbase hplace hname hholds

/-- **Everything but a link is found where it is listed**, if the host can be asked for it,
and nothing else is found there. -/
theorem locate_append_iff (hnode : ∀ target modified, node ≠ .link target modified)
    {found : Place} :
    store.locate (path ++ [name]) = .ok found ↔
      Askable base (Text.bytes name) ∧ found = place.enter (Text.bytes name) node := by
  have hpath := hostPath_append_of_isName hbase hname
  have hhere : find store.host.current base = .ok place := by
    obtain ⟨absolute, habsolute, hfind⟩ := locate_eq_ok_iff.mp hplace
    rwa [Except.ok.inj (hbase.symm.trans habsolute)]
  constructor
  · intro hfound
    obtain ⟨hshort, rfl⟩ := locate_child hplace hname hholds hnode hfound
    obtain ⟨absolute, habsolute, hfind⟩ := locate_eq_ok_iff.mp hfound
    obtain rfl := Except.ok.inj (hpath.symm.trans habsolute)
    obtain ⟨hnul, -, hlength, -⟩ := find_eq_ok_iff.mp hfind
    exact ⟨⟨fun hzero => hnul (zero_mem_joinName.mpr (.inr hzero)), hshort, hlength⟩, rfl⟩
  · rintro ⟨⟨hnul, hshort, hlength⟩, rfl⟩
    obtain ⟨left, hfind⟩ := find_joinName_eq hname hhere hnul hlength
    refine locate_eq_ok_iff.mpr ⟨_, hpath, ?_⟩
    rw [hfind, follow_name_of_holds left hname hholds hnode, if_neg (Nat.not_lt.mpr hshort)]

/-- What is no link is told as it is listed exactly when the host can be asked for it. -/
theorem stat_append_iff (hnode : ∀ target modified, node ≠ .link target modified) :
    store.stat (path ++ [name]) = .ok (node.entry name) ↔ Askable base (Text.bytes name) := by
  simp only [stat_eq_ok_iff, locate_append_iff hbase hplace hname hholds hnode]
  constructor
  · rintro ⟨_, ⟨haskable, -⟩, -⟩
    exact haskable
  · intro haskable
    exact ⟨_, ⟨haskable, rfl⟩, by simp [Place.enter]⟩

end

/-- A link is told as it is listed exactly when it leads to a file of the same size and
time. -/
theorem stat_link_iff (hproper : store.host.current.Proper) {target : List UInt8}
    {modified : Int} :
    store.stat (path ++ [name]) = .ok ((Node.link target modified).entry name) ↔
      ∃ found data, store.locate (path ++ [name]) = .ok found ∧
        found.node = .file data modified ∧ data.length = target.length := by
  rw [stat_eq_ok_iff, List.getLast?_concat, Option.getD_some]
  constructor
  · rintro ⟨found, hfound, htold⟩
    cases hkind : found.node with
    | file data time =>
        simp only [hkind, Node.entry, Entry.mk.injEq, true_and] at htold
        exact ⟨found, data, hfound, by rw [hkind, htold.2], htold.1.symm⟩
    | directory entries size time => simp [hkind, Node.entry] at htold
    | link text time => exact absurd hkind ((proper_of_locate hproper hfound).not_link text time)
  · rintro ⟨found, data, hfound, hkind, hsize⟩
    exact ⟨found, hfound, by simp [hkind, Node.entry, hsize]⟩

/-- **The entries that a question confirms**: files and directories that the host can be asked
for, and links that lead to a file which looks like the link. -/
inductive ToldAsListed (store : LocalStore) (path : Path) (base : HostPath) (name : String) :
    Node → Prop
  | file {data : List UInt8} {modified : Int} (askable : Askable base (Text.bytes name)) :
      ToldAsListed store path base name (.file data modified)
  | directory {entries : List (FileName × Node)} {size : Nat} {modified : Int}
      (askable : Askable base (Text.bytes name)) :
      ToldAsListed store path base name (.directory entries size modified)
  | link {target data : List UInt8} {modified : Int} {found : Place}
      (leads : store.locate (path ++ [name]) = .ok found)
      (sameTime : found.node = .file data modified) (sameSize : data.length = target.length) :
      ToldAsListed store path base name (.link target modified)

/-- **A question about an entry agrees with the listing exactly when the host can be asked for
its path, and the entry is no link or one that leads to a file which looks like it.**  On a
host whose directories hold no name twice, take a directory that can be listed, and an entry
of the listing: an object of the directory is reported, and the question about its path has
the same answer in these cases and in no others. -/
theorem asked_as_listed_iff (hproper : store.host.current.Proper) {listing : Listing}
    (hread : store.readDir path = .ok listing) {entry : Entry} (hentry : entry ∈ listing) :
    ∃ place base node, store.locate path = .ok place ∧ hostPath store.root path = .ok base ∧
      place.Holds (Text.bytes entry.name) node ∧ entry = node.entry entry.name ∧
      (store.stat (path ++ [entry.name]) = .ok entry ↔
        store.ToldAsListed path base entry.name node) := by
  obtain ⟨place, node, hplace, hname, hholds, hreported⟩ :=
    exists_holds_of_mem_listing hproper hread hentry
  obtain ⟨base, hbase, -⟩ := locate_eq_ok_iff.mp hplace
  refine ⟨place, base, node, hplace, hbase, hholds, hreported, ?_⟩
  rw [hreported, Node.entry_name]
  cases node with
  | file data modified =>
      rw [stat_append_iff hbase hplace hname hholds (by simp)]
      exact ⟨.file, fun | .file askable => askable⟩
  | directory entries size modified =>
      rw [stat_append_iff hbase hplace hname hholds (by simp)]
      exact ⟨.directory, fun | .directory askable => askable⟩
  | link target modified =>
      rw [stat_link_iff hproper]
      constructor
      · rintro ⟨found, data, hfound, hfile, hsize⟩
        exact .link hfound hfile hsize
      · rintro (_ | _ | ⟨hfound, hfile, hsize⟩)
        exact ⟨_, _, hfound, hfile, hsize⟩

/-- A link to a directory, and one to a file with as many bytes as the text of the link. -/
def linkedObjects : List (FileName × Node) :=
  [(Text.bytes "d", .directory [] 0 3), (Text.bytes "f", .file (Text.bytes "x") 4),
    (Text.bytes "k", .link (Text.bytes "d") 5), (Text.bytes "l", .link (Text.bytes "f") 4)]

def linkedListing : Listing :=
  [⟨"d", 0, true, 3⟩, ⟨"f", 1, false, 4⟩, ⟨"k", 1, false, 5⟩, ⟨"l", 1, false, 4⟩]

theorem linkedObjects_proper : (Node.directory linkedObjects 0 0).Proper := by
  have hempty : (Node.directory [] 0 3).Proper := by
    apply Node.Proper.directory <;> simp
  apply Node.Proper.directory
  · decide
  · decide
  · simpa [linkedObjects] using ⟨hempty, .file _ _, .link _ _, .link _ _⟩

theorem readDir_linkedObjects : (serving linkedObjects).readDir [] = .ok linkedListing := by
  have hlisting : linkedListing = listingOf linkedObjects :=
    (Listing.sorted_eq_self (by decide +kernel)).symm
  exact readDir_eq_ok_iff.mpr ⟨_, linkedObjects, 0, 0, rfl, rfl, hlisting⟩

/-- The link to the file is told as it is listed, the one to the directory is not. -/
theorem linkedObjects_asked_for :
    let store := serving linkedObjects
    (∃ place base node, store.locate [] = .ok place ∧ hostPath store.root [] = .ok base ∧
      place.Holds (Text.bytes "l") node ∧ store.ToldAsListed [] base "l" node) ∧
    ∃ place base node, store.locate [] = .ok place ∧ hostPath store.root [] = .ok base ∧
      place.Holds (Text.bytes "k") node ∧ ¬ store.ToldAsListed [] base "k" node := by
  have hproper := serving_proper linkedObjects_proper
  constructor
  · have hentry : ⟨"l", 1, false, 4⟩ ∈ linkedListing := by simp [linkedListing]
    obtain ⟨place, base, node, hplace, hbase, hholds, -, htold⟩ :=
      asked_as_listed_iff hproper readDir_linkedObjects hentry
    exact ⟨place, base, node, hplace, hbase, hholds, htold.mp rfl⟩
  · have hentry : ⟨"k", 1, false, 5⟩ ∈ linkedListing := by simp [linkedListing]
    have hstat : (serving linkedObjects).stat ["k"] = .ok ⟨"k", 0, true, 3⟩ := rfl
    obtain ⟨place, base, node, hplace, hbase, hholds, -, htold⟩ :=
      asked_as_listed_iff hproper readDir_linkedObjects hentry
    refine ⟨place, base, node, hplace, hbase, hholds, fun hlisted => ?_⟩
    have hsame := htold.mpr hlisted
    rw [List.nil_append, hstat] at hsame
    simp at hsame

/-- A link to a directory is listed as a link and told to be a directory. -/
theorem not_asked_as_listed :
    ¬ ∀ (store : LocalStore) (path : Path) (listing : Listing) (entry : Entry),
      store.host.current.Proper → store.readDir path = .ok listing → entry ∈ listing →
        store.stat (path ++ [entry.name]) = .ok entry := by
  intro hagree
  have hstat : (serving linkedObjects).stat ["k"] = .ok ⟨"k", 0, true, 3⟩ := rfl
  have hsame := hagree (serving linkedObjects) [] linkedListing ⟨"k", 1, false, 5⟩
    (serving_proper linkedObjects_proper) readDir_linkedObjects (by simp [linkedListing])
  rw [List.nil_append, hstat] at hsame
  simp at hsame

end LocalStore

end HandleTable.Host
