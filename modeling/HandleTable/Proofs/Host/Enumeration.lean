import HandleTable.Proofs.Host.Walked
import HandleTable.Proofs.Listing.Order
import HandleTable.Proofs.Server.Parts

/-!
# Any order of enumeration

A host enumerates the objects of a directory in an order of its own, which need not be the
same twice.  `Node.Reordered` says that two trees hold the same objects, those in each
directory in any order.

Objects are found by their names, so such trees lead every path to the same object or to
the same error (`find_reordered`), and listings are sorted, so that every directory has
one listing (`LocalStore.readDir_reordered`).  A second read of an unchanged directory
therefore gets the verifier of the first one.  As long as this verifier is held, the second
snapshot takes the place of the first: none is added and none is dropped
(`listing_of_any_enumeration`).
-/

namespace HandleTable.Host

/-! ## What a listing says of a directory -/

theorem lookup_eq_some_iff {entries : List (FileName × Node)} {name : FileName} {node : Node}
    (hdistinct : (entries.map Prod.fst).Nodup) :
    entries.lookup name = some node ↔ (name, node) ∈ entries := by
  constructor
  · intro hlookup
    obtain ⟨before, after, rfl, -⟩ := List.lookup_eq_some_iff.mp hlookup
    exact List.mem_append_right _ List.mem_cons_self
  · exact lookup_of_mem hdistinct

theorem lookup_eq_of_perm {entries others : List (FileName × Node)}
    (hdistinct : (entries.map Prod.fst).Nodup) (hperm : entries.Perm others) (name : FileName) :
    entries.lookup name = others.lookup name := by
  have hothers : (others.map Prod.fst).Nodup := (hperm.map Prod.fst).nodup_iff.mp hdistinct
  apply Option.ext
  intro node
  rw [lookup_eq_some_iff hdistinct, lookup_eq_some_iff hothers, hperm.mem_iff]

/-- Two directories of which a reader is told the same: under each name an object of the same
kind, size and time, or none. -/
def LooksSame (entries others : List (FileName × Node)) : Prop :=
  ∀ name text, (entries.lookup name).map (Node.entry text) =
    (others.lookup name).map (Node.entry text)

section

variable {entries : List (FileName × Node)} (hdistinct : (entries.map Prod.fst).Nodup)

include hdistinct

/-- An entry is listed when its object is reported so. -/
theorem mem_listingOf_iff {entry : Entry} :
    entry ∈ listingOf entries ↔
      (entries.lookup (Text.bytes entry.name)).map (Node.entry entry.name) = some entry := by
  constructor
  · intro hentry
    obtain ⟨node, hobject, hreported⟩ := mem_listingOf hentry
    rw [lookup_of_mem hdistinct hobject, Option.map_some, ← hreported]
  · intro hreported
    obtain ⟨node, hlookup, hentry⟩ := Option.map_eq_some_iff.mp hreported
    have hobject := (lookup_eq_some_iff hdistinct).mp hlookup
    apply (Listing.sorted_perm _).mem_iff.mpr
    refine List.mem_filterMap.mpr ⟨_, hobject, ?_⟩
    simp only [Text.ofBytes?_bytes, Option.map_some, hentry]

/-- Each name that is a text is listed once, and no others are. -/
theorem count_names_listingOf (name : String) :
    (listingOf entries).names.count name =
      if Text.bytes name ∈ entries.map Prod.fst then 1 else 0 := by
  have hlisted : name ∈ (listingOf entries).names ↔ Text.bytes name ∈ entries.map Prod.fst := by
    rw [(names_listingOf entries).mem_iff, List.mem_filterMap]
    constructor
    · rintro ⟨encoded, hencoded, htext⟩
      rwa [Text.bytes_of_ofBytes? htext]
    · exact fun hmem => ⟨_, hmem, Text.ofBytes?_bytes name⟩
  rw [(nodup_names_listingOf hdistinct).count]
  exact if_congr hlisted rfl rfl

theorem ascending_listingOf : (listingOf entries).Ascending := by
  apply Listing.ascending_sorted
  exact ((Listing.sorted_perm _).map Entry.name).nodup_iff.mp (nodup_names_listingOf hdistinct)

/-- **Directories of which a reader is told the same have one listing.** -/
theorem listingOf_eq_of_looksSame {others : List (FileName × Node)}
    (hothers : (others.map Prod.fst).Nodup) (hsame : LooksSame entries others) :
    listingOf entries = listingOf others := by
  have hperm : (listingOf entries).Perm (listingOf others) := by
    rw [List.perm_ext_iff_of_nodup (nodup_names_listingOf hdistinct).of_map
      (nodup_names_listingOf hothers).of_map]
    intro entry
    rw [mem_listingOf_iff hdistinct, mem_listingOf_iff hothers, hsame]
  refine Listing.sorted_eq_of_perm
    ((Listing.sorted_perm _).symm.trans (hperm.trans (Listing.sorted_perm _))) ?_
  exact ((Listing.sorted_perm _).map Entry.name).nodup_iff.mp (nodup_names_listingOf hdistinct)

end

/-! ## Trees in another order -/

/-- The same objects, those in each directory in any order: one directory after the other
may be put into another order, at the top or anywhere below. -/
inductive Node.Reordered : Node → Node → Prop
  | refl (node : Node) : Reordered node node
  | trans {first second third : Node} (former : Reordered first second)
      (latter : Reordered second third) : Reordered first third
  | listed {entries others : List (FileName × Node)} (size : Nat) (modified : Int)
      (same : entries.Perm others) :
      Reordered (.directory entries size modified) (.directory others size modified)
  | within {before after : List (FileName × Node)} {name : FileName} {node other : Node}
      (size : Nat) (modified : Int) (deeper : Reordered node other) :
      Reordered (.directory (before ++ (name, node) :: after) size modified)
        (.directory (before ++ (name, other) :: after) size modified)

theorem Node.Proper.distinct {entries : List (FileName × Node)} {size : Nat} {modified : Int}
    (hproper : (Node.directory entries size modified).Proper) :
    (entries.map Prod.fst).Nodup := by
  cases hproper with
  | directory _ _ _ distinct _ => exact distinct

namespace Node.Reordered

variable {node other : Node}

theorem entry_eq (horder : node.Reordered other) (name : String) :
    node.entry name = other.entry name := by
  induction horder with
  | refl node => rfl
  | trans _ _ hformer hlatter => exact hformer.trans hlatter
  | listed | within => rfl

protected theorem proper (horder : node.Reordered other) (hproper : node.Proper) :
    other.Proper := by
  induction horder with
  | refl node => exact hproper
  | trans _ _ hformer hlatter => exact hlatter (hformer hproper)
  | listed size modified same =>
      cases hproper with
      | directory _ _ named distinct below =>
          exact .directory size modified
            (fun object hobject => named object (same.mem_iff.mpr hobject))
            ((same.map Prod.fst).nodup_iff.mp distinct)
            (fun object hobject => below object (same.mem_iff.mpr hobject))
  | @within before after name node other size modified deeper ih =>
      cases hproper with
      | directory _ _ named distinct below =>
          rw [List.forall_mem_append, List.forall_mem_cons] at named below
          refine .directory size modified ?_ ?_ ?_
          · rw [List.forall_mem_append, List.forall_mem_cons]
            exact named
          · simpa using distinct
          · rw [List.forall_mem_append, List.forall_mem_cons]
            exact ⟨below.1, ih below.2.1, below.2.2⟩

theorem eq_of_not_isDirectory (horder : node.Reordered other) (hnode : ¬ node.IsDirectory) :
    other = node := by
  induction horder with
  | refl node => rfl
  | trans _ _ hformer hlatter =>
      obtain rfl := hformer hnode
      exact hlatter hnode
  | listed | within => exact absurd ⟨_, _, _, rfl⟩ hnode

end Node.Reordered

/-- What reordered directories have in common: under each name a reordered object or none. -/
structure SameDirectory (entries others : List (FileName × Node)) : Prop where
  absent : ∀ {name}, entries.lookup name = none → others.lookup name = none
  present : ∀ {name node}, entries.lookup name = some node →
    ∃ other, others.lookup name = some other ∧ node.Reordered other

namespace SameDirectory

theorem of_lookup_eq {entries others : List (FileName × Node)}
    (hlookup : ∀ name, entries.lookup name = others.lookup name) :
    SameDirectory entries others where
  absent {name} habsent := by rw [← hlookup, habsent]
  present {name node} hpresent := ⟨node, by rw [← hlookup, hpresent], .refl node⟩

theorem trans {first second third : List (FileName × Node)} (hfirst : SameDirectory first second)
    (hsecond : SameDirectory second third) : SameDirectory first third where
  absent habsent := hsecond.absent (hfirst.absent habsent)
  present hpresent := by
    obtain ⟨middle, hmiddle, hformer⟩ := hfirst.present hpresent
    obtain ⟨last, hlast, hlatter⟩ := hsecond.present hmiddle
    exact ⟨last, hlast, hformer.trans hlatter⟩

theorem within (before after : List (FileName × Node)) (name : FileName) {node other : Node}
    (horder : node.Reordered other) :
    SameDirectory (before ++ (name, node) :: after) (before ++ (name, other) :: after) where
  absent {wanted} habsent := by
    rw [List.lookup_eq_none_iff, List.forall_mem_append, List.forall_mem_cons] at habsent ⊢
    exact habsent
  present {wanted found} hpresent := by
    rw [List.lookup_append] at hpresent ⊢
    cases hbefore : before.lookup wanted with
    | some earlier =>
        rw [hbefore, Option.some_or] at hpresent
        exact ⟨found, hpresent, .refl found⟩
    | none =>
        rw [hbefore, Option.none_or, List.lookup_cons] at hpresent
        rw [Option.none_or, List.lookup_cons]
        cases hname : wanted == name with
        | true =>
            rw [hname] at hpresent
            cases hpresent
            exact ⟨other, rfl, horder⟩
        | false =>
            rw [hname] at hpresent
            exact ⟨found, hpresent, .refl found⟩

theorem looksSame {entries others : List (FileName × Node)} (hsame : SameDirectory entries others) :
    LooksSame entries others := by
  intro name text
  cases hfound : entries.lookup name with
  | none => rw [hsame.absent hfound]
  | some node =>
      obtain ⟨other, hother, horder⟩ := hsame.present hfound
      rw [hother, Option.map_some, Option.map_some, horder.entry_eq]

end SameDirectory

/-- **A directory in another order** is a directory of the same objects. -/
theorem Node.Reordered.directory {node other : Node} (horder : node.Reordered other)
    (hproper : node.Proper) {entries : List (FileName × Node)} {size : Nat} {modified : Int}
    (hnode : node = .directory entries size modified) :
    ∃ others, other = .directory others size modified ∧ SameDirectory entries others := by
  induction horder generalizing entries size modified with
  | refl node => exact ⟨entries, hnode, .of_lookup_eq fun _ => rfl⟩
  | trans former latter hformer hlatter =>
      obtain ⟨middle, hmiddle, hfirst⟩ := hformer hproper hnode
      obtain ⟨others, hothers, hsecond⟩ := hlatter (former.proper hproper) hmiddle
      exact ⟨others, hothers, hfirst.trans hsecond⟩
  | listed size modified same =>
      cases hnode
      cases hproper with
      | directory _ _ named distinct below =>
          exact ⟨_, rfl, .of_lookup_eq (lookup_eq_of_perm distinct same)⟩
  | within size modified deeper =>
      cases hnode
      exact ⟨_, rfl, .within _ _ _ deeper⟩

/-! ## Following a path in another order -/

/-- What every place of a host keeps to: a proper object that is no link, below proper
directories. -/
structure Place.Proper (place : Place) : Prop where
  node : place.node.Proper
  not_link : ∀ target modified, place.node ≠ .link target modified
  above : ∀ step ∈ place.above, step.directory.Proper ∧ step.directory.IsDirectory

/-- The same way to the same object, in trees that differ in order only. -/
structure Place.Reordered (here there : Place) : Prop where
  node : here.node.Reordered there.node
  above : List.Forall₂ (fun step other =>
    step.name = other.name ∧ step.directory.Reordered other.directory) here.above there.above

namespace Place.Proper

variable {place : Place}

theorem parent (hplace : place.Proper) : place.parent.Proper := by
  obtain ⟨node, above⟩ := place
  cases above with
  | nil => exact hplace
  | cons step above =>
      obtain ⟨hstep, habove⟩ := List.forall_mem_cons.mp hplace.above
      exact ⟨hstep.1, hstep.2.not_link, habove⟩

theorem top (hplace : place.Proper) : place.top.Proper := by
  unfold Place.top
  split
  · exact hplace
  · rename_i step hlast
    obtain ⟨hproper, hdirectory⟩ := hplace.above step (List.mem_of_getLast? hlast)
    exact ⟨hproper, hdirectory.not_link, by simp⟩

/-- What a directory holds, other than a link, may be entered. -/
theorem enter (hplace : place.Proper) {name : FileName} {node : Node}
    (hholds : place.Holds name node) (hnode : ∀ target modified, node ≠ .link target modified) :
    (place.enter name node).Proper := by
  obtain ⟨entries, size, modified, hdirectory, hobject⟩ := hholds.mem
  refine ⟨?_, hnode, ?_⟩
  · have hproper := hplace.node
    rw [hdirectory] at hproper
    cases hproper with
    | directory _ _ named distinct below => exact below _ hobject
  · exact List.forall_mem_cons.mpr
      ⟨⟨hplace.node, entries, size, modified, hdirectory⟩, hplace.above⟩

end Place.Proper

namespace Place.Reordered

variable {here there : Place}

theorem refl (place : Place) : place.Reordered place where
  node := .refl place.node
  above := List.forall₂_same.mpr fun step _ => ⟨rfl, .refl step.directory⟩

theorem parent (horder : here.Reordered there) : here.parent.Reordered there.parent := by
  obtain ⟨node, above⟩ := here
  obtain ⟨other, above'⟩ := there
  cases horder.above with
  | nil => exact horder
  | cons hstep habove => exact ⟨hstep.2, habove⟩

theorem top (horder : here.Reordered there) : here.top.Reordered there.top := by
  have hsteps := List.rel_reverse horder.above
  unfold Place.top
  rw [← List.head?_reverse, ← List.head?_reverse]
  generalize here.above.reverse = steps at hsteps ⊢
  generalize there.above.reverse = others at hsteps ⊢
  cases hsteps with
  | nil => exact horder
  | cons hstep _ => exact ⟨hstep.2, .nil⟩

theorem enter (horder : here.Reordered there) (name : FileName) {node other : Node}
    (hnode : node.Reordered other) : (here.enter name node).Reordered (there.enter name other) :=
  ⟨hnode, .cons ⟨rfl, horder.node⟩ horder.above⟩

end Place.Reordered

/-- **What one name can do** in trees that differ in order only: in both it leads to a place
of the same object, or to links with one target, or nowhere for one reason. -/
theorem descend_cons_reordered (atLink : Place → List FileName → Except IoError Place)
    {here there : Place} (hproper : here.Proper) (horder : here.Reordered there)
    (name : FileName) (rest : List FileName) :
    (∃ next other, next.Proper ∧ next.Reordered other ∧
      descend atLink here (name :: rest) = descend atLink next rest ∧
        descend atLink there (name :: rest) = descend atLink other rest) ∨
    (∃ start other target, start.Proper ∧ start.Reordered other ∧
      descend atLink here (name :: rest) = atLink start (target ++ rest) ∧
        descend atLink there (name :: rest) = atLink other (target ++ rest)) ∨
    ∃ error, descend atLink here (name :: rest) = .error error ∧
      descend atLink there (name :: rest) = .error error := by
  by_cases hdirectory : here.node.IsDirectory
  · obtain ⟨entries, size, modified, hhere⟩ := hdirectory
    obtain ⟨others, hthere, hsame⟩ := horder.node.directory hproper.node hhere
    simp only [descend, hhere, hthere]
    -- names that are not looked up at all
    by_cases hstay : name = [] ∨ name = dot
    · exact .inl ⟨here, there, hproper, horder, if_pos hstay, if_pos hstay⟩
    by_cases hup : name = dotDot
    · simp only [if_neg hstay, if_pos hup]
      exact .inl ⟨_, _, hproper.parent, horder.parent, rfl, rfl⟩
    by_cases hlong : maxName < name.length
    · simp only [if_neg hstay, if_neg hup, if_pos hlong]
      exact .inr (.inr ⟨_, rfl, rfl⟩)
    simp only [if_neg hstay, if_neg hup, if_neg hlong]
    cases hfound : entries.lookup name with
    | none =>
        rw [hsame.absent hfound]
        exact .inr (.inr ⟨_, rfl, rfl⟩)
    | some node =>
        -- files and links are the same in both trees, directories have their entries reordered
        obtain ⟨other, hother, hnode⟩ := hsame.present hfound
        have hholds : here.Holds name node := ⟨entries, size, modified, hhere, hfound⟩
        rw [hother]
        cases node with
        | link target time =>
            obtain rfl := hnode.eq_of_not_isDirectory (by rintro ⟨_, _, _, hlink⟩; cases hlink)
            refine .inr (.inl ⟨_, _, Text.segments slash target, ?_, ?_, rfl, rfl⟩)
            · split
              · exact hproper.top
              · exact hproper
            · split
              · exact horder.top
              · exact horder
        | file data time =>
            obtain rfl := hnode.eq_of_not_isDirectory (by rintro ⟨_, _, _, hfile⟩; cases hfile)
            exact .inl ⟨_, _, hproper.enter hholds (by simp), horder.enter name hnode, rfl, rfl⟩
        | directory below size time =>
            have hentered := hproper.enter hholds (by simp)
            obtain ⟨others, rfl, -⟩ := hnode.directory hentered.node rfl
            exact .inl ⟨_, _, hentered, horder.enter name hnode, rfl, rfl⟩
  · have hnode := horder.node.eq_of_not_isDirectory hdirectory
    refine .inr (.inr ?_)
    simp only [descend, hnode]
    cases hkind : here.node with
    | file | link => exact ⟨_, rfl, rfl⟩
    | directory entries size modified => exact absurd ⟨_, _, _, hkind⟩ hdirectory

/-- Two searches end alike: with the same error, or at places of the same object in trees
that differ in order only. -/
inductive FoundAlike : Except IoError Place → Except IoError Place → Prop
  | error (error : IoError) : FoundAlike (.error error) (.error error)
  | ok {here there : Place} (proper : here.Proper) (reordered : here.Reordered there) :
      FoundAlike (.ok here) (.ok there)

/-- A way of following names that the order of enumeration does not change. -/
def IgnoresOrder (goOn : Place → List FileName → Except IoError Place) : Prop :=
  ∀ here there names, here.Proper → here.Reordered there →
    FoundAlike (goOn here names) (goOn there names)

/-- What holds where links are followed holds one level up. -/
theorem IgnoresOrder.descend {atLink : Place → List FileName → Except IoError Place}
    (hatLink : IgnoresOrder atLink) : IgnoresOrder (descend atLink) := by
  intro here there names hproper horder
  induction names generalizing here there with
  | nil => exact .ok hproper horder
  | cons name rest ih =>
      rcases descend_cons_reordered atLink hproper horder name rest with
        ⟨next, other, hnext, hsame, hhere, hthere⟩ |
        ⟨start, other, target, hstart, hsame, hhere, hthere⟩ | ⟨error, hhere, hthere⟩
      · rw [hhere, hthere]
        exact ih next other hnext hsame
      · rw [hhere, hthere]
        exact hatLink start other (target ++ rest) hstart hsame
      · rw [hhere, hthere]
        exact .error error

/-- **Following a path ignores the order of enumeration.** -/
theorem ignoresOrder_follow (links : Nat) : IgnoresOrder (follow links) := by
  induction links with
  | zero => exact .descend fun _ _ _ _ _ => .error _
  | succ links ih => exact ih.descend

theorem find_reordered {current other : Place} (hproper : current.Proper)
    (horder : current.Reordered other) (path : HostPath) :
    FoundAlike (find current path) (find other path) := by
  unfold find
  split
  · exact .error _
  split
  · exact .error _
  split
  · exact .error _
  apply ignoresOrder_follow
  · split
    · exact hproper.top
    · exact hproper
  · split
    · exact horder.top
    · exact horder

theorem proper_of_find {current place : Place} (hproper : current.Proper) {path : HostPath}
    (hfind : find current path = .ok place) : place.Proper := by
  have halike := find_reordered hproper (.refl current) path
  rw [hfind] at halike
  cases halike with
  | ok proper _ => exact proper

namespace LocalStore

variable {store : LocalStore} {path : Path}

theorem proper_of_locate {place : Place} (hproper : store.host.current.Proper)
    (hplace : store.locate path = .ok place) : place.Proper := by
  obtain ⟨absolute, -, hfind⟩ := locate_eq_ok_iff.mp hplace
  exact proper_of_find hproper hfind

/-- **A directory has one listing**, in whatever order the host enumerates it and all others;
and what cannot be listed fails with one error. -/
theorem readDir_reordered {other : Machine} (hproper : store.host.current.Proper)
    (horder : store.host.current.Reordered other.current) (path : Path) :
    readDir { store with host := other } path = store.readDir path := by
  unfold readDir locate
  cases hostPath store.root path with
  | error failure => rfl
  | ok absolute =>
      have halike := find_reordered hproper horder absolute
      simp only [bind, Except.bind]
      generalize find store.host.current absolute = found at halike ⊢
      generalize find other.current absolute = again at halike ⊢
      cases halike with
      | error error => rfl
      | @ok here there proper reordered =>
          by_cases hdirectory : here.node.IsDirectory
          · obtain ⟨entries, size, modified, hhere⟩ := hdirectory
            obtain ⟨others, hthere, hsame⟩ := reordered.node.directory proper.node hhere
            have hdistinct := (hhere ▸ proper.node).distinct
            have hothers := (hthere ▸ reordered.node.proper proper.node).distinct
            simp only [hhere, hthere, listingOf_eq_of_looksSame hdistinct hothers hsame.looksSame]
          · simp only [reordered.node.eq_of_not_isDirectory hdirectory]

/-- **Listings, and so verifiers, do not depend on the order of enumeration.**  On a host whose
directories hold no name twice, take a path that leads to a directory.

* It is listed, with one entry for each name that is a text and none besides, each of them
  the one that is reported of its object, and they are strictly ascending by the bytes of
  the names.
* When the host enumerates its directories in any other order, the listing is the same; and
  so it is whenever a directory is read, here or elsewhere, of which a reader is told the
  same.
* So, whatever a server is asked between two such reads, the second snapshot has the
  verifier of the first one.  If this is still held, no verifier is added and none is
  dropped; and if it stands for the first snapshot, the second one does no more than a
  lookup. -/
theorem listing_of_any_enumeration {ι σ : Type} (service : ExportService ι σ)
    (hproper : store.host.current.Proper) {place : Place} (hplace : store.locate path = .ok place)
    {entries : List (FileName × Node)} {size : Nat} {modified : Int}
    (hnode : place.node = .directory entries size modified) :
    ∃ listing, store.readDir path = .ok listing ∧
      (∀ name, listing.names.count name =
        if Text.bytes name ∈ entries.map Prod.fst then 1 else 0) ∧
      (∀ entry, entry ∈ listing ↔
        (entries.lookup (Text.bytes entry.name)).map (Node.entry entry.name) = some entry) ∧
      listing.Ascending ∧
      (∀ other : Machine, store.host.current.Reordered other.current →
        readDir { store with host := other } path = .ok listing) ∧
      (∀ (again : LocalStore) (request : Path) (there : Place) others size' modified',
        again.host.current.Proper → again.locate request = .ok there →
          there.node = .directory others size' modified' → LooksSame entries others →
            again.readDir request = .ok listing) ∧
      ∀ (server : Server ι σ) (directory : String) (requests : List (Server.Request σ)),
        let first := server.verifierFor directory listing
        let later := first.2.run service requests
        let second := later.verifierFor directory listing
        second.1 = first.1 ∧
        (later.verifiers.contains first.1 = true →
          second.2.verifiers.entries =
              later.verifiers.others first.1 ++ [(first.1, ⟨directory, listing⟩)] ∧
            second.2.verifiers.keys.Perm later.verifiers.keys) ∧
        (later.verifiers.peek first.1 = some ⟨directory, listing⟩ →
          second.2 = (later.dataForVerifier first.1).2) := by
  have hread : store.readDir path = .ok (listingOf entries) :=
    readDir_eq_ok_iff.mpr ⟨place, entries, size, modified, hplace, hnode, rfl⟩
  have hdistinct := (hnode ▸ (proper_of_locate hproper hplace).node).distinct
  refine ⟨listingOf entries, hread, count_names_listingOf hdistinct,
    fun entry => mem_listingOf_iff hdistinct, ascending_listingOf hdistinct, ?_, ?_, ?_⟩
  · intro other horder
    rw [readDir_reordered hproper horder, hread]
  · intro again request there others size' modified' hagain hthere hother hsame
    have hothers := (hother ▸ (proper_of_locate hagain hthere).node).distinct
    rw [listingOf_eq_of_looksSame hdistinct hothers hsame]
    exact readDir_eq_ok_iff.mpr ⟨there, others, size', modified', hthere, hother, rfl⟩
  · intro server directory requests first later second
    refine ⟨rfl, Verifiers.snapshot_of_contains, fun hpeek => ?_⟩
    exact congrArg (fun table => { later with verifiers := table })
      (Verifiers.snapshot_of_peek hpeek)

/-- A host whose current directory holds one directory, which is served. -/
def serving (entries : List (FileName × Node)) : LocalStore where
  host :=
    { current := ⟨.directory [(Text.bytes "served", .directory entries 0 0)] 0 0, []⟩
      volume := ⟨1, 0, 0, 0, 0, 0⟩ }
  root := Text.bytes "served"

theorem serving_proper {entries : List (FileName × Node)}
    (hproper : (Node.directory entries 0 0).Proper) : (serving entries).host.current.Proper where
  node := by
    have hname : IsName (Text.bytes "served") := by decide
    exact .directory 0 0 (List.forall_mem_singleton.mpr hname) (List.nodup_singleton _)
      (List.forall_mem_singleton.mpr hproper)
  not_link := by simp [serving]
  above := by simp [serving]

/-- A directory, a link, a file whose name is no text, and one with a longer name. -/
def mixedObjects : List (FileName × Node) :=
  [(Text.bytes "a", .directory [] 0 3), (Text.bytes "b", .link (Text.bytes "a") 4),
    ([0xff], .file [] 2), (Text.bytes "é", .file (Text.bytes "x") 1)]

theorem mixedObjects_proper : (Node.directory mixedObjects 0 0).Proper := by
  have hempty : (Node.directory [] 0 3).Proper := by
    apply Node.Proper.directory <;> simp
  apply Node.Proper.directory
  · decide
  · decide
  · simpa [mixedObjects] using ⟨hempty, .link _ _, .file _ _, .file _ _⟩

/-- The directory is read in two orders, with another snapshot in between; there is room for
two snapshots, and both stay. -/
theorem mixedObjects_read_in_two_orders :
    let service : ExportService Unit Unit := LocalExport.service ⟨"/", .error .notFound⟩ ()
    let listing : Listing := [⟨"a", 0, true, 3⟩, ⟨"b", 1, false, 4⟩, ⟨"é", 1, false, 1⟩]
    let server : Server Unit Unit := .new () ⟨1, by decide⟩ ⟨2, by decide⟩
    let first := server.verifierFor "/" listing
    let later := first.2.run service [.verifiers (.snapshot "/a" [])]
    let second := later.verifierFor "/" listing
    (serving mixedObjects).readDir [] = .ok listing ∧
      (serving mixedObjects.reverse).readDir [] = .ok listing ∧ listing.Ascending ∧
      second.1 = first.1 ∧ second.2.verifiers.keys.Perm later.verifiers.keys := by
  intro service listing server first later second
  have hplace : (serving mixedObjects).locate [] = .ok ⟨.directory mixedObjects 0 0,
    [⟨(serving mixedObjects).host.current.node, Text.bytes "served"⟩]⟩ := rfl
  have hlisting : listing = listingOf mixedObjects :=
    (Listing.sorted_eq_self (by decide +kernel)).symm
  have hread : (serving mixedObjects).readDir [] = .ok listing :=
    readDir_eq_ok_iff.mpr ⟨_, mixedObjects, 0, 0, hplace, rfl, hlisting⟩
  have hreverse : mixedObjects.Perm mixedObjects.reverse := (List.reverse_perm _).symm
  have horder : (serving mixedObjects).host.current.Reordered
      (serving mixedObjects.reverse).host.current :=
    ⟨@Node.Reordered.within [] [] _ _ _ 0 0 (.listed 0 0 hreverse), .nil⟩
  obtain ⟨found, hfound, -, -, hascending, hagain, -, hserver⟩ :=
    listing_of_any_enumeration service (serving_proper mixedObjects_proper) hplace rfl
  obtain rfl := Except.ok.inj (hread.symm.trans hfound)
  obtain ⟨hsame, hheld, -⟩ := hserver server "/" [.verifiers (.snapshot "/a" [])]
  have hcontains : later.verifiers.contains first.1 = true := by decide +kernel
  exact ⟨hread, hagain _ horder, hascending, hsame, (hheld hcontains).2⟩

end LocalStore

end HandleTable.Host
