import HandleTable.Host.LocalStore

/-!
# Following a path part by part

A path is followed name by name, and a link only puts its target in front of the
names that are left.  So a path in two parts is followed by following the first
and going on with the second, with the links that are still allowed.  The host
path of a request is that of its parent and one plain name more: what it leads
to is one step away from the object that the parent leads to.
-/

namespace HandleTable.Host

/-! ## Parts of a path -/

/-- **What one name can do**: it leads to a place, or to a link whose target comes in
front of the remaining names, or nowhere.  Which of these it does has nothing to do
with the names behind it. -/
theorem descend_cons (atLink : Place → List FileName → Except IoError Place) (here : Place)
    (name : FileName) :
    (∃ next, ∀ rest, descend atLink here (name :: rest) = descend atLink next rest) ∨
      (∃ start target, ∀ rest,
        descend atLink here (name :: rest) = atLink start (target ++ rest)) ∨
      ∃ error, ∀ rest, descend atLink here (name :: rest) = .error error := by
  simp only [descend]
  split
  · exact .inr (.inr ⟨_, fun _ => rfl⟩)
  · exact .inr (.inr ⟨_, fun _ => rfl⟩)
  · split
    · exact .inl ⟨_, fun _ => rfl⟩
    · split
      · exact .inl ⟨_, fun _ => rfl⟩
      · split
        · exact .inr (.inr ⟨_, fun _ => rfl⟩)
        · split
          · exact .inr (.inr ⟨_, fun _ => rfl⟩)
          · exact .inr (.inl ⟨_, _, fun _ => rfl⟩)
          · exact .inl ⟨_, fun _ => rfl⟩

/-- A way of following names that takes a path in two parts, each with the links that
are left to it; a first part that leads nowhere decides alone. -/
def TakesParts (goOn : Place → List FileName → Except IoError Place) : Prop :=
  ∀ here first,
    (∃ there, goOn here first = .ok there ∧
      ∃ left, ∀ second, goOn here (first ++ second) = follow left there second) ∨
    ∃ error, ∀ second, goOn here (first ++ second) = .error error

/-- What holds where links are followed holds one level up. -/
theorem TakesParts.descend (links : Nat)
    {atLink : Place → List FileName → Except IoError Place}
    (hatLink : TakesParts atLink) (hfollow : follow links = descend atLink) :
    TakesParts (descend atLink) := by
  intro here first
  induction first generalizing here with
  | nil =>
      refine .inl ⟨here, by simp [Host.descend], links, fun second => ?_⟩
      rw [hfollow, List.nil_append]
  | cons name rest ih =>
      rcases descend_cons atLink here name with
        ⟨next, hnext⟩ | ⟨start, target, htarget⟩ | ⟨error, herror⟩
      · simpa only [List.cons_append, hnext] using ih next
      · simpa only [List.cons_append, htarget, List.append_assoc] using
          hatLink start (target ++ rest)
      · exact .inr ⟨error, fun second => by rw [List.cons_append, herror]⟩

theorem takesParts_follow (links : Nat) : TakesParts (follow links) := by
  induction links with
  | zero => exact .descend 0 (fun _ _ => .inr ⟨_, fun _ => rfl⟩) rfl
  | succ links ih => exact .descend (links + 1) ih rfl

/-- **Following in two parts.**  A path that leads somewhere does so through the place
that its first part leads to. -/
theorem follow_append {links : Nat} {here place : Place} {first second : List FileName}
    (hfollow : follow links here (first ++ second) = .ok place) :
    ∃ there, follow links here first = .ok there ∧
      ∃ left, ∀ second, follow links here (first ++ second) = follow left there second := by
  rcases takesParts_follow links here first with hfirst | ⟨error, herror⟩
  · exact hfirst
  · rw [herror] at hfollow
    cases hfollow

theorem follow_append_of_follow {links : Nat} {here there : Place} {first : List FileName}
    (hfirst : follow links here first = .ok there) :
    ∃ left, ∀ second, follow links here (first ++ second) = follow left there second := by
  rcases takesParts_follow links here first with ⟨other, hother, hleft⟩ | ⟨error, herror⟩
  · obtain rfl := Except.ok.inj (hfirst.symm.trans hother)
    exact hleft
  · have hnothing := herror []
    rw [List.append_nil, hfirst] at hnothing
    cases hnothing

/-! ## One name -/

/-- Bytes that stand for one name of a directory, other than its own and its parent's. -/
structure IsName (name : FileName) : Prop where
  slash_not_mem : slash ∉ name
  ne_nil : name ≠ []
  ne_dot : name ≠ dot
  ne_dotDot : name ≠ dotDot

instance (name : FileName) : Decidable (IsName name) :=
  decidable_of_iff (slash ∉ name ∧ name ≠ [] ∧ name ≠ dot ∧ name ≠ dotDot)
    ⟨fun ⟨hslash, hnil, hdot, hdotDot⟩ => ⟨hslash, hnil, hdot, hdotDot⟩,
      fun ⟨hslash, hnil, hdot, hdotDot⟩ => ⟨hslash, hnil, hdot, hdotDot⟩⟩

/-- The directory at a place has an object under this name. -/
def Place.Holds (place : Place) (name : FileName) (node : Node) : Prop :=
  ∃ entries size modified,
    place.node = .directory entries size modified ∧ entries.lookup name = some node

/-- **One step.**  A name leads to what the directory holds under it, unless that is a
link. -/
theorem follow_name {links : Nat} {here place : Place} {name : FileName} (hname : IsName name)
    (hfollow : follow links here [name] = .ok place) :
    ∃ node, here.Holds name node ∧
      ((∃ target modified, node = .link target modified) ∨ place = here.enter name node) := by
  obtain ⟨atLink, hatLink⟩ : ∃ atLink, follow links = descend atLink := by
    cases links <;> exact ⟨_, rfl⟩
  rw [hatLink] at hfollow
  simp only [descend, hname.ne_nil, hname.ne_dot, hname.ne_dotDot, or_self, if_false] at hfollow
  split at hfollow
  · cases hfollow
  · cases hfollow
  · rename_i entries size modified hnode
    split at hfollow
    · cases hfollow
    · split at hfollow
      · cases hfollow
      · rename_i target time hlookup
        exact ⟨_, ⟨entries, size, modified, hnode, hlookup⟩, .inl ⟨target, time, rfl⟩⟩
      · rename_i node _ hlookup
        exact ⟨node, ⟨entries, size, modified, hnode, hlookup⟩, .inr (Except.ok.inj hfollow).symm⟩

/-- **One step, told in advance.**  What a directory holds is reached by its name unless it is
a link or the name is too long. -/
theorem follow_name_of_holds (links : Nat) {here : Place} {name : FileName} {node : Node}
    (hname : IsName name) (hholds : here.Holds name node)
    (hnode : ∀ target modified, node ≠ .link target modified) :
    follow links here [name] =
      if maxName < name.length then .error .nameTooLong else .ok (here.enter name node) := by
  obtain ⟨atLink, hatLink⟩ : ∃ atLink, follow links = descend atLink := by
    cases links <;> exact ⟨_, rfl⟩
  obtain ⟨entries, size, modified, hdirectory, hlookup⟩ := hholds
  simp only [hatLink, descend, hdirectory, hlookup, hname.ne_nil, hname.ne_dot, hname.ne_dotDot,
    or_self, if_false]

/-- A slash at the end of a path leads nowhere else. -/
theorem follow_of_trailing_slash {links : Nat} {here place : Place} {names : List FileName}
    (hfollow : follow links here (names ++ [[]]) = .ok place) :
    follow links here names = .ok place := by
  obtain ⟨there, hthere, left, hleft⟩ := follow_append hfollow
  have hstay : follow left there [[]] = .ok place := (hleft [[]]).symm.trans hfollow
  obtain rfl : there = place := by
    cases left <;>
    · simp only [follow, descend, true_or, if_true] at hstay
      split at hstay <;> cases hstay
      rfl
  exact hthere

theorem follow_empty_name (links : Nat) {here : Place} {name : FileName} {node : Node}
    (hholds : here.Holds name node) : follow links here [[]] = .ok here := by
  obtain ⟨entries, size, modified, hnode, -⟩ := hholds
  cases links <;> simp [follow, descend, hnode]

/-! ## The host path of a request -/

theorem isName_of_plainName? {component : String} {name : FileName}
    (hname : plainName? component = some name) : IsName name := by
  unfold plainName? at hname
  split at hname
  · cases hname
  · rename_i first others hsegments
    split at hname
    · rename_i hplain
      obtain ⟨hempty, hdot, hdotDot, -⟩ := hplain
      obtain rfl := Option.some.inj hname
      exact ⟨Text.not_mem_of_mem_segments (hsegments ▸ List.mem_cons_self), hempty, hdot, hdotDot⟩
    · cases hname

theorem plainName?_of_isName {name : String} (hname : IsName (Text.bytes name)) :
    plainName? name = some (Text.bytes name) := by
  simp [plainName?, Text.segments_of_not_mem hname.slash_not_mem, hname.ne_nil, hname.ne_dot,
    hname.ne_dotDot]

theorem joinName_ne_nil (base : HostPath) {name : FileName} (hname : IsName name) :
    joinName base name ≠ [] := by
  unfold joinName
  split <;> simp [hname.ne_nil]

/-- The names of a host path to which one name has been joined: those of the path, less
the empty one behind a slash at its end, and then the name. -/
theorem segments_joinName {base : HostPath} {name : FileName} (hbase : base ≠ [])
    (hname : IsName name) :
    ∃ names, Text.segments slash (joinName base name) = names ++ [name] ∧
      (Text.segments slash base = names ∨ Text.segments slash base = names ++ [[]]) := by
  have hone := Text.segments_of_not_mem hname.slash_not_mem
  by_cases hlast : base.getLast? = some slash
  · obtain ⟨stem, rfl⟩ := List.getLast?_eq_some_iff.mp hlast
    refine ⟨Text.segments slash stem, ?_, .inr (Text.segments_append slash stem [])⟩
    rw [joinName, if_pos (.inr hlast), List.append_assoc, List.singleton_append,
      Text.segments_append, hone]
  · refine ⟨Text.segments slash base, ?_, .inl rfl⟩
    rw [joinName, if_neg (not_or.mpr ⟨hbase, hlast⟩), Text.segments_append, hone]

/-- A host path to which one name has been joined has the bytes of both, with a slash in
between where that is needed. -/
theorem joinName_eq_append (base : HostPath) (name : FileName) :
    ∃ between, (between = [] ∨ between = [slash]) ∧
      joinName base name = base ++ (between ++ name) := by
  unfold joinName
  split
  · exact ⟨[], .inl rfl, rfl⟩
  · exact ⟨[slash], .inr rfl, rfl⟩

theorem prefix_joinName (base : HostPath) (name : FileName) : base <+: joinName base name := by
  obtain ⟨between, -, hjoined⟩ := joinName_eq_append base name
  exact hjoined ▸ List.prefix_append _ _

theorem head?_joinName {base : HostPath} (hbase : base ≠ []) (name : FileName) :
    (joinName base name).head? = base.head? := by
  obtain ⟨between, -, hjoined⟩ := joinName_eq_append base name
  obtain ⟨first, rest, rfl⟩ := List.exists_cons_of_ne_nil hbase
  rw [hjoined, List.cons_append, List.head?_cons, List.head?_cons]

theorem zero_mem_joinName {base : HostPath} {name : FileName} :
    0 ∈ joinName base name ↔ 0 ∈ base ∨ 0 ∈ name := by
  obtain ⟨between, rfl | rfl, hjoined⟩ := joinName_eq_append base name <;> simp [hjoined, slash]

theorem find_eq_ok_iff {current place : Place} {path : HostPath} :
    find current path = .ok place ↔
      0 ∉ path ∧ path ≠ [] ∧ path.length ≤ maxPath ∧
        follow maxLinks (if path.head? = some slash then current.top else current)
          (Text.segments slash path) = .ok place := by
  unfold find
  by_cases hnul : 0 ∈ path
  · simp [hnul]
  by_cases hnil : path = []
  · simp [hnil]
  by_cases hlength : path.length ≤ maxPath
  · simp [hnul, hnil, hlength, Nat.not_lt.mpr hlength]
  · simp [hnul, hnil, hlength, Nat.lt_of_not_le hlength]

/-- **One name more.**  What a host path leads to after a name has been joined to it is one
step away from where the path leads; a path without names starts at the current directory. -/
theorem find_joinName {current place : Place} {base : HostPath} {name : FileName}
    (hname : IsName name) (hfind : find current (joinName base name) = .ok place) :
    ∃ here left, (if base = [] then .ok current else find current base) = .ok here ∧
      follow left here [name] = .ok place := by
  obtain ⟨hnul, -, hlength, hfollow⟩ := find_eq_ok_iff.mp hfind
  by_cases hbase : base = []
  · have hjoin : joinName base name = name := by simp [joinName, hbase]
    have hhead : name.head? ≠ some slash :=
      fun hhead => hname.slash_not_mem (List.mem_of_head? hhead)
    rw [hjoin, if_neg hhead, Text.segments_of_not_mem hname.slash_not_mem] at hfollow
    exact ⟨current, maxLinks, if_pos hbase, hfollow⟩
  · have hbegins := prefix_joinName base name
    obtain ⟨names, hjoined, hnames⟩ := segments_joinName hbase hname
    rw [hjoined, head?_joinName hbase] at hfollow
    obtain ⟨here, hhere, left, hleft⟩ := follow_append hfollow
    rw [hleft] at hfollow
    refine ⟨here, left, ?_, hfollow⟩
    rw [if_neg hbase, find_eq_ok_iff]
    refine ⟨fun hzero => hnul (hbegins.subset hzero), hbase,
      Nat.le_trans hbegins.length_le hlength, ?_⟩
    rcases hnames with hnames | hnames
    · rw [hnames, hhere]
    · obtain ⟨node, hholds, -⟩ := follow_name hname hfollow
      rw [hnames, hleft, follow_empty_name left hholds]

/-- **One name more, told in advance.**  From where a host path leads, a name that is joined
to the path is followed alone, if the host takes the bytes of both. -/
theorem find_joinName_eq {current here : Place} {base : HostPath} {name : FileName}
    (hname : IsName name) (hhere : find current base = .ok here) (hnul : 0 ∉ name)
    (hlength : (joinName base name).length ≤ maxPath) :
    ∃ left, find current (joinName base name) = follow left here [name] := by
  obtain ⟨hbaseNul, hbase, -, hfollow⟩ := find_eq_ok_iff.mp hhere
  have hzero : 0 ∉ joinName base name := by
    rw [zero_mem_joinName]
    exact not_or.mpr ⟨hbaseNul, hnul⟩
  obtain ⟨names, hjoined, hnames⟩ := segments_joinName hbase hname
  have hfind : find current (joinName base name) =
      follow maxLinks (if base.head? = some slash then current.top else current)
        (names ++ [name]) := by
    simp [find, hzero, joinName_ne_nil base hname, Nat.not_lt.mpr hlength, head?_joinName hbase,
      hjoined]
  rw [hfind]
  generalize (if base.head? = some slash then current.top else current) = start at hfollow ⊢
  -- a base that ends in a slash asks for a directory, in which the name is then looked up
  have hstem : follow maxLinks start names = .ok here := by
    rcases hnames with hnames | hnames
    · rwa [hnames] at hfollow
    · rw [hnames] at hfollow
      exact follow_of_trailing_slash hfollow
  obtain ⟨left, hleft⟩ := follow_append_of_follow hstem
  exact ⟨left, hleft _⟩

namespace LocalStore

theorem hostPath_append_of_isName {root base : HostPath} {name : String} {path : Path}
    (hbase : hostPath root path = .ok base) (hname : IsName (Text.bytes name)) :
    hostPath root (path ++ [name]) = .ok (joinName base (Text.bytes name)) := by
  rw [hostPath, List.foldlM_append, ← hostPath, hbase]
  simp [plainName?_of_isName hname, bind, Except.bind, pure, Except.pure]

theorem hostPath_append {root absolute : HostPath} {component : String} {path : Path}
    (hpath : hostPath root (path ++ [component]) = .ok absolute) :
    ∃ base name, hostPath root path = .ok base ∧ plainName? component = some name ∧
      absolute = joinName base name := by
  rw [hostPath, List.foldlM_append] at hpath
  cases hbase : hostPath root path with
  | error failure =>
      rw [← hostPath, hbase] at hpath
      cases hpath
  | ok base =>
      rw [← hostPath, hbase] at hpath
      cases hname : plainName? component with
      | none => simp [hname, bind, Except.bind] at hpath
      | some name =>
          simp only [List.foldlM_cons, List.foldlM_nil, hname, bind, Except.bind, pure, Except.pure,
            Except.ok.injEq] at hpath
          exact ⟨base, name, rfl, rfl, hpath.symm⟩

theorem hostPath_eq_nil_iff {root : HostPath} {path : Path} :
    hostPath root path = .ok [] ↔ root = [] ∧ path = [] := by
  constructor
  · intro hpath
    rcases path.eq_nil_or_concat with rfl | ⟨parent, component, rfl⟩
    · exact ⟨Except.ok.inj hpath, rfl⟩
    · rw [List.concat_eq_append] at hpath
      obtain ⟨base, name, -, hname, habsolute⟩ := hostPath_append hpath
      exact absurd habsolute.symm (joinName_ne_nil base (isName_of_plainName? hname))
  · rintro ⟨rfl, rfl⟩
    rfl

/-- The place from which the names below a path are read.  That is the place of the path
itself, but a store whose root has no name reads from the current directory. -/
def origin (store : LocalStore) (path : Path) : Except Failure Place :=
  if store.root = [] ∧ path = [] then .ok store.host.current else store.locate path

theorem origin_append (store : LocalStore) (path : Path) (component : String) :
    store.origin (path ++ [component]) = store.locate (path ++ [component]) := by
  simp [origin]

theorem locate_eq_ok_iff {store : LocalStore} {path : Path} {place : Place} :
    store.locate path = .ok place ↔
      ∃ absolute, hostPath store.root path = .ok absolute ∧
        find store.host.current absolute = .ok place := by
  unfold locate
  cases hostPath store.root path with
  | error failure => simp [bind, Except.bind]
  | ok absolute =>
      simp only [bind, Except.bind, Except.ok.injEq, exists_eq_left']
      split <;> simp_all

theorem origin_of_locate {store : LocalStore} {path : Path} {place : Place}
    (hplace : store.locate path = .ok place) : store.origin path = .ok place := by
  rw [origin]
  split
  · rename_i hempty
    obtain ⟨absolute, hpath, hfind⟩ := locate_eq_ok_iff.mp hplace
    obtain rfl := Except.ok.inj (hpath.symm.trans (hostPath_eq_nil_iff.mpr hempty))
    exact absurd rfl (find_eq_ok_iff.mp hfind).2.1
  · exact hplace

/-- **The place of a request** is one step away from where the names below its parent are
read, by the plain name of the last component. -/
theorem locate_append {store : LocalStore} {path : Path} {component : String} {place : Place}
    (hplace : store.locate (path ++ [component]) = .ok place) :
    ∃ here name left, store.origin path = .ok here ∧ plainName? component = some name ∧
      follow left here [name] = .ok place := by
  obtain ⟨absolute, hpath, hfind⟩ := locate_eq_ok_iff.mp hplace
  obtain ⟨base, name, hbase, hname, rfl⟩ := hostPath_append hpath
  obtain ⟨here, left, hhere, hstep⟩ := find_joinName (isName_of_plainName? hname) hfind
  refine ⟨here, name, left, ?_, hname, hstep⟩
  by_cases hempty : base = []
  · rw [if_pos hempty] at hhere
    rw [origin, if_pos (hostPath_eq_nil_iff.mp (hempty ▸ hbase)), Except.ok.inj hhere]
  · rw [if_neg hempty] at hhere
    have hnamed : ¬ (store.root = [] ∧ path = []) := by
      intro hroot
      exact hempty (Except.ok.inj (hbase.symm.trans (hostPath_eq_nil_iff.mpr hroot)))
    rw [origin, if_neg hnamed, locate_eq_ok_iff]
    exact ⟨base, hbase, hhere⟩

end LocalStore

end HandleTable.Host
