import HandleTable.Proofs.Host.Following
import Mathlib.Data.List.Forall2

/-!
# Which paths a store accepts

A host path is taken apart at its slashes.  Empty segments and single dots lead nowhere and
are dropped, except for a slash or a dot in front, which say where the path starts; so one
component may be written in several ways.  `parts` says what is left of a path.

A store accepts a component when exactly one name is left of it (`parts_eq_singleton_iff`),
and this name alone goes into the host path.  Therefore the host path of an accepted path
is that of the root with one name per component behind it, whatever the components look
like, and the first component that is refused decides all other cases
(`hostPath_extends_or_refuses`).

The name that is taken is not the component that was given: slashes and dots at its end are
accepted and forgotten.  So a path below the root may be written in many ways, which a
table of paths takes for different objects (`not_canonical`); only paths without slashes in
their components are told apart by their host paths.
-/

namespace HandleTable.Host

/-! ## The parts of a path -/

/-- A part of a path: where it starts, unless that is left open, a step to the parent, or a
step to a name. -/
inductive Part where
  | top
  | here
  | parent
  | name (step : FileName)
deriving DecidableEq

/-- The part that a segment is.  An empty one and a dot lead nowhere. -/
def Part.ofSegment? (segment : FileName) : Option Part :=
  if segment = [] ∨ segment = dot then none
  else if segment = dotDot then some .parent
  else some (.name segment)

/-- The parts of a path.  Only in front a slash or a dot is a part of its own. -/
def parts (path : HostPath) : List Part :=
  match Text.segments slash path with
  | [] => []
  | first :: others =>
    (if path.head? = some slash then [.top]
      else if first = dot then [.here]
      else (Part.ofSegment? first).toList) ++ others.filterMap Part.ofSegment?

/-- The parts of each component of a path below the root. -/
def componentParts (path : Path) : List (List Part) :=
  path.map fun component => parts (Text.bytes component)

/-- **What is refused**: an empty component, one that starts at the top, one that starts
with a dot name, and one that goes further than one name. -/
inductive Refused (component : String) : Prop
  | empty (nothing : component = "")
  | fromTop (start : (Text.bytes component).head? = some slash)
  | dotted {first : FileName} {others : List FileName}
      (cut : Text.segments slash (Text.bytes component) = first :: others)
      (dots : first = dot ∨ first = dotDot)
  | further {first segment : FileName} {others : List FileName}
      (cut : Text.segments slash (Text.bytes component) = first :: others)
      (later : segment ∈ others) (leads : segment ≠ [] ∧ segment ≠ dot)

theorem exists_segments_eq (path : HostPath) :
    ∃ first others, Text.segments slash path = first :: others :=
  List.exists_cons_of_ne_nil (Text.segments_ne_nil slash path)

theorem Part.ofSegment?_eq_none_iff {segment : FileName} :
    Part.ofSegment? segment = none ↔ segment = [] ∨ segment = dot := by
  unfold Part.ofSegment?
  split
  · simp_all
  · split <;> simp_all

theorem Part.ofSegment?_eq_name_iff {segment name : FileName} :
    Part.ofSegment? segment = some (.name name) ↔
      segment = name ∧ segment ≠ [] ∧ segment ≠ dot ∧ segment ≠ dotDot := by
  unfold Part.ofSegment?
  split
  · rename_i hnowhere
    rcases hnowhere with rfl | rfl <;> simp
  · split <;> simp_all

theorem filterMap_ofSegment?_eq_nil_iff {segments : List FileName} :
    segments.filterMap Part.ofSegment? = [] ↔
      ∀ segment ∈ segments, segment = [] ∨ segment = dot := by
  simp [List.filterMap_eq_nil_iff, Part.ofSegment?_eq_none_iff]

theorem parts_of_cut {path : HostPath} {first : FileName} {others : List FileName}
    (hcut : Text.segments slash path = first :: others)
    (htop : path.head? ≠ some slash) (hdot : first ≠ dot) :
    parts path = (Part.ofSegment? first).toList ++ others.filterMap Part.ofSegment? := by
  simp only [parts, hcut, if_neg htop, if_neg hdot]

/-! ## One component -/

theorem plainName?_eq_some_iff {component : String} {name : FileName} :
    plainName? component = some name ↔
      ∃ others, Text.segments slash (Text.bytes component) = name :: others ∧
        (name ≠ [] ∧ name ≠ dot ∧ name ≠ dotDot) ∧
        ∀ segment ∈ others, segment = [] ∨ segment = dot := by
  obtain ⟨first, others, hcut⟩ := exists_segments_eq (Text.bytes component)
  simp only [plainName?, hcut, List.cons.injEq]
  constructor
  · intro hname
    split at hname
    · rename_i hplain
      obtain rfl := Option.some.inj hname
      exact ⟨others, ⟨rfl, rfl⟩, ⟨hplain.1, hplain.2.1, hplain.2.2.1⟩, by simpa using hplain.2.2.2⟩
    · cases hname
  · rintro ⟨_, ⟨rfl, rfl⟩, ⟨hempty, hdot, hdotDot⟩, hothers⟩
    rw [if_pos ⟨hempty, hdot, hdotDot, by simpa using hothers⟩]

/-- **A component is accepted when one name is left of it.** -/
theorem parts_eq_singleton_iff {component : String} {name : FileName} :
    parts (Text.bytes component) = [.name name] ↔ plainName? component = some name := by
  obtain ⟨first, others, hcut⟩ := exists_segments_eq (Text.bytes component)
  simp only [plainName?_eq_some_iff, hcut, List.cons.injEq]
  constructor
  · intro hparts
    by_cases htop : (Text.bytes component).head? = some slash
    · simp [parts, hcut, htop] at hparts
    by_cases hdot : first = dot
    · simp [parts, hcut, htop, hdot] at hparts
    rw [parts_of_cut hcut htop hdot] at hparts
    cases hfirst : Part.ofSegment? first with
    | none =>
        -- then the first segment is empty, and so is the whole component
        obtain rfl := (Part.ofSegment?_eq_none_iff.mp hfirst).resolve_right hdot
        obtain ⟨-, rfl⟩ := (Text.segments_eq_nil_cons hcut).resolve_right htop
        simp [hfirst] at hparts
    | some part =>
        rw [hfirst, Option.toList_some, List.singleton_append, List.cons.injEq] at hparts
        obtain ⟨rfl, hothers⟩ := hparts
        obtain ⟨rfl, hname⟩ := Part.ofSegment?_eq_name_iff.mp hfirst
        exact ⟨others, ⟨rfl, rfl⟩, hname, filterMap_ofSegment?_eq_nil_iff.mp hothers⟩
  · rintro ⟨_, ⟨rfl, rfl⟩, hname, hothers⟩
    have htop : (Text.bytes component).head? ≠ some slash := by
      intro htop
      obtain ⟨_, hempty⟩ := Text.exists_segments_eq_nil_cons htop
      rw [hempty, List.cons.injEq] at hcut
      exact hname.1 hcut.1.symm
    rw [parts_of_cut hcut htop hname.2.1, Part.ofSegment?_eq_name_iff.mpr ⟨rfl, hname⟩,
      filterMap_ofSegment?_eq_nil_iff.mpr hothers]
    rfl

theorem refused_iff_of_cut {component : String} {first : FileName} {others : List FileName}
    (hcut : Text.segments slash (Text.bytes component) = first :: others) :
    Refused component ↔
      first = [] ∨ (first = dot ∨ first = dotDot) ∨
        ∃ segment ∈ others, segment ≠ [] ∧ segment ≠ dot := by
  constructor
  · rintro (nothing | start | ⟨cut, dots⟩ | ⟨cut, later, leads⟩)
    · subst nothing
      exact .inl (List.cons.inj hcut).1.symm
    · obtain ⟨_, hstart⟩ := Text.exists_segments_eq_nil_cons start
      simp_all
    · simp_all
    · rw [hcut, List.cons.injEq] at cut
      exact .inr (.inr ⟨_, cut.2 ▸ later, leads⟩)
  · rintro (rfl | hdots | ⟨segment, hsegment, hleads⟩)
    · rcases Text.segments_eq_nil_cons hcut with ⟨hnothing, -⟩ | hstart
      · exact .empty (Text.bytes_injective hnothing)
      · exact .fromTop hstart
    · exact .dotted hcut hdots
    · exact .further hcut hsegment hleads

/-- What is refused has no plain name, and nothing else is refused. -/
theorem plainName?_eq_none_iff {component : String} :
    plainName? component = none ↔ Refused component := by
  obtain ⟨first, others, hcut⟩ := exists_segments_eq (Text.bytes component)
  rw [refused_iff_of_cut hcut]
  simp only [plainName?, hcut, ite_eq_right_iff, reduceCtorEq, imp_false]
  simp [Classical.or_iff_not_imp_left]

theorem slash_mem_bytes_iff {text : String} : slash ∈ Text.bytes text ↔ '/' ∈ text.toList := by
  refine ⟨Text.mem_toList_of_mem_bytes (by decide), fun hslash => ?_⟩
  rw [Text.bytes_eq_flatMap]
  exact List.mem_flatMap.mpr ⟨'/', hslash, List.mem_singleton_self slash⟩

/-- A component is its own plain name unless it goes on behind it. -/
theorem plainName?_eq_self_iff {component : String} {name : FileName}
    (hname : plainName? component = some name) :
    name = Text.bytes component ↔ '/' ∉ component.toList := by
  rw [← slash_mem_bytes_iff]
  constructor
  · rintro rfl
    exact (isName_of_plainName? hname).slash_not_mem
  · intro hslash
    obtain ⟨others, hcut, -⟩ := plainName?_eq_some_iff.mp hname
    rw [Text.segments_of_not_mem hslash, List.cons.injEq] at hcut
    exact hcut.1.symm

theorem parts_eq_self_iff {component : String}
    (hname : ∃ name, parts (Text.bytes component) = [.name name]) :
    parts (Text.bytes component) = [.name (Text.bytes component)] ↔ '/' ∉ component.toList := by
  obtain ⟨name, hparts⟩ := hname
  rw [← plainName?_eq_self_iff (parts_eq_singleton_iff.mp hparts), hparts]
  simp

/-! ## The parts of a host path -/

/-- What stands behind a slash is put behind the parts in front of it. -/
theorem parts_append_slash (stem rest : HostPath) :
    parts (stem ++ slash :: rest) =
      (if stem = [] then [.top] else parts stem) ++
        (Text.segments slash rest).filterMap Part.ofSegment? := by
  obtain ⟨first, others, hcut⟩ := exists_segments_eq stem
  by_cases hstem : stem = []
  · subst hstem
    simp [parts, Text.segments]
  · have hhead : (stem ++ slash :: rest).head? = stem.head? :=
      List.head?_append_of_ne_nil _ hstem
    simp only [parts, Text.segments_append, hcut, List.cons_append, hhead, if_neg hstem,
      List.filterMap_append, List.append_assoc]

/-- **A name that is joined to a host path** is one part more. -/
theorem parts_joinName (base : HostPath) {name : FileName} (hname : IsName name) :
    parts (joinName base name) = parts base ++ [.name name] := by
  have hpart : Part.ofSegment? name = some (.name name) :=
    Part.ofSegment?_eq_name_iff.mpr ⟨rfl, hname.ne_nil, hname.ne_dot, hname.ne_dotDot⟩
  have hone : Text.segments slash name = [name] := Text.segments_of_not_mem hname.slash_not_mem
  have hlast : (Text.segments slash name).filterMap Part.ofSegment? = [.name name] := by
    rw [hone, List.filterMap_cons_some hpart, List.filterMap_nil]
  by_cases hbase : base = []
  · have hhead : name.head? ≠ some slash :=
      fun hhead => hname.slash_not_mem (List.mem_of_head? hhead)
    rw [hbase, joinName, if_pos (.inl rfl), List.nil_append,
      parts_of_cut hone hhead hname.ne_dot, hpart]
    rfl
  by_cases hslash : base.getLast? = some slash
  · obtain ⟨stem, rfl⟩ := List.getLast?_eq_some_iff.mp hslash
    rw [joinName, if_pos (.inr hslash), List.append_assoc, List.singleton_append,
      parts_append_slash, hlast, parts_append_slash]
    simp [Text.segments, Part.ofSegment?]
  · rw [joinName, if_neg (not_or.mpr ⟨hbase, hslash⟩), parts_append_slash, hlast, if_neg hbase]

/-- Names that are joined to a host path one after the other are its last parts. -/
theorem parts_foldl_joinName (root : HostPath) {names : List FileName}
    (hnames : ∀ name ∈ names, IsName name) :
    parts (names.foldl joinName root) = parts root ++ names.map Part.name := by
  induction names generalizing root with
  | nil => simp
  | cons name rest ih =>
      rw [List.forall_mem_cons] at hnames
      rw [List.foldl_cons, ih _ hnames.2, parts_joinName root hnames.1, List.map_cons,
        List.append_assoc, List.singleton_append]

/-- Different names lead to different host paths. -/
theorem foldl_joinName_inj {root : HostPath} {names others : List FileName}
    (hnames : ∀ name ∈ names, IsName name) (hothers : ∀ name ∈ others, IsName name) :
    names.foldl joinName root = others.foldl joinName root ↔ names = others := by
  constructor
  · intro hsame
    have hparts := congrArg parts hsame
    rw [parts_foldl_joinName root hnames, parts_foldl_joinName root hothers,
      List.append_cancel_left_eq] at hparts
    exact List.map_injective_iff.mpr (fun _ _ => Part.name.inj) hparts
  · rintro rfl
    rfl

namespace LocalStore

theorem hostPath_cons (root : HostPath) (component : String) (path : Path) :
    hostPath root (component :: path) =
      match plainName? component with
      | some name => hostPath (joinName root name) path
      | none => .error (.invalidPath component) := by
  rw [hostPath, List.foldlM_cons]
  cases plainName? component <;> rfl

/-- The plain names of the components of a path: one is left of each. -/
def PlainNames (path : Path) (names : List FileName) : Prop :=
  List.Forall₂ (fun component name => parts (Text.bytes component) = [.name name]) path names

/-- **The host path of an accepted path** has the plain names of the components joined to
the root. -/
theorem hostPath_eq_ok_iff {root absolute : HostPath} {path : Path} :
    hostPath root path = .ok absolute ↔
      ∃ names, PlainNames path names ∧ absolute = names.foldl joinName root := by
  unfold PlainNames
  induction path generalizing root with
  | nil => simp [hostPath, pure, Except.pure, eq_comm]
  | cons component rest ih =>
      rw [hostPath_cons]
      cases hname : plainName? component with
      | none => simp [List.forall₂_cons_left_iff, parts_eq_singleton_iff, hname]
      | some name => simp [List.forall₂_cons_left_iff, parts_eq_singleton_iff, hname, ih]

/-- **The first component that is refused decides.** -/
theorem hostPath_eq_error_iff {root : HostPath} {path : Path} {failure : Failure} :
    hostPath root path = .error failure ↔
      ∃ before bad after, path = before ++ bad :: after ∧
        (∀ component ∈ before, ¬ Refused component) ∧ Refused bad ∧
        failure = .invalidPath bad := by
  induction path generalizing root with
  | nil => simp [hostPath, pure, Except.pure]
  | cons component rest ih =>
      rw [hostPath_cons]
      cases hname : plainName? component with
      | none =>
          -- the first component decides, so nothing can stand before the one that is refused
          have hbad := plainName?_eq_none_iff.mp hname
          constructor
          · intro hfailure
            exact ⟨[], component, rest, rfl, by simp, hbad, (Except.error.inj hfailure).symm⟩
          · rintro ⟨before, bad, after, hpath, hbefore, -, rfl⟩
            cases before with
            | nil => rw [(List.cons.inj hpath).1]
            | cons first others =>
                have hfirst := hbefore first List.mem_cons_self
                rw [← (List.cons.inj hpath).1] at hfirst
                exact absurd hbad hfirst
      | some name =>
          -- the refused component is among the rest
          have hgood : ¬ Refused component := by
            rw [← plainName?_eq_none_iff, hname]
            simp
          simp only [ih]
          constructor
          · rintro ⟨before, bad, after, rfl, hbefore, hbad, rfl⟩
            exact ⟨component :: before, bad, after, rfl,
              List.forall_mem_cons.mpr ⟨hgood, hbefore⟩, hbad, rfl⟩
          · rintro ⟨before, bad, after, hpath, hbefore, hbad, rfl⟩
            cases before with
            | nil =>
                rw [(List.cons.inj hpath).1] at hgood
                exact absurd hbad hgood
            | cons first others =>
                rw [List.forall_mem_cons] at hbefore
                exact ⟨others, bad, after, (List.cons.inj hpath).2, hbefore.2, hbad, rfl⟩

namespace PlainNames

variable {path other : Path} {names others : List FileName}

theorem isName (hnames : PlainNames path names) : ∀ name ∈ names, IsName name := by
  induction hnames with
  | nil => simp
  | cons hparts _ ih =>
      exact List.forall_mem_cons.mpr ⟨isName_of_plainName? (parts_eq_singleton_iff.mp hparts), ih⟩

theorem exists_name (hnames : PlainNames path names) :
    ∀ component ∈ path, ∃ name, parts (Text.bytes component) = [.name name] := by
  induction hnames with
  | nil => simp
  | cons hparts _ ih => exact List.forall_mem_cons.mpr ⟨⟨_, hparts⟩, ih⟩

theorem not_refused (hnames : PlainNames path names) : ∀ component ∈ path, ¬ Refused component := by
  intro component hcomponent
  obtain ⟨name, hparts⟩ := hnames.exists_name component hcomponent
  rw [← plainName?_eq_none_iff, parts_eq_singleton_iff.mp hparts]
  simp

theorem componentParts_eq (hnames : PlainNames path names) :
    componentParts path = names.map fun name => [.name name] := by
  unfold componentParts
  induction hnames with
  | nil => rfl
  | cons hparts _ ih => rw [List.map_cons, List.map_cons, hparts, ih]

theorem eq_iff (hnames : PlainNames path names) (hothers : PlainNames other others) :
    names = others ↔ componentParts path = componentParts other := by
  have hinj : Function.Injective fun name => [Part.name name] := fun _ _ hsame => by
    simpa using hsame
  rw [hnames.componentParts_eq, hothers.componentParts_eq, (List.map_injective_iff.mpr hinj).eq_iff]

theorem eq_self (hnames : PlainNames path names)
    (hslash : ∀ component ∈ path, '/' ∉ component.toList) : names = path.map Text.bytes := by
  induction hnames with
  | nil => rfl
  | cons hparts _ ih =>
      rw [List.forall_mem_cons] at hslash
      rw [(plainName?_eq_self_iff (parts_eq_singleton_iff.mp hparts)).mpr hslash.1, ih hslash.2,
        List.map_cons]

end PlainNames

theorem locate_of_hostPath_error {store : LocalStore} {path : Path} {failure : Failure}
    (hpath : hostPath store.root path = .error failure) :
    store.stat path = .error failure ∧ store.readDir path = .error failure := by
  have hlocate : store.locate path = .error failure := by
    rw [locate, hpath]
    rfl
  constructor
  · rw [stat, hlocate]
    rfl
  · rw [readDir, hlocate]
    rfl

/-- **The check of the components confines every path as a text.**  Either each component
is one name, possibly with slashes and dots behind it, and the host path is that of the
root with these names behind it, one for each and in order; or the path is refused for the
first component that is not acceptable, and whatever the host holds, every question about
the path is refused for it. -/
theorem hostPath_extends_or_refuses (root : HostPath) (path : Path) :
    match hostPath root path with
    | .ok absolute =>
      (∀ component ∈ path, ¬ Refused component) ∧
        ∃ names, PlainNames path names ∧ (∀ name ∈ names, IsName name) ∧
          absolute = names.foldl joinName root ∧
          parts absolute = parts root ++ names.map Part.name
    | .error failure =>
      ∃ before bad after, path = before ++ bad :: after ∧
        (∀ component ∈ before, ¬ Refused component) ∧ Refused bad ∧
        failure = .invalidPath bad ∧
        ∀ host, stat ⟨host, root⟩ path = .error failure ∧
          readDir ⟨host, root⟩ path = .error failure := by
  cases hpath : hostPath root path with
  | ok absolute =>
      obtain ⟨names, hnames, rfl⟩ := hostPath_eq_ok_iff.mp hpath
      exact ⟨hnames.not_refused, names, hnames, hnames.isName, rfl,
        parts_foldl_joinName root hnames.isName⟩
  | error failure =>
      obtain ⟨before, bad, after, hsplit, hbefore, hbad, hfailure⟩ := hostPath_eq_error_iff.mp hpath
      exact ⟨before, bad, after, hsplit, hbefore, hbad, hfailure,
        fun host => @locate_of_hostPath_error ⟨host, root⟩ path failure hpath⟩

/-! ## One object under several paths -/

/-- **Two accepted paths have one host path exactly when their components have the same
parts.**  Slashes and dots behind a name are no parts, so a component is the name that it
stands for only if there is no slash in it; and paths without slashes in their components
are the same as soon as their host paths are. -/
theorem host_path_eq_iff_same_parts {root absolute again : HostPath} {path other : Path}
    (hpath : hostPath root path = .ok absolute) (hother : hostPath root other = .ok again) :
    (absolute = again ↔ componentParts path = componentParts other) ∧
      ((∀ component ∈ path ++ other, '/' ∉ component.toList) → absolute = again → path = other) ∧
      ∀ component ∈ path, parts (Text.bytes component) = [.name (Text.bytes component)] ↔
        '/' ∉ component.toList := by
  obtain ⟨names, hnames, rfl⟩ := hostPath_eq_ok_iff.mp hpath
  obtain ⟨others, hothers, rfl⟩ := hostPath_eq_ok_iff.mp hother
  have hsame : names.foldl joinName root = others.foldl joinName root ↔
      componentParts path = componentParts other :=
    (foldl_joinName_inj hnames.isName hothers.isName).trans (hnames.eq_iff hothers)
  refine ⟨hsame, ?_, fun component hcomponent =>
    parts_eq_self_iff (hnames.exists_name component hcomponent)⟩
  intro hslash habsolute
  rw [List.forall_mem_append] at hslash
  have hbytes : path.map Text.bytes = other.map Text.bytes := by
    rw [← hnames.eq_self hslash.1, ← hothers.eq_self hslash.2]
    exact (hnames.eq_iff hothers).mpr (hsame.mp habsolute)
  exact List.map_injective_iff.mpr (fun _ _ => Text.bytes_injective) hbytes

/-- Two ways to write the path of one object, below a root whose name is no text. -/
theorem child_written_in_two_ways :
    let root : HostPath := [0xff]
    let path := ["a", "b"]
    let other := ["a/", "b/.//"]
    let absolute := root ++ Text.bytes "/a/b"
    hostPath root path = .ok absolute ∧ hostPath root other = .ok absolute ∧
      componentParts path = componentParts other ∧
      parts (Text.bytes "b/.//") ≠ [.name (Text.bytes "b/.//")] := by
  intro root path other absolute
  have hpath : hostPath root path = .ok absolute := by rfl
  have hother : hostPath root other = .ok absolute := by rfl
  refine ⟨hpath, hother, (host_path_eq_iff_same_parts hpath hother).1.mp rfl, ?_⟩
  rw [Ne, (host_path_eq_iff_same_parts hother hpath).2.2 "b/.//" (by simp [other])]
  decide

/-- A slash behind a name is accepted and forgotten, so that one object has two paths. -/
theorem not_canonical :
    ¬ ∀ (root absolute : HostPath) (path other : Path), hostPath root path = .ok absolute →
      hostPath root other = .ok absolute → path = other := by
  intro hcanonical
  have hsame := hcanonical (Text.bytes "served") (Text.bytes "served/a") ["a"] ["a/"] (by rfl)
    (by rfl)
  exact absurd hsame (by decide)

end LocalStore

end HandleTable.Host
