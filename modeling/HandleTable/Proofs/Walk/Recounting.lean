import HandleTable.Memory
import HandleTable.Proofs.Walk.Agreement
import HandleTable.Proofs.Walk.Losses
import Mathlib.Algebra.Order.BigOperators.Group.List
import Mathlib.Data.List.Flatten

/-!
# What a walk counts when lookups are lost

A walk whose lookups are lost now and then, but which gives up no directory and has room
for all its handles, goes through the levels of the plain traversal with restarts: what
was served before a loss was counted and queued, and it is counted, queued and visited
again.

So such a walk meets the same first failure as the plain traversal and otherwise counts
at least as much.  It counts the same exactly when every loss hit the first lookup after
its snapshot.

As no two walks can be compared step by step when one of them restarts, both are
compared with the plain traversal: the one without losses by `descend_surveys`, the
other one by `descend_recounts`, again for one directory, one level and all levels.
-/

namespace HandleTable.Walk

open scoped List

variable {ι σ : Type}

/-- No directory is given up: between entering one directory and entering the next, no
more lookups are lost than its read may start over. -/
def GivesUpNowhere (events : List Event) : Prop :=
  ∀ within, within <:+: events → (∀ event ∈ within, event.entered? = none) →
    within.countP Event.isLoss ≤ maxRestarts

theorem GivesUpNowhere.of_isPrefix {earlier events : List Event} (hgives : GivesUpNowhere events)
    (hearlier : earlier <+: events) : GivesUpNowhere earlier :=
  fun within hwithin => hgives within (hwithin.trans hearlier.isInfix)

theorem GivesUpNowhere.of_countP_le {events : List Event}
    (hfew : events.countP Event.isLoss ≤ maxRestarts) : GivesUpNowhere events :=
  fun _ hwithin _ => (hwithin.sublist.countP_le).trans hfew

/-! ## A walk only goes on -/

/-- More handles may have been minted, and more may have been logged. -/
structure Onward (before after : State ι σ) : Prop where
  minted : before.minted ≤ after.minted
  events : before.events <+: after.events

protected theorem Onward.refl (state : State ι σ) : Onward state state :=
  ⟨le_rfl, List.prefix_rfl⟩

protected theorem Onward.trans {before middle after : State ι σ} (hfirst : Onward before middle)
    (hsecond : Onward middle after) : Onward before after :=
  ⟨hfirst.minted.trans hsecond.minted, hfirst.events.trans hsecond.events⟩

theorem Stays.onward {before after : State ι σ} (hstays : Stays before after) :
    Onward before after := by
  obtain ⟨events, hevents, -⟩ := hstays.events
  exact ⟨hstays.minted, events, hevents.symm⟩

theorem onward_andThen (outcome : Except Failure Unit × State ι σ)
    {next : State ι σ → Except Failure Unit × State ι σ}
    (hnext : ∀ state, Onward state (next state).2) : Onward outcome.2 (andThen outcome next).2 := by
  obtain ⟨failure | ⟨⟩, state⟩ := outcome
  · exact .refl state
  · exact hnext state

/-- The state once the directory at `path` has been entered through its handle. -/
def State.entered (state : State ι σ) (handle : Handle) (path : Path) : State ι σ :=
  { state with
    server := (state.server.fromHandle handle.bytes).2
    totals := { state.totals with directories := state.totals.directories + 1 }
    trace := .resolved path :: state.trace }

theorem events_entered (state : State ι σ) (handle : Handle) (path : Path) :
    (state.entered handle path).events = state.events ++ [.resolved path] := by
  simp [State.entered, State.events]

theorem andThen_of_ok {outcome : Except Failure Unit × State ι σ} (hok : outcome.1 = .ok ())
    (next : State ι σ → Except Failure Unit × State ι σ) :
    andThen outcome next = next outcome.2 := by
  obtain ⟨result, state⟩ := outcome
  cases hok
  rfl

section Onward

variable (around : Surroundings ι σ) (bounds : Bounds)

theorem onward_entered (handle : Handle) (path : Path) (state : State ι σ) :
    Onward state (state.entered handle path) :=
  ⟨le_rfl, _, (events_entered state handle path).symm⟩

theorem onward_visit (depth : ℕ) (handle : Handle) (state : State ι σ) :
    Onward state (state.visit around bounds depth handle).2 := by
  cases hlive : (state.server.fromHandle handle.bytes).1 with
  | error failure =>
      rw [State.visit_of_error hlive]
      exact ⟨le_rfl, [.stale], by simp [State.events]⟩
  | ok target =>
      rw [State.visit_of_ok hlive]
      exact (onward_entered handle target.path state).trans (stays_readDirectory ..).onward

theorem onward_visitAll (depth : ℕ) (handles : List Handle) (state : State ι σ) :
    Onward state (state.visitAll around bounds depth handles).2 := by
  induction handles generalizing state with
  | nil => exact .refl state
  | cons handle rest ih =>
      rw [visitAll_cons]
      exact (onward_visit around bounds depth handle state).trans (onward_andThen _ ih)

theorem onward_descend (depth : ℕ) (state : State ι σ) :
    Onward state (state.descend around bounds depth).2 := by
  induction hleft : bounds.maxDepth - depth using Nat.strong_induction_on
    generalizing depth state with
  | _ left ih =>
      have hemptied : Onward state { state with queue := [] } := ⟨le_rfl, List.prefix_rfl⟩
      rw [descend_eq]
      refine hemptied.trans ((onward_visitAll around bounds depth _ _).trans
        (onward_andThen _ fun after => ?_))
      unfold below
      split
      · exact ih _ (by omega) (depth + 1) after rfl
      · exact .refl after

theorem onward_below (depth : ℕ) (state : State ι σ) :
    Onward state (below around bounds depth state).2 := by
  unfold below
  split
  · exact onward_descend around bounds (depth + 1) state
  · exact .refl state

end Onward

/-! ## What has been counted -/

theorem startsUnlost_append {first second : List Event} (hfirst : StartsUnlost first)
    (hsecond : StartsUnlost second) : StartsUnlost (first ++ second) := by
  cases first with
  | nil => exact hsecond
  | cons event rest => exact hfirst

/-- A part of a walk visited `visits` and counted `extra` entries more than they list. -/
structure Counted (readDir : Path → Except Failure Listing) (visits : List Path) (extra : ℕ)
    (before after : State ι σ) : Prop where
  directories : after.totals.directories = before.totals.directories + visits.length
  entries : after.totals.entries = before.totals.entries +
    (visits.map fun path => (listingOf readDir path).length).sum + extra
  logged : ∃ events, after.events = before.events ++ events ∧
    events.filterMap Event.entered? = visits ∧ StartsUnlost events ∧
    (extra = 0 ↔ LosesOnlyUnread events)

namespace Counted

variable {readDir : Path → Except Failure Listing} {first second : List Path} {extra extra' : ℕ}
  {before middle after : State ι σ}

protected theorem refl (state : State ι σ) : Counted readDir [] 0 state state :=
  ⟨rfl, rfl, [], (List.append_nil _).symm, rfl, by simp [StartsUnlost],
    iff_of_true rfl .nil⟩

protected theorem trans (hfirst : Counted readDir first extra before middle)
    (hsecond : Counted readDir second extra' middle after) :
    Counted readDir (first ++ second) (extra + extra') before after where
  directories := by
    rw [hsecond.directories, hfirst.directories, List.length_append, Nat.add_assoc]
  entries := by
    rw [hsecond.entries, hfirst.entries, List.map_append, List.sum_append]
    omega
  logged := by
    obtain ⟨events, hevents, hvisits, hstarts, hextra⟩ := hfirst.logged
    obtain ⟨events', hevents', hvisits', hstarts', hextra'⟩ := hsecond.logged
    refine ⟨events ++ events', ?_, ?_, startsUnlost_append hstarts hstarts', ?_⟩
    · rw [hevents', hevents, List.append_assoc]
    · rw [List.filterMap_append, hvisits, hvisits']
    · rw [losesOnlyUnread_append hstarts', ← hextra, ← hextra', Nat.add_eq_zero_iff]

end Counted

/-- A part of a walk that is to visit `paths`: it ends with the failure of the first one
that cannot be read, or else `goal` holds.  At least what follows on those before the
first failure has been queued. -/
def Recounts (readDir : Path → Except Failure Listing) (maxDepth : ℕ) (paths : List Path)
    (before : State ι σ) (goal : State ι σ → Prop) (outcome : Except Failure Unit × State ι σ) :
    Prop :=
  before.minted + ((readable readDir paths).flatMap (followed readDir maxDepth)).length ≤
      outcome.2.minted ∧
    match firstFailure readDir paths with
    | some failure => outcome.1 = .error failure
    | none => outcome.1 = .ok () ∧ goal outcome.2

namespace Recounts

variable {readDir : Path → Except Failure Listing} {maxDepth : ℕ} {first second : List Path}
  {before : State ι σ} {reached goal : State ι σ → Prop}
  {outcome : Except Failure Unit × State ι σ}

/-- Two parts one after the other, of which the second is only reached when the first one
has not failed. -/
protected theorem andThen {next : State ι σ → Except Failure Unit × State ι σ}
    (hfirst : Recounts readDir maxDepth first before reached outcome)
    (hsecond : firstFailure readDir first = none → outcome.1 = .ok () → reached outcome.2 →
      Recounts readDir maxDepth second outcome.2 goal (next outcome.2)) :
    Recounts readDir maxDepth (first ++ second) before goal (andThen outcome next) := by
  obtain ⟨result, middle⟩ := outcome
  obtain ⟨hminted, hresult⟩ := hfirst
  have hboth : firstFailure readDir (first ++ second) =
      (firstFailure readDir first).or (firstFailure readDir second) := List.findSome?_append
  unfold Recounts
  rw [readable_append, hboth]
  cases hfailure : firstFailure readDir first with
  | some failure =>
      rw [hfailure] at hresult
      dsimp only at hresult
      rw [hresult, if_neg (Option.some_ne_none failure)]
      exact ⟨hminted, rfl⟩
  | none =>
      rw [hfailure] at hresult
      obtain ⟨hok, hreached⟩ := hresult
      obtain ⟨hminted', hresult'⟩ := hsecond hfailure hok hreached
      dsimp only at hok hminted hminted'
      rw [readable_of_none readDir hfailure] at hminted
      rw [if_pos rfl, hok, Option.none_or, List.flatMap_append, List.length_append]
      refine ⟨?_, hresult'⟩
      show _ ≤ (next middle).2.minted
      omega

protected theorem imp {paths : List Path} (hrecounts : Recounts readDir maxDepth paths before
    reached outcome) (hgoal : reached outcome.2 → goal outcome.2) :
    Recounts readDir maxDepth paths before goal outcome := by
  obtain ⟨hminted, hresult⟩ := hrecounts
  refine ⟨hminted, ?_⟩
  split at hresult
  · exact hresult
  · exact ⟨hresult.1, hgoal hresult.2⟩

/-- Directories that are met with restarts fail and lead on like those that are met once. -/
theorem of_repeats {plain repeated : List Path} (hrepeats : Repeats plain repeated)
    (hrecounts : Recounts readDir maxDepth repeated before goal outcome) :
    Recounts readDir maxDepth plain before goal outcome := by
  obtain ⟨hminted, hresult⟩ := hrecounts
  have hfollowed :=
    ((hrepeats.readable_sublist readDir).flatMap (followed readDir maxDepth)).length_le
  rw [hrepeats.firstFailure_eq] at hresult
  exact ⟨(Nat.add_le_add_left hfollowed _).trans hminted, hresult⟩

end Recounts

/-! ## One directory, one level, all levels -/

/-- After a part of a walk, what follows on the directories that it visited is queued,
for each of them a block that repeats what its listing leads to; blocks without
repetition go with counts without extras. -/
def Requeues (fresh : ℕ → Handle) (count : ℕ) (store : σ)
    (readDir : Path → Except Failure Listing) (maxDepth : ℕ) (waiting : List Handle)
    (paths queued visits : List Path) (before after : State ι σ) : Prop :=
  ∃ blocks extra,
    List.Forall₂ (fun block path => Repeats (followed readDir maxDepth path) block) blocks visits ∧
    (extra = 0 → blocks = visits.map (followed readDir maxDepth)) ∧
    Counted readDir visits extra before after ∧
    Supplied fresh count store waiting paths (queued ++ blocks.flatten) after.frontier

/-- The read of a directory that has just been entered through its handle. -/
theorem Rereads.counted {fresh : ℕ → Handle} {store : σ} {children : Listing → List Path}
    {readDir : Path → Except Failure Listing} {handle : Handle} {path : Path}
    {listing again : Listing} {events : List Event} {state after : State ι σ}
    (hlisting : listingOf readDir path = listing)
    (hrereads : Rereads fresh store children listing again events (state.entered handle path) after)
    (hstays : Stays (state.entered handle path) after) :
    Counted readDir [path] again.length state after where
  directories := hrereads.took.directories
  entries := by
    calc after.totals.entries
        = state.totals.entries + (again ++ listing).length := hrereads.took.entries
      _ = state.totals.entries + ([path].map fun path => (listingOf readDir path).length).sum +
            again.length := by
          rw [List.map_singleton, List.sum_singleton, hlisting, List.length_append]
          omega
  logged := by
    obtain ⟨others, hothers, hnone⟩ := hstays.events
    have hsame : events = others :=
      List.append_cancel_left (hrereads.logged.symm.trans hothers)
    have hvisits : events.filterMap Event.entered? = [] := by
      rw [hsame, List.filterMap_eq_nil_iff]
      exact hnone
    refine ⟨[.resolved path] ++ events, ?_, ?_, by simp [StartsUnlost, Event.isLoss], ?_⟩
    · rw [hrereads.logged, events_entered, List.append_assoc]
    · rw [List.filterMap_append, hvisits]
      rfl
    · rw [losesOnlyUnread_append hrereads.starts, List.length_eq_zero_iff, hrereads.unread]
      exact (and_iff_right (List.isChain_singleton _)).symm

/-- A part of a walk visited what `paths` lead to on the levels below, perhaps repeated;
without repetitions among the first ones, and without extras, nothing was repeated. -/
def Revisits (readDir : Path → Except Failure Listing) (paths : List Path) (once : Prop)
    (before after : State ι σ) : Prop :=
  ∃ visits extra, Repeats paths visits ∧ (extra = 0 → once → visits = paths) ∧
    Counted readDir visits extra before after

section Steady

variable {around : Surroundings ι σ} {store : σ} {readDir : Path → Except Failure Listing}
  (hsteady : ∀ read path, around.readDir read store path = readDir path) {bounds : Bounds}
  {count : ℕ} (hfresh : Set.InjOn around.fresh (Set.Iio count))

theorem losses_readDirectory {path : Path} {depth : ℕ} {state : State ι σ}
    (hgives : GivesUpNowhere
      (state.readDirectory around bounds store path depth maxRestarts).2.events) :
    (state.readDirectory around bounds store path depth maxRestarts).2.losses ≤
      state.losses + maxRestarts := by
  obtain ⟨events, hevents, hnone⟩ :=
    (stays_readDirectory around bounds store path depth maxRestarts state).events
  have hwithin : events <:+:
      (state.readDirectory around bounds store path depth maxRestarts).2.events :=
    ⟨state.events, [], by rw [hevents, List.append_nil]⟩
  rw [State.losses_of_events hevents]
  exact Nat.add_le_add_left (hgives events hwithin hnone) _

include hsteady hfresh

/-- A handle that stands for a directory leads to a visit of it. -/
theorem visit_recounts {handle : Handle} {path : Path} {waiting : List Handle}
    {paths queued : List Path} {state : State ι σ}
    (hsupplied : Supplied around.fresh count store (handle :: waiting) (path :: paths) queued
      state.frontier)
    (hroom : (state.visit around bounds path.length handle).2.minted ≤ count)
    (hgives : GivesUpNowhere (state.visit around bounds path.length handle).2.events) :
    Recounts readDir bounds.maxDepth [path] state
      (Requeues around.fresh count store readDir bounds.maxDepth waiting paths queued [path] state)
      (state.visit around bounds path.length handle) := by
  obtain ⟨hpeek, hwaiting⟩ := List.forall₂_cons.mp hsupplied.waiting
  have hvisit : state.visit around bounds path.length handle =
      (state.entered handle path).readDirectory around bounds store path path.length maxRestarts :=
    State.visit_of_ok (Handles.resolve_bytes_eq_ok_iff.mpr hpeek)
  have hentered : Supplied around.fresh count store waiting paths queued
      (state.entered handle path).frontier :=
    ({ hsupplied with waiting := hwaiting } : Supplied _ _ _ _ _ _ _).resolve handle.bytes
  rw [hvisit] at hroom hgives ⊢
  unfold Recounts
  rw [flatMap_followed_readable_singleton, firstFailure, List.findSome?_singleton, failure?]
  cases hread : readDir path with
  | error failure =>
      have hnone : followed readDir bounds.maxDepth path = [] := by
        simp [followed, listingOf, hread, subdirectories]
      rw [hnone]
      exact ⟨(stays_readDirectory around bounds store path path.length maxRestarts
          (state.entered handle path)).minted,
        readDirectory_of_error path.length ((hsteady _ path).trans hread) maxRestarts⟩
  | ok listing =>
      -- the block of this directory is what its listing leads to, behind what came in again
      obtain ⟨again, events, after, hafter, hrereads⟩ := readDirectory_rereads bounds
        (fun read => (hsteady read path).trans hread) (losses_readDirectory hgives)
      have hstays := stays_readDirectory around bounds store path path.length maxRestarts
        (state.entered handle path)
      rw [hafter] at hroom hstays ⊢
      have hlisting : listingOf readDir path = listing := by rw [listingOf, hread]
      have hchildren : children bounds path.length path listing =
          followed readDir bounds.maxDepth path := by rw [children, followed, hlisting]
      have hblock : Repeats (followed readDir bounds.maxDepth path)
          (children bounds path.length path (again ++ listing)) := by
        rw [← hchildren]
        exact hrereads.repeats.of_append (children_append bounds path.length path)
      have hminted : after.minted = state.minted +
          (children bounds path.length path (again ++ listing)).length := by
        have hissued := congrArg Frontier.minted hrereads.took.frontier
        rwa [Frontier.minted_issueAll] at hissued
      refine ⟨?_, rfl, [children bounds path.length path (again ++ listing)], again.length, ?_, ?_,
        hrereads.counted hlisting hstays, ?_⟩
      · rw [hminted]
        exact Nat.add_le_add_left hblock.sublist.length_le _
      · exact .cons hblock .nil
      · intro hextra
        rw [List.eq_nil_of_length_eq_zero hextra, List.nil_append, hchildren]
        rfl
      · rw [List.flatten_singleton, hrereads.took.frontier]
        exact hentered.issueAll hfresh (hminted ▸ hroom)

/-- The handles of a level lead to visits of its directories, which queue what follows on
them. -/
theorem visitAll_recounts {depth : ℕ} {waiting : List Handle} {paths queued : List Path}
    {state : State ι σ} (hdepth : ∀ path ∈ paths, path.length = depth)
    (hsupplied : Supplied around.fresh count store waiting paths queued state.frontier)
    (hroom : (state.visitAll around bounds depth waiting).2.minted ≤ count)
    (hgives : GivesUpNowhere (state.visitAll around bounds depth waiting).2.events) :
    Recounts readDir bounds.maxDepth paths state
      (Requeues around.fresh count store readDir bounds.maxDepth [] [] queued paths state)
      (state.visitAll around bounds depth waiting) := by
  induction paths generalizing waiting queued state with
  | nil =>
      cases hsupplied.waiting
      refine ⟨le_rfl, rfl, [], 0, .nil, fun _ => rfl, .refl state, ?_⟩
      rwa [List.flatten_nil, List.append_nil]
  | cons path rest ih =>
      obtain ⟨handle, others, -, -, rfl⟩ := List.forall₂_cons_right_iff.mp hsupplied.waiting
      obtain rfl := hdepth path List.mem_cons_self
      rw [visitAll_cons] at hroom hgives ⊢
      -- what the level as a whole keeps to, its first visit has kept to as well
      have honward := onward_andThen (state.visit around bounds path.length handle)
        (onward_visitAll around bounds path.length others)
      have hfirst := visit_recounts hsteady hfresh hsupplied (honward.minted.trans hroom)
        (hgives.of_isPrefix honward.events)
      rw [← List.singleton_append]
      refine hfirst.andThen ?_
      rintro - hok ⟨blocks, extra, hblocks, hsame, hcounted, hafter⟩
      rw [andThen_of_ok hok] at hroom hgives
      refine (ih (fun path hpath => hdepth path (List.mem_cons_of_mem _ hpath)) hafter hroom
        hgives).imp ?_
      rintro ⟨blocks', extra', hblocks', hsame', hcounted', hfinal⟩
      refine ⟨blocks ++ blocks', extra + extra', List.rel_append hblocks hblocks', ?_,
        hcounted.trans hcounted', ?_⟩
      · intro hextra
        rw [hsame (Nat.eq_zero_of_add_eq_zero_right hextra),
          hsame' (Nat.eq_zero_of_add_eq_zero_left hextra), List.map_append]
      · rwa [List.flatten_append, ← List.append_assoc]

/-- The queue of a level leads to visits of its directories, perhaps repeated, and of all
that lie below them, as far down as the walk goes: `left` levels more. -/
theorem descend_recounts {depth left : ℕ} {repeated : List Path} {state : State ι σ}
    (hdepth : depth + left + 1 = max bounds.maxDepth 1)
    (hrepeats : Repeats (level readDir depth) repeated)
    (hsupplied : Supplied around.fresh count store state.queue repeated []
      { state.frontier with queue := [] })
    (hroom : (state.descend around bounds depth).2.minted ≤ count)
    (hgives : GivesUpNowhere (state.descend around bounds depth).2.events) :
    Recounts readDir bounds.maxDepth ((List.range' depth (left + 1)).flatMap (level readDir)) state
      (Revisits readDir ((List.range' depth (left + 1)).flatMap (level readDir))
        (repeated = level readDir depth) state)
      (state.descend around bounds depth) := by
  induction left using Nat.strong_induction_on generalizing depth repeated state with
  | _ left ih =>
      have hlengths : ∀ path ∈ repeated, path.length = depth := fun path hpath =>
        length_of_mem_level readDir (hrepeats.subset hpath)
      have hemptied : Supplied around.fresh count store state.queue repeated []
          { state with queue := [] }.frontier := hsupplied
      rw [descend_eq] at hroom hgives ⊢
      have honward := onward_andThen
        (State.visitAll around bounds depth state.queue { state with queue := [] })
        (onward_below around bounds depth)
      have hlevel : Recounts readDir bounds.maxDepth (level readDir depth) state
          (Requeues around.fresh count store readDir bounds.maxDepth [] [] [] repeated state)
          (State.visitAll around bounds depth state.queue { state with queue := [] }) :=
        ((visitAll_recounts hsteady hfresh hlengths hemptied (honward.minted.trans hroom)
          (hgives.of_isPrefix honward.events)).of_repeats hrepeats).imp
        fun ⟨blocks, extra, hblocks, hsame, hcounted, hafter⟩ => ⟨blocks, extra, hblocks, hsame,
          ⟨hcounted.directories, hcounted.entries, hcounted.logged⟩, hafter⟩
      rw [List.range'_succ, List.flatMap_cons]
      refine hlevel.andThen ?_
      rintro hread hok ⟨blocks, extra, hblocks, hsame, hcounted, hafter⟩
      rw [andThen_of_ok hok] at hroom hgives
      generalize (State.visitAll around bounds depth state.queue { state with queue := [] }).2 =
        after at hroom hgives hcounted hafter ⊢
      -- the queue repeats the next level, as this level was repeated and so was each listing
      have hnext := hrepeats.flatten hblocks
      rw [flatMap_followed_level] at hnext
      rw [List.nil_append] at hafter
      unfold below at hroom hgives ⊢
      by_cases hgoes : depth + 1 < bounds.maxDepth ∧ after.queue ≠ []
      · obtain ⟨hinner, -⟩ := id hgoes
        rw [if_pos hinner] at hnext
        rw [if_pos hgoes] at hroom hgives ⊢
        obtain ⟨fewer, rfl⟩ : ∃ fewer, left = fewer + 1 := ⟨left - 1, by omega⟩
        refine (ih fewer (Nat.lt_succ_self fewer) (by omega) hnext hafter.next hroom hgives).imp ?_
        rintro ⟨visits, extra', hvisits, honce, hcounted'⟩
        refine ⟨repeated ++ visits, extra + extra', .append hrepeats hvisits, ?_,
          hcounted.trans hcounted'⟩
        intro hextra hplain
        have hqueued : blocks.flatten = level readDir (depth + 1) := by
          calc blocks.flatten
              = (level readDir depth).flatMap (followed readDir bounds.maxDepth) := by
                rw [hsame (Nat.eq_zero_of_add_eq_zero_right hextra), hplain, List.flatMap_def]
            _ = level readDir (depth + 1) := by rw [flatMap_followed_level, if_pos hinner]
        rw [hplain, honce (Nat.eq_zero_of_add_eq_zero_left hextra) hqueued]
      · -- the walk ends here, as no level below has anything to visit
        have hbelow : (List.range' (depth + 1) left).flatMap (level readDir) = [] := by
          refine flatMap_level_below_eq_nil readDir hdepth fun hinner => ?_
          have hqueue : after.queue = [] := not_ne_iff.mp (not_and.mp hgoes hinner)
          rw [if_pos hinner, hafter.queued_eq_nil hqueue] at hnext
          exact List.sublist_nil.mp hnext.sublist
        rw [if_neg hgoes, hbelow]
        refine ⟨le_rfl, rfl, repeated, extra, ?_, ?_, hcounted⟩
        · rwa [List.append_nil]
        · intro _ hplain
          rw [hplain, List.append_nil]

end Steady

/-! ## With and without losses -/

/-- The same surroundings, except that no lookup is lost. -/
def Surroundings.quiet (around : Surroundings ι σ) : Surroundings ι σ :=
  { around with lost := fun _ => false }

/-- A walk with losses counted no less than one without them, and the same exactly when
it lost only first lookups. -/
structure CountsMore (quiet lossy : State ι σ) : Prop where
  directories : quiet.totals.directories ≤ lossy.totals.directories
  entries : quiet.totals.entries ≤ lossy.totals.entries
  alike : (lossy.totals.directories, lossy.totals.entries) =
      (quiet.totals.directories, quiet.totals.entries) ↔ LosesOnlyUnread lossy.events
  visited : LosesOnlyUnread lossy.events → lossy.visited = quiet.visited

theorem Counted.countsMore {readDir : Path → Except Failure Listing} {pageSize extra : ℕ}
    {paths visits : List Path} {root lossy quiet : State ι σ} (hrepeats : Repeats paths visits)
    (honce : extra = 0 → visits = paths) (hcounted : Counted readDir visits extra root lossy)
    (htotals : root.totals = ⟨0, 0, 0, 0, 0⟩) (hevents : root.events = [.minted [] 0])
    (hquiet : quiet.totals = plainTotals readDir pageSize paths)
    (hvisited : quiet.visited = paths) : CountsMore quiet lossy := by
  obtain ⟨events, hlogged, hvisits, hstarts, hextra⟩ := hcounted.logged
  have hunread : LosesOnlyUnread lossy.events ↔ extra = 0 := by
    rw [hlogged, hevents, losesOnlyUnread_append hstarts, hextra]
    exact and_iff_right (List.isChain_singleton _)
  -- the plain traversal is a part of what was visited, and so are its counts
  have hmore := (hrepeats.sublist.map fun path => (listingOf readDir path).length).sum_le_sum
    fun _ _ => Nat.zero_le _
  have hlength := hrepeats.sublist.length_le
  have hdirectories := hcounted.directories
  have hentries := hcounted.entries
  rw [htotals] at hdirectories hentries
  dsimp only at hdirectories hentries
  refine ⟨?_, ?_, ?_, ?_⟩
  · rw [hquiet]
    show paths.length ≤ _
    omega
  · rw [hquiet]
    show (paths.map fun path => (listingOf readDir path).length).sum ≤ _
    omega
  · rw [hunread, hquiet, Prod.mk.injEq]
    constructor
    · rintro ⟨-, hsame⟩
      dsimp only [plainTotals] at hsame
      omega
    · intro hnone
      rw [honce hnone] at hdirectories hentries
      rw [hdirectories, hentries, hnone, Nat.zero_add, Nat.zero_add, Nat.add_zero]
      exact ⟨rfl, rfl⟩
  · intro hunread'
    calc lossy.visited
        = events.filterMap Event.entered? := by
          rw [State.visited, hlogged, hevents]
          rfl
      _ = paths := hvisits.trans (honce (hunread.mp hunread'))
      _ = quiet.visited := hvisited.symm

/-- From the root, both walks fail alike or both come to an end. -/
theorem descend_quiet {around : Surroundings ι σ} {store : σ}
    {readDir : Path → Except Failure Listing} {bounds : Bounds} {root : State ι σ}
    (hsteady : ∀ read path, around.readDir read store path = readDir path)
    (hfresh : Set.InjOn around.fresh (Set.Iio (root.descend around bounds 0).2.minted))
    (hgives : GivesUpNowhere (root.descend around bounds 0).2.events)
    (hsupplied : Supplied around.fresh (root.descend around bounds 0).2.minted store root.queue
      (level readDir 0) [] { root.frontier with queue := [] })
    (htotals : root.totals = ⟨0, 0, 0, 0, 0⟩) (hevents : root.events = [.minted [] 0]) :
    (∃ failure, (root.descend around bounds 0).1 = .error failure ∧
      (root.descend around.quiet bounds 0).1 = .error failure) ∨
    (root.descend around bounds 0).1 = .ok () ∧ (root.descend around.quiet bounds 0).1 = .ok () ∧
      CountsMore (root.descend around.quiet bounds 0).2 (root.descend around bounds 0).2 := by
  obtain ⟨left, hleft⟩ : ∃ left, 0 + left + 1 = max bounds.maxDepth 1 :=
    ⟨max bounds.maxDepth 1 - 1, by omega⟩
  have hsteady' : around.quiet.Steady store readDir := ⟨hsteady, fun _ => rfl⟩
  have hlossy := descend_recounts hsteady hfresh hleft (.refl _) hsupplied le_rfl hgives
  -- the walk with losses has minted at least as many handles as the plain traversal needs
  have hquiet := descend_surveys hsteady' hfresh hleft hsupplied hlossy.1
  obtain ⟨-, hresult⟩ := hlossy
  unfold Surveys at hquiet
  cases hfailure : firstFailure readDir ((List.range' 0 (left + 1)).flatMap (level readDir)) with
  | some failure =>
      rw [hfailure] at hresult hquiet
      exact Or.inl ⟨failure, hresult, hquiet⟩
  | none =>
      rw [hfailure] at hresult hquiet
      obtain ⟨hok, visits, extra, hrepeats, honce, hcounted⟩ := hresult
      obtain ⟨hok', hplain, hvisited, -⟩ := hquiet
      have hnone : root.visited = [] := by
        rw [State.visited, hevents]
        rfl
      rw [htotals, Totals.zero_add] at hplain
      rw [hnone, List.nil_append] at hvisited
      exact Or.inr ⟨hok, hok', hcounted.countsMore hrepeats (fun hnone => honce hnone rfl) htotals
        hevents hplain hvisited⟩

/-- **Restarts count again what came in before.**  Take a walk that finds both tables
empty, in an export whose directories always list the same, with lookups lost at any
time, of which so few hit any one directory that none is given up, and with room for
all handles that are minted.  It fails as the same walk does without losses, or it
counts no less.  It counts the same directories and entries exactly when every lookup
that is lost is the first one after a read, and then it visits the same directories in
the same order. -/
theorem counts_alike_iff_loses_only_unread {around : Surroundings ι σ}
    {readDir : σ → Path → Except Failure Listing} {maxDepth pageSize : ℕ} {request : String}
    {inner : ι} {limit verifierLimit : Capacity}
    (hsteady : ∀ read store path, around.readDir read store path = readDir store path) :
    let start := Server.new inner limit verifierLimit
    let lossy := walk around (.of maxDepth pageSize) request start
    let quiet := walk around.quiet (.of maxDepth pageSize) request start
    ((List.range lossy.2.minted).map around.fresh).Nodup → lossy.2.minted ≤ limit.val →
      GivesUpNowhere lossy.2.events →
    (∀ failure, lossy.1 = .error failure ↔ quiet.1 = .error failure) ∧
    ∀ counted plain, lossy.1 = .ok counted → quiet.1 = .ok plain →
      plain.directories ≤ counted.directories ∧ plain.entries ≤ counted.entries ∧
      ((counted.directories, counted.entries) = (plain.directories, plain.entries) ↔
        LosesOnlyUnread lossy.2.events) ∧
      (LosesOnlyUnread lossy.2.events → lossy.2.visited = quiet.2.visited) := by
  intro start lossy quiet hfresh hroom hgives
  rcases walk_new around.service request inner with
    ⟨failure, inner', hwalk⟩ | ⟨store, inner', hwalk⟩
  · -- nothing is looked up before the mount, so losses make no difference to it
    have hlossy : lossy.1 = .error failure :=
      congrArg Prod.fst (hwalk around (.of maxDepth pageSize) limit verifierLimit rfl)
    have hquiet : quiet.1 = .error failure :=
      congrArg Prod.fst (hwalk around.quiet (.of maxDepth pageSize) limit verifierLimit rfl)
    rw [hlossy, hquiet]
    exact ⟨fun _ => Iff.rfl, fun _ _ hcounted => by contradiction⟩
  · have hlossy := hwalk around (.of maxDepth pageSize) limit verifierLimit rfl
    have hquiet := hwalk around.quiet (.of maxDepth pageSize) limit verifierLimit rfl
    dsimp only at hlossy hquiet
    have hinjective := injOn_of_nodup_map_range hfresh
    rw [show lossy.2 = _ from congrArg Prod.snd hlossy] at hinjective hroom hgives ⊢
    rw [show quiet.2 = _ from congrArg Prod.snd hquiet]
    have hpositive := (onward_descend around (.of maxDepth pageSize) 0
      ((State.start (.new inner' limit verifierLimit)).enqueue around store [] 0)).minted
    have hsupplied := supplied_root store (readDir store) hinjective hpositive inner' hroom
      verifierLimit
    rcases descend_quiet (fun read => hsteady read store) hinjective hgives hsupplied rfl rfl with
      ⟨failure, hfailed, hfailed'⟩ | ⟨hok, hok', hmore⟩
    · rw [show lossy.1 = _ from (congrArg Prod.fst hlossy).trans (congrArg (Except.map _) hfailed),
        show quiet.1 = _ from (congrArg Prod.fst hquiet).trans (congrArg (Except.map _) hfailed')]
      exact ⟨fun _ => Iff.rfl, fun _ _ hcounted => by contradiction⟩
    · rw [show lossy.1 = _ from (congrArg Prod.fst hlossy).trans (congrArg (Except.map _) hok),
        show quiet.1 = _ from (congrArg Prod.fst hquiet).trans (congrArg (Except.map _) hok')]
      refine ⟨fun _ => iff_of_false nofun nofun, ?_⟩
      rintro _ _ ⟨⟩ ⟨⟩
      exact ⟨hmore.directories, hmore.entries, hmore.alike, hmore.visited⟩

/-- An export with a directory, in which there is a file, and another file beside it; the
second lookup of a walk is lost. -/
def secondLookupLost : Surroundings (List String) Unit where
  service := Memory.Export.service ⟨"none", "stale", ⟨9, 5, 5, 4, 2⟩⟩ ()
  readDir _ _ path := Memory.readDir
    [.directory ⟨"a", 0, true, 0⟩ [.file ⟨"f", 7, false, 0⟩], .file ⟨"top", 7, false, 0⟩] path
  fresh := Handle.ofSeed
  lost lookup := lookup == 1
  lostDrops := true

theorem walk_secondLookupLost :
    let start := Server.new [] ⟨4, by decide⟩ ⟨1, by decide⟩
    let lossy := walk secondLookupLost (.of 2 1) "/" start
    lossy.1 = .ok ⟨3, 5, 5, 0, 1⟩ ∧ lossy.2.visited = [[], ["a"], ["a"]] ∧
      lossy.2.minted = 3 ∧ lossy.2.losses = 1 ∧
      (walk secondLookupLost.quiet (.of 2 1) "/" start).1 = .ok ⟨2, 3, 3, 0, 0⟩ := by
  decide +kernel

/-- When the second of two pages is lost, the directory on the first one is queued and
visited twice, and so more is counted than without the loss, which hit no first
lookup. -/
theorem directory_before_loss_visited_twice :
    let start := Server.new [] ⟨4, by decide⟩ ⟨1, by decide⟩
    let lossy := walk secondLookupLost (.of 2 1) "/" start
    lossy.1 = .ok ⟨3, 5, 5, 0, 1⟩ ∧
      (walk secondLookupLost.quiet (.of 2 1) "/" start).1 = .ok ⟨2, 3, 3, 0, 0⟩ ∧
      lossy.2.visited = [[], ["a"], ["a"]] ∧ ¬ LosesOnlyUnread lossy.2.events := by
  intro start lossy
  obtain ⟨hlossy, hvisited, hminted, hlosses, hquiet⟩ := walk_secondLookupLost
  have hfresh : ((List.range lossy.2.minted).map secondLookupLost.fresh).Nodup := by
    rw [hminted]
    decide
  have hroom : lossy.2.minted ≤ 4 := hminted.trans_le (by decide)
  have hgives : GivesUpNowhere lossy.2.events := .of_countP_le (hlosses.trans_le (by decide))
  obtain ⟨-, hcounts⟩ := counts_alike_iff_loses_only_unread (fun _ _ _ => rfl) hfresh hroom hgives
  obtain ⟨-, -, halike, -⟩ := hcounts _ _ hlossy hquiet
  exact ⟨hlossy, hquiet, hvisited, fun hunread => absurd (halike.mpr hunread) (by decide)⟩

/-- A walk with losses does not count the same as one without them. -/
theorem not_counts_alike :
    ¬ ∀ (around : Surroundings (List String) Unit) (readDir : Unit → Path → Except Failure Listing)
        (maxDepth pageSize : ℕ) (request : String) (limit verifierLimit : Capacity),
      (∀ read store path, around.readDir read store path = readDir store path) →
      let start := Server.new [] limit verifierLimit
      let lossy := walk around (.of maxDepth pageSize) request start
      let quiet := walk around.quiet (.of maxDepth pageSize) request start
      ((List.range lossy.2.minted).map around.fresh).Nodup → lossy.2.minted ≤ limit.val →
        GivesUpNowhere lossy.2.events →
      (lossy.1.map fun counted => (counted.directories, counted.entries)) =
        quiet.1.map fun plain => (plain.directories, plain.entries) := by
  intro hcounts
  obtain ⟨hlossy, -, hminted, hlosses, hquiet⟩ := walk_secondLookupLost
  have hsame := hcounts secondLookupLost (secondLookupLost.readDir 0) 2 1 "/" ⟨4, by decide⟩
    ⟨1, by decide⟩ (fun _ _ _ => rfl)
    (by
      rw [hminted]
      decide)
    (hminted.trans_le (by decide)) (.of_countP_le (hlosses.trans_le (by decide)))
  rw [hlossy, hquiet] at hsame
  simp [Except.map] at hsame

/-- Losing the first lookup of the root again and again costs nothing, also when only the
second of these losses drops the snapshot. -/
example :
    let around := { secondLookupLost with
      lost := fun lookup => decide (lookup < 3)
      lostDrops := fun lookup => lookup == 1 }
    let start := Server.new [] ⟨4, by decide⟩ ⟨1, by decide⟩
    (walk around (.of 2 1) "/" start).1 = .ok ⟨2, 3, 3, 0, 3⟩ := by
  decide +kernel

end HandleTable.Walk
