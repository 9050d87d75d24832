import HandleTable.Proofs.Walk.Reading
import HandleTable.Proofs.Walk.Repetition
import Mathlib.Data.List.Chain

/-!
# Reading a directory with losses

A lookup may be lost before any page of a read, and the read then starts over with a new
snapshot.  If the directory lists the same again, and the read is not given up, the
pages that come in are parts of the listing, one after another, and then all of it.
What came in before a loss has been counted, and handles have been minted for it, and
both happens again (`readDirectory_rereads`).

Only when the lookup that is lost is the first one after its snapshot is nothing taken
twice.  The trace tells: such a loss stands right behind a `read` (`LosesOnlyUnread`).
-/

namespace HandleTable.Walk

variable {ι σ : Type}

/-! ## Events -/

/-- Whether a lookup was lost. -/
def Event.isLoss : Event → Bool
  | .lost _ => true
  | _ => false

/-- Whether a directory was read. -/
def Event.isRead : Event → Bool
  | .read .. => true
  | _ => false

/-- Whether an event belongs to serving a page. -/
def Event.serves : Event → Bool
  | .minted .. | .looked _ | .page .. => true
  | _ => false

theorem Event.of_serves {event : Event} (hserves : event.serves = true) :
    event.isLoss = false ∧ event.isRead = false ∧ event.entered? = none := by
  cases event <;> first | contradiction | exact ⟨rfl, rfl, rfl⟩

/-- Every lookup that is lost is the first one after a directory was read. -/
def LosesOnlyUnread (events : List Event) : Prop :=
  events.IsChain fun event next => next.isLoss = true → event.isRead = true

instance (events : List Event) : Decidable (LosesOnlyUnread events) :=
  inferInstanceAs (Decidable (List.IsChain _ events))

/-- No loss comes first. -/
def StartsUnlost (events : List Event) : Prop :=
  ∀ event ∈ events.head?, event.isLoss = false

/-- Events that do not start with a loss may be looked at by themselves. -/
theorem losesOnlyUnread_append {first second : List Event} (hsecond : StartsUnlost second) :
    LosesOnlyUnread (first ++ second) ↔ LosesOnlyUnread first ∧ LosesOnlyUnread second := by
  unfold LosesOnlyUnread
  rw [List.isChain_append]
  constructor
  · rintro ⟨hfirst, hrest, -⟩
    exact ⟨hfirst, hrest⟩
  · rintro ⟨hfirst, hrest⟩
    refine ⟨hfirst, hrest, ?_⟩
    intro event _ next hnext hloss
    rw [hsecond next hnext] at hloss
    contradiction

theorem losesOnlyUnread_of_forall {events : List Event}
    (hnone : ∀ event ∈ events, event.isLoss = false) : LosesOnlyUnread events := by
  induction events with
  | nil => exact .nil
  | cons event rest ih =>
      refine List.isChain_cons.mpr
        ⟨?_, ih fun other hother => hnone other (List.mem_cons_of_mem _ hother)⟩
      intro next hnext hloss
      rw [hnone next (List.mem_cons_of_mem _ (List.mem_of_mem_head? hnext))] at hloss
      contradiction

/-- A loss that ends a read is forgiven if nothing has been served. -/
theorem losesOnlyUnread_restart {directory : String} {listing : Listing} {verifier : Verifier}
    {served after : List Event} (hserves : ∀ event ∈ served, event.serves = true)
    (hafter : StartsUnlost after) :
    LosesOnlyUnread (.read directory listing verifier :: served ++ .lost directory :: after) ↔
      served = [] ∧ LosesOnlyUnread after := by
  have hsplit : .read directory listing verifier :: served ++ .lost directory :: after =
      (.read directory listing verifier :: served ++ [.lost directory]) ++ after := by
    rw [List.append_assoc, List.singleton_append]
  rw [hsplit, losesOnlyUnread_append hafter]
  refine and_congr_left fun _ => ?_
  constructor
  · intro hunread
    rcases List.eq_nil_or_concat served with hnone | ⟨earlier, last, rfl⟩
    · exact hnone
    · -- the loss stands behind something that serves a page
      rw [List.concat_eq_append] at hunread hserves
      have hlast := Event.of_serves (hserves last (List.mem_append_right _ List.mem_cons_self))
      have hread : last.isRead = true :=
        (List.isChain_append.mp hunread).2.2 last
          (List.getLast?_concat :
            ((.read directory listing verifier :: earlier) ++ [last]).getLast? = some last)
          _ rfl rfl
      rw [hlast.2.1] at hread
      contradiction
  · rintro rfl
    exact List.isChain_pair.mpr fun _ => rfl

namespace State

/-- How many lookups have been lost so far. -/
def losses (state : State ι σ) : ℕ :=
  state.events.countP Event.isLoss

theorem losses_of_events {before after : State ι σ} {events : List Event}
    (hevents : after.events = before.events ++ events) :
    after.losses = before.losses + events.countP Event.isLoss := by
  rw [losses, losses, hevents, List.countP_append]

end State

/-! ## What a step takes -/

/-- A step takes so many entries and mints and queues handles for `children`; pages and
restarts do not matter. -/
structure Took (fresh : ℕ → Handle) (store : σ) (children : List Path) (entries : ℕ)
    (before after : State ι σ) : Prop where
  frontier : after.frontier = before.frontier.issueAll fresh store children
  directories : after.totals.directories = before.totals.directories
  entries : after.totals.entries = before.totals.entries + entries

/-- A step logs events that serve pages, and no others. -/
def Serves (served : List Event) (before after : State ι σ) : Prop :=
  after.events = before.events ++ served ∧ ∀ event ∈ served, event.serves = true

section Steps

variable {fresh : ℕ → Handle} {store : σ} {first second : List Path} {entries entries' : ℕ}
  {served served' : List Event} {before middle after : State ι σ}

theorem Served.took {pages : ℕ} (hserved : Served fresh store first entries pages before after) :
    Took fresh store first entries before after where
  frontier := hserved.frontier
  directories := by
    rw [hserved.totals]
    rfl
  entries := by
    rw [hserved.totals]
    rfl

protected theorem Took.trans (hfirst : Took fresh store first entries before middle)
    (hsecond : Took fresh store second entries' middle after) :
    Took fresh store (first ++ second) (entries + entries') before after where
  frontier := by rw [hsecond.frontier, hfirst.frontier, Frontier.issueAll_append]
  directories := hsecond.directories.trans hfirst.directories
  entries := by rw [hsecond.entries, hfirst.entries, Nat.add_assoc]

protected theorem Serves.trans (hfirst : Serves served before middle)
    (hsecond : Serves served' middle after) : Serves (served ++ served') before after := by
  refine ⟨by rw [hsecond.1, hfirst.1, List.append_assoc], ?_⟩
  intro event hevent
  exact (List.mem_append.mp hevent).elim (hfirst.2 event) (hsecond.2 event)

end Steps

section Entries

variable (around : Surroundings ι σ) (bounds : Bounds) (store : σ) (path : Path) (depth : ℕ)

theorem serves_takeEntry (state : State ι σ) (entry : Entry) :
    ∃ served, Serves served state (state.takeEntry around bounds store path depth entry) := by
  unfold State.takeEntry
  dsimp only
  split
  · exact ⟨[.minted (path ++ [entry.name]) (depth + 1)],
      by simp [Serves, State.enqueue, State.events, Event.serves]⟩
  · exact ⟨[], by simp [Serves, State.events]⟩

theorem serves_takePage (cookie : ℕ) (page : Listing) (state : State ι σ) :
    ∃ served, Serves served state (state.takePage around bounds store path depth cookie page) := by
  unfold State.takePage
  refine List.foldlRecOn (motive := fun current => ∃ served, Serves served state current) page _
    ⟨[.page path.text cookie page], by simp [Serves, State.events, Event.serves]⟩ ?_
  rintro current ⟨served, hserved⟩ entry -
  obtain ⟨more, hmore⟩ := serves_takeEntry around bounds store path depth current entry
  exact ⟨served ++ more, hserved.trans hmore⟩

end Entries

/-! ## Pages until a loss -/

/-- How it may end to serve what is left of a listing: all of it has been served, or a
lookup was lost after a part of it. -/
inductive Paging (fresh : ℕ → Handle) (store : σ) (children : Listing → List Path)
    (directory : String) (left : Listing) (before : State ι σ) : Bool × State ι σ → Prop
  | all {served : List Event} {after : State ι σ}
      (took : Took fresh store (children left) left.length before after)
      (serves : Serves served before after) :
      Paging fresh store children directory left before (true, after)
  | lost {part rest : Listing} {served : List Event} {after : State ι σ}
      (split : left = part ++ rest)
      (took : Took fresh store (children part) part.length before after)
      (events : after.events = before.events ++ (served ++ [.lost directory]))
      (serves : ∀ event ∈ served, event.serves = true)
      (unserved : part = [] ↔ served = []) :
      Paging fresh store children directory left before (false, after)

theorem Paging.page_append {fresh : ℕ → Handle} {store : σ} {children : Listing → List Path}
    (hchildren : ∀ first second, children (first ++ second) = children first ++ children second)
    {directory : String} {page rest : Listing} {served : List Event} {before middle : State ι σ}
    {outcome : Bool × State ι σ} (hpage : page ≠ []) (hserved : served ≠ [])
    (htook : Took fresh store (children page) page.length before middle)
    (hserves : Serves served before middle)
    (hrest : Paging fresh store children directory rest middle outcome) :
    Paging fresh store children directory (page ++ rest) before outcome := by
  cases hrest with
  | all htook' hserves' =>
      have hall := htook.trans htook'
      rw [← hchildren, ← List.length_append] at hall
      exact .all hall (hserves.trans hserves')
  | @lost part missing served' after hsplit htook' hevents hserves' _ =>
      have hall := htook.trans htook'
      rw [← hchildren, ← List.length_append] at hall
      have hboth : after.events = before.events ++ ((served ++ served') ++ [.lost directory]) := by
        rw [hevents, hserves.1, List.append_assoc, List.append_assoc]
      refine .lost (by rw [hsplit, List.append_assoc]) hall hboth ?_ ?_
      · intro event hevent
        exact (List.mem_append.mp hevent).elim (hserves.2 event) (hserves' event)
      · exact iff_of_false (List.append_ne_nil_of_left_ne_nil hpage _)
          (List.append_ne_nil_of_left_ne_nil hserved _)

section Pages

variable {around : Surroundings ι σ}

theorem takePages_of_lost (bounds : Bounds) (store : σ) (path : Path) (depth cookie : ℕ)
    (verifier : Verifier) {state : State ι σ} (hlost : around.lost state.lookups = true) :
    state.takePages around bounds store path depth verifier cookie =
      (false, (state.lookUp around path.text verifier).2) := by
  have hnone : (state.lookUp around path.text verifier).1 = none := by
    rw [State.lookUp, if_pos hlost]
  rw [State.takePages]
  split
  · rename_i hlookup
    rw [hlookup]
  · rename_i hlookup
    rw [hlookup] at hnone
    contradiction

theorem serves_lookUp (directory : String) (verifier : Verifier) {state : State ι σ}
    (hkept : around.lost state.lookups = false) :
    Serves [.looked directory] state (state.lookUp around directory verifier).2 := by
  rw [State.lookUp, hkept, if_neg Bool.false_ne_true]
  simp [Serves, State.events, Event.serves]

theorem took_lookUp_of_lost (fresh : ℕ → Handle) (store : σ) (directory : String)
    (verifier : Verifier) {state : State ι σ} (hlost : around.lost state.lookups = true) :
    Took fresh store [] 0 state (state.lookUp around directory verifier).2 ∧
      (state.lookUp around directory verifier).2.events = state.events ++ [.lost directory] := by
  rw [State.lookUp, if_pos hlost]
  refine ⟨⟨?_, rfl, rfl⟩, by simp [State.events]⟩
  cases hdrops : around.lostDrops state.lookups <;> rfl

/-- Pages are served from a cookie on until all of the listing is through or a lookup is
lost. -/
theorem takePages_paging (bounds : Bounds) (store : σ) (path : Path) (depth cookie : ℕ)
    {verifier : Verifier} {snapshot : Snapshot} {state : State ι σ}
    (hpeek : state.server.verifiers.peek verifier = some snapshot) :
    Paging around.fresh store (children bounds depth path) path.text
      (snapshot.listing.drop cookie) state
      (state.takePages around bounds store path depth verifier cookie) := by
  have hpositive := bounds.pageSize_pos
  have hnone : children bounds depth path [] = [] := by simp [children, subdirectories]
  -- by how much of the listing is left
  induction hleft : snapshot.listing.length - cookie using Nat.strong_induction_on
    generalizing cookie state with
  | _ left ih =>
      cases hloss : around.lost state.lookups with
      | true =>
          obtain ⟨htook, hevents⟩ :=
            took_lookUp_of_lost around.fresh store path.text verifier hloss
          rw [takePages_of_lost bounds store path depth cookie verifier hloss]
          rw [← hnone] at htook
          rw [← List.nil_append [Event.lost path.text]] at hevents
          exact .lost (List.nil_append _).symm htook hevents (List.forall_mem_nil _)
            (iff_of_true rfl rfl)
      | false =>
          obtain ⟨hfound, hstays, hlooked⟩ :=
            lookUp_of_kept path.text hloss hpeek around.fresh store
          obtain ⟨page, hpage⟩ :
              ∃ page, page = (snapshot.listing.drop cookie).take bounds.pageSize := ⟨_, rfl⟩
          obtain ⟨served, hserved⟩ := serves_takePage around bounds store path depth cookie page
            (state.lookUp around path.text verifier).2
          have hserves := (serves_lookUp path.text verifier hloss).trans hserved
          have htook := (hlooked.trans (served_takePage around bounds store path depth cookie page
            (state.lookUp around path.text verifier).2)).took
          rw [List.nil_append, Nat.zero_add] at htook
          rw [takePages_of_found hfound, ← hpage]
          dsimp only
          split
          · rename_i hlast
            have hall : page = snapshot.listing.drop cookie := by
              rw [hpage]
              refine List.take_of_length_le ?_
              rw [List.length_drop]
              omega
            generalize State.takePage around bounds store path depth cookie page _ = after
              at htook hserves ⊢
            rw [hall] at htook
            exact .all htook hserves
          · rename_i hmore
            have hfull : page ≠ [] := by
              rw [← List.length_pos_iff, hpage, List.length_take, List.length_drop]
              omega
            have hsplit : snapshot.listing.drop cookie =
                page ++ snapshot.listing.drop (cookie + bounds.pageSize) := by
              rw [hpage, ← List.drop_drop, List.take_append_drop]
            have hpeek' := (congrArg (fun verifiers => Recency.peek verifiers verifier)
              (State.verifiers_takePage around bounds store path depth cookie page
                (state.lookUp around path.text verifier).2)).trans hstays
            rw [hsplit]
            exact .page_append (children_append bounds depth path) hfull (List.cons_ne_nil _ _)
              htook hserves (ih _ (by omega) (cookie + bounds.pageSize) hpeek' rfl)

/-- The pages of a directory whose snapshot has just been taken. -/
theorem opened_paging (around : Surroundings ι σ) (bounds : Bounds) (store : σ) (path : Path)
    (depth : ℕ) (state : State ι σ) (listing : Listing) :
    Paging around.fresh store (children bounds depth path) path.text listing
      (state.opened path listing)
      ((state.opened path listing).takePages around bounds store path depth
        (fingerprint path.text listing) 0) :=
  takePages_paging bounds store path depth 0 (state.peek_opened path listing)

/-! ## The read of a directory -/

/-- After a loss the read starts over, or is given up. -/
theorem readDirectory_of_lost {bounds : Bounds} {store : σ} {path : Path} {depth : ℕ}
    {state after : State ι σ} {listing : Listing}
    (hread : around.readDir state.reads store path = .ok listing)
    (hpages : (state.opened path listing).takePages around bounds store path depth
      (fingerprint path.text listing) 0 = (false, after)) (restartsLeft : ℕ) :
    let counted : State ι σ := { after with
      totals := { after.totals with restarts := after.totals.restarts + 1 } }
    state.readDirectory around bounds store path depth restartsLeft =
      match restartsLeft with
      | 0 => (.ok (), counted)
      | restartsLeft + 1 =>
        counted.readDirectory around bounds store path depth restartsLeft := by
  rw [State.readDirectory, hread]
  dsimp only
  split
  · rename_i hserved
    cases hpages.symm.trans hserved
  · rename_i hlost
    cases hpages.symm.trans hlost
    rfl

/-- A step within a directory: more handles may have been minted, more may have been
logged, but no directory was entered. -/
structure Stays (before after : State ι σ) : Prop where
  minted : before.minted ≤ after.minted
  events : ∃ events, after.events = before.events ++ events ∧
    ∀ event ∈ events, event.entered? = none

protected theorem Stays.trans {before middle after : State ι σ} (hfirst : Stays before middle)
    (hsecond : Stays middle after) : Stays before after := by
  obtain ⟨events, hevents, hnone⟩ := hfirst.events
  obtain ⟨events', hevents', hnone'⟩ := hsecond.events
  refine ⟨hfirst.minted.trans hsecond.minted, events ++ events', ?_, ?_⟩
  · rw [hevents', hevents, List.append_assoc]
  · intro event hevent
    exact (List.mem_append.mp hevent).elim (hnone event) (hnone' event)

theorem Took.minted_le {fresh : ℕ → Handle} {store : σ} {children : List Path} {entries : ℕ}
    {before after : State ι σ} (htook : Took fresh store children entries before after) :
    before.minted ≤ after.minted := by
  have hminted := congrArg Frontier.minted htook.frontier
  rw [Frontier.minted_issueAll] at hminted
  exact (Nat.le_add_right _ _).trans_eq hminted.symm

theorem events_opened (path : Path) (listing : Listing) (state : State ι σ) :
    (state.opened path listing).events =
      state.events ++ [.read path.text listing (fingerprint path.text listing)] := by
  simp [State.opened, State.events, Server.verifierFor, Verifiers.snapshot]

theorem stays_opened (path : Path) (listing : Listing) (state : State ι σ) :
    Stays state (state.opened path listing) :=
  ⟨le_rfl, _, events_opened path listing state, by simp [Event.entered?]⟩

theorem Paging.stays {fresh : ℕ → Handle} {store : σ} {children : Listing → List Path}
    {directory : String} {left : Listing} {before after : State ι σ} {all : Bool}
    (hpaging : Paging fresh store children directory left before (all, after)) :
    Stays before after := by
  cases hpaging with
  | all htook hserves =>
      exact ⟨htook.minted_le, _, hserves.1, fun event hevent =>
        (Event.of_serves (hserves.2 event hevent)).2.2⟩
  | lost hsplit htook hevents hserves hunserved =>
      refine ⟨htook.minted_le, _, hevents, ?_⟩
      intro event hevent
      rcases List.mem_append.mp hevent with hserved | hlost
      · exact (Event.of_serves (hserves event hserved)).2.2
      · rw [List.mem_singleton.mp hlost]
        rfl

variable (around) in
theorem stays_readDirectory (bounds : Bounds) (store : σ) (path : Path) (depth restartsLeft : ℕ)
    (state : State ι σ) :
    Stays state (state.readDirectory around bounds store path depth restartsLeft).2 := by
  induction restartsLeft using Nat.strong_induction_on generalizing state with
  | _ restartsLeft ih =>
      cases hread : around.readDir state.reads store path with
      | error failure =>
          rw [State.readDirectory, hread]
          exact ⟨le_rfl, [], (List.append_nil _).symm, List.forall_mem_nil _⟩
      | ok listing =>
          have hpaging := opened_paging around bounds store path depth state listing
          rcases hpages : (state.opened path listing).takePages around bounds store path depth
            (fingerprint path.text listing) 0 with ⟨all, after⟩
          rw [hpages] at hpaging
          have hstays := (stays_opened path listing state).trans hpaging.stays
          cases all with
          | true =>
              rw [readDirectory_of_served hread hpages]
              exact hstays
          | false =>
              rw [readDirectory_of_lost hread hpages]
              have hcounted : Stays state { after with
                  totals := { after.totals with restarts := after.totals.restarts + 1 } } :=
                ⟨hstays.minted, hstays.events⟩
              cases restartsLeft with
              | zero => exact hcounted
              | succ fewer => exact hcounted.trans (ih fewer (Nat.lt_succ_self fewer) _)

/-- What comes of the read of a directory that is not given up: the parts of its listing
that came in before losses are taken `again`, and none came in exactly when each loss
was the loss of a first lookup. -/
structure Rereads (fresh : ℕ → Handle) (store : σ) (children : Listing → List Path)
    (listing again : Listing) (events : List Event) (before after : State ι σ) : Prop where
  took : Took fresh store (children (again ++ listing)) (again ++ listing).length before after
  repeats : Repeats listing (again ++ listing)
  logged : after.events = before.events ++ events
  starts : StartsUnlost events
  unread : again = [] ↔ LosesOnlyUnread events

/-- A part of the listing came in before the loss of a lookup, and then the read started
over. -/
theorem Rereads.restart {fresh : ℕ → Handle} {store : σ} {children : Listing → List Path}
    (hchildren : ∀ first second, children (first ++ second) = children first ++ children second)
    {directory : String} {listing : Listing} {verifier : Verifier} {part rest again : Listing}
    {served events : List Event} {before middle after : State ι σ}
    (hserves : ∀ event ∈ served, event.serves = true) (hunserved : part = [] ↔ served = [])
    (htook : Took fresh store (children part) part.length before middle)
    (hlogged : middle.events = before.events ++
      (.read directory listing verifier :: served ++ [.lost directory]))
    (hrereads : Rereads fresh store children (part ++ rest) again events middle after) :
    Rereads fresh store children (part ++ rest) (part ++ again)
      (.read directory listing verifier :: served ++ .lost directory :: events) before after where
  took := by
    have hboth := htook.trans hrereads.took
    rw [← hchildren, ← List.length_append, ← List.append_assoc] at hboth
    exact hboth
  repeats := by
    rw [List.append_assoc]
    exact .restart (.refl part) hrereads.repeats
  logged := by
    rw [hrereads.logged, hlogged, List.append_assoc, List.append_assoc, List.singleton_append]
  starts := by simp [StartsUnlost, Event.isLoss]
  unread := by
    rw [losesOnlyUnread_restart hserves hrereads.starts, List.append_eq_nil_iff, hunserved,
      hrereads.unread]

/-- **A read that starts over.**  A directory that always lists the same is read to its
end, unless more lookups are lost than there are restarts left. -/
theorem readDirectory_rereads (bounds : Bounds) {store : σ} {path : Path} {depth : ℕ}
    {listing : Listing} (hread : ∀ read, around.readDir read store path = .ok listing)
    {restartsLeft : ℕ} {state : State ι σ}
    (hlosses : (state.readDirectory around bounds store path depth restartsLeft).2.losses ≤
      state.losses + restartsLeft) :
    ∃ again events after,
      state.readDirectory around bounds store path depth restartsLeft = (.ok (), after) ∧
      Rereads around.fresh store (children bounds depth path) listing again events state after := by
  -- only after the pages does it matter whether a restart is left: hence strong induction
  induction restartsLeft using Nat.strong_induction_on generalizing state with
  | _ restartsLeft ih =>
      have hpaging := opened_paging around bounds store path depth state listing
      rcases hpages : (state.opened path listing).takePages around bounds store path depth
        (fingerprint path.text listing) 0 with ⟨all, after⟩
      rw [hpages] at hpaging
      have hopened := (served_opened around.fresh store path state listing).took
      have hread' := events_opened path listing state
      cases hpaging with
      | @all served _ htook hserves =>
          have htaken := hopened.trans htook
          rw [List.nil_append, Nat.zero_add] at htaken
          refine ⟨[], .read path.text listing (fingerprint path.text listing) :: served, after,
            readDirectory_of_served (hread _) hpages restartsLeft, ?_⟩
          refine ⟨htaken, .refl listing, ?_, by simp [StartsUnlost, Event.isLoss], ?_⟩
          · rw [hserves.1, hread', List.append_assoc, List.singleton_append]
          · refine iff_of_true rfl (losesOnlyUnread_of_forall ?_)
            intro event hevent
            rcases List.mem_cons.mp hevent with rfl | hserved
            · rfl
            · exact (Event.of_serves (hserves.2 event hserved)).1
      | @lost part rest served _ hsplit htook hevents hserves hunserved =>
          have htaken := hopened.trans htook
          rw [List.nil_append, Nat.zero_add] at htaken
          have hlogged : after.events = state.events ++
              (.read path.text listing (fingerprint path.text listing) :: served ++
                [.lost path.text]) := by
            rw [hevents, hread', List.append_assoc, List.singleton_append, List.cons_append]
          have hone : after.losses = state.losses + 1 := by
            have hnone : served.countP Event.isLoss = 0 := by
              refine List.countP_eq_zero.mpr fun event hevent => ?_
              rw [(Event.of_serves (hserves event hevent)).1]
              exact Bool.false_ne_true
            rw [State.losses_of_events hlogged, List.countP_append, List.countP_cons, hnone]
            rfl
          rw [readDirectory_of_lost (hread _) hpages] at hlosses ⊢
          cases restartsLeft with
          | zero =>
              -- more was lost than there are restarts
              have hmore : after.losses ≤ state.losses := hlosses
              omega
          | succ fewer =>
              have hcounted : Took around.fresh store (children bounds depth path part) part.length
                  state { after with
                    totals := { after.totals with restarts := after.totals.restarts + 1 } } :=
                ⟨htaken.frontier, htaken.directories, htaken.entries⟩
              -- one loss has used up one restart
              have hfewer : after.losses + fewer = state.losses + (fewer + 1) := by omega
              obtain ⟨again, events, final, hfinal, hrereads⟩ :=
                ih fewer (Nat.lt_succ_self fewer) (hlosses.trans_eq hfewer.symm)
              subst hsplit
              exact ⟨part ++ again, _, final, hfinal, hrereads.restart
                (children_append bounds depth path) hserves hunserved hcounted hlogged⟩

end Pages

end HandleTable.Walk
