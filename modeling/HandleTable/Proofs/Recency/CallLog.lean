import HandleTable.Proofs.Recency.Order

/-!
# A bounded map and the log of its calls

What a bounded map holds, and in which order, can be read off a log of the calls
made to it and of the answers that it gave, without a map.

* `lastUse calls key` is the step of the last use of a key: the last call that
  wrote it, or that touched or got it and found it.  Steps are counted from one,
  and zero stands for no use at all.
* `recorded calls key` is what stands under a key: the value last written by an
  insertion or changed in place, as long as the key has since been neither erased
  nor answered as evicted.

`Reflects calls table` says that the map holds exactly what is recorded and lists
the keys strictly by their last use.  One call keeps this (`Reflects.perform`): it
either moves one key to the end, which is then the one used last, or it uses no
key and leaves the others in their order (`keys_perform`).
-/

namespace HandleTable.Recency

variable {κ ν : Type}

/-! ## Calls -/

/-- One request to a map. -/
inductive Request (κ ν : Type) where
  | insert (key : κ) (value : ν)
  | touch (key : κ)
  | get (key : κ)
  | peek (key : κ)
  | modify (key : κ) (change : ν → ν)
  | erase (key : κ)
  | contains (key : κ)

/-- The key that a request is about. -/
def Request.key : Request κ ν → κ
  | .insert key _ => key
  | .touch key => key
  | .get key => key
  | .peek key => key
  | .modify key _ => key
  | .erase key => key
  | .contains key => key

/-- What the map answers: the entry that it evicted, whether it holds a key, or the
value that it found. -/
inductive Answer (κ ν : Type) where
  | evicted (entry : Option (κ × ν))
  | held (whether : Bool)
  | found (value : Option ν)

/-- A request together with its answer. -/
abbrev Call (κ ν : Type) := Request κ ν × Answer κ ν

variable [DecidableEq κ]

/-- Answers one request.  Changing in place and erasing answer what was there before. -/
def perform (table : Recency κ ν) : Request κ ν → Answer κ ν × Recency κ ν
  | .insert key value => (.evicted (table.insert key value).2, (table.insert key value).1)
  | .touch key => (.held (table.touch key).1, (table.touch key).2)
  | .get key => (.found (table.get key).1, (table.get key).2)
  | .peek key => (.found (table.peek key), table)
  | .modify key change => (.found (table.peek key), table.modify key change)
  | .erase key => (.found (table.peek key), table.erase key)
  | .contains key => (.held (table.contains key), table)

/-- The map after a list of requests. -/
def serve (table : Recency κ ν) (requests : List (Request κ ν)) : Recency κ ν :=
  requests.foldl (fun current request => (current.perform request).2) table

/-- The requests with the answers that they get, in order. -/
def log (table : Recency κ ν) : List (Request κ ν) → List (Call κ ν)
  | [] => []
  | request :: rest => (request, (table.perform request).1) :: log (table.perform request).2 rest

theorem serve_append_singleton (table : Recency κ ν) (requests : List (Request κ ν))
    (request : Request κ ν) :
    table.serve (requests ++ [request]) = ((table.serve requests).perform request).2 := by
  simp [serve]

theorem log_append_singleton (table : Recency κ ν) (requests : List (Request κ ν))
    (request : Request κ ν) :
    table.log (requests ++ [request]) =
      table.log requests ++ [(request, ((table.serve requests).perform request).1)] := by
  induction requests generalizing table with
  | nil => rfl
  | cons first rest ih => exact congrArg (List.cons _) (ih (table.perform first).2)

/-- A request about a key that is not held changes nothing, unless it inserts the key. -/
theorem perform_snd_of_absent {table : Recency κ ν} {request : Request κ ν}
    (habsent : request.key ∉ table.keys) (hinsert : ∀ key value, request ≠ .insert key value) :
    (table.perform request).2 = table := by
  have hothers : ∀ entry ∈ table.entries, entry.1 ≠ request.key := by
    intro entry hentry hsame
    exact habsent (hsame ▸ List.mem_map_of_mem hentry)
  have hpeek : table.peek request.key = none := peek_eq_none_iff.mpr habsent
  cases request with
  | insert key value => exact absurd rfl (hinsert key value)
  | touch key => simp [perform, touch, get, show table.peek key = none from hpeek]
  | get key => simp [perform, get, show table.peek key = none from hpeek]
  | peek key => rfl
  | modify key change =>
      refine ext ?_ rfl
      refine (List.map_congr_left fun entry hentry => ?_).trans (List.map_id table.entries)
      exact if_neg (hothers entry hentry)
  | erase key =>
      refine ext (List.filter_eq_self.mpr fun entry hentry => ?_) rfl
      exact decide_eq_true (hothers entry hentry)
  | contains key => rfl

/-! ## What a log says -/

/-- The key that a call uses: one that it writes, or that it touches or gets and
finds. -/
def usedKey? : Call κ ν → Option κ
  | (.insert key _, _) => some key
  | (.touch key, .held true) => some key
  | (.get key, .found (some _)) => some key
  | _ => none

/-- The step of the last use of a key, zero when it was never used. -/
def lastUse (calls : List (Call κ ν)) (key : κ) : ℕ :=
  (calls.rdropWhile fun call => usedKey? call ≠ some key).length

/-- What stands under a key after a call, when `standing` stood there before. -/
def record (key : κ) (standing : Option ν) : Call κ ν → Option ν
  | (.insert written value, .evicted gone) =>
    if gone.map Prod.fst = some key then none
    else if key = written then some value else standing
  | (.modify changed change, _) => if changed = key then standing.map change else standing
  | (.erase dropped, _) => if key = dropped then none else standing
  | _ => standing

/-- What stands under a key: the value last written or changed there, if the key has
since been neither erased nor evicted. -/
def recorded (calls : List (Call κ ν)) (key : κ) : Option ν :=
  calls.foldl (record key) none

theorem lastUse_le_length (calls : List (Call κ ν)) (key : κ) : lastUse calls key ≤ calls.length :=
  (List.rdropWhile_prefix _ _).length_le

theorem lastUse_append_of_used {calls : List (Call κ ν)} {call : Call κ ν} {key : κ}
    (hused : usedKey? call = some key) : lastUse (calls ++ [call]) key = calls.length + 1 := by
  rw [lastUse, List.rdropWhile_concat_neg _ _ _ (by simp [hused]), List.length_append,
    List.length_singleton]

theorem lastUse_append_of_not_used {calls : List (Call κ ν)} {call : Call κ ν} {key : κ}
    (hused : usedKey? call ≠ some key) : lastUse (calls ++ [call]) key = lastUse calls key := by
  rw [lastUse, List.rdropWhile_concat_pos _ _ _ (by simpa using hused), lastUse]

theorem recorded_append_singleton (calls : List (Call κ ν)) (call : Call κ ν) (key : κ) :
    recorded (calls ++ [call]) key = record key (recorded calls key) call := by
  simp [recorded]

/-! ## What a call does -/

/-- Everything that a call can do to the order: it moves the key that it uses to the
end, where the front is cut off if there are too many, or it uses no key and at
most takes one out. -/
theorem keys_perform (table : Recency κ ν) (request : Request κ ν) :
    (∃ key, usedKey? (request, (table.perform request).1) = some key ∧
      (table.perform request).2.keys =
        (table.keys.erase key ++ [key]).rtake table.capacity.val) ∨
    (usedKey? (request, (table.perform request).1) = none ∧
      (table.perform request).2.keys.Sublist table.keys) := by
  -- touching and getting use the key exactly when it is held
  have hget : ∀ key, (∃ value, table.peek key = some value ∧
      (table.get key).2.keys = (table.keys.erase key ++ [key]).rtake table.capacity.val) ∨
      (table.peek key = none ∧ (table.get key).2 = table) := by
    intro key
    cases hpeek : table.peek key with
    | none => exact Or.inr ⟨rfl, by simp [get, hpeek]⟩
    | some value => exact Or.inl ⟨value, rfl, by rw [get_snd_of_peek hpeek, keys_insert]⟩
  cases request with
  | insert key value => exact Or.inl ⟨key, rfl, keys_insert table key value⟩
  | touch key =>
      rcases hget key with ⟨value, hpeek, hkeys⟩ | ⟨hpeek, hsame⟩
      · exact Or.inl ⟨key, by simp [perform, touch, get_fst, hpeek, usedKey?], hkeys⟩
      · refine Or.inr ⟨by simp [perform, touch, get_fst, hpeek, usedKey?], ?_⟩
        simp [perform, touch, hsame]
  | get key =>
      rcases hget key with ⟨value, hpeek, hkeys⟩ | ⟨hpeek, hsame⟩
      · exact Or.inl ⟨key, by simp [perform, get_fst, hpeek, usedKey?], hkeys⟩
      · refine Or.inr ⟨by simp [perform, get_fst, hpeek, usedKey?], ?_⟩
        simp [perform, hsame]
  | peek key => exact Or.inr ⟨rfl, List.Sublist.refl _⟩
  | modify key change =>
      refine Or.inr ⟨rfl, ?_⟩
      rw [perform, keys_modify]
  | erase key => exact Or.inr ⟨rfl, table.keys_erase_sublist key⟩
  | contains key => exact Or.inr ⟨rfl, List.Sublist.refl _⟩

theorem capacity_serve (table : Recency κ ν) (requests : List (Request κ ν)) :
    (table.serve requests).capacity = table.capacity := by
  induction requests generalizing table with
  | nil => rfl
  | cons request rest ih =>
      have hone : (table.perform request).2.capacity = table.capacity := by
        cases request with
        | insert key value => exact table.capacity_insert key value
        | touch key => exact table.capacity_get key
        | get key => exact table.capacity_get key
        | peek key => rfl
        | modify key change => rfl
        | erase key => rfl
        | contains key => rfl
      exact (ih (table.perform request).2).trans hone

/-- Everything that a call can do to the answers is what the log records of it. -/
theorem peek_perform (table : Recency κ ν) (request : Request κ ν) (key : κ) :
    (table.perform request).2.peek key =
      record key (table.peek key) (request, (table.perform request).1) := by
  cases request with
  | insert written value => exact table.peek_insert written value key
  | touch used => exact table.peek_get used key
  | get used => exact table.peek_get used key
  | peek seen => rfl
  | modify changed change => exact table.peek_modify changed change key
  | erase dropped => exact table.peek_erase dropped key
  | contains seen => rfl

/-- The map holds exactly what the log records, and lists the keys strictly by the
step of their last use. -/
structure Reflects (calls : List (Call κ ν)) (table : Recency κ ν) : Prop where
  value : ∀ key, table.peek key = recorded calls key
  order : table.keys.Pairwise fun older newer => lastUse calls older < lastUse calls newer

theorem reflects_empty (capacity : Capacity) :
    Reflects [] (.empty capacity : Recency κ ν) where
  value _ := rfl
  order := List.Pairwise.nil

namespace Reflects

variable {calls : List (Call κ ν)} {table : Recency κ ν}

protected theorem perform (hreflects : Reflects calls table) (request : Request κ ν) :
    Reflects (calls ++ [(request, (table.perform request).1)]) (table.perform request).2 where
  value key := by
    rw [peek_perform, recorded_append_singleton, hreflects.value]
  order := by
    -- keys that the call does not use keep their last use and hence their order
    have hkept : ∀ keys : List κ, keys.Sublist table.keys →
        (∀ key ∈ keys, usedKey? (request, (table.perform request).1) ≠ some key) →
        keys.Pairwise fun older newer =>
          lastUse (calls ++ [(request, (table.perform request).1)]) older <
            lastUse (calls ++ [(request, (table.perform request).1)]) newer := by
      intro keys hkeys hunused
      refine (hreflects.order.sublist hkeys).imp_of_mem ?_
      intro older newer holder hnewer hbefore
      rwa [lastUse_append_of_not_used (hunused older holder),
        lastUse_append_of_not_used (hunused newer hnewer)]
    rcases table.keys_perform request with ⟨key, hused, hkeys⟩ | ⟨hnone, hkeys⟩
    · have hnodup : table.keys.Nodup := table.keys_nodup
      have hothers : ∀ other ∈ table.keys.erase key,
          usedKey? (request, (table.perform request).1) ≠ some other := by
        intro other hother hsame
        rw [hused, Option.some_inj] at hsame
        exact hnodup.not_mem_erase (hsame ▸ hother)
      rw [hkeys]
      refine List.Pairwise.sublist (rtake_suffix _ _).sublist ?_
      refine List.pairwise_append.mpr ⟨hkept _ List.erase_sublist hothers,
        List.pairwise_singleton _ _, ?_⟩
      -- the used key comes after all others, whose last uses are earlier steps
      intro older holder newer hnewer
      rw [List.mem_singleton.mp hnewer, lastUse_append_of_used hused,
        lastUse_append_of_not_used (hothers older holder)]
      exact Nat.lt_succ_of_le (lastUse_le_length calls older)
    · exact hkept _ hkeys (by simp [hnone])

/-- What an insertion evicts is not the entry that it inserts, and was last used before
all other entries. -/
theorem oldest_of_insert_snd (hreflects : Reflects calls table) {key : κ} {value : ν}
    {evicted : κ × ν} (hevicted : (table.insert key value).2 = some evicted) :
    evicted ∈ table.entries ∧ evicted.1 ≠ key ∧
      ∀ other ∈ table.entries, other ≠ evicted →
        lastUse calls evicted.1 < lastUse calls other.1 := by
  rw [insert_snd] at hevicted
  split at hevicted
  · rename_i hfull
    obtain ⟨rest, hentries⟩ := List.head?_eq_some_iff.mp hevicted
    have horder := hreflects.order
    rw [keys, hentries, List.map_cons, List.pairwise_cons] at horder
    rw [hentries]
    refine ⟨List.mem_cons_self, ?_, ?_⟩
    · rintro rfl
      exact hfull.1 (by rw [keys, hentries]; exact List.mem_cons_self)
    · intro other hother hdiffers
      have hrest := (List.mem_cons.mp hother).resolve_left hdiffers
      exact horder.1 other.1 (List.mem_map_of_mem hrest)
  · contradiction

theorem serve (capacity : Capacity) (requests : List (Request κ ν)) :
    Reflects (log (.empty capacity) requests) (Recency.serve (.empty capacity) requests) := by
  induction requests using List.reverseRecOn with
  | nil => exact reflects_empty capacity
  | append_singleton requests request ih =>
      rw [log_append_singleton, serve_append_singleton]
      exact ih.perform request

end Reflects

/-- **The map evicts the key used longest ago.**  After any requests to an empty map,
compared with the log of its calls: no key stands twice and there are no more
entries than the capacity; the entries are what the log records, strictly ordered
by the step of their last use.  An insertion evicts exactly when the key is new and
the map is full, and then the entry, as it stands, whose last use is the earliest of
all, which is not the one inserted.  A touch or a get succeeds exactly when the key
is recorded.  Peeking, asking and changing in place leave the order alone, and so
does every request about an absent key other than its insertion. -/
theorem entries_ordered_by_last_use (capacity : Capacity) (requests : List (Request κ ν)) :
    let table := serve (.empty capacity) requests
    let calls := log (.empty capacity) requests
    (table.keys.Nodup ∧ table.size ≤ capacity.val) ∧
    ((∀ key value, (key, value) ∈ table.entries ↔ recorded calls key = some value) ∧
      table.entries.Pairwise fun older newer =>
        lastUse calls older.1 < lastUse calls newer.1) ∧
    (∀ key value,
      ((table.insert key value).2.isSome ↔ key ∉ table.keys ∧ table.size = capacity.val) ∧
      ∀ evicted, (table.insert key value).2 = some evicted →
        evicted ∈ table.entries ∧ evicted.1 ≠ key ∧
          ∀ other ∈ table.entries, other ≠ evicted →
            lastUse calls evicted.1 < lastUse calls other.1) ∧
    (∀ key, (table.perform (.touch key)).1 = .held (recorded calls key).isSome ∧
      (table.perform (.get key)).1 = .found (recorded calls key)) ∧
    (∀ key change, (table.perform (.peek key)).2.keys = table.keys ∧
      (table.perform (.contains key)).2.keys = table.keys ∧
      (table.perform (.modify key change)).2.keys = table.keys) ∧
    ∀ request, request.key ∉ table.keys → (∀ key value, request ≠ .insert key value) →
      (table.perform request).2.keys = table.keys := by
  intro table calls
  have hreflects : Reflects calls table := .serve capacity requests
  have hcapacity : table.capacity = capacity := capacity_serve _ requests
  have horder : table.entries.Pairwise fun older newer =>
      lastUse calls older.1 < lastUse calls newer.1 := by
    have hkeys := hreflects.order
    rwa [keys, List.pairwise_map] at hkeys
  refine ⟨⟨table.keys_nodup, hcapacity ▸ table.length_le⟩, ⟨?_, horder⟩, ?_, ?_, ?_, ?_⟩
  · intro key value
    rw [← hreflects.value, peek_eq_some_iff]
  · intro key value
    refine ⟨?_, fun evicted hevicted => hreflects.oldest_of_insert_snd hevicted⟩
    rw [isSome_insert_snd_iff, hcapacity]
  · intro key
    rw [← hreflects.value]
    simp only [perform, touch, get_fst, and_self]
  · intro key change
    exact ⟨rfl, rfl, table.keys_modify key change⟩
  · intro request habsent hinsert
    rw [perform_snd_of_absent habsent hinsert]

/-- A key that is got is used; one that is peeked at is not, and is evicted next. -/
example :
    let requests : List (Request Char ℕ) := [.insert 'a' 1, .insert 'b' 2, .get 'a', .peek 'b']
    let calls := log (.empty ⟨2, by decide⟩) requests
    lastUse calls 'a' = 3 ∧ lastUse calls 'b' = 2 ∧
      ((serve (.empty ⟨2, by decide⟩) requests).insert 'c' 3).2 = some ('b', 2) := by
  decide

end HandleTable.Recency
