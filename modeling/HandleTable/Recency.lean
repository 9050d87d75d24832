/-!
# A bounded map ordered by last use

A `Recency` holds at most `capacity` entries and lists them from the one used
longest ago to the one used last.  Inserting a key and getting it are uses;
peeking, changing a value in place and erasing are not.  When an insertion
would leave one entry too many, the entry at the front is evicted.

Both facts that every operation keeps are fields of the type: no key occurs
twice, and there are never more entries than the capacity.  The lemmas at the
end say what each operation does to the list of entries; later modules use
them instead of unfolding the operations.
-/

namespace HandleTable

/-- How many entries a bounded map may hold: a number that is never zero. -/
structure Capacity where
  val : Nat
  pos : 0 < val
deriving DecidableEq

/-- The capacity of a limit that may be zero: zero is raised to one. -/
def Capacity.ofLimit (limit : Nat) : Capacity :=
  ⟨max limit 1, by omega⟩

theorem Capacity.ofLimit_val {limit : Nat} (hlimit : 0 < limit) :
    (Capacity.ofLimit limit).val = limit := by
  simp [Capacity.ofLimit]
  omega

/-- A map of at most `capacity` entries, least recently used first. -/
structure Recency (κ ν : Type) where
  entries : List (κ × ν)
  capacity : Capacity
  keys_nodup : (entries.map Prod.fst).Nodup
  length_le : entries.length ≤ capacity.val

namespace Recency

variable {κ ν : Type}

theorem ext {first second : Recency κ ν} (hentries : first.entries = second.entries)
    (hcapacity : first.capacity = second.capacity) : first = second := by
  cases first
  cases second
  simp_all

/-- The map without entries. -/
def empty (capacity : Capacity) : Recency κ ν where
  entries := []
  capacity := capacity
  keys_nodup := by simp
  length_le := by simp

/-- The keys, least recently used first. -/
def keys (table : Recency κ ν) : List κ :=
  table.entries.map Prod.fst

/-- The number of entries held. -/
def size (table : Recency κ ν) : Nat :=
  table.entries.length

/-- The measures of a map, as they stand in diagnostics: contents do not show. -/
def measures (table : Recency κ ν) : List (String × String) :=
  [("len", toString table.size), ("capacity", toString table.capacity.val)]

variable [DecidableEq κ]

/-- The value of a key, which does not count as a use. -/
def peek (table : Recency κ ν) (key : κ) : Option ν :=
  table.entries.lookup key

/-- Whether a key is held, which does not count as a use. -/
def contains (table : Recency κ ν) (key : κ) : Bool :=
  (table.peek key).isSome

/-- The entries other than that of `key`. -/
def others (table : Recency κ ν) (key : κ) : List (κ × ν) :=
  table.entries.filter fun entry => entry.1 ≠ key

/-- The entries once `key` has been written with `value` as the last use, before
anything is evicted. -/
def refreshed (table : Recency κ ν) (key : κ) (value : ν) : List (κ × ν) :=
  table.others key ++ [(key, value)]

theorem others_sublist (table : Recency κ ν) (key : κ) :
    (table.others key).Sublist table.entries :=
  List.filter_sublist

theorem length_others_le (table : Recency κ ν) (key : κ) :
    (table.others key).length ≤ table.capacity.val :=
  Nat.le_trans (table.others_sublist key).length_le table.length_le

theorem nodup_keys_refreshed (table : Recency κ ν) (key : κ) (value : ν) :
    ((table.refreshed key value).map Prod.fst).Nodup := by
  have hothers : ((table.others key).map Prod.fst).Nodup :=
    ((table.others_sublist key).map Prod.fst).nodup table.keys_nodup
  have hnew : key ∉ (table.others key).map Prod.fst := by
    simp [others]
  simp only [refreshed, List.map_append, List.map_cons, List.map_nil]
  rw [List.nodup_append]
  refine ⟨hothers, by simp, ?_⟩
  intro first hfirst second hsecond hsame
  rw [List.mem_singleton] at hsecond
  rw [hsame, hsecond] at hfirst
  exact hnew hfirst

/-- Writes a key as the last use.  The second part is the entry evicted to make
room, if any: the one used longest ago. -/
def insert (table : Recency κ ν) (key : κ) (value : ν) : Recency κ ν × Option (κ × ν) :=
  if hroom : (table.refreshed key value).length ≤ table.capacity.val then
    (⟨table.refreshed key value, table.capacity, table.nodup_keys_refreshed key value, hroom⟩,
      none)
  else
    (⟨(table.refreshed key value).tail, table.capacity,
        (((List.tail_sublist _).map Prod.fst).nodup (table.nodup_keys_refreshed key value)), by
          have := table.length_others_le key
          simp only [refreshed, List.length_tail, List.length_append, List.length_cons,
            List.length_nil]
          omega⟩,
      (table.refreshed key value).head?)

/-- The value of a key.  A use of a key that is held writes back the value it
already has; a key that is not held changes nothing. -/
def get (table : Recency κ ν) (key : κ) : Option ν × Recency κ ν :=
  match table.peek key with
  | none => (none, table)
  | some value => (some value, (table.insert key value).1)

/-- Marks a key as used last and says whether it is held. -/
def touch (table : Recency κ ν) (key : κ) : Bool × Recency κ ν :=
  ((table.get key).1.isSome, (table.get key).2)

/-- Changes the value of a key in place, which does not count as a use. -/
def modify (table : Recency κ ν) (key : κ) (change : ν → ν) : Recency κ ν where
  entries := table.entries.map fun entry =>
    if entry.1 = key then (entry.1, change entry.2) else entry
  capacity := table.capacity
  keys_nodup := by
    have hkeys : (table.entries.map fun entry =>
        if entry.1 = key then (entry.1, change entry.2) else entry).map Prod.fst =
          table.entries.map Prod.fst := by
      rw [List.map_map]
      apply List.map_congr_left
      intro entry _
      simp only [Function.comp]
      split <;> rfl
    rw [hkeys]
    exact table.keys_nodup
  length_le := by simpa using table.length_le

/-- Drops a key. -/
def erase (table : Recency κ ν) (key : κ) : Recency κ ν where
  entries := table.others key
  capacity := table.capacity
  keys_nodup := ((table.others_sublist key).map Prod.fst).nodup table.keys_nodup
  length_le := table.length_others_le key

/-- Drops every entry for which `doomed` holds; the others keep their order. -/
def eraseWhere (table : Recency κ ν) (doomed : κ → ν → Bool) : Recency κ ν where
  entries := table.entries.filter fun entry => !doomed entry.1 entry.2
  capacity := table.capacity
  keys_nodup := (List.filter_sublist.map Prod.fst).nodup table.keys_nodup
  length_le := Nat.le_trans List.filter_sublist.length_le table.length_le

/-- Changes values in place where `change` says so; keys and order stay. -/
def mapValues (table : Recency κ ν) (change : ν → ν) : Recency κ ν where
  entries := table.entries.map fun entry => (entry.1, change entry.2)
  capacity := table.capacity
  keys_nodup := by simpa [Function.comp_def] using table.keys_nodup
  length_le := by simpa using table.length_le

/-! ## What is held, and where -/

omit [DecidableEq κ] in
@[simp] theorem entries_empty (capacity : Capacity) :
    (empty capacity : Recency κ ν).entries = [] := rfl

/-- A key that is held loses its old place when it is written again, so there is
room for it. -/
theorem length_refreshed_le {table : Recency κ ν} {key : κ} (hheld : table.contains key = true)
    (value : ν) : (table.refreshed key value).length ≤ table.capacity.val := by
  have hmem : ∃ entry ∈ table.entries, entry.1 = key := by
    simp only [contains, peek, List.lookup_isSome_iff, beq_iff_eq] at hheld
    obtain ⟨entry, hentry, hkey⟩ := hheld
    exact ⟨entry, hentry, hkey.symm⟩
  obtain ⟨entry, hentry, hkey⟩ := hmem
  have hshorter : (table.others key).length < table.entries.length := by
    apply List.length_filter_lt_length_iff_exists.mpr
    exact ⟨entry, hentry, by simp [hkey]⟩
  have := table.length_le
  simp only [refreshed, List.length_append, List.length_cons, List.length_nil]
  omega

/-- Overwriting a key that is held evicts nothing. -/
theorem insert_of_contains {table : Recency κ ν} {key : κ} (hheld : table.contains key = true)
    (value : ν) :
    (table.insert key value).1.entries = table.refreshed key value ∧
      (table.insert key value).2 = none := by
  simp [insert, length_refreshed_le hheld value]

theorem entries_insert (table : Recency κ ν) (key : κ) (value : ν) :
    (table.insert key value).1.entries =
      if (table.refreshed key value).length ≤ table.capacity.val then table.refreshed key value
      else (table.refreshed key value).tail := by
  unfold insert
  split <;> simp_all

@[simp] theorem capacity_insert (table : Recency κ ν) (key : κ) (value : ν) :
    (table.insert key value).1.capacity = table.capacity := by
  unfold insert
  split <;> rfl

@[simp] theorem capacity_get (table : Recency κ ν) (key : κ) :
    (table.get key).2.capacity = table.capacity := by
  unfold get
  split <;> simp

/-- A key that is held is moved to the back by a use, its value unchanged. -/
theorem entries_get {table : Recency κ ν} {key : κ} {value : ν}
    (hpeek : table.peek key = some value) :
    (table.get key).2.entries = table.refreshed key value := by
  have hheld : table.contains key = true := by simp [contains, hpeek]
  simp [get, hpeek, (insert_of_contains hheld value).1]

theorem get_fst (table : Recency κ ν) (key : κ) : (table.get key).1 = table.peek key := by
  unfold get
  split <;> simp_all

theorem lookup_others (table : Recency κ ν) (key other : κ) :
    (table.others key).lookup other = if other = key then none else table.peek other := by
  have hlookup : ∀ entries : List (κ × ν),
      (entries.filter fun entry => entry.1 ≠ key).lookup other =
        if other = key then none else entries.lookup other := by
    intro entries
    induction entries with
    | nil => simp
    | cons entry rest ih =>
        obtain ⟨name, content⟩ := entry
        by_cases hname : name = key
        · by_cases hsame : other = key
          · simpa [hname, hsame] using ih
          · have hdiffers : (other == key) = false := by simp [hsame]
            simpa [hname, hsame, List.lookup_cons, hdiffers] using ih
        · by_cases hother : other = name
          · simp [hname, hother]
          · have hdiffers : (other == name) = false := by simp [hother]
            simpa [hname, List.lookup_cons, hdiffers] using ih
  exact hlookup table.entries

/-- Only one more entry stands for a written key: the new one. -/
theorem lookup_refreshed (table : Recency κ ν) (key : κ) (value : ν) (other : κ) :
    (table.refreshed key value).lookup other =
      if other = key then some value else table.peek other := by
  rw [refreshed, List.lookup_append, lookup_others]
  by_cases hsame : other = key
  · simp [hsame]
  · have hdiffers : (other == key) = false := by simp [hsame]
    simp [hsame, List.lookup_cons, hdiffers]

/-- What has just been written is never what is evicted. -/
theorem peek_insert_self (table : Recency κ ν) (key : κ) (value : ν) :
    (table.insert key value).1.peek key = some value := by
  have hwritten : (table.refreshed key value).lookup key = some value := by
    simp [lookup_refreshed]
  unfold peek
  rw [entries_insert]
  split
  · exact hwritten
  · rename_i hfull
    have hpositive := table.capacity.pos
    cases hothers : table.others key with
    | nil =>
        simp [refreshed, hothers] at hfull
        omega
    | cons oldest rest =>
        obtain ⟨name, content⟩ := oldest
        have hmem : (name, content) ∈ table.others key := by simp [hothers]
        have hname : name ≠ key := by simpa [others] using (List.mem_filter.mp hmem).2
        have hdiffers : (key == name) = false := by simp [hname.symm]
        simpa [refreshed, hothers, List.lookup_cons, hdiffers] using hwritten

/-- An erased key is gone, and the others hold what they held. -/
theorem peek_erase (table : Recency κ ν) (key other : κ) :
    (table.erase key).peek other = if other = key then none else table.peek other :=
  table.lookup_others key other

/-- Changing values in place changes what every key holds, and nothing else. -/
theorem peek_mapValues (table : Recency κ ν) (change : ν → ν) (key : κ) :
    (table.mapValues change).peek key = (table.peek key).map change := by
  have hlookup : ∀ entries : List (κ × ν),
      (entries.map fun entry => (entry.1, change entry.2)).lookup key =
        (entries.lookup key).map change := by
    intro entries
    induction entries with
    | nil => rfl
    | cons entry rest ih =>
        obtain ⟨name, content⟩ := entry
        simp only [List.map_cons, List.lookup_cons]
        split
        · rfl
        · exact ih
  exact hlookup table.entries

theorem peek_get (table : Recency κ ν) (key other : κ) :
    (table.get key).2.peek other = table.peek other := by
  cases hpeek : table.peek key with
  | none => simp [get, hpeek]
  | some value =>
      have hentries := entries_get hpeek
      unfold peek at hpeek ⊢
      rw [hentries, lookup_refreshed]
      split
      · rename_i hsame
        rw [hsame, hpeek]
      · rfl

end Recency

end HandleTable
