import Mathlib

/-!
# Dictionaries

A hash map is modelled by an association list with distinct keys.  The list
order stands for the map's iteration order, which a program may observe but
must not rely on; the map itself, without the order, is the `Finmap` of the
list.  A hash set is a dictionary of units.

This file collects what programs do with such maps beyond Mathlib's `AList`
interface: reading all values, dropping entries by a predicate, weighing the values,
and loading a list of entries into an existing map.
-/

namespace HiveGuard.Library.Dictionary

universe u v

/-- A hash map in some iteration order. -/
abbrev Dict (K : Type u) (V : Type v) : Type (max u v) :=
  AList fun _ : K => V

/-- A hash map without an iteration order. -/
abbrev Map (K : Type u) (V : Type v) : Type (max u v) :=
  Finmap fun _ : K => V

variable {K : Type u} {V : Type v}

/-- Forget the iteration order. -/
def toMap (dict : Dict K V) : Map K V :=
  dict.toFinmap

def values (dict : Dict K V) : List V :=
  dict.entries.map Sigma.snd

variable [DecidableEq K]

@[simp]
theorem lookup_toMap (key : K) (dict : Dict K V) :
    (toMap dict).lookup key = dict.lookup key :=
  Finmap.lookup_toFinmap key dict

@[simp]
theorem toMap_insert (key : K) (value : V) (dict : Dict K V) :
    toMap (dict.insert key value) = (toMap dict).insert key value :=
  (Finmap.insert_toFinmap (β := fun _ : K => V) key value dict).symm

@[simp]
theorem toMap_erase (key : K) (dict : Dict K V) :
    toMap (dict.erase key) = (toMap dict).erase key :=
  (Finmap.erase_toFinmap key dict).symm

/-- Two dictionaries hold the same map when all lookups agree. -/
theorem toMap_ext {first second : Dict K V}
    (agree : ∀ key, first.lookup key = second.lookup key) : toMap first = toMap second :=
  Finmap.ext_lookup fun key => by simpa using agree key

theorem lookup_insert (dict : Dict K V) (key probe : K) (value : V) :
    (dict.insert key value).lookup probe =
      if probe = key then some value else dict.lookup probe := by
  by_cases same : probe = key
  · subst probe
    simp
  · rw [AList.lookup_insert_ne same, if_neg same]

theorem lookup_erase (dict : Dict K V) (key probe : K) :
    (dict.erase key).lookup probe = if probe = key then none else dict.lookup probe := by
  by_cases same : probe = key
  · subst probe
    simp
  · rw [AList.lookup_erase_ne same, if_neg same]

theorem map_lookup_insert (map : Map K V) (key probe : K) (value : V) :
    (map.insert key value).lookup probe = if probe = key then some value else map.lookup probe := by
  by_cases same : probe = key
  · subst probe
    simp
  · rw [Finmap.lookup_insert_of_ne map same, if_neg same]

theorem map_lookup_erase (map : Map K V) (key probe : K) :
    (map.erase key).lookup probe = if probe = key then none else map.lookup probe := by
  by_cases same : probe = key
  · subst probe
    simp
  · rw [Finmap.lookup_erase_ne same, if_neg same]

theorem mem_entries_iff {dict : Dict K V} {key : K} {value : V} :
    Sigma.mk key value ∈ dict.entries ↔ dict.lookup key = some value := by
  rw [← AList.mem_lookup_iff, Option.mem_def]

theorem mem_values_iff {dict : Dict K V} {value : V} :
    value ∈ values dict ↔ ∃ key, dict.lookup key = some value := by
  simp only [values, List.mem_map]
  constructor
  · rintro ⟨⟨key, stored⟩, member, rfl⟩
    exact ⟨key, mem_entries_iff.mp member⟩
  · rintro ⟨key, found⟩
    exact ⟨⟨key, value⟩, mem_entries_iff.mpr found, rfl⟩

theorem mem_keys_iff {dict : Dict K V} {key : K} :
    key ∈ dict.keys ↔ ∃ value, dict.lookup key = some value := by
  rw [← AList.mem_keys, ← AList.lookup_isSome, Option.isSome_iff_exists]

/-! ## Counting keys -/

theorem countP_keys_insert_of_mem {dict : Dict K V} {key : K} (present : key ∈ dict)
    (value : V) (test : K → Bool) :
    (dict.insert key value).keys.countP test = dict.keys.countP test := by
  rw [AList.keys_insert]
  exact (List.perm_cons_erase (AList.mem_keys.mp present)).countP_eq test |>.symm

theorem countP_keys_insert_of_notMem {dict : Dict K V} {key : K} (absent : key ∉ dict)
    (value : V) (test : K → Bool) :
    (dict.insert key value).keys.countP test =
      dict.keys.countP test + if test key then 1 else 0 := by
  rw [AList.keys_insert, List.erase_of_not_mem absent, List.countP_cons]

theorem countP_keys_erase_of_mem {dict : Dict K V} {key : K} (present : key ∈ dict)
    (test : K → Bool) :
    (dict.erase key).keys.countP test = dict.keys.countP test - if test key then 1 else 0 := by
  rw [AList.keys_erase, List.countP_erase]
  simp [AList.mem_keys.mp present]

theorem erase_of_notMem {dict : Dict K V} {key : K} (absent : key ∉ dict) :
    (dict.erase key).keys = dict.keys := by
  rw [AList.keys_erase, List.erase_of_not_mem absent]

/-! ## Dropping entries -/

/-- Keep the entries that satisfy a predicate. -/
def retain (keep : K → V → Bool) (dict : Dict K V) : Dict K V where
  entries := dict.entries.filter fun entry => keep entry.1 entry.2
  nodupKeys := dict.nodupKeys.sublist List.filter_sublist

theorem lookup_retain (keep : K → V → Bool) (dict : Dict K V) (key : K) :
    (retain keep dict).lookup key = (dict.lookup key).filter (keep key) := by
  apply Option.ext
  intro value
  rw [Option.filter_eq_some_iff, ← mem_entries_iff, ← mem_entries_iff]
  simp [retain]

/-! ## Changing all values -/

def mapValues {W : Type v} (change : V → W) (dict : Dict K V) : Dict K W where
  entries := dict.entries.map fun entry => ⟨entry.1, change entry.2⟩
  nodupKeys := by
    rw [List.NodupKeys, List.keys, List.map_map]
    exact dict.nodupKeys

theorem lookup_mapValues {W : Type v} (change : V → W) (dict : Dict K V) (key : K) :
    (mapValues change dict).lookup key = (dict.lookup key).map change := by
  apply Option.ext
  intro value
  simp only [Option.map_eq_some_iff, ← mem_entries_iff, mapValues, List.mem_map]
  constructor
  · rintro ⟨⟨stored, old⟩, member, same⟩
    cases same
    exact ⟨old, member, rfl⟩
  · rintro ⟨old, member, rfl⟩
    exact ⟨⟨key, old⟩, member, rfl⟩

/-! ## Weighing the values -/

/-- The weights of all values together. -/
def total (weight : V → Nat) (dict : Dict K V) : Nat :=
  ((values dict).map weight).sum

/-- Inserting a value puts its weight in the place of that of the value it replaces. -/
theorem total_insert (weight : V → Nat) (dict : Dict K V) (key : K) (value : V) :
    total weight (dict.insert key value) + ((dict.lookup key).map weight).getD 0 =
      total weight dict + weight value := by
  have entries_eq : (dict.insert key value).entries =
      ⟨key, value⟩ :: List.kerase key dict.entries := rfl
  simp only [total, values, entries_eq, List.map_cons, List.sum_cons]
  by_cases present : key ∈ dict
  · rcases List.exists_of_kerase (AList.mem_keys.mp present) with
      ⟨old, before, behind, -, whole_eq, rest_eq⟩
    have found : dict.lookup key = some old := by
      rw [← mem_entries_iff, whole_eq]
      simp
    rw [found, rest_eq, whole_eq]
    simp only [List.map_append, List.map_cons, List.sum_append, List.sum_cons,
      Option.map_some, Option.getD_some]
    omega
  · have absent : dict.lookup key = none := AList.lookup_eq_none.mpr present
    rw [absent, List.kerase_of_notMem_keys (mt AList.mem_keys.mpr present)]
    simp only [Option.map_none, Option.getD_none]
    omega

omit [DecidableEq K] in
theorem total_retain_le (weight : V → Nat) (keep : K → V → Bool) (dict : Dict K V) :
    total weight (retain keep dict) ≤ total weight dict := by
  have kept : (retain keep dict).entries.Sublist dict.entries := List.filter_sublist
  exact ((kept.map _).map weight).sum_le_sum fun _ _ => Nat.zero_le _

omit [DecidableEq K] in
theorem total_mapValues_le {W : Type v} {weight : V → Nat} {newWeight : W → Nat}
    {change : V → W} (lighter : ∀ value, newWeight (change value) ≤ weight value)
    (dict : Dict K V) : total newWeight (mapValues change dict) ≤ total weight dict := by
  simp only [total, values, mapValues, List.map_map]
  exact List.sum_le_sum fun entry _ => lighter entry.2

omit [DecidableEq K] in
theorem keys_retain_sublist (keep : K → V → Bool) (dict : Dict K V) :
    (retain keep dict).keys.Sublist dict.keys := by
  have kept : (retain keep dict).entries.Sublist dict.entries := List.filter_sublist
  exact kept.map Sigma.fst

omit [DecidableEq K] in
theorem keys_mapValues {W : Type v} (change : V → W) (dict : Dict K V) :
    (mapValues change dict).keys = dict.keys := by
  simp [AList.keys, List.keys, mapValues]

theorem length_keys_insert_of_mem {dict : Dict K V} {key : K} (present : key ∈ dict)
    (value : V) : (dict.insert key value).keys.length = dict.keys.length := by
  rw [AList.keys_insert]
  exact (List.perm_cons_erase (AList.mem_keys.mp present)).length_eq.symm

theorem length_keys_insert_of_notMem {dict : Dict K V} {key : K} (absent : key ∉ dict)
    (value : V) : (dict.insert key value).keys.length = dict.keys.length + 1 := by
  rw [AList.keys_insert, List.erase_of_not_mem absent, List.length_cons]

/-! ## Loading a list of entries -/

def insertAll (dict : Dict K V) (entries : List (Sigma fun _ : K => V)) : Dict K V :=
  entries.foldl (fun loaded entry => loaded.insert entry.1 entry.2) dict

@[simp]
theorem insertAll_nil (dict : Dict K V) : insertAll dict [] = dict :=
  rfl

@[simp]
theorem insertAll_cons (dict : Dict K V) (entry : Sigma fun _ : K => V)
    (entries : List (Sigma fun _ : K => V)) :
    insertAll dict (entry :: entries) = insertAll (dict.insert entry.1 entry.2) entries :=
  rfl

/-- Loading entries with distinct keys overrides the map on exactly these
keys. -/
theorem lookup_insertAll {entries : List (Sigma fun _ : K => V)}
    (distinct : entries.NodupKeys) (dict : Dict K V) (key : K) :
    (insertAll dict entries).lookup key = (entries.dlookup key).or (dict.lookup key) := by
  induction entries generalizing dict with
  | nil => simp
  | cons entry entries ih =>
    obtain ⟨entryKey, value⟩ := entry
    have fresh := (List.nodupKeys_cons.mp distinct).1
    rw [insertAll_cons, ih (List.nodupKeys_cons.mp distinct).2,
      lookup_insert]
    by_cases same : key = entryKey
    · subst key
      have absent : List.dlookup entryKey entries = none :=
        List.dlookup_eq_none.mpr fresh
      simp [absent]
    · rw [if_neg same, List.dlookup_cons_ne entries ⟨entryKey, value⟩ same]

/-- Reading all entries of a map back into an empty one restores the map. -/
theorem toMap_insertAll_entries (dict : Dict K V) :
    toMap (insertAll ∅ dict.entries) = toMap dict := by
  apply toMap_ext
  intro key
  rw [lookup_insertAll dict.nodupKeys, AList.lookup_empty, Option.or_none]
  rfl

/-- When every value knows its own key, the list of values determines the
entries. -/
theorem entries_eq_map_values {keyOf : V → K} {dict : Dict K V}
    (keyed : ∀ key value, dict.lookup key = some value → keyOf value = key) :
    dict.entries = (values dict).map fun value => Sigma.mk (keyOf value) value := by
  have restored : ∀ entry ∈ dict.entries,
      Sigma.mk (keyOf entry.2) entry.2 = entry := by
    rintro ⟨key, value⟩ member
    rw [keyed key value (mem_entries_iff.mp member)]
  rw [values, List.map_map]
  exact (List.map_id dict.entries).symm.trans
    (List.map_congr_left fun entry member => (restored entry member).symm)

end HiveGuard.Library.Dictionary
