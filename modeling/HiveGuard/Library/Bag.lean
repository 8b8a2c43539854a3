import HiveGuard.Library.Dictionary

/-!
# Bags kept as dictionaries of counts

A program that counts equal elements keeps a dictionary from each element to a positive
number.  Such a dictionary represents a multiset; adding and removing one element are the
dictionary updates below, and the number of entries is the number of distinct elements.
-/

namespace HiveGuard.Library.Bag

open Library.Dictionary

universe u

variable {K : Type u} [DecidableEq K]

/-- The dictionary holds the elements of the bag with their multiplicities, and no other
entries. -/
def Represents (counts : Dict K Nat) (bag : Multiset K) : Prop :=
  ∀ key, counts.lookup key = if bag.count key = 0 then none else some (bag.count key)

section

variable {counts : Dict K Nat} {bag : Multiset K}

theorem represents_empty : Represents (∅ : Dict K Nat) 0 := by
  intro key
  rw [AList.lookup_empty, Multiset.count_zero, if_pos rfl]

variable (represents : Represents counts bag)

include represents

theorem Represents.getD_lookup (key : K) : (counts.lookup key).getD 0 = bag.count key := by
  rw [represents key]
  split
  · rename_i absent
    exact absent.symm
  · rfl

theorem Represents.lookup_ne_zero (key : K) : counts.lookup key ≠ some 0 := by
  rw [represents key]
  split
  · exact nofun
  · rename_i present
    intro same
    exact present (Option.some.inj same)

theorem Represents.notMem {key : K} (absent : counts.lookup key = none) : key ∉ bag := by
  rw [← Multiset.count_eq_zero, ← represents.getD_lookup, absent]
  rfl

/-- One element more. -/
theorem Represents.cons (key : K) :
    Represents (counts.insert key ((counts.lookup key).getD 0 + 1)) (key ::ₘ bag) := by
  intro probe
  rw [represents.getD_lookup, lookup_insert]
  by_cases same : probe = key
  · subst probe
    rw [if_pos rfl, Multiset.count_cons_self, if_neg (Nat.succ_ne_zero _)]
  · rw [if_neg same, Multiset.count_cons_of_ne same, represents probe]

/-- One element less; the last of its kind takes its entry along. -/
theorem Represents.erase {key : K} {count : Nat} (found : counts.lookup key = some (count + 1)) :
    Represents (if count = 0 then counts.erase key else counts.insert key count)
      (bag.erase key) := by
  have count_eq : bag.count key = count + 1 := by
    rw [← represents.getD_lookup, found]
    rfl
  intro probe
  by_cases same : probe = key
  · subst probe
    rw [Multiset.count_erase_self, count_eq, Nat.add_sub_cancel]
    split
    · rw [lookup_erase, if_pos rfl]
    · rw [lookup_insert, if_pos rfl]
  · rw [Multiset.count_erase_of_ne same, ← represents probe]
    split
    · rw [lookup_erase, if_neg same]
    · rw [lookup_insert, if_neg same]

theorem Represents.mem_keys_iff (key : K) : key ∈ counts.keys ↔ key ∈ bag := by
  rw [Dictionary.mem_keys_iff, represents key, ← Multiset.count_pos]
  split
  · rename_i absent
    simp [absent]
  · rename_i present
    exact iff_of_true ⟨_, rfl⟩ (Nat.pos_of_ne_zero present)

/-- There is one entry for each distinct element. -/
theorem Represents.length_entries : counts.entries.length = bag.toFinset.card := by
  have keys_eq : counts.keys.toFinset = bag.toFinset := by
    ext key
    rw [List.mem_toFinset, Multiset.mem_toFinset, represents.mem_keys_iff]
  have length_eq : counts.keys.length = counts.entries.length := List.length_map _
  rw [← keys_eq, List.toFinset_card_of_nodup counts.keys_nodup, length_eq]

end

/-! ## The bag of a dictionary -/

/-- Each key as often as its entry says. -/
def toBag (counts : Dict K Nat) : Multiset K :=
  counts.entries.flatMap fun entry => List.replicate entry.2 entry.1

theorem count_flatMap_replicate {entries : List (Sigma fun _ : K => Nat)}
    (distinct : entries.NodupKeys) (key : K) :
    (entries.flatMap fun entry => List.replicate entry.2 entry.1).count key =
      (entries.dlookup key).getD 0 := by
  induction entries with
  | nil => rfl
  | cons entry entries ih =>
    rcases entry with ⟨stored, count⟩
    rw [List.nodupKeys_cons] at distinct
    rw [List.flatMap_cons, List.count_append, List.count_replicate,
      ih distinct.2]
    by_cases same : key = stored
    · subst key
      rw [List.dlookup_cons_eq, List.dlookup_eq_none.mpr distinct.1]
      simp
    · rw [List.dlookup_cons_ne entries ⟨stored, count⟩ same]
      simp [Ne.symm same]

theorem count_toBag (counts : Dict K Nat) (key : K) :
    (toBag counts).count key = (counts.lookup key).getD 0 := by
  rw [toBag, Multiset.coe_count]
  exact count_flatMap_replicate counts.nodupKeys key

/-- A dictionary without zeros represents its bag. -/
theorem represents_toBag {counts : Dict K Nat} (positive : ∀ key, counts.lookup key ≠ some 0) :
    Represents counts (toBag counts) := by
  intro key
  rw [count_toBag]
  cases found : counts.lookup key with
  | none => rfl
  | some count =>
    have nonzero : count ≠ 0 := by
      rintro rfl
      exact positive key found
    rw [Option.getD_some, if_neg nonzero]

end HiveGuard.Library.Bag
