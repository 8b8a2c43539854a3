import HiveGuard.Library.Dictionary

/-!
# Dictionaries with a queue of their keys

A bounded cache keeps the order in which its keys were inserted beside the dictionary, so
that the oldest key can be given up first.  The two are in step when the queue holds each
key of the dictionary once and no other key.
-/

namespace HiveGuard.Library.Fifo

open Library.Dictionary

universe u v

variable {K : Type u} {V : Type v} {entries : Dict K V} {order : List K} {key : K}

/-- The queue holds each key of the dictionary once. -/
def InStep (entries : Dict K V) (order : List K) : Prop :=
  order.Perm entries.keys

theorem inStep_empty : InStep (∅ : Dict K V) [] :=
  List.Perm.nil

theorem InStep.nodup (inStep : InStep entries order) : order.Nodup :=
  (List.Perm.nodup_iff inStep).mpr entries.keys_nodup

theorem InStep.mem_iff (inStep : InStep entries order) : key ∈ order ↔ key ∈ entries :=
  List.Perm.mem_iff inStep

theorem InStep.length_eq (inStep : InStep entries order) :
    order.length = entries.keys.length :=
  List.Perm.length_eq inStep

variable [DecidableEq K]

/-- A new key goes to the end of the queue. -/
theorem InStep.insert (inStep : InStep entries order) (absent : key ∉ entries) (value : V) :
    InStep (entries.insert key value) (order ++ [key]) := by
  rw [InStep, AList.keys_insert, List.erase_of_not_mem absent]
  exact (List.perm_append_singleton key order).trans (inStep.cons key)

/-- The oldest key leaves both. -/
theorem InStep.erase (inStep : InStep entries (key :: order)) :
    InStep (entries.erase key) order := by
  rw [InStep, AList.keys_erase]
  exact (List.cons_perm_iff_perm_erase.mp inStep).2

end HiveGuard.Library.Fifo
