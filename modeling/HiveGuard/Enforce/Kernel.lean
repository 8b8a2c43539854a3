import HiveGuard.Core.NetOrder

/-!
# The kernel's interval sets

An interval set of the packet filter holds address ranges and refuses a range that
overlaps one it holds.  The sets of the table are changed by batches of commands; a batch
with a refused command changes nothing.
-/

namespace HiveGuard.Enforce

open HiveGuard.Core

/-- The addresses from `first` to `last`. -/
structure AddressRange (w : Nat) where
  first : BitVec w
  last : BitVec w
  ordered : first ≤ last

namespace AddressRange

variable {w : Nat}

def contains (range : AddressRange w) (ip : BitVec w) : Bool :=
  decide (range.first ≤ ip) && decide (ip ≤ range.last)

def overlaps (left right : AddressRange w) : Bool :=
  decide (left.first ≤ right.last) && decide (right.first ≤ left.last)

theorem overlaps_iff {left right : AddressRange w} : left.overlaps right = true ↔
    ∃ ip, left.contains ip = true ∧ right.contains ip = true := by
  have leftOrdered := left.ordered
  have rightOrdered := right.ordered
  simp only [overlaps, contains, Bool.and_eq_true, decide_eq_true_eq, BitVec.le_def] at *
  constructor
  · rintro ⟨leftStarts, rightStarts⟩
    -- The range that starts later starts inside the other one.
    rcases Nat.le_total left.first.toNat right.first.toNat with earlier | later
    · exact ⟨right.first, ⟨earlier, rightStarts⟩, Nat.le_refl _, rightOrdered⟩
    · exact ⟨left.first, ⟨Nat.le_refl _, leftOrdered⟩, later, leftStarts⟩
  · rintro ⟨ip, ⟨leftLower, leftUpper⟩, rightLower, rightUpper⟩
    exact ⟨Nat.le_trans leftLower rightUpper, Nat.le_trans rightLower leftUpper⟩

end AddressRange

/-- An element of an interval set. -/
inductive Element where
  | v4 (range : AddressRange 32)
  | v6 (range : AddressRange 128)

namespace Element

def contains : Element → IpAddr → Bool
  | v4 range, .v4 ip => range.contains ip
  | v6 range, .v6 ip => range.contains ip
  | _, _ => false

def overlaps : Element → Element → Bool
  | v4 left, v4 right => left.overlaps right
  | v6 left, v6 right => left.overlaps right
  | _, _ => false

/-- The range of a network. -/
def ofNet : IpNet → Element
  | .v4 net => v4 ⟨net.network, net.broadcast, net.network_le_broadcast⟩
  | .v6 net => v6 ⟨net.network, net.broadcast, net.network_le_broadcast⟩

@[simp]
theorem contains_ofNet (net : IpNet) (ip : IpAddr) :
    (ofNet net).contains ip = net.contains ip := by
  cases net <;> cases ip <;> rfl

theorem overlaps_iff {left right : Element} : left.overlaps right = true ↔
    ∃ ip, left.contains ip = true ∧ right.contains ip = true := by
  cases left with
  | v4 left =>
    cases right with
    | v4 right =>
      refine AddressRange.overlaps_iff.trans ⟨?_, ?_⟩
      · rintro ⟨ip, inLeft, inRight⟩
        exact ⟨.v4 ip, inLeft, inRight⟩
      · rintro ⟨ip, inLeft, inRight⟩
        cases ip with
        | v4 ip => exact ⟨ip, inLeft, inRight⟩
        | v6 ip => exact absurd inLeft Bool.false_ne_true
    | v6 right =>
      refine iff_of_false Bool.false_ne_true ?_
      rintro ⟨ip, inLeft, inRight⟩
      cases ip <;> contradiction
  | v6 left =>
    cases right with
    | v4 right =>
      refine iff_of_false Bool.false_ne_true ?_
      rintro ⟨ip, inLeft, inRight⟩
      cases ip <;> contradiction
    | v6 right =>
      refine AddressRange.overlaps_iff.trans ⟨?_, ?_⟩
      · rintro ⟨ip, inLeft, inRight⟩
        exact ⟨.v6 ip, inLeft, inRight⟩
      · rintro ⟨ip, inLeft, inRight⟩
        cases ip with
        | v4 ip => exact absurd inLeft Bool.false_ne_true
        | v6 ip => exact ⟨ip, inLeft, inRight⟩

end Element

/-- Elements of which no two overlap. -/
structure IntervalSet where
  elements : List Element
  disjoint : elements.Pairwise fun left right => left.overlaps right = false

namespace IntervalSet

def empty : IntervalSet :=
  ⟨[], List.Pairwise.nil⟩

/-- Some element of the set holds the address. -/
def Holds (set : IntervalSet) (ip : IpAddr) : Prop :=
  ∃ element ∈ set.elements, element.contains ip = true

/-- The set with more elements, unless two of them overlap. -/
def add (set : IntervalSet) (added : List Element) : Option IntervalSet :=
  if disjoint : (set.elements ++ added).Pairwise fun left right => left.overlaps right = false
  then some ⟨set.elements ++ added, disjoint⟩
  else none

/-- The set of networks that do not meet. -/
def ofNets (nets : List IpNet)
    (disjoint : nets.Pairwise fun left right => ¬IpNet.SharesAddress left right) :
    IntervalSet where
  elements := nets.map Element.ofNet
  disjoint := by
    rw [List.pairwise_map]
    refine disjoint.imp fun {left right} apart => ?_
    rw [← Bool.not_eq_true, Element.overlaps_iff]
    simp only [Element.contains_ofNet]
    exact apart

theorem holds_ofNets {nets : List IpNet}
    (disjoint : nets.Pairwise fun left right => ¬IpNet.SharesAddress left right) (ip : IpAddr) :
    (ofNets nets disjoint).Holds ip ↔ ∃ net ∈ nets, net.contains ip = true := by
  simp [Holds, ofNets]

theorem add_empty {nets : List IpNet}
    (disjoint : nets.Pairwise fun left right => ¬IpNet.SharesAddress left right) :
    empty.add (nets.map Element.ofNet) = some (ofNets nets disjoint) :=
  dif_pos (ofNets nets disjoint).disjoint

end IntervalSet

/-- A command of a batch, for a set of the table. -/
inductive Command where
  | flushSet (set : String)
  | addElement (set : String) (nets : List IpNet)

/-- The sets of the table by name. -/
structure Kernel where
  sets : String → IntervalSet

namespace Kernel

def put (kernel : Kernel) (set : String) (content : IntervalSet) : Kernel :=
  ⟨Function.update kernel.sets set content⟩

@[simp]
theorem put_self (kernel : Kernel) (set : String) (content : IntervalSet) :
    (kernel.put set content).sets set = content := by
  simp [put]

theorem sets_put (kernel : Kernel) (set : String) (content : IntervalSet) (other : String) :
    (kernel.put set content).sets other = if other = set then content else kernel.sets other :=
  Function.update_apply kernel.sets set content other

@[simp]
theorem put_put (kernel : Kernel) (set : String) (first second : IntervalSet) :
    (kernel.put set first).put set second = kernel.put set second := by
  rw [put, put, put, Function.update_idem]

def perform (kernel : Kernel) : Command → Option Kernel
  | .flushSet set => some (kernel.put set .empty)
  | .addElement set nets =>
    ((kernel.sets set).add (nets.map Element.ofNet)).map (kernel.put set)

/-- The whole batch, or nothing if a command is refused. -/
def applyBatch (kernel : Kernel) (batch : List Command) : Option Kernel :=
  batch.foldlM perform kernel

@[simp]
theorem applyBatch_nil (kernel : Kernel) : kernel.applyBatch [] = some kernel :=
  rfl

theorem applyBatch_append (kernel : Kernel) (first second : List Command) :
    kernel.applyBatch (first ++ second) =
      (kernel.applyBatch first).bind fun middle => middle.applyBatch second := by
  rw [applyBatch, List.foldlM_append]
  rfl

theorem applyBatch_singleton (kernel : Kernel) (command : Command) :
    kernel.applyBatch [command] = kernel.perform command := by
  rw [applyBatch, List.foldlM_cons]
  exact bind_pure _

/-- A cleared set takes networks that do not meet. -/
theorem perform_addElement_empty (kernel : Kernel) (set : String) {nets : List IpNet}
    (disjoint : nets.Pairwise fun left right => ¬IpNet.SharesAddress left right) :
    (kernel.put set .empty).perform (.addElement set nets) =
      some (kernel.put set (.ofNets nets disjoint)) := by
  rw [perform, put_self, IntervalSet.add_empty disjoint, Option.map_some, put_put]

end Kernel

end HiveGuard.Enforce
