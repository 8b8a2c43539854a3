import Mathlib

/-!
# Sweeping a sorted list of nested ranges

A sweep over a sorted list keeps an element unless the last kept one covers it.  For
ranges that are nested or disjoint, and an order in which the outer range of a nested
pair comes first, comparing with the last kept element is enough: the kept elements are
disjoint and hold what all elements held.
-/

namespace HiveGuard.Library.Sweep

universe u v

variable {α : Type u} {β : Type v}

/-- The elements kept after `last`. -/
def sweepFrom (covers : α → α → Bool) (last : α) : List α → List α
  | [] => []
  | next :: rest =>
    if covers last next then sweepFrom covers last rest
    else next :: sweepFrom covers next rest

/-- The elements not covered by the last element kept before them. -/
def sweep (covers : α → α → Bool) : List α → List α
  | [] => []
  | first :: rest => first :: sweepFrom covers first rest

theorem sweepFrom_sublist (covers : α → α → Bool) (last : α) (elements : List α) :
    (sweepFrom covers last elements).Sublist elements := by
  induction elements generalizing last with
  | nil => exact List.Sublist.refl _
  | cons next rest ih =>
    rw [sweepFrom]
    split
    · exact (ih last).cons next
    · exact (ih next).cons_cons next

theorem sweep_sublist (covers : α → α → Bool) (elements : List α) :
    (sweep covers elements).Sublist elements := by
  cases elements with
  | nil => exact List.Sublist.refl _
  | cons first rest => exact (sweepFrom_sublist covers first rest).cons_cons first

/-- How the order, the test for covering and the points of the elements fit together, for
elements in a normal form. -/
structure Nesting [LE α] (normal : α → Prop) (covers : α → α → Bool)
    (holds : α → β → Prop) : Prop where
  sound : ∀ {outer inner : α} {point : β}, covers outer inner = true → holds inner point →
    holds outer point
  nested : ∀ {first second : α} {point : β}, normal second → first ≤ second →
    holds first point → holds second point → covers first second = true
  convex : ∀ {first middle last : α}, normal middle → first ≤ middle → middle ≤ last →
    covers first last = true → covers first middle = true

section Sorted

variable [LE α] {normal : α → Prop} {covers : α → α → Bool} {holds : α → β → Prop}

/-- A sweep drops no point. -/
theorem holds_sweepFrom (nesting : Nesting normal covers holds) (last : α) (elements : List α)
    {point : β} (held : ∃ element ∈ last :: elements, holds element point) :
    ∃ element ∈ last :: sweepFrom covers last elements, holds element point := by
  induction elements generalizing last with
  | nil => exact held
  | cons next rest ih =>
    obtain ⟨element, member, pointHeld⟩ := held
    rw [sweepFrom]
    split
    · rename_i covered
      apply ih last
      rcases List.mem_cons.mp member with rfl | member
      · exact ⟨element, List.mem_cons_self, pointHeld⟩
      · rcases List.mem_cons.mp member with rfl | member
        · exact ⟨last, List.mem_cons_self, nesting.sound covered pointHeld⟩
        · exact ⟨element, List.mem_cons_of_mem last member, pointHeld⟩
    · rcases List.mem_cons.mp member with rfl | member
      · exact ⟨element, List.mem_cons_self, pointHeld⟩
      · obtain ⟨kept, keptMember, keptHolds⟩ :=
          ih next ⟨element, member, pointHeld⟩
        exact ⟨kept, List.mem_cons_of_mem last keptMember, keptHolds⟩

theorem holds_sweep_iff (nesting : Nesting normal covers holds) (elements : List α)
    (point : β) : (∃ element ∈ sweep covers elements, holds element point) ↔
      ∃ element ∈ elements, holds element point := by
  constructor
  · rintro ⟨element, member, held⟩
    exact ⟨element, (sweep_sublist covers elements).mem member, held⟩
  · intro held
    cases elements with
    | nil => exact held
    | cons first rest => exact holds_sweepFrom nesting first rest held

/-- The last kept element meets nothing kept after it: what it meets it covers, and then
it covers the next kept element in between. -/
theorem pairwise_sweepFrom (nesting : Nesting normal covers holds) {last : α}
    {elements : List α} (sorted : (last :: elements).Pairwise (· ≤ ·))
    (allNormal : ∀ element ∈ elements, normal element) :
    (last :: sweepFrom covers last elements).Pairwise
      fun first second => ¬∃ point, holds first point ∧ holds second point := by
  induction elements generalizing last with
  | nil => exact List.pairwise_singleton _ _
  | cons next rest ih =>
    rw [List.pairwise_cons] at sorted
    obtain ⟨lastFirst, restSorted⟩ := sorted
    have restNormal : ∀ element ∈ rest, normal element := fun element member =>
      allNormal element (List.mem_cons_of_mem next member)
    rw [sweepFrom]
    split
    · refine ih (List.pairwise_cons.mpr ⟨?_, ?_⟩) restNormal
      · exact fun element member => lastFirst element (List.mem_cons_of_mem next member)
      · exact (List.pairwise_cons.mp restSorted).2
    · rename_i uncovered
      refine List.pairwise_cons.mpr ⟨?_, ih restSorted restNormal⟩
      rintro kept keptMember ⟨point, lastHolds, keptHolds⟩
      have keptRest : kept = next ∨ kept ∈ rest := by
        rcases List.mem_cons.mp keptMember with rfl | keptMember
        · exact .inl rfl
        · exact .inr ((sweepFrom_sublist covers next rest).mem keptMember)
      have keptAfter : kept ∈ next :: rest := List.mem_cons.mpr keptRest
      have covered := nesting.nested (allNormal kept keptAfter) (lastFirst kept keptAfter)
        lastHolds keptHolds
      rcases keptRest with rfl | keptRest
      · exact uncovered covered
      · have between := (List.pairwise_cons.mp restSorted).1 kept keptRest
        exact uncovered (nesting.convex (allNormal next List.mem_cons_self)
          (lastFirst next List.mem_cons_self) between covered)

theorem pairwise_sweep (nesting : Nesting normal covers holds) {elements : List α}
    (sorted : elements.Pairwise (· ≤ ·)) (allNormal : ∀ element ∈ elements, normal element) :
    (sweep covers elements).Pairwise
      fun first second => ¬∃ point, holds first point ∧ holds second point := by
  cases elements with
  | nil => exact List.Pairwise.nil
  | cons first rest =>
    exact pairwise_sweepFrom nesting sorted fun element member =>
      allNormal element (List.mem_cons_of_mem first member)

end Sorted

end HiveGuard.Library.Sweep
