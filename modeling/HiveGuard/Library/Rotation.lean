import Mathlib.Data.List.Perm.Subperm
import Mathlib.Data.List.Rotate

/-!
# Paging through a list in a circle

A server that may hand out only so many items at a time keeps an offset into the list,
hands out the items from there on, and moves the offset behind them, starting over at the
end of the list.
-/

namespace HiveGuard.Library.Rotation

universe u

variable {α : Type u} {items : List α} {item : α} {size offset : Nat}

/-- The items from the offset on, in a circle. -/
def page (size : Nat) (items : List α) (offset : Nat) : List α :=
  (items.rotate (offset % items.length)).take size

/-- The offset behind a page. -/
def nextOffset (size : Nat) (items : List α) (offset : Nat) : Nat :=
  (offset + (page size items offset).length) % items.length

/-- A number of pages, one after the other. -/
def pages (size : Nat) (items : List α) : Nat → Nat → List (List α)
  | 0, _ => []
  | rounds + 1, offset =>
    page size items offset :: pages size items rounds (nextOffset size items offset)

theorem length_page (size : Nat) (items : List α) (offset : Nat) :
    (page size items offset).length = min size items.length := by
  rw [page, List.length_take, List.length_rotate]

/-- A page holds no item more often than the list. -/
theorem page_subperm (size : Nat) (items : List α) (offset : Nat) :
    (page size items offset).Subperm items :=
  (List.take_sublist _ _).subperm.trans (List.rotate_perm items _).subperm

theorem nodup_page (distinct : items.Nodup) : (page size items offset).Nodup :=
  (List.nodup_rotate.mpr distinct).sublist (List.take_sublist _ _)

/-- The items of a page are those that follow the offset. -/
theorem mem_page {index : Nat} (bound : index < min size items.length)
    (found : items[(offset + index) % items.length]? = some item) :
    item ∈ page size items offset := by
  rw [Nat.lt_min] at bound
  refine List.mem_of_getElem? (i := index) ?_
  rw [page, List.getElem?_take_of_lt bound.1, List.getElem?_rotate bound.2, Nat.add_mod_mod,
    Nat.add_comm]
  exact found

theorem exists_eq_page_of_mem {rounds : Nat} {selected : List α}
    (member : selected ∈ pages size items rounds offset) :
    ∃ later, selected = page size items later := by
  induction rounds generalizing offset with
  | zero => cases member
  | succ rounds ih =>
    rcases List.mem_cons.mp member with rfl | member
    · exact ⟨offset, rfl⟩
    · exact ih member

/-- The pages reach every item that is not too far behind the offset. -/
theorem exists_mem_pages {rounds distance : Nat} (near : distance < rounds * min size items.length)
    (found : items[(offset + distance) % items.length]? = some item) :
    ∃ selected ∈ pages size items rounds offset, item ∈ selected := by
  induction rounds generalizing distance offset with
  | zero =>
    rw [Nat.zero_mul] at near
    exact absurd near (Nat.not_lt_zero distance)
  | succ rounds ih =>
    rcases Nat.lt_or_ge distance (min size items.length) with inside | behind
    · exact ⟨_, List.mem_cons_self, mem_page inside found⟩
    · rw [Nat.succ_mul] at near
      have later : items[(nextOffset size items offset +
          (distance - min size items.length)) % items.length]? = some item := by
        rw [nextOffset, length_page, Nat.mod_add_mod, Nat.add_assoc,
          Nat.add_sub_of_le behind]
        exact found
      rcases ih (by omega) later with ⟨selected, member, inside⟩
      exact ⟨selected, List.mem_cons_of_mem _ member, inside⟩

/-- Enough pages for a list of this length. -/
theorem length_le_mul_min (positive : 0 < size) (length : Nat) :
    length ≤ (length + (size - 1)) / size * min size length := by
  rcases Nat.le_total size length with long | short
  · rw [Nat.min_eq_left long]
    have := Nat.lt_div_mul_add (a := length + (size - 1)) positive
    omega
  · rw [Nat.min_eq_right short]
    rcases Nat.eq_zero_or_pos length with rfl | nonempty
    · exact Nat.zero_le _
    · have : 1 ≤ (length + (size - 1)) / size := by
        rw [Nat.le_div_iff_mul_le positive]
        omega
      exact Nat.le_mul_of_pos_left length this

/-- As many pages as a list has, from any offset on, hold all its items. -/
theorem pages_cover (positive : 0 < size) {rounds : Nat}
    (enough : (items.length + (size - 1)) / size ≤ rounds) (member : item ∈ items) :
    ∃ selected ∈ pages size items rounds offset, item ∈ selected := by
  rcases List.getElem?_of_mem member with ⟨position, found⟩
  have bound : position < items.length := (List.getElem?_eq_some_iff.mp found).1
  -- The way from the offset to the item, in the circle.
  let distance := (position + (items.length - offset % items.length)) % items.length
  have distance_lt : distance < items.length := Nat.mod_lt _ (by omega)
  have arrives : (offset + distance) % items.length = position := by
    have offset_lt : offset % items.length < items.length := Nat.mod_lt _ (by omega)
    rw [Nat.add_mod_mod, ← Nat.mod_add_mod, ← Nat.add_assoc, Nat.add_comm (_ % _) position,
      Nat.add_assoc, Nat.add_sub_of_le offset_lt.le, Nat.add_mod_right,
      Nat.mod_eq_of_lt bound]
  refine exists_mem_pages ?_ (by rwa [arrives])
  calc
    distance < items.length := distance_lt
    _ ≤ (items.length + (size - 1)) / size * min size items.length :=
      length_le_mul_min positive items.length
    _ ≤ rounds * min size items.length := Nat.mul_le_mul_right _ enough

/-- Consecutive pages are the pages from a later offset on. -/
theorem pages_infix {rounds : Nat} {front window back : List (List α)}
    (split : pages size items rounds offset = front ++ window ++ back) :
    ∃ later, window = pages size items window.length later := by
  induction front generalizing rounds offset with
  | nil =>
    refine ⟨offset, ?_⟩
    induction window generalizing rounds offset with
    | nil => rfl
    | cons selected window ih =>
      cases rounds with
      | zero => cases split
      | succ rounds =>
        rcases List.cons.inj split with ⟨page_eq, rest_eq⟩
        rw [List.length_cons, pages, ← ih rest_eq, page_eq]
  | cons selected front ih =>
    cases rounds with
    | zero => cases split
    | succ rounds => exact ih (List.cons.inj split).2

end HiveGuard.Library.Rotation
