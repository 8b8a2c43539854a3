import Mathlib

/-!
# The newest items that fit

A log of limited size drops its oldest items.  What is kept is the longest suffix whose
total size is within the limit, and appending to what was kept leads to the same as
appending to everything.
-/

namespace HiveGuard.Library.Fitting

variable {α : Type} (size : α → Nat) (limit : Nat)

def total (items : List α) : Nat :=
  (items.map size).sum

/-- The longest suffix within the limit. -/
def fitting : List α → List α
  | [] => []
  | item :: items =>
    if total size (item :: items) ≤ limit then item :: items else fitting items

variable {size limit}

theorem total_cons (item : α) (items : List α) :
    total size (item :: items) = size item + total size items :=
  rfl

theorem total_append (front back : List α) :
    total size (front ++ back) = total size front + total size back := by
  rw [total, List.map_append, List.sum_append]
  rfl

theorem fitting_of_le {items : List α} (fits : total size items ≤ limit) :
    fitting size limit items = items := by
  cases items with
  | nil => rfl
  | cons item items => exact if_pos fits

theorem fitting_cons_of_lt {item : α} {items : List α}
    (exceeds : limit < total size (item :: items)) :
    fitting size limit (item :: items) = fitting size limit items :=
  if_neg exceeds.not_ge

theorem fitting_suffix (items : List α) : fitting size limit items <:+ items := by
  induction items with
  | nil => exact List.suffix_refl _
  | cons item items ih =>
    rw [fitting]
    split
    · exact List.suffix_refl _
    · exact ih.trans (List.suffix_cons item items)

theorem total_fitting_le (items : List α) : total size (fitting size limit items) ≤ limit := by
  induction items with
  | nil => exact Nat.zero_le _
  | cons item items ih =>
    rw [fitting]
    split
    · assumption
    · exact ih

/-- No longer suffix is within the limit. -/
theorem suffix_fitting {items others : List α} (suffix : others <:+ items)
    (fits : total size others ≤ limit) : others <:+ fitting size limit items := by
  induction items with
  | nil => exact suffix
  | cons item items ih =>
    rw [fitting]
    split
    · exact suffix
    · rename_i exceeds
      rcases List.suffix_cons_iff.mp suffix with rfl | inside
      · exact absurd fits exceeds
      · exact ih inside

/-- Dropping early or late makes no difference. -/
theorem fitting_fitting_append (items others : List α) :
    fitting size limit (fitting size limit items ++ others) =
      fitting size limit (items ++ others) := by
  induction items with
  | nil => rfl
  | cons item items ih =>
    by_cases fits : total size (item :: items) ≤ limit
    · rw [fitting_of_le fits]
    · have exceeds : limit < total size (item :: (items ++ others)) := by
        rw [← List.cons_append, total_append]
        omega
      rw [fitting_cons_of_lt (Nat.lt_of_not_le fits), ih, List.cons_append,
        fitting_cons_of_lt exceeds]

end HiveGuard.Library.Fitting
