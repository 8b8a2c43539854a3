import HiveGuard.Library.Utf8
import Mathlib.Data.String.Basic

/-!
# Sorted and joined texts

A multiset of texts can be compared by one text: the members in order, with a separator
between them.  If the separator occurs in none of them, the joined text determines the
multiset.
-/

namespace HiveGuard.Library.SortedJoin

universe u

section Sorted

variable {α : Type u} [LinearOrder α] {first second : List α}

/-- The members of a list in ascending order. -/
def sorted (items : List α) : List α :=
  items.mergeSort fun first second => decide (first ≤ second)

theorem sorted_perm (items : List α) : (sorted items).Perm items :=
  List.mergeSort_perm items _

theorem pairwise_sorted (items : List α) : (sorted items).Pairwise (· ≤ ·) := by
  have transitive : ∀ first second third : α, decide (first ≤ second) = true →
      decide (second ≤ third) = true → decide (first ≤ third) = true := by
    simp only [decide_eq_true_eq]
    exact fun _ _ _ => le_trans
  have total : ∀ first second : α,
      (decide (first ≤ second) || decide (second ≤ first)) = true := by
    intro first second
    simpa using le_total first second
  have ascending := List.pairwise_mergeSort transitive total items
  simp only [decide_eq_true_eq] at ascending
  exact ascending

theorem eq_sorted (ascending : first.Pairwise (· ≤ ·)) (perm : first.Perm second) :
    first = sorted second :=
  List.Perm.eq_of_pairwise (fun _ _ _ _ => le_antisymm) ascending (pairwise_sorted second)
    (perm.trans (sorted_perm second).symm)

/-- Sorting forgets the order and nothing else. -/
theorem sorted_eq_iff : sorted first = sorted second ↔ first.Perm second := by
  constructor
  · intro same
    exact (sorted_perm first).symm.trans (same ▸ sorted_perm second)
  · intro perm
    exact eq_sorted (pairwise_sorted first) ((sorted_perm first).trans perm)

end Sorted

/-- Two keys with the same fibres on two lists agree on whether the lists have the same
keys. -/
theorem perm_map_of_perm_map {α β γ : Type u} {key : α → β} {other : α → γ} {first second : List α}
    (fibres : ∀ one ∈ first ++ second, ∀ two ∈ first ++ second,
      key one = key two → other one = other two) (perm : (first.map key).Perm (second.map key)) :
    (first.map other).Perm (second.map other) := by
  induction first generalizing second with
  | nil =>
    have empty := perm.nil_eq
    rw [eq_comm, List.map_eq_nil_iff] at empty
    rw [empty]
  | cons item first ih =>
    have keyMember : key item ∈ second.map key := perm.mem_iff.mp List.mem_cons_self
    rcases List.mem_map.mp keyMember with ⟨partner, member, sameKey⟩
    rcases List.append_of_mem member with ⟨front, back, rfl⟩
    have sameOther : other partner = other item :=
      fibres partner (by simp) item (by simp) sameKey
    simp only [List.map_append, List.map_cons, sameKey, sameOther] at perm ⊢
    refine (List.Perm.cons _ ?_).trans List.perm_middle.symm
    rw [← List.map_append]
    refine ih (fun one oneMember two twoMember => ?_) ?_
    · refine fibres one ?_ two ?_
      · simp only [List.mem_append, List.mem_cons] at oneMember ⊢
        tauto
      · simp only [List.mem_append, List.mem_cons] at twoMember ⊢
        tauto
    · rw [List.map_append]
      exact (perm.trans List.perm_middle).cons_inv

open Library.Text

variable {separator : Char} {first second : List String}

/-- The bytes of the sorted texts, joined with a separator. -/
def joinedBytes (separator : Char) (texts : List String) : List UInt8 :=
  encode (String.intercalate (String.singleton separator) (sorted texts)).toList

theorem joinedBytes_of_ascending (ascending : first.Pairwise (· ≤ ·)) (perm : first.Perm second) :
    joinedBytes separator second =
      encode ((String.singleton separator).intercalate first).toList := by
  rw [joinedBytes, ← eq_sorted ascending perm]

/-- The separator occurs in none of the texts. -/
def Separates (separator : Char) (texts : List String) : Prop :=
  ∀ text ∈ texts, separator ∉ text.toList

instance (separator : Char) (texts : List String) : Decidable (Separates separator texts) :=
  inferInstanceAs (Decidable (∀ text ∈ texts, separator ∉ text.toList))

theorem joinedBytes_eq_iff_intercalate :
    joinedBytes separator first = joinedBytes separator second ↔
      [separator].intercalate ((sorted first).map String.toList) =
        [separator].intercalate ((sorted second).map String.toList) := by
  rw [joinedBytes, joinedBytes, encode_injective.eq_iff, String.toList_intercalate,
    String.toList_intercalate, String.toList_singleton]

theorem splitOn_intercalate_sorted (clean : Separates separator first) (nonempty : first ≠ []) :
    ([separator].intercalate ((sorted first).map String.toList)).splitOn separator =
      (sorted first).map String.toList := by
  refine List.splitOn_intercalate separator ?_ ?_
  · intro chars member
    rcases List.mem_map.mp member with ⟨text, textMember, rfl⟩
    exact clean text ((sorted_perm first).mem_iff.mp textMember)
  · intro empty
    rw [List.map_eq_nil_iff] at empty
    have perm := sorted_perm first
    rw [empty] at perm
    exact nonempty perm.nil_eq.symm

/-- The joined bytes determine a list without the separator, up to the order. -/
theorem joinedBytes_eq_iff (cleanFirst : Separates separator first)
    (cleanSecond : Separates separator second) (nonemptyFirst : first ≠ [])
    (nonemptySecond : second ≠ []) :
    joinedBytes separator first = joinedBytes separator second ↔ first.Perm second := by
  rw [joinedBytes_eq_iff_intercalate, ← sorted_eq_iff]
  constructor
  · intro same
    have split_eq := congrArg (List.splitOn separator) same
    rw [splitOn_intercalate_sorted cleanFirst nonemptyFirst,
      splitOn_intercalate_sorted cleanSecond nonemptySecond] at split_eq
    exact List.map_injective_iff.mpr (fun _ _ => String.toList_inj.mp) split_eq
  · intro same
    rw [same]

theorem joinedBytes_nil : joinedBytes separator [] = [] := by
  rw [joinedBytes, sorted, List.mergeSort_nil]
  rfl

theorem joinedBytes_ne_nil (clean : Separates separator first) (nonempty : first ≠ [])
    (noEmpty : "" ∉ first) : joinedBytes separator first ≠ [] := by
  intro bytes_eq
  rw [joinedBytes, ← encode_nil, encode_injective.eq_iff, String.toList_intercalate,
    String.toList_singleton] at bytes_eq
  have split_eq := splitOn_intercalate_sorted clean nonempty
  rw [bytes_eq] at split_eq
  have member : [] ∈ (sorted first).map String.toList := by
    rw [← split_eq]
    exact List.mem_singleton_self []
  rcases List.mem_map.mp member with ⟨text, textMember, chars_eq⟩
  rw [String.toList_eq_nil_iff] at chars_eq
  subst text
  exact noEmpty ((sorted_perm first).mem_iff.mp textMember)

/-- Without empty texts, the joined bytes also tell the empty list apart. -/
theorem joinedBytes_eq_iff_of_notMem (cleanFirst : Separates separator first)
    (cleanSecond : Separates separator second) (noEmptyFirst : "" ∉ first)
    (noEmptySecond : "" ∉ second) :
    joinedBytes separator first = joinedBytes separator second ↔ first.Perm second := by
  rcases eq_or_ne first [] with rfl | nonemptyFirst
  · rcases eq_or_ne second [] with rfl | nonemptySecond
    · exact iff_of_true rfl (List.Perm.refl [])
    · refine iff_of_false (fun same => ?_) (fun perm => nonemptySecond perm.nil_eq.symm)
      exact joinedBytes_ne_nil cleanSecond nonemptySecond noEmptySecond
        (same.symm.trans joinedBytes_nil)
  · rcases eq_or_ne second [] with rfl | nonemptySecond
    · refine iff_of_false (fun same => ?_) (fun perm => nonemptyFirst perm.eq_nil)
      exact joinedBytes_ne_nil cleanFirst nonemptyFirst noEmptyFirst (same.trans joinedBytes_nil)
    · exact joinedBytes_eq_iff cleanFirst cleanSecond nonemptyFirst nonemptySecond

end HiveGuard.Library.SortedJoin
