import Mathlib

/-!
# Items that stand in a log

Some entries of a log put an item, and later entries may remove it.  The items that no later
entry has removed stand in the log, each with the position of the entry that put it.
-/

namespace HiveGuard.Library.Standing

variable {E S : Type} (puts : E → Option S) (removes : S → E → Bool)

/-- The items that stand in a log, with their positions. -/
def standing (log : List E) : List (Nat × S) :=
  log.zipIdx.filterMap fun entry =>
    (puts entry.1).bind fun item =>
      if (log.drop (entry.2 + 1)).any (removes item) then none else some (entry.2, item)

variable {puts removes}

/-- An entry removes some of the items and may put one. -/
theorem standing_concat (log : List E) (entry : E) :
    standing puts removes (log ++ [entry]) =
      (standing puts removes log).filter (fun stands => !removes stands.2 entry) ++
        ((puts entry).map fun item => (log.length, item)).toList := by
  rw [standing, List.zipIdx_append, List.filterMap_append]
  congr 1
  · rw [standing, List.filter_filterMap]
    apply List.filterMap_congr
    rintro ⟨earlier, position⟩ member
    have inside : position < log.length := by
      have bound := (List.mem_zipIdx member).2.1
      omega
    cases puts earlier with
    | none => rfl
    | some item =>
      rw [Option.bind_some, Option.bind_some, List.drop_append_of_le_length inside,
        List.any_append]
      cases (log.drop (position + 1)).any (removes item) with
      | true => rfl
      | false => cases removed : removes item entry <;> simp [removed, Option.filter]
  · have last : [entry].zipIdx (0 + log.length) = [(entry, log.length)] := by simp
    have nothing : (log ++ [entry]).drop (log.length + 1) = [] := by simp
    rw [last, List.filterMap_cons, List.filterMap_nil]
    cases puts entry with
    | none => rfl
    | some item =>
      rw [Option.bind_some, nothing]
      rfl

theorem mem_standing_iff {log : List E} {position : Nat} {item : S} :
    (position, item) ∈ standing puts removes log ↔
      (∃ entry, log[position]? = some entry ∧ puts entry = some item) ∧
        ∀ later entry, position < later → log[later]? = some entry →
          removes item entry = false := by
  have removed_iff : (log.drop (position + 1)).any (removes item) = false ↔
      ∀ later entry, position < later → log[later]? = some entry →
        removes item entry = false := by
    rw [List.any_eq_false]
    constructor
    · intro none later entry after found
      rw [← Bool.not_eq_true]
      apply none
      rw [List.mem_iff_getElem?]
      exact ⟨later - (position + 1), by rw [List.getElem?_drop, Nat.add_sub_cancel' after, found]⟩
    · intro none entry member
      obtain ⟨index, found⟩ := List.mem_iff_getElem?.mp member
      rw [List.getElem?_drop] at found
      rw [none _ entry (by omega) found]
      exact Bool.false_ne_true
  rw [← removed_iff, standing, List.mem_filterMap]
  constructor
  · rintro ⟨⟨entry, place⟩, member, stands⟩
    obtain ⟨put, isPut, kept⟩ := Option.bind_eq_some_iff.mp stands
    rw [Option.ite_none_left_eq_some] at kept
    cases kept.2
    exact ⟨⟨entry, List.mem_zipIdx_iff_getElem?.mp member, isPut⟩,
      Bool.eq_false_of_not_eq_true kept.1⟩
  · rintro ⟨⟨entry, found, isPut⟩, kept⟩
    refine ⟨(entry, position), List.mem_zipIdx_iff_getElem?.mpr found, ?_⟩
    rw [isPut, Option.bind_some, kept]
    rfl

end HiveGuard.Library.Standing
