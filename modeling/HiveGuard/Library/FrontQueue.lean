import Mathlib

/-!
# Queues that are pruned at the front

Instants are put at the end of a queue, and those before the start of a window are dropped
from its front, up to the first that is not.  The start of the window depends on the instant
that arrives, and there may be none; then nothing is dropped.  If the instants arrive in
order, the queue holds all that are in the window and nothing else.  In any other order it
still holds the last ones that arrived, but they need not lie in one window.
-/

namespace HiveGuard.Library.FrontQueue

variable (start : Int → Option Int)

/-- One more instant. -/
def arrive (queue : List Int) (now : Int) : List Int :=
  match start now with
  | none => queue ++ [now]
  | some since => (queue ++ [now]).dropWhile fun time => decide (time < since)

/-- The queue after some instants. -/
def kept (times : List Int) : List Int :=
  times.foldl (arrive start) []

/-- The instants that are not before the start of a window. -/
def notBefore (since : Int) (times : List Int) : List Int :=
  times.filter fun time => decide (since ≤ time)

/-- So many of the instants lie within one interval. -/
def Burst (count : Nat) (span : Int) (times : List Int) : Prop :=
  ∃ first, count ≤ (times.filter fun time => decide (first ≤ time ∧ time ≤ first + span)).length

variable {start}

theorem kept_concat (times : List Int) (now : Int) :
    kept start (times ++ [now]) = arrive start (kept start times) now := by
  rw [kept, List.foldl_concat]
  rfl

theorem arrive_suffix (queue : List Int) (now : Int) :
    arrive start queue now <:+ queue ++ [now] := by
  rw [arrive]
  split
  · exact List.suffix_rfl
  · exact List.dropWhile_suffix _

theorem kept_suffix (times : List Int) : kept start times <:+ times := by
  induction times using List.reverseRecOn with
  | nil => exact List.suffix_rfl
  | append_singleton times now ih =>
    rw [kept_concat]
    obtain ⟨dropped, split⟩ := ih
    refine (arrive_suffix _ now).trans ⟨dropped, ?_⟩
    rw [← List.append_assoc, split]

/-- Dropping what is before a start loses nothing that is not before a later one. -/
theorem notBefore_dropWhile {since later : Int} (ordered : since ≤ later) (times : List Int) :
    notBefore later (times.dropWhile fun time => decide (time < since)) =
      notBefore later times := by
  induction times with
  | nil => rfl
  | cons time times ih =>
    rw [List.dropWhile_cons]
    split
    · rename_i old
      have older : ¬later ≤ time := by
        have := of_decide_eq_true old
        omega
      rw [ih, notBefore, notBefore, List.filter_cons_of_neg]
      rw [decide_eq_true_eq]
      exact older
    · rfl

/-- The queue has all instants that are not before a start that is not before any earlier
one. -/
theorem notBefore_kept {since : Int} {times : List Int}
    (ordered : ∀ time ∈ times, ∀ earlier, start time = some earlier → earlier ≤ since) :
    notBefore since (kept start times) = notBefore since times := by
  induction times using List.reverseRecOn with
  | nil => rfl
  | append_singleton times now ih =>
    rw [List.forall_mem_append, List.forall_mem_singleton] at ordered
    have earlier := ih ordered.1
    rw [notBefore, notBefore] at earlier
    rw [kept_concat, arrive]
    split
    · rw [notBefore, notBefore, List.filter_append, List.filter_append, earlier]
    · rename_i first isStart
      rw [notBefore_dropWhile (ordered.2 first isStart), notBefore, notBefore,
        List.filter_append, List.filter_append, earlier]

/-- In order, dropping from the front drops everything that is before the start. -/
theorem dropWhile_eq_notBefore (since : Int) {times : List Int} (ordered : times.Pairwise (· ≤ ·)) :
    (times.dropWhile fun time => decide (time < since)) = notBefore since times := by
  induction times with
  | nil => rfl
  | cons time times ih =>
    rw [List.pairwise_cons] at ordered
    rw [List.dropWhile_cons]
    split
    · rename_i old
      rw [ih ordered.2, notBefore, notBefore, List.filter_cons_of_neg]
      rw [decide_eq_true_eq, Int.not_le]
      exact of_decide_eq_true old
    · rename_i recent
      rw [decide_eq_true_eq, Int.not_lt] at recent
      rw [notBefore, List.filter_eq_self.mpr]
      intro other member
      rw [decide_eq_true_eq]
      rcases List.mem_cons.mp member with rfl | later
      · exact recent
      · exact recent.trans (ordered.1 other later)

/-- Instants that arrive in order: the queue holds exactly those in the window. -/
theorem arrive_kept_of_ordered {times : List Int} {now since : Int}
    (ordered : (times ++ [now]).Pairwise (· ≤ ·)) (isStart : start now = some since)
    (moves : ∀ time ∈ times, ∀ earlier, start time = some earlier → earlier ≤ since) :
    arrive start (kept start times) now = notBefore since (times ++ [now]) := by
  have queueOrdered : (kept start times ++ [now]).Pairwise (· ≤ ·) :=
    ordered.sublist (List.Sublist.append_right (kept_suffix times).sublist _)
  have same := notBefore_kept moves
  rw [notBefore, notBefore] at same
  rw [arrive, isStart]
  change (kept start times ++ [now]).dropWhile _ = _
  rw [dropWhile_eq_notBefore since queueOrdered, notBefore, notBefore, List.filter_append,
    List.filter_append, same]

/-- Two instants that are too far apart are not within one interval. -/
theorem not_burst_pair {span first second : Int} (apart : second + span < first) :
    ¬Burst 2 span [first, second] := by
  rintro ⟨since, enough⟩
  have all : ∀ time ∈ [first, second], decide (since ≤ time ∧ time ≤ since + span) = true :=
    List.length_filter_eq_length_iff.mp (le_antisymm (List.length_filter_le _ _) enough)
  have firstWithin := of_decide_eq_true (all first (by simp))
  have secondWithin := of_decide_eq_true (all second (by simp))
  omega

end HiveGuard.Library.FrontQueue
