import Mathlib.Algebra.Order.Group.Int
import Mathlib.Data.List.Basic
import Mathlib.Tactic.Linarith

/-!
# Events in a sliding window

The events of a limiter are a list of instants.  At an instant, those within a window that
ends there are counted.  If an event is only added when the window before it has room, no
window anywhere holds more than the limit.
-/

namespace HiveGuard.Library.SlidingWindow

variable {window now later : Int} {times : List Int}

/-- The events after the start of the window that ends now. -/
def active (window now : Int) (times : List Int) : List Int :=
  times.filter fun time => decide (now - window < time)

/-- The events in the window that ends now. -/
def within (window now : Int) (times : List Int) : List Int :=
  times.filter fun time => decide (now - window < time ∧ time ≤ now)

/-- What was forgotten earlier does not count later. -/
theorem active_active (passed : now ≤ later) :
    active window later (active window now times) = active window later times := by
  rw [active, active, List.filter_filter]
  refine List.filter_congr fun time _ => ?_
  rw [← Bool.decide_and, decide_eq_decide]
  exact and_iff_left_of_imp fun recent => by linarith

theorem active_append (first second : List Int) :
    active window now (first ++ second) = active window now first ++ active window now second :=
  List.filter_append first second

theorem within_sublist_active : (within window now times).Sublist (active window now times) :=
  List.monotone_filter_right times fun _ inside =>
    decide_eq_true (of_decide_eq_true inside).1

theorem within_eq_active (seen : ∀ time ∈ times, time ≤ now) :
    within window now times = active window now times := by
  refine List.filter_congr fun time member => ?_
  rw [decide_eq_decide]
  exact and_iff_left (seen time member)

/-- Later windows hold no more of the past than the window that ends now. -/
theorem active_sublist_active (passed : now ≤ later) :
    (active window later times).Sublist (active window now times) :=
  List.monotone_filter_right times fun time recent =>
    decide_eq_true (by have := of_decide_eq_true recent; linarith)

/-- An event that the window before it has room for keeps the limit of every window. -/
theorem length_within_append_le {limit : Nat}
    (bounded : ∀ instant, (within window instant times).length ≤ limit)
    (room : (active window now times).length < limit) (instant : Int) :
    (within window instant (times ++ [now])).length ≤ limit := by
  rw [within, List.filter_append, List.length_append]
  by_cases before : instant < now
  · have outside : [now].filter
        (fun time => decide (instant - window < time ∧ time ≤ instant)) = [] := by
      refine List.filter_cons_of_neg fun inside => ?_
      exact absurd (of_decide_eq_true inside).2 (not_le.mpr before)
    rw [outside, List.length_nil, Nat.add_zero]
    exact bounded instant
  · have past : (within window instant times).length ≤ (active window now times).length :=
      (within_sublist_active.trans (active_sublist_active (not_lt.mp before))).length_le
    have single : ([now].filter
        (fun time => decide (instant - window < time ∧ time ≤ instant))).length ≤ 1 :=
      List.length_filter_le _ [now]
    rw [within] at past
    omega

end HiveGuard.Library.SlidingWindow
