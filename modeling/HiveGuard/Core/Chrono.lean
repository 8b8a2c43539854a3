import HiveGuard.Core.Hlc
import HiveGuard.Core.Models

/-!
# Durations and dates with their ranges

A `Duration` of the time library holds at most `i64::MAX` milliseconds and a date lies
between the years -262143 and 262142.  Conversions and additions beyond that fail; the
plain operator panics where the checked addition has no result.
-/

namespace HiveGuard.Core

/-- A span of time of the standard library. -/
structure StdDuration where
  secs : Fin (2 ^ 64)
  nanos : Fin 1000000000
  deriving DecidableEq

namespace StdDuration

def fromSecs (secs : Fin (2 ^ 64)) : StdDuration :=
  ⟨secs, ⟨0, by decide⟩⟩

/-- The span in nanoseconds. -/
def asNanos (duration : StdDuration) : Int :=
  duration.secs.val * 1000000000 + duration.nanos.val

theorem asNanos_nonneg (duration : StdDuration) : 0 ≤ duration.asNanos := by
  rw [asNanos]
  positivity

end StdDuration

namespace Duration

/-- `i64::MAX` milliseconds. -/
def max : Duration :=
  9223372036854775807 * 1000000

/-- `Duration::seconds`, which panics beyond the largest duration. -/
def trySeconds (count : Int) : Option Duration :=
  if -max ≤ seconds count ∧ seconds count ≤ max then some (seconds count) else none

theorem trySeconds_eq_some_iff {count : Int} {span : Duration} :
    trySeconds count = some span ↔
      (-max ≤ seconds count ∧ seconds count ≤ max) ∧ seconds count = span := by
  rw [trySeconds, Option.ite_none_right_eq_some, Option.some.injEq]

/-- The conversion from the standard library, which compares seconds and nanoseconds
with those of the largest duration. -/
def fromStd (duration : StdDuration) : Option Duration :=
  if 9223372036854775 < duration.secs.val then none
  else if duration.secs.val = 9223372036854775 ∧ 807000000 < duration.nanos.val then none
  else some duration.asNanos

theorem fromStd_eq_some_iff {duration : StdDuration} {span : Duration} :
    fromStd duration = some span ↔ duration.asNanos ≤ max ∧ duration.asNanos = span := by
  have nanos_lt := duration.nanos.isLt
  have fits_iff : duration.asNanos ≤ max ↔ ¬9223372036854775 < duration.secs.val ∧
      ¬(duration.secs.val = 9223372036854775 ∧ 807000000 < duration.nanos.val) := by
    rw [StdDuration.asNanos, max]
    omega
  rw [fits_iff, fromStd]
  split
  · rename_i large
    exact iff_of_false (by simp) fun condition => condition.1.1 large
  · rename_i small
    split
    · rename_i large
      exact iff_of_false (by simp) fun condition => condition.1.2 large
    · rename_i fits
      rw [Option.some.injEq, and_iff_right ⟨small, fits⟩]

/-- What stands in for a duration that is too long decides whether the span is positive. -/
theorem fromStd_getD_nonneg (duration : StdDuration) {fallback : Duration}
    (nonneg : 0 ≤ fallback) : 0 ≤ (fromStd duration).getD fallback := by
  cases converted : fromStd duration with
  | none => exact nonneg
  | some span =>
    obtain ⟨-, rfl⟩ := fromStd_eq_some_iff.mp converted
    exact duration.asNanos_nonneg

end Duration

namespace DateTime

/-- The start of the year -262143. -/
def minUtc : DateTime :=
  -8334601228800 * 1000000000

/-- The last nanosecond of the year 262142. -/
def maxUtc : DateTime :=
  8210266876800 * 1000000000 - 1

/-- Addition with a check of the range. -/
def checkedAddSigned (time : DateTime) (duration : Duration) : Option DateTime :=
  if minUtc ≤ time + duration ∧ time + duration ≤ maxUtc then some (time + duration) else none

theorem checkedAddSigned_eq_some_iff {time sum : DateTime} {duration : Duration} :
    checkedAddSigned time duration = some sum ↔
      (minUtc ≤ time + duration ∧ time + duration ≤ maxUtc) ∧ time + duration = sum := by
  rw [checkedAddSigned, Option.ite_none_right_eq_some, Option.some.injEq]

end DateTime

end HiveGuard.Core
