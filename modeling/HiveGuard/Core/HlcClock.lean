import HiveGuard.Core.Hlc
import HiveGuard.Library.Machine

/-!
# The hybrid logical clock

A node advances its clock at every local event and at every timestamp it receives.
Both steps move the clock forward as long as no addition overflows.  The counter
overflows at its largest value, which a remote timestamp may carry, and so does the
skew bound when the wall clock is within the skew of the largest representable time.
-/

namespace HiveGuard.Core.HlcTimestamp

open Library

/-- Maximum allowed clock skew in milliseconds (5 minutes). -/
def maxSkewMs : Fin (2 ^ 64) :=
  5 * 60 * 1000

variable (self : HlcTimestamp)

/-- The next local event at a wall clock reading. -/
def tick (nowMs : Fin (2 ^ 64)) : Machine HlcTimestamp :=
  if self.wallTimeMs < nowMs then
    pure { self with wallTimeMs := nowMs, counter := 0 }
  else do
    let counter ← Machine.add self.counter 1
    pure { self with counter := counter }

/-- The clock after a remote timestamp whose wall time has been clamped. -/
def adopt (nowMs remoteWall : Fin (2 ^ 64)) (remoteCounter : Fin (2 ^ 32)) :
    Machine HlcTimestamp :=
  if self.wallTimeMs < nowMs ∧ remoteWall < nowMs then
    pure { self with wallTimeMs := nowMs, counter := 0 }
  else if self.wallTimeMs = remoteWall then do
    let counter ← Machine.add (max self.counter remoteCounter) 1
    pure { self with counter := counter }
  else if self.wallTimeMs < remoteWall then do
    let counter ← Machine.add remoteCounter 1
    pure { self with wallTimeMs := remoteWall, counter := counter }
  else do
    let counter ← Machine.add self.counter 1
    pure { self with counter := counter }

/-- The receipt of a remote timestamp at a wall clock reading.  A remote wall time
beyond the skew bound is clamped to it. -/
def update (nowMs : Fin (2 ^ 64)) (remote : HlcTimestamp) :
    Machine HlcTimestamp := do
  let bound ← Machine.add nowMs maxSkewMs
  let remoteWall := if bound < remote.wallTimeMs then bound else remote.wallTimeMs
  self.adopt nowMs remoteWall remote.counter

/-- The order of timestamps in terms of natural numbers. -/
theorem lt_iff (first second : HlcTimestamp) :
    first < second ↔ first.wallTimeMs.val < second.wallTimeMs.val ∨
      first.wallTimeMs.val = second.wallTimeMs.val ∧
        (first.counter.val < second.counter.val ∨ first.counter.val = second.counter.val ∧
          first.nodeIdHash.val < second.nodeIdHash.val) := by
  rw [← cmp_eq_lt_iff, cmp]
  simp only [Ordering.then_eq_lt, compare_lt_iff_lt, compare_eq_iff_eq, Fin.lt_def, Fin.ext_iff]

/-- The larger counter among the clocks whose wall time is the later one. -/
def leadingCounter (remoteWall : Fin (2 ^ 64)) (remoteCounter : Fin (2 ^ 32)) : Fin (2 ^ 32) :=
  if self.wallTimeMs = remoteWall then max self.counter remoteCounter
  else if self.wallTimeMs < remoteWall then remoteCounter
  else self.counter

/-- A clock that the wall clock has not passed counts on from the later clock. -/
theorem adopt_eq (nowMs remoteWall : Fin (2 ^ 64)) (remoteCounter : Fin (2 ^ 32)) :
    self.adopt nowMs remoteWall remoteCounter =
      if self.wallTimeMs < nowMs ∧ remoteWall < nowMs then
        pure { self with wallTimeMs := nowMs, counter := 0 }
      else (do
        let counter ← Machine.add (self.leadingCounter remoteWall remoteCounter) 1
        pure { self with wallTimeMs := max self.wallTimeMs remoteWall, counter := counter }) := by
  rw [adopt, leadingCounter]
  rcases lt_trichotomy self.wallTimeMs remoteWall with behind | level | ahead
  · simp only [behind.ne, behind, max_eq_right behind.le, if_true, if_false]
  · simp only [level, max_self, if_true]
  · simp only [ahead.ne', ahead.not_gt, max_eq_left ahead.le, if_false]

theorem leadingCounter_add_one_lt_iff (remoteWall : Fin (2 ^ 64)) (remoteCounter : Fin (2 ^ 32)) :
    (self.leadingCounter remoteWall remoteCounter).val + 1 < 2 ^ 32 ↔
      (remoteWall ≤ self.wallTimeMs → self.counter.val + 1 < 2 ^ 32) ∧
        (self.wallTimeMs ≤ remoteWall → remoteCounter.val + 1 < 2 ^ 32) := by
  rw [leadingCounter]
  rcases lt_trichotomy self.wallTimeMs remoteWall with behind | level | ahead
  · simp only [behind.ne, behind, behind.le, behind.not_ge, if_true, if_false, forall_true_left,
      false_imp_iff, true_and]
  · simp only [level, le_refl, if_true, forall_true_left]
    rw [Fin.coe_max]
    omega
  · simp only [ahead.ne', ahead.not_gt, ahead.le, ahead.not_ge, if_false, forall_true_left,
      false_imp_iff, and_true]

variable {remoteWall : Fin (2 ^ 64)}

theorem counter_le_leadingCounter (remoteCounter : Fin (2 ^ 32))
    (leads : remoteWall ≤ self.wallTimeMs) :
    self.counter ≤ self.leadingCounter remoteWall remoteCounter := by
  rw [leadingCounter, if_neg leads.not_gt]
  split
  · exact le_max_left _ _
  · exact le_rfl

theorem remoteCounter_le_leadingCounter (remoteCounter : Fin (2 ^ 32))
    (leads : self.wallTimeMs ≤ remoteWall) :
    remoteCounter ≤ self.leadingCounter remoteWall remoteCounter := by
  rw [leadingCounter]
  split
  · exact le_max_right _ _
  · rename_i different
    rw [if_pos (lt_of_le_of_ne leads different)]

/-- A clamped remote timestamp is adopted without overflow if the wall clock is ahead
or the leading counters can count on. -/
theorem overflowed_adopt_eq_false_iff (nowMs remoteWall : Fin (2 ^ 64))
    (remoteCounter : Fin (2 ^ 32)) :
    (self.adopt nowMs remoteWall remoteCounter).overflowed = false ↔
      self.wallTimeMs < nowMs ∧ remoteWall < nowMs ∨
        (remoteWall ≤ self.wallTimeMs → self.counter.val + 1 < 2 ^ 32) ∧
          (self.wallTimeMs ≤ remoteWall → remoteCounter.val + 1 < 2 ^ 32) := by
  rw [adopt_eq, ← leadingCounter_add_one_lt_iff]
  split
  · rename_i ahead
    exact iff_of_true rfl (.inl ahead)
  · rename_i notAhead
    rw [or_iff_right notAhead, Machine.overflowed_bind, Machine.overflowed_pure, Bool.or_false]
    exact Machine.overflowed_add_eq_false_iff _ _

/-- Later than this wall time and counter, whatever the node. -/
def Exceeds (stamp : HlcTimestamp) (wallTimeMs : Fin (2 ^ 64)) (counter : Fin (2 ^ 32)) : Prop :=
  wallTimeMs.val < stamp.wallTimeMs.val ∨
    wallTimeMs.val = stamp.wallTimeMs.val ∧ counter.val < stamp.counter.val

theorem Exceeds.lt {stamp other : HlcTimestamp}
    (exceeds : stamp.Exceeds other.wallTimeMs other.counter) : other < stamp := by
  rw [lt_iff]
  exact exceeds.imp_right fun ⟨same, counted⟩ => ⟨same, .inl counted⟩

/-- What adopting without overflow makes of the clock. -/
structure Adopted (clock : HlcTimestamp) (nowMs remoteWall : Fin (2 ^ 64))
    (remoteCounter : Fin (2 ^ 32)) (stamp : HlcTimestamp) : Prop where
  own : stamp.Exceeds clock.wallTimeMs clock.counter
  remote : stamp.Exceeds remoteWall remoteCounter
  wallTimeMs_le :
    stamp.wallTimeMs.val ≤ max clock.wallTimeMs.val (max nowMs.val remoteWall.val)

/-- Counting on from the leading counter exceeds both clocks. -/
theorem exceeds_of_counted {self stamp : HlcTimestamp}
    {remoteCounter : Fin (2 ^ 32)} (wall_eq : stamp.wallTimeMs = max self.wallTimeMs remoteWall)
    (counter_eq : stamp.counter.val = (self.leadingCounter remoteWall remoteCounter).val + 1) :
    stamp.Exceeds self.wallTimeMs self.counter ∧ stamp.Exceeds remoteWall remoteCounter := by
  rw [Exceeds, Exceeds, wall_eq, counter_eq, Nat.lt_succ_iff, Nat.lt_succ_iff]
  constructor
  · rcases lt_or_ge self.wallTimeMs remoteWall with behind | leads
    · exact .inl (by rwa [max_eq_right behind.le])
    · exact .inr ⟨by rw [max_eq_left leads], self.counter_le_leadingCounter remoteCounter leads⟩
  · rcases lt_or_ge remoteWall self.wallTimeMs with behind | leads
    · exact .inl (by rwa [max_eq_left behind.le])
    · exact .inr ⟨by rw [max_eq_right leads],
        self.remoteCounter_le_leadingCounter remoteCounter leads⟩

theorem adopted_of_completes {self : HlcTimestamp} {nowMs : Fin (2 ^ 64)}
    {remoteCounter : Fin (2 ^ 32)}
    (completes : (self.adopt nowMs remoteWall remoteCounter).overflowed = false) :
    Adopted self nowMs remoteWall remoteCounter
      (self.adopt nowMs remoteWall remoteCounter).value := by
  rw [adopt_eq] at completes ⊢
  split at completes
  · rename_i ahead
    rw [if_pos ahead]
    exact ⟨.inl ahead.1, .inl ahead.2, by simp⟩
  · rename_i notAhead
    rw [Machine.overflowed_bind, Machine.overflowed_pure, Bool.or_false,
      Machine.overflowed_add_eq_false_iff] at completes
    rw [if_neg notAhead, Machine.value_bind, Machine.value_pure]
    have counter_eq := Machine.val_add_of_lt completes
    refine ⟨(exceeds_of_counted rfl counter_eq).1, (exceeds_of_counted rfl counter_eq).2, ?_⟩
    rw [Fin.coe_max]
    omega

theorem update_eq (nowMs : Fin (2 ^ 64)) (remote : HlcTimestamp) :
    self.update nowMs remote = (do
      let bound ← Machine.add nowMs maxSkewMs
      self.adopt nowMs (min remote.wallTimeMs bound) remote.counter) := by
  simp only [update, min_def, ← not_lt, ite_not]

theorem val_skewBound {nowMs : Fin (2 ^ 64)} (fits : nowMs.val + maxSkewMs.val < 2 ^ 64)
    (remote : HlcTimestamp) :
    (min remote.wallTimeMs (Machine.add nowMs maxSkewMs).value).val =
      min remote.wallTimeMs.val (nowMs.val + maxSkewMs.val) := by
  rw [Fin.coe_min, Machine.val_add_of_lt fits]

/-! ## One event -/

/-- What a node does with its clock. -/
inductive ClockEvent where
  | tick (nowMs : Fin (2 ^ 64))
  | update (nowMs : Fin (2 ^ 64)) (remote : HlcTimestamp)

namespace ClockEvent

def perform (clock : HlcTimestamp) : ClockEvent → Machine HlcTimestamp
  | tick nowMs => clock.tick nowMs
  | update nowMs remote => clock.update nowMs remote

/-- The additions of the event stay below the widths: the wall clock is ahead, or
the counters that decide are not at their largest value; and the skew bound of a
receipt is representable. -/
def Fits (clock : HlcTimestamp) : ClockEvent → Prop
  | tick nowMs => clock.wallTimeMs < nowMs ∨ clock.counter.val + 1 < 2 ^ 32
  | update nowMs remote =>
    let remoteWall := min remote.wallTimeMs.val (nowMs.val + maxSkewMs.val)
    nowMs.val + maxSkewMs.val < 2 ^ 64 ∧
      (clock.wallTimeMs.val < nowMs.val ∧ remoteWall < nowMs.val ∨
        (remoteWall ≤ clock.wallTimeMs.val → clock.counter.val + 1 < 2 ^ 32) ∧
          (clock.wallTimeMs.val ≤ remoteWall → remote.counter.val + 1 < 2 ^ 32))

/-- The event completes without overflow and moves the clock forward. -/
def Advances (clock : HlcTimestamp) (event : ClockEvent) : Prop :=
  (event.perform clock).overflowed = false ∧ clock < (event.perform clock).value

theorem advances_tick_iff (clock : HlcTimestamp) (nowMs : Fin (2 ^ 64)) :
    Advances clock (tick nowMs) ↔ Fits clock (tick nowMs) := by
  rw [Advances, perform, HlcTimestamp.tick, Fits]
  split
  · rename_i ahead
    exact iff_of_true ⟨rfl, Exceeds.lt (.inl ahead)⟩ (.inl ahead)
  · rename_i notAhead
    have fits_iff : (Machine.add clock.counter 1).overflowed = false ↔
        clock.counter.val + 1 < 2 ^ 32 := Machine.overflowed_add_eq_false_iff _ _
    rw [or_iff_right notAhead, Machine.overflowed_bind, Machine.overflowed_pure, Bool.or_false,
      fits_iff, and_iff_left_iff_imp]
    intro fits
    have counter_eq : (Machine.add clock.counter 1).value.val = clock.counter.val + 1 :=
      Machine.val_add_of_lt fits
    exact Exceeds.lt (.inr ⟨rfl, counter_eq ▸ Nat.lt_succ_self _⟩)

theorem advances_update_iff (clock : HlcTimestamp) (nowMs : Fin (2 ^ 64)) (remote : HlcTimestamp) :
    Advances clock (update nowMs remote) ↔ Fits clock (update nowMs remote) := by
  rw [Advances, perform, update_eq, Machine.overflowed_bind, Bool.or_eq_false_iff,
    Machine.overflowed_add_eq_false_iff, and_assoc]
  refine and_congr_right fun fits => ?_
  rw [Machine.value_bind,
    and_iff_left_of_imp fun completes => (adopted_of_completes completes).own.lt,
    overflowed_adopt_eq_false_iff]
  simp only [Fin.lt_def, Fin.le_def, val_skewBound fits]

theorem advances_iff (clock : HlcTimestamp) (event : ClockEvent) :
    Advances clock event ↔ Fits clock event := by
  cases event with
  | tick nowMs => exact advances_tick_iff clock nowMs
  | update nowMs remote => exact advances_update_iff clock nowMs remote

/-! ## Sequences of events -/

/-- Every event of the sequence advances the clock it meets. -/
def AllAdvance : HlcTimestamp → List ClockEvent → Prop
  | _, [] => True
  | clock, event :: events =>
    Advances clock event ∧ AllAdvance (event.perform clock).value events

/-- Every event of the sequence fits the clock it meets. -/
def AllFit : HlcTimestamp → List ClockEvent → Prop
  | _, [] => True
  | clock, event :: events =>
    Fits clock event ∧ AllFit (event.perform clock).value events

/-- From any clock, the events of a sequence, such as a receipt and the ticks that
follow it, complete and move the clock forward one after the other exactly if each of
them fits the clock it meets. -/
theorem allAdvance_iff (clock : HlcTimestamp) (events : List ClockEvent) :
    AllAdvance clock events ↔ AllFit clock events := by
  induction events generalizing clock with
  | nil => exact Iff.rfl
  | cons event events ih =>
    rw [AllAdvance, AllFit, advances_iff, ih]

/-- A peer's timestamp with the largest counter, received in the millisecond of the
local clock, throws the counter back to zero. -/
theorem update_overflows :
    let own : HlcTimestamp := ⟨1700000000000, 5, 1⟩
    let remote : HlcTimestamp := ⟨1700000000000, 2 ^ 32 - 1, 2⟩
    let result := own.update 1700000000000 remote
    result.overflowed = true ∧ result.value < own := by
  decide

end ClockEvent

end HiveGuard.Core.HlcTimestamp
