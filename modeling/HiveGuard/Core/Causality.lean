import HiveGuard.Core.HlcClock

/-!
# Timestamps and causality

In a run of any number of nodes, local and send events tick and receive events
update with the timestamp that was sent, at arbitrary wall clock readings.  An event
that happens before another one has the smaller timestamp, as long as the skew bound of a
receipt does not wrap around: no clock is so late that it does.
-/

namespace HiveGuard.Core.Causality

open Library
open HlcTimestamp

universe u

variable {Node : Type u}

/-- An event of a run: where it happened and at which reading, the clock it met, what
it received, and the timestamp it was given. -/
structure Event (Node : Type u) where
  node : Node
  nowMs : Fin (2 ^ 64)
  before : HlcTimestamp
  /-- The position of the send event, for a receive event. -/
  origin : Option Nat
  stamp : HlcTimestamp

/-- A run of nodes that start with these clocks: its events, and the clocks it ends
with.  Messages may be lost, delayed, duplicated and reordered. -/
inductive Run [DecidableEq Node] (initial : Node → HlcTimestamp) :
    List (Event Node) → (Node → HlcTimestamp) → Prop
  | start : Run initial [] initial
  | tick {events : List (Event Node)} {clocks : Node → HlcTimestamp}
      (earlier : Run initial events clocks) (node : Node) (nowMs : Fin (2 ^ 64))
      {stamp : HlcTimestamp} (ticked : ((clocks node).tick nowMs).value = stamp) :
      Run initial (events ++ [⟨node, nowMs, clocks node, none, stamp⟩])
        (Function.update clocks node stamp)
  | receive {events : List (Event Node)} {clocks : Node → HlcTimestamp}
      (earlier : Run initial events clocks) (node : Node) (nowMs : Fin (2 ^ 64))
      {origin : Nat} {sent : Event Node} (found : events[origin]? = some sent)
      (within : sent.stamp.wallTimeMs.val ≤ nowMs.val + maxSkewMs.val) {stamp : HlcTimestamp}
      (updated : ((clocks node).update nowMs sent.stamp).value = stamp) :
      Run initial (events ++ [⟨node, nowMs, clocks node, some origin, stamp⟩])
        (Function.update clocks node stamp)

/-- The direct causes: an earlier event of the same node, and the sending of what is
received. -/
def Precedes (events : List (Event Node)) (first second : Nat) : Prop :=
  ∃ cause effect, events[first]? = some cause ∧ events[second]? = some effect ∧
    (first < second ∧ cause.node = effect.node ∨ effect.origin = some first)

/-- The causal order of a run. -/
def HappensBefore (events : List (Event Node)) : Nat → Nat → Prop :=
  Relation.TransGen (Precedes events)

/-- A reading that is the skew or more before the largest representable time, as those of a
system clock are. -/
def Readable (nowMs : Fin (2 ^ 64)) : Prop :=
  nowMs.val + maxSkewMs.val < 2 ^ 64

/-- The receipts of a run read the clock at such times. -/
def ReadableReceipts (events : List (Event Node)) : Prop :=
  ∀ event ∈ events, event.origin.isSome → Readable event.nowMs

/-! ## One receipt -/

/-- The counter can count on. -/
def CanCount (stamp : HlcTimestamp) : Prop :=
  stamp.counter.val < 2 ^ 32 - 1

section Receipt

variable {clock remote : HlcTimestamp} {nowMs : Fin (2 ^ 64)}

variable (nowMs) in
/-- With counters that can count on, only the skew bound may wrap around. -/
theorem adopted_update (own : CanCount clock) (theirs : CanCount remote) :
    Adopted clock nowMs (min remote.wallTimeMs (Machine.add nowMs maxSkewMs).value)
      remote.counter (clock.update nowMs remote).value := by
  rw [update_eq, Machine.value_bind]
  apply adopted_of_completes
  rw [overflowed_adopt_eq_false_iff]
  exact .inr ⟨fun _ => Nat.add_lt_of_lt_sub own, fun _ => Nat.add_lt_of_lt_sub theirs⟩

theorem lt_update (own : CanCount clock) (theirs : CanCount remote) :
    clock < (clock.update nowMs remote).value :=
  (adopted_update nowMs own theirs).own.lt

theorem wallTimeMs_update_le (own : CanCount clock) (theirs : CanCount remote)
    (within : remote.wallTimeMs.val ≤ nowMs.val + maxSkewMs.val) :
    (clock.update nowMs remote).value.wallTimeMs.val ≤
      max clock.wallTimeMs.val (nowMs.val + maxSkewMs.val) := by
  have bounded := (adopted_update nowMs own theirs).wallTimeMs_le
  rw [Fin.coe_min] at bounded
  omega

theorem remote_lt_update (own : CanCount clock) (theirs : CanCount remote)
    (readable : Readable nowMs) (within : remote.wallTimeMs.val ≤ nowMs.val + maxSkewMs.val) :
    remote < (clock.update nowMs remote).value := by
  have unclamped : min remote.wallTimeMs (Machine.add nowMs maxSkewMs).value =
      remote.wallTimeMs := by
    rw [Fin.ext_iff, val_skewBound readable]
    exact min_eq_left within
  have adopted := adopted_update nowMs own theirs
  rw [unclamped] at adopted
  exact adopted.remote.lt

end Receipt

theorem lt_tick {clock : HlcTimestamp} (nowMs : Fin (2 ^ 64)) (counts : CanCount clock) :
    clock < (clock.tick nowMs).value :=
  ((ClockEvent.advances_tick_iff clock nowMs).mpr (.inr (Nat.add_lt_of_lt_sub counts))).2

theorem wallTimeMs_tick_le (clock : HlcTimestamp) (nowMs : Fin (2 ^ 64)) :
    (clock.tick nowMs).value.wallTimeMs.val ≤
      max clock.wallTimeMs.val (nowMs.val + maxSkewMs.val) := by
  rw [tick]
  split
  · exact le_max_of_le_right (Nat.le_add_right _ _)
  · exact le_max_left _ _

/-! ## Runs -/

variable {events : List (Event Node)}

theorem getElem?_append_singleton_iff {last event : Event Node}
    {position : Nat} :
    (events ++ [last])[position]? = some event ↔
      events[position]? = some event ∨ position = events.length ∧ event = last := by
  rcases lt_trichotomy position events.length with before | rfl | beyond
  · simp [List.getElem?_append_left before, before.ne]
  · simp [eq_comm]
  · simp [List.getElem?_eq_none, beyond.le, beyond.ne', Nat.succ_le_of_lt beyond]

/-- What holds of every run whose counters can count on and whose readings fit. -/
structure Sound (events : List (Event Node)) (clocks : Node → HlcTimestamp) : Prop where
  latest : ∀ event ∈ events, event.stamp ≤ clocks event.node
  ordered : ∀ (first second : Nat) (cause effect : Event Node), events[first]? = some cause →
    events[second]? = some effect → first < second → cause.node = effect.node →
      cause.stamp < effect.stamp
  origin_lt : ∀ event ∈ events, ∀ origin, event.origin = some origin → origin < events.length
  receipt : ∀ event ∈ events, ∀ (origin : Nat) (sent : Event Node),
    event.origin = some origin → events[origin]? = some sent → sent.stamp < event.stamp
  bounded : ∀ event ∈ events, event.stamp.wallTimeMs.val ≤
    max event.before.wallTimeMs.val (event.nowMs.val + maxSkewMs.val)

variable {clocks : Node → HlcTimestamp}

/-- One more event: it exceeds the clock of its node and what it received, and stays within
the bound. -/
theorem Sound.extend [DecidableEq Node] (sound : Sound events clocks) {event : Event Node}
    (advances : clocks event.node < event.stamp)
    (origin_lt : ∀ origin, event.origin = some origin → origin < events.length)
    (receipt : ∀ (origin : Nat) (sent : Event Node), event.origin = some origin →
      events[origin]? = some sent → sent.stamp < event.stamp)
    (bounded : event.stamp.wallTimeMs.val ≤
      max event.before.wallTimeMs.val (event.nowMs.val + maxSkewMs.val)) :
    Sound (events ++ [event]) (Function.update clocks event.node event.stamp) where
  latest := by
    intro other member
    by_cases same : other.node = event.node
    · rw [same, Function.update_self]
      rcases List.mem_append.mp member with before | last
      · exact ((sound.latest other before).trans_lt (same ▸ advances)).le
      · rw [List.mem_singleton.mp last]
    · rw [Function.update_of_ne same]
      rcases List.mem_append.mp member with before | last
      · exact sound.latest other before
      · exact absurd (congrArg Event.node (List.mem_singleton.mp last)) same
  ordered := by
    intro first second cause effect causeFound effectFound order same
    rw [getElem?_append_singleton_iff] at causeFound effectFound
    rcases causeFound with causeFound | ⟨rfl, rfl⟩
    · rcases effectFound with effectFound | ⟨rfl, rfl⟩
      · exact sound.ordered first second cause effect causeFound effectFound order same
      · exact (sound.latest cause (List.mem_of_getElem? causeFound)).trans_lt (same ▸ advances)
    · rcases effectFound with effectFound | ⟨rfl, rfl⟩
      · exact absurd (List.getElem?_eq_some_iff.mp effectFound).1 order.not_gt
      · exact absurd order (lt_irrefl _)
  origin_lt := by
    intro other member origin found
    rw [List.length_append]
    rcases List.mem_append.mp member with before | last
    · exact Nat.lt_add_right _ (sound.origin_lt other before origin found)
    · rw [List.mem_singleton.mp last] at found
      exact Nat.lt_add_right _ (origin_lt origin found)
  receipt := by
    intro other member origin sent found sentFound
    rcases List.mem_append.mp member with before | last
    · rw [List.getElem?_append_left (sound.origin_lt other before origin found)] at sentFound
      exact sound.receipt other before origin sent found sentFound
    · obtain rfl := List.mem_singleton.mp last
      rw [List.getElem?_append_left (origin_lt origin found)] at sentFound
      exact receipt origin sent found sentFound
  bounded := by
    intro other member
    rcases List.mem_append.mp member with before | last
    · exact sound.bounded other before
    · rw [List.mem_singleton.mp last]
      exact bounded

theorem Run.canCount [DecidableEq Node] {initial : Node → HlcTimestamp}
    (run : Run initial events clocks) (initialCounts : ∀ node, CanCount (initial node))
    (counts : ∀ event ∈ events, CanCount event.stamp) (node : Node) : CanCount (clocks node) := by
  induction run with
  | start => exact initialCounts node
  | tick earlier changed nowMs ticked ih
  | receive earlier changed nowMs found within updated ih =>
    by_cases same : node = changed
    · subst node
      rw [Function.update_self]
      exact counts _ (List.mem_append_right _ (List.mem_singleton_self _))
    · rw [Function.update_of_ne same]
      exact ih (List.forall_mem_append.mp counts).1

theorem Run.sound [DecidableEq Node] {initial : Node → HlcTimestamp}
    (run : Run initial events clocks) (initialCounts : ∀ node, CanCount (initial node))
    (counts : ∀ event ∈ events, CanCount event.stamp) (readable : ReadableReceipts events) :
    Sound events clocks := by
  induction run with
  | start => exact ⟨by simp, by simp, by simp, by simp, by simp⟩
  | @tick events clocks earlier node nowMs stamp ticked ih =>
    have earlierCounts := (List.forall_mem_append.mp counts).1
    have own := earlier.canCount initialCounts earlierCounts node
    have advances : clocks node < stamp := ticked ▸ lt_tick nowMs own
    refine (ih earlierCounts (List.forall_mem_append.mp readable).1).extend advances ?_ ?_ ?_
    · intro origin found
      contradiction
    · intro origin sent found
      contradiction
    · exact ticked ▸ wallTimeMs_tick_le (clocks node) nowMs
  | @receive events clocks earlier node nowMs origin sent found within stamp updated
      ih =>
      have earlierCounts := (List.forall_mem_append.mp counts).1
      have own := earlier.canCount initialCounts earlierCounts node
      have theirs := earlierCounts sent (List.mem_of_getElem? found)
      have advances : clocks node < stamp := updated ▸ lt_update own theirs
      obtain ⟨earlierReadable, lastReadable⟩ := List.forall_mem_append.mp readable
      have readableNow : Readable nowMs := lastReadable _ (List.mem_singleton_self _) rfl
      have receipt : sent.stamp < stamp :=
        updated ▸ remote_lt_update own theirs readableNow within
      have bounded : stamp.wallTimeMs.val ≤
          max (clocks node).wallTimeMs.val (nowMs.val + maxSkewMs.val) := by
        rw [← updated]
        exact wallTimeMs_update_le own theirs within
      refine (ih earlierCounts earlierReadable).extend advances ?_ ?_ ?_
      · rintro _ ⟨⟩
        exact (List.getElem?_eq_some_iff.mp found).1
      · rintro _ _ ⟨⟩ sameFound
        obtain rfl := Option.some.inj (found.symm.trans sameFound)
        exact receipt
      · exact bounded

theorem Sound.lt_of_precedes (sound : Sound events clocks) {first second : Nat}
    (edge : Precedes events first second) {cause effect : Event Node}
    (causeFound : events[first]? = some cause) (effectFound : events[second]? = some effect) :
    cause.stamp < effect.stamp := by
  obtain ⟨_, _, sameCause, sameEffect, reason⟩ := edge
  obtain rfl := Option.some.inj (sameCause.symm.trans causeFound)
  obtain rfl := Option.some.inj (sameEffect.symm.trans effectFound)
  rcases reason with ⟨order, same⟩ | received
  · exact sound.ordered first second _ _ causeFound effectFound order same
  · exact sound.receipt _ (List.mem_of_getElem? effectFound) first _ received causeFound

/-- In every run whose counters stay below their largest value, with receipts at readings of a
system clock, the timestamps follow the causal order and no wall time passes the skew bound of
its reading. -/
theorem stamps_follow_causal_order [DecidableEq Node] {initial : Node → HlcTimestamp}
    {events : List (Event Node)} {clocks : Node → HlcTimestamp} (run : Run initial events clocks)
    (initialCounts : ∀ node, (initial node).counter.val < 2 ^ 32 - 1)
    (counts : ∀ event ∈ events, event.stamp.counter.val < 2 ^ 32 - 1)
    (readable : ReadableReceipts events) :
    (∀ (first second : Nat) (cause effect : Event Node), HappensBefore events first second →
      events[first]? = some cause → events[second]? = some effect →
        cause.stamp.cmp effect.stamp = .lt) ∧
      ∀ event ∈ events, event.stamp.wallTimeMs.val ≤
        max event.before.wallTimeMs.val (event.nowMs.val + maxSkewMs.val) := by
  have sound := run.sound initialCounts counts readable
  refine ⟨fun first second cause effect happens causeFound effectFound => ?_, sound.bounded⟩
  rw [cmp_eq_lt_iff]
  induction happens generalizing effect with
  | single edge => exact sound.lt_of_precedes edge causeFound effectFound
  | tail _ edge ih =>
    have ⟨middle, _, middleFound, _⟩ := edge
    exact (ih middle middleFound).trans (sound.lt_of_precedes edge middleFound effectFound)

/-- Two nodes that have not seen any event. -/
def sampleClocks : Bool → HlcTimestamp
  | false => ⟨0, 0, 1⟩
  | true => ⟨0, 0, 2⟩

/-- Two local events of the first node and the receipt of the second one's timestamp. -/
def sampleEvents (sendMs receiveMs : Fin (2 ^ 64)) (first second received : HlcTimestamp) :
    List (Event Bool) :=
  [⟨false, sendMs, ⟨0, 0, 1⟩, none, first⟩, ⟨false, sendMs, first, none, second⟩,
    ⟨true, receiveMs, ⟨0, 0, 2⟩, some 1, received⟩]

theorem sampleRun {sendMs receiveMs : Fin (2 ^ 64)} {first second received : HlcTimestamp}
    (ticked : (HlcTimestamp.tick ⟨0, 0, 1⟩ sendMs).value = first)
    (tickedAgain : (first.tick sendMs).value = second)
    (within : second.wallTimeMs.val ≤ receiveMs.val + maxSkewMs.val)
    (updated : (HlcTimestamp.update ⟨0, 0, 2⟩ receiveMs second).value = received) :
    ∃ clocks, Run sampleClocks (sampleEvents sendMs receiveMs first second received) clocks := by
  have sends : Run sampleClocks
      [⟨false, sendMs, ⟨0, 0, 1⟩, none, first⟩, ⟨false, sendMs, first, none, second⟩]
      (Function.update (Function.update sampleClocks false first) false second) :=
    .tick (.tick .start false sendMs ticked) false sendMs tickedAgain
  have found : [⟨false, sendMs, ⟨0, 0, 1⟩, none, first⟩,
      ⟨false, sendMs, first, none, second⟩][1]? =
        some (⟨false, sendMs, first, none, second⟩ : Event Bool) := rfl
  exact ⟨_, sends.receive true receiveMs found within updated⟩

theorem causality_sample :
    let sent : HlcTimestamp := ⟨1000000, 1, 1⟩
    let received : HlcTimestamp := ⟨1000000, 2, 2⟩
    let events := sampleEvents 1000000 800000 ⟨1000000, 0, 1⟩ sent received
    HappensBefore events 0 2 ∧ ∀ cause effect, events[0]? = some cause →
      events[2]? = some effect → cause.stamp.cmp effect.stamp = .lt := by
  intro sent received events
  have causes : Precedes events 0 1 := ⟨_, _, rfl, rfl, .inl ⟨Nat.zero_lt_one, rfl⟩⟩
  have sends : Precedes events 1 2 := ⟨_, _, rfl, rfl, .inr rfl⟩
  have happens : HappensBefore events 0 2 := .tail (.single causes) sends
  have fits : ∀ event ∈ events, event.nowMs.val + maxSkewMs.val < 2 ^ 64 := by decide
  obtain ⟨clocks, run⟩ : ∃ clocks, Run sampleClocks events clocks :=
    sampleRun (by decide) (by decide) (by decide) (by decide)
  obtain ⟨causal, -⟩ := stamps_follow_causal_order run (by decide) (by decide) fun event member _ =>
    fits event member
  exact ⟨happens, fun cause effect => causal 0 2 cause effect happens⟩

end HiveGuard.Core.Causality
