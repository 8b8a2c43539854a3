import HiveGuard.Core.Models
import HiveGuard.Library.Dictionary

/-!
# Limits on what a peer may send

A sliding-window rate limiter, and the test that quarantines a node whose ban
volume is far above the others'.  Calls that read the clock take the times they
read as arguments.
-/

namespace HiveGuard.Core

open Library.Dictionary

/-- Sliding window rate limiter per key. -/
structure RateLimiter where
  maxPerWindow : Nat
  window : Duration
  entries : Dict String (List DateTime)
  maxKeys : Nat

namespace RateLimiter

def defaultMaxKeys : Nat :=
  10000

def new (maxPerWindow : Nat) (window : Duration) : RateLimiter :=
  ⟨maxPerWindow, window, ∅, defaultMaxKeys⟩

def cleanup (self : RateLimiter) (now : DateTime) : RateLimiter :=
  { self with
    entries := retain (fun _ timestamps => !timestamps.isEmpty)
      (mapValues (List.filter fun time => decide (now - self.window < time)) self.entries) }

/-- Are as many keys tracked as are allowed? -/
def full (self : RateLimiter) : Bool :=
  decide (self.maxKeys ≤ self.entries.keys.length)

/-- The part of `checkAndRecord` behind the limit on keys. -/
def recordEntry (self : RateLimiter) (key : String) (now : DateTime) : Bool × RateLimiter :=
  let timestamps := ((self.entries.lookup key).getD []).filter fun time =>
    decide (now - self.window < time)
  if self.maxPerWindow ≤ timestamps.length then
    (false, { self with entries := self.entries.insert key timestamps })
  else
    (true, { self with entries := self.entries.insert key (timestamps ++ [now]) })

/-- Check if an entry is allowed and record it if so.  A new key at capacity is
accepted only if a cleanup, which reads the clock again, makes room. -/
def checkAndRecord (self : RateLimiter) (key : String) (now cleanupNow : DateTime) :
    Bool × RateLimiter :=
  if (self.entries.lookup key).isNone && self.full then
    let cleaned := self.cleanup cleanupNow
    if cleaned.full then (false, cleaned) else cleaned.recordEntry key now
  else
    self.recordEntry key now

/-- The times at which a key was charged and that are still counted. -/
def timestamps (self : RateLimiter) (key : String) : List DateTime :=
  (self.entries.lookup key).getD []

/-- No key was charged; old times may have been forgotten. -/
def Spared (before after : RateLimiter) : Prop :=
  ∀ key, (after.timestamps key).Sublist (before.timestamps key)

/-- The key was charged once, at this time. -/
structure Charged (key : String) (now : DateTime) (before after : RateLimiter) : Prop where
  charged : after.timestamps key =
    (before.timestamps key).filter (fun time => decide (now - before.window < time)) ++ [now]
  others : ∀ other, other ≠ key → (after.timestamps other).Sublist (before.timestamps other)

theorem timestamps_insert (self : RateLimiter) (key probe : String) (times : List DateTime) :
    timestamps { self with entries := self.entries.insert key times } probe =
      if probe = key then times else self.timestamps probe := by
  simp only [timestamps, lookup_insert]
  split <;> rfl

theorem spared_cleanup (self : RateLimiter) (now : DateTime) :
    Spared self (self.cleanup now) := by
  intro key
  simp only [timestamps, cleanup, lookup_retain, lookup_mapValues]
  cases self.entries.lookup key with
  | none => exact List.Sublist.refl []
  | some times =>
    simp only [Option.map_some, Option.filter_some, Option.getD_some]
    split
    · exact List.filter_sublist
    · exact List.nil_sublist times

theorem recordEntry_cases (self : RateLimiter) (key : String) (now : DateTime) :
    if (self.recordEntry key now).1 then Charged key now self (self.recordEntry key now).2
    else Spared self (self.recordEntry key now).2 := by
  rw [recordEntry]
  split
  · rw [if_neg Bool.false_ne_true]
    intro probe
    rw [timestamps_insert]
    split
    · rename_i same
      rw [same]
      exact List.filter_sublist
    · exact List.Sublist.refl _
  · rw [if_pos rfl]
    constructor
    · rw [timestamps_insert, if_pos rfl]
      rfl
    · intro other different
      rw [timestamps_insert, if_neg different]

/-- A key that is allowed is charged once, and one that is refused is not charged. -/
theorem checkAndRecord_cases (self : RateLimiter) (key : String) (now cleanupNow : DateTime) :
    if (self.checkAndRecord key now cleanupNow).1 then
      Charged key now self (self.checkAndRecord key now cleanupNow).2
    else Spared self (self.checkAndRecord key now cleanupNow).2 := by
  rw [checkAndRecord]
  split
  · rename_i newKey
    have absent : self.timestamps key = [] := by
      rw [timestamps, Option.isNone_iff_eq_none.mp (Bool.and_eq_true_iff.mp newKey).1]
      rfl
    have cleaned := self.spared_cleanup cleanupNow
    have stillAbsent : (self.cleanup cleanupNow).timestamps key = [] :=
      List.sublist_nil.mp (absent ▸ cleaned key)
    dsimp only
    split
    · rw [if_neg Bool.false_ne_true]
      exact cleaned
    · have recorded := (self.cleanup cleanupNow).recordEntry_cases key now
      split
      · rename_i allowed
        rw [if_pos allowed] at recorded
        constructor
        · rw [recorded.charged, stillAbsent, absent]
          rfl
        · exact fun other different => (recorded.others other different).trans (cleaned other)
      · rename_i refused
        rw [if_neg refused] at recorded
        exact fun other => (recorded other).trans (cleaned other)
  · exact self.recordEntry_cases key now

end RateLimiter

/-- Quarantine a node with more than ten times the median ban count. -/
def checkQuarantine (nodeBanCount medianBanCount : Nat) : Bool :=
  let threshold := if medianBanCount = 0 then 10 else medianBanCount * 10
  decide (threshold < nodeBanCount)

/-- The median of some values, rounded down. -/
def median (values : List Nat) : Nat :=
  let sorted := values.insertionSort (· ≤ ·)
  let mid := sorted.length / 2
  if values.isEmpty then 0
  else if sorted.length % 2 = 0 then (sorted.getD (mid - 1) 0 + sorted.getD mid 0) / 2
  else sorted.getD mid 0

end HiveGuard.Core
