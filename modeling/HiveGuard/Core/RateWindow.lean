import HiveGuard.Core.AntiPoison
import HiveGuard.Library.SlidingWindow

/-!
# The rate limiter over whole runs

A limiter forgets instants that have left the window and, when it is full, keys without
recent instants.  The log of accepted calls forgets nothing.  As long as the clock does not
go back, the two agree on every window that is still to be asked about, so the limit holds
for every window of the log.
-/

namespace HiveGuard.Core.RateLimiter

open Library.Dictionary Library.SlidingWindow

/-- A call with the times it reads.  The second time of a check is read by the cleanup, if
there is one. -/
inductive Operation where
  | checkAndRecord (key : String) (now cleanupNow : DateTime)
  | cleanup (now : DateTime)

/-- The clock readings of a call, in order. -/
def Operation.readings : Operation → List DateTime
  | .checkAndRecord _ now cleanupNow => [now, cleanupNow]
  | .cleanup now => [now]

/-- The accepted calls: keys and times. -/
abbrev Log := List (String × DateTime)

def Log.times (log : Log) (key : String) : List DateTime :=
  (log.filter fun entry => decide (entry.1 = key)).map Prod.snd

/-- One call; an accepted check is logged. -/
def step (log : Log) (self : RateLimiter) : Operation → Log × RateLimiter
  | .checkAndRecord key now cleanupNow =>
    let (allowed, next) := self.checkAndRecord key now cleanupNow
    (if allowed then log ++ [(key, now)] else log, next)
  | .cleanup now => (log, self.cleanup now)

def run (log : Log) (self : RateLimiter) : List Operation → Log × RateLimiter
  | [] => (log, self)
  | operation :: operations =>
    let (log, next) := step log self operation
    run log next operations

/-- What holds between the calls, with the last clock reading: the limiter agrees with the
log about all windows from there on, and the limits are kept. -/
structure Tracks (maxPerWindow : Nat) (window : Duration) (maxKeys : Nat) (last : DateTime)
    (log : Log) (limiter : RateLimiter) : Prop where
  maxPerWindow_eq : limiter.maxPerWindow = maxPerWindow
  window_eq : limiter.window = window
  maxKeys_eq : limiter.maxKeys = maxKeys
  agrees : ∀ key now, last ≤ now →
    active window now (limiter.timestamps key) = active window now (log.times key)
  seen : ∀ key, ∀ time ∈ log.times key, time ≤ last
  bounded : ∀ key instant, (within window instant (log.times key)).length ≤ maxPerWindow
  keys_le : limiter.entries.keys.length ≤ maxKeys

theorem Log.times_append (log : Log) (key probe : String) (now : DateTime) :
    Log.times (log ++ [(key, now)]) probe =
      if probe = key then log.times probe ++ [now] else log.times probe := by
  rw [Log.times, List.filter_append, List.map_append]
  by_cases same : probe = key
  · subst probe
    simp [Log.times]
  · simp [Log.times, same, Ne.symm same]

section Steps

variable {maxPerWindow maxKeys : Nat} {window : Duration} {last now : DateTime} {log : Log}
  {self : RateLimiter} {key : String}

theorem timestamps_cleanup (self : RateLimiter) (now : DateTime) (key : String) :
    (self.cleanup now).timestamps key = active self.window now (self.timestamps key) := by
  simp only [timestamps, cleanup, lookup_retain, lookup_mapValues]
  cases self.entries.lookup key with
  | none => rfl
  | some times =>
    simp only [Option.map_some, Option.filter_some, Option.getD_some]
    split
    · rfl
    · rename_i empty
      simp only [Bool.not_eq_true, Bool.not_eq_false', List.isEmpty_iff] at empty
      exact empty.symm

variable (tracks : Tracks maxPerWindow window maxKeys last log self)

include tracks

theorem Tracks.later (passed : last ≤ now) : Tracks maxPerWindow window maxKeys now log self :=
  { tracks with
    agrees := fun key instant after => tracks.agrees key instant (passed.trans after)
    seen := fun key time member => (tracks.seen key time member).trans passed }

/-- A cleanup forgets only what no later window counts. -/
theorem Tracks.cleanup (passed : last ≤ now) :
    Tracks maxPerWindow window maxKeys now log (self.cleanup now) :=
  { tracks.later passed with
    agrees := by
      intro key instant after
      rw [timestamps_cleanup, tracks.window_eq, active_active after]
      exact tracks.agrees key instant (passed.trans after)
    keys_le := by
      have kept := (keys_retain_sublist (fun _ timestamps => !timestamps.isEmpty)
        (mapValues (List.filter fun time => decide (now - self.window < time))
          self.entries)).length_le
      rw [keys_mapValues] at kept
      exact kept.trans tracks.keys_le }

theorem length_keys_insert_le (room : key ∈ self.entries ∨ self.full = false)
    (times : List DateTime) :
    (self.entries.insert key times).keys.length ≤ maxKeys := by
  rcases room with present | room
  · rw [length_keys_insert_of_mem present]
    exact tracks.keys_le
  · by_cases present : key ∈ self.entries
    · rw [length_keys_insert_of_mem present]
      exact tracks.keys_le
    · rw [length_keys_insert_of_notMem present]
      rw [full, decide_eq_false_iff_not, not_le, tracks.maxKeys_eq] at room
      exact room

/-- A call is accepted if the log has room in the window before it. -/
theorem recordEntry_fst
    (agrees : active window now (self.timestamps key) = active window now (log.times key)) :
    (self.recordEntry key now).1 = true ↔
      (active window now (log.times key)).length < maxPerWindow := by
  rw [← agrees, ← tracks.window_eq, ← tracks.maxPerWindow_eq, recordEntry]
  split
  · rename_i exhausted
    exact iff_of_false Bool.false_ne_true (not_lt.mpr exhausted)
  · rename_i room
    exact iff_of_true rfl (not_le.mp room)

/-- Recording a call at an instant at which limiter and log agree. -/
theorem Tracks.recordEntry (passed : now ≤ last)
    (agrees : active window now (self.timestamps key) = active window now (log.times key))
    (room : key ∈ self.entries ∨ self.full = false) :
    Tracks maxPerWindow window maxKeys last
      (if (self.recordEntry key now).1 then log ++ [(key, now)] else log)
      (self.recordEntry key now).2 := by
  have allowed_iff := recordEntry_fst tracks agrees
  have forgotten : ∀ probe instant, last ≤ instant →
      active window instant
          (if probe = key then active window now (self.timestamps key)
            else self.timestamps probe) =
        active window instant (log.times probe) := by
    intro probe instant after
    split
    · rename_i same
      rw [same, active_active (passed.trans after)]
      exact tracks.agrees key instant after
    · exact tracks.agrees probe instant after
  rw [RateLimiter.recordEntry] at allowed_iff ⊢
  split
  · exact
      { tracks with
        agrees := by
          intro probe instant after
          rw [if_neg Bool.false_ne_true, timestamps_insert, tracks.window_eq]
          exact forgotten probe instant after
        keys_le := length_keys_insert_le tracks room _ }
  · rename_i accepted
    rw [if_neg accepted] at allowed_iff
    have fits := allowed_iff.mp rfl
    exact
      { tracks with
        agrees := by
          intro probe instant after
          rw [if_pos rfl, timestamps_insert, Log.times_append, tracks.window_eq]
          have before := forgotten probe instant after
          split
          · rename_i same
            rw [if_pos same] at before
            rw [active_append, active_append, ← before]
            rfl
          · rename_i different
            rwa [if_neg different] at before
        seen := by
          intro probe time member
          rw [if_pos rfl, Log.times_append] at member
          split at member
          · rcases List.mem_append.mp member with member | member
            · exact tracks.seen probe time member
            · rw [List.mem_singleton.mp member]
              exact passed
          · exact tracks.seen probe time member
        bounded := by
          intro probe instant
          rw [if_pos rfl, Log.times_append]
          split
          · rename_i same
            subst probe
            exact length_within_append_le (tracks.bounded key) fits instant
          · exact tracks.bounded probe instant
        keys_le := length_keys_insert_le tracks room _ }

/-- A check, with the cleanup it may make. -/
theorem Tracks.checkAndRecord {cleanupNow : DateTime} (passed : last ≤ now)
    (ordered : now ≤ cleanupNow) :
    Tracks maxPerWindow window maxKeys cleanupNow
      (if (self.checkAndRecord key now cleanupNow).1 then log ++ [(key, now)] else log)
      (self.checkAndRecord key now cleanupNow).2 := by
  have agrees := tracks.agrees key now passed
  rw [RateLimiter.checkAndRecord]
  split
  · rename_i newKey
    rw [Bool.and_eq_true, Option.isNone_iff_eq_none] at newKey
    have cleaned := tracks.cleanup (passed.trans ordered)
    dsimp only
    split
    · exact cleaned
    · rename_i room
      -- The key is unknown before and after the cleanup.
      have absent : self.timestamps key = [] := by
        rw [timestamps, newKey.1]
        rfl
      refine cleaned.recordEntry ordered ?_ (Or.inr (Bool.not_eq_true _ ▸ room))
      rw [timestamps_cleanup, absent]
      rw [absent] at agrees
      exact agrees
  · rename_i known
    rw [Bool.and_eq_true, not_and, Bool.not_eq_true, Option.isNone_iff_eq_none] at known
    refine ((tracks.later passed).recordEntry le_rfl agrees ?_).later ordered
    by_cases present : key ∈ self.entries
    · exact Or.inl present
    · exact Or.inr (known (AList.lookup_eq_none.mpr present))

/-- One call keeps limiter and log in agreement, up to its last clock reading. -/
theorem Tracks.step (operation : Operation)
    (ordered : (last :: operation.readings).Pairwise (· ≤ ·)) :
    ∃ latest ∈ last :: operation.readings, Tracks maxPerWindow window maxKeys latest
      (RateLimiter.step log self operation).1 (RateLimiter.step log self operation).2 := by
  cases operation with
  | checkAndRecord key now cleanupNow =>
    simp only [Operation.readings, List.pairwise_cons, List.mem_cons, List.not_mem_nil,
      or_false, forall_eq_or_imp, forall_eq] at ordered
    exact ⟨cleanupNow, by simp [Operation.readings],
      tracks.checkAndRecord ordered.1.1 ordered.2.1⟩
  | cleanup now =>
    simp only [Operation.readings, List.pairwise_cons, List.mem_singleton, forall_eq]
      at ordered
    exact ⟨now, by simp [Operation.readings], tracks.cleanup ordered.1⟩

theorem Tracks.run (operations : List Operation)
    (ordered : (last :: operations.flatMap Operation.readings).Pairwise (· ≤ ·)) :
    ∃ latest ∈ last :: operations.flatMap Operation.readings,
      Tracks maxPerWindow window maxKeys latest
        (RateLimiter.run log self operations).1 (RateLimiter.run log self operations).2 := by
  induction operations generalizing last log self with
  | nil => exact ⟨last, List.mem_cons_self, tracks⟩
  | cons operation operations ih =>
    rw [List.flatMap_cons, ← List.cons_append] at ordered ⊢
    rcases List.pairwise_append.mp ordered with ⟨first, rest, across⟩
    rcases tracks.step operation first with ⟨middle, middleMember, tracksNext⟩
    rcases ih tracksNext (rest.cons (across middle middleMember)) with
      ⟨latest, latestMember, tracksLast⟩
    refine ⟨latest, ?_, tracksLast⟩
    rcases List.mem_cons.mp latestMember with rfl | later
    · exact List.mem_append_left _ middleMember
    · exact List.mem_append_right _ later

end Steps

/-- A limiter that nobody has called. -/
theorem tracks_empty (maxPerWindow : Nat) (window : Duration) (maxKeys : Nat) (now : DateTime) :
    Tracks maxPerWindow window maxKeys now [] ⟨maxPerWindow, window, ∅, maxKeys⟩ where
  maxPerWindow_eq := rfl
  window_eq := rfl
  maxKeys_eq := rfl
  agrees key instant _ := by rw [timestamps, AList.lookup_empty]; rfl
  seen _ _ member := nomatch member
  bounded _ _ := Nat.zero_le _
  keys_le := Nat.zero_le _

/-- Limiter and log agree at every instant that is not before the clock readings. -/
theorem tracks_run_empty (maxPerWindow : Nat) (window : Duration) (maxKeys : Nat)
    {operations : List Operation}
    (ordered : (operations.flatMap Operation.readings).Pairwise (· ≤ ·)) {now : DateTime}
    (after : ∀ reading ∈ operations.flatMap Operation.readings, reading ≤ now) :
    Tracks maxPerWindow window maxKeys now (run [] ⟨maxPerWindow, window, ∅, maxKeys⟩ operations).1
      (run [] ⟨maxPerWindow, window, ∅, maxKeys⟩ operations).2 := by
  -- The first reading, if there is one, is the instant to start from.
  have start : ∃ first ≤ now,
      (first :: operations.flatMap Operation.readings).Pairwise (· ≤ ·) := by
    cases readings : operations.flatMap Operation.readings with
    | nil => exact ⟨now, le_rfl, List.pairwise_singleton _ now⟩
    | cons first rest =>
      rw [readings] at ordered after
      refine ⟨first, after first List.mem_cons_self, ordered.cons ?_⟩
      rw [List.forall_mem_cons]
      exact ⟨le_rfl, (List.pairwise_cons.mp ordered).1⟩
  rcases start with ⟨first, first_le, orderedFrom⟩
  rcases (tracks_empty maxPerWindow window maxKeys first).run operations orderedFrom with
    ⟨latest, latestMember, tracks⟩
  refine tracks.later ?_
  rcases List.mem_cons.mp latestMember with rfl | latestMember
  · exact first_le
  · exact after latest latestMember

theorem checkAndRecord_of_mem {self : RateLimiter} {key : String} (present : key ∈ self.entries)
    (now cleanupNow : DateTime) :
    self.checkAndRecord key now cleanupNow = self.recordEntry key now := by
  have known : (self.entries.lookup key).isNone = false := by
    rw [Option.isNone_eq_false_iff, AList.lookup_isSome]
    exact present
  rw [checkAndRecord, known, Bool.false_and, if_neg Bool.false_ne_true]

/-- As long as the clock does not go back, no window of any position holds more accepted
calls of a key than the limit, no more keys are tracked than allowed, and a call for a
tracked key is accepted exactly if the window that ends now has room. -/
theorem run_slidingWindow (maxPerWindow : Nat) (window : Duration) (maxKeys : Nat)
    (operations : List Operation)
    (ordered : (operations.flatMap Operation.readings).Pairwise (· ≤ ·)) :
    let (log, limiter) := run [] ⟨maxPerWindow, window, ∅, maxKeys⟩ operations
    (∀ key instant, (within window instant (log.times key)).length ≤ maxPerWindow) ∧
      limiter.entries.keys.length ≤ maxKeys ∧
      ∀ key ∈ limiter.entries, ∀ now cleanupNow,
        (∀ reading ∈ operations.flatMap Operation.readings, reading ≤ now) →
          ((limiter.checkAndRecord key now cleanupNow).1 = true ↔
            (within window now (log.times key)).length < maxPerWindow) := by
  rcases (operations.flatMap Operation.readings).toFinset.exists_le with ⟨latest, above⟩
  have tracks := tracks_run_empty maxPerWindow window maxKeys ordered
    fun reading member => above reading (List.mem_toFinset.mpr member)
  refine ⟨tracks.bounded, tracks.keys_le, fun key present now cleanupNow after => ?_⟩
  have tracksNow := tracks_run_empty maxPerWindow window maxKeys ordered after
  rw [checkAndRecord_of_mem present,
    recordEntry_fst tracksNow (tracksNow.agrees key now le_rfl),
    within_eq_active (tracksNow.seen key)]

/-- One call a minute: the second call for a key waits until the first has left the
window. -/
theorem run_slidingWindow_at_two_calls :
    ((run [] ⟨1, Duration.minutes 1, ∅, 10⟩ [.checkAndRecord "peer" 0 0]).2.checkAndRecord
      "peer" (Duration.seconds 30) (Duration.seconds 30)).1 ≠ true := by
  have spec := (run_slidingWindow 1 (Duration.minutes 1) 10 [.checkAndRecord "peer" 0 0]
    (by decide)).2.2 "peer" (by decide +kernel) (Duration.seconds 30) (Duration.seconds 30)
    (by decide)
  exact fun accepted => absurd (spec.mp accepted) (by decide +kernel)

end HiveGuard.Core.RateLimiter
