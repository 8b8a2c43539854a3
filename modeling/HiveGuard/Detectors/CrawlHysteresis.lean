import HiveGuard.Detectors.DistributedCrawl

/-!
# Under attack and back

The state changes only in evaluations: to under attack when the count is above its threshold,
and back when all evaluations for the length of the cooldown saw a count below the other one.
The sets of the detector stay within their limits whatever the times of the calls are.
-/

namespace HiveGuard.Detectors

open HiveGuard.Core Library.Dictionary Library.Effect Library.Journal

/-- The calls that change what the detector knows. -/
inductive CrawlCall where
  | record (event : NormalizedEvent)
  | evaluate (now : DateTime)

/-- The sets are within their limits, and every candidate has its entry in the order. -/
structure CrawlInner.Bounded (limit : Nat) (inner : CrawlInner) : Prop where
  current : inner.seenCur.card ≤ limit / 2
  previous : inner.seenPrev.card ≤ limit / 2
  candidates : inner.candidates.keys.length ≤ limit
  entries : ∀ key ts, inner.candidates.lookup key = some ts → (ts, key) ∈ inner.order

namespace DistributedCrawlDetector

/-! ## The limits -/

/-- Every candidate has its entry. -/
def Entered (candidates : Dict IpAddr DateTime) (order : List (DateTime × IpAddr)) : Prop :=
  ∀ key ts, candidates.lookup key = some ts → (ts, key) ∈ order

theorem length_keys_erase_le (candidates : Dict IpAddr DateTime) (key : IpAddr) :
    (candidates.erase key).keys.length ≤ candidates.keys.length := by
  rw [AList.keys_erase]
  exact List.erase_sublist.length_le

variable {candidates : Dict IpAddr DateTime} {order : List (DateTime × IpAddr)}

theorem Entered.erase
    (entered : Entered candidates order) (key : IpAddr) : Entered (candidates.erase key) order := by
  intro other ts found
  rw [lookup_erase] at found
  split at found
  · cases found
  · exact entered other ts found

/-- An entry that is no candidate is not needed. -/
theorem Entered.tail
    {ts : DateTime} {ip : IpAddr} (entered : Entered candidates ((ts, ip) :: order))
    (stale : candidates.lookup ip ≠ some ts) : Entered candidates order := by
  intro other time found
  refine (List.mem_cons.mp (entered other time found)).resolve_left ?_
  intro same
  cases same
  exact stale found

/-- The entry of a candidate goes with it. -/
theorem Entered.tail_erase {ts : DateTime} {ip : IpAddr}
    (entered : Entered candidates ((ts, ip) :: order)) : Entered (candidates.erase ip) order := by
  refine (entered.erase ip).tail ?_
  rw [lookup_erase, if_pos rfl]
  exact (Option.some_ne_none ts).symm

theorem dropOldest_spec
    (entered : Entered candidates order) :
    Entered (dropOldest candidates order).1 (dropOldest candidates order).2 ∧
      (candidates.keys ≠ [] →
        (dropOldest candidates order).1.keys.length < candidates.keys.length) := by
  induction order with
  | nil =>
    refine ⟨entered, ?_⟩
    intro nonempty
    obtain ⟨key, member⟩ := List.exists_mem_of_ne_nil _ nonempty
    obtain ⟨ts, found⟩ := mem_keys_iff.mp member
    cases entered key ts found
  | cons entry order ih =>
    obtain ⟨ts, ip⟩ := entry
    rw [dropOldest]
    by_cases live : candidates.lookup ip = some ts
    · rw [if_pos live]
      refine ⟨entered.tail_erase, fun _ => ?_⟩
      have member : ip ∈ candidates.keys := mem_keys_iff.mpr ⟨ts, live⟩
      rw [AList.keys_erase, List.length_erase_of_mem member]
      have := List.length_pos_of_mem member
      omega
    · rw [if_neg live]
      exact ih (entered.tail live)

theorem pruneCandidates_spec (cutoff : DateTime) (entered : Entered candidates order) :
    Entered (pruneCandidates cutoff candidates order).1
        (pruneCandidates cutoff candidates order).2 ∧
      (pruneCandidates cutoff candidates order).1.keys.length ≤ candidates.keys.length := by
  induction order generalizing candidates with
  | nil => exact ⟨entered, le_rfl⟩
  | cons entry order ih =>
    obtain ⟨ts, ip⟩ := entry
    rw [pruneCandidates]
    split
    · exact ⟨entered, le_rfl⟩
    · by_cases live : candidates.lookup ip = some ts
      · rw [if_pos live]
        obtain ⟨later, fewer⟩ := ih entered.tail_erase
        exact ⟨later, fewer.trans (length_keys_erase_le _ _)⟩
      · rw [if_neg live]
        exact ih (entered.tail live)

theorem Entered.compact
    (entered : Entered candidates order) : Entered candidates (compact candidates order) := by
  rw [DistributedCrawlDetector.compact]
  split
  · intro key ts found
    exact List.mem_filter.mpr ⟨entered key ts found, decide_eq_true found⟩
  · exact entered

section Bounds

variable {detector : DistributedCrawlDetector} {inner : CrawlInner}

theorem pruneInner_bounded {limit : Nat} (bounded : inner.Bounded limit) (cutoff : DateTime) :
    (pruneInner inner cutoff).Bounded limit := by
  obtain ⟨entered, fewer⟩ := pruneCandidates_spec cutoff bounded.entries
  exact ⟨bounded.current, bounded.previous, fewer.trans bounded.candidates, entered.compact⟩

theorem rotate_bounded (bounded : inner.Bounded detector.cfg.maxTrackedIps) (now : DateTime) :
    (detector.rotate inner now).Bounded detector.cfg.maxTrackedIps ∧
      (detector.rotate inner now).seenCur.card < detector.cfg.maxTrackedIps / 2 := by
  rw [rotate]
  split
  · refine ⟨⟨Nat.zero_le _, bounded.current, bounded.candidates, bounded.entries⟩, ?_⟩
    have two := detector.two_le
    change 0 < detector.cfg.maxTrackedIps / 2
    omega
  · rename_i notDue
    refine ⟨⟨bounded.current, bounded.previous, bounded.candidates, bounded.entries⟩, ?_⟩
    rw [rotationDue, Bool.or_eq_true, not_or, decide_eq_true_eq, decide_eq_true_eq] at notDue
    exact Nat.lt_of_not_le notDue.2

theorem markSeen_bounded (bounded : inner.Bounded detector.cfg.maxTrackedIps) (key : IpAddr)
    (now : DateTime) :
    (detector.markSeen inner key now).2.Bounded detector.cfg.maxTrackedIps := by
  obtain ⟨rotated, room⟩ := rotate_bounded bounded now
  refine ⟨?_, rotated.previous, rotated.candidates, rotated.entries⟩
  exact (Finset.card_insert_le key _).trans room

theorem length_keys_insert_le (candidates : Dict IpAddr DateTime) (key : IpAddr)
    (ts : DateTime) : (candidates.insert key ts).keys.length ≤ candidates.keys.length + 1 := by
  by_cases present : key ∈ candidates
  · rw [length_keys_insert_of_mem present]
    exact Nat.le_succ _
  · rw [length_keys_insert_of_notMem present]

theorem Entered.insert {candidates : Dict IpAddr DateTime} {order : List (DateTime × IpAddr)}
    (entered : Entered candidates order) (key : IpAddr) (now : DateTime) :
    Entered (candidates.insert key now) (order ++ [(now, key)]) := by
  intro other ts found
  rw [lookup_insert] at found
  rw [List.mem_append, List.mem_singleton]
  split at found
  · rename_i same
    cases found
    exact .inr (congrArg _ same)
  · exact .inl (entered other ts found)

theorem makeRoom_spec (bounded : inner.Bounded detector.cfg.maxTrackedIps) :
    Entered (detector.makeRoom inner).1 (detector.makeRoom inner).2 ∧
      (detector.makeRoom inner).1.keys.length < detector.cfg.maxTrackedIps := by
  have two := detector.two_le
  have size := bounded.candidates
  rw [makeRoom]
  split
  · rename_i full
    obtain ⟨entered, fewer⟩ := dropOldest_spec bounded.entries
    have less := fewer (List.ne_nil_of_length_pos (by omega))
    exact ⟨entered, less.trans_le size⟩
  · rename_i room
    exact ⟨bounded.entries, Nat.lt_of_not_le room⟩

theorem addCandidate_bounded (bounded : inner.Bounded detector.cfg.maxTrackedIps) (key : IpAddr)
    (now : DateTime) :
    (detector.addCandidate inner key now).Bounded detector.cfg.maxTrackedIps := by
  obtain ⟨entered, room⟩ := makeRoom_spec bounded
  exact ⟨bounded.current, bounded.previous, (length_keys_insert_le _ _ _).trans room,
    entered.insert key now⟩

theorem recordInner_bounded (bounded : inner.Bounded detector.cfg.maxTrackedIps)
    (event : NormalizedEvent) :
    (detector.recordInner inner event).Bounded detector.cfg.maxTrackedIps := by
  rw [recordInner]
  split
  · split
    · rw [recordPath]
      dsimp only
      split
      · refine markSeen_bounded ?_ _ _
        exact ⟨bounded.current, bounded.previous,
          (length_keys_erase_le _ _).trans bounded.candidates, Entered.erase bounded.entries _⟩
      · have marked := markSeen_bounded bounded (detector.key event) event.timestamp
        split
        · exact addCandidate_bounded marked _ _
        · exact marked
    · exact bounded
  · exact bounded

/-- The thresholds do not touch the sets. -/
theorem decideAttack_bounded {limit : Nat} (bounded : inner.Bounded limit) (now : DateTime) :
    (detector.decideAttack inner now).2.Bounded limit := by
  rw [decideAttack]
  dsimp only
  split
  · split
    · exact ⟨bounded.current, bounded.previous, bounded.candidates, bounded.entries⟩
    · exact bounded
  · split
    · split
      · exact ⟨bounded.current, bounded.previous, bounded.candidates, bounded.entries⟩
      · exact ⟨bounded.current, bounded.previous, bounded.candidates, bounded.entries⟩
    · exact ⟨bounded.current, bounded.previous, bounded.candidates, bounded.entries⟩

end Bounds

/-! ## Calls -/

variable (detector : DistributedCrawlDetector)

def call : CrawlCall → EStateM Unit CrawlState (Option CrawlStatus)
  | .record event => do
      detector.record event
      pure none
  | .evaluate now => do
      let status ← detector.evaluate now
      pure (some status)

/-- The journal of some calls and the state after them. -/
def run (calls : List CrawlCall) : List (CrawlCall × Option (Option CrawlStatus)) × CrawlState :=
  journal detector.call .new calls

/-- The call is an evaluation that returns. -/
def Evaluates (next : CrawlCall) (state : CrawlState) : Prop :=
  ∃ now cutoff, next = .evaluate now ∧ state.poisoned = false ∧
    (detector.call next).run state =
      .ok (some (detector.decideAttack (pruneInner state.inner cutoff) now).1)
        { state with inner := (detector.decideAttack (pruneInner state.inner cutoff) now).2 }

theorem call_cases (next : CrawlCall) (state : CrawlState) :
    (state.poisoned = true ∧ finalState ((detector.call next).run state) = state) ∨
    (state.poisoned = false ∧
      finalState ((detector.call next).run state) = { state with poisoned := true }) ∨
    (∃ event, next = .record event ∧ state.poisoned = false ∧
      finalState ((detector.call next).run state) =
        { state with inner := detector.recordInner state.inner event }) ∨
    detector.Evaluates next state := by
  obtain ⟨inner, poisoned⟩ := state
  cases poisoned with
  | true =>
    refine .inl ⟨rfl, ?_⟩
    cases next with
    | record event => rfl
    | evaluate now => rfl
  | false =>
    cases next with
    | record event => exact .inr (.inr (.inl ⟨event, rfl, rfl, rfl⟩))
    | evaluate now =>
      cases start : windowStart detector.cfg.window now with
      | none =>
        refine .inr (.inl ⟨rfl, ?_⟩)
        simp only [call, evaluate, start]
        rfl
      | some cutoff =>
        refine .inr (.inr (.inr ⟨now, cutoff, rfl, rfl, ?_⟩))
        simp only [call, evaluate, start]
        rfl

/-! ## The attack -/

section Attack

variable {detector} {inner : CrawlInner}

theorem freshIps_decideAttack (now : DateTime) :
    (detector.decideAttack inner now).1.freshIps = inner.candidates.keys.length := by
  rw [decideAttack]
  dsimp only
  split
  · split <;> rfl
  · split
    · split <;> rfl
    · rfl

/-- What an evaluation does to the state of the attack. -/
theorem decideAttack_cases (now : DateTime) :
    (inner.on = false ∧ detector.cfg.freshIpThreshold < inner.candidates.keys.length ∧
      (detector.decideAttack inner now).2 = { inner with on := true, belowSince := none }) ∨
    (inner.on = false ∧ (detector.decideAttack inner now).2 = inner) ∨
    (inner.on = true ∧ inner.candidates.keys.length < detector.cfg.offThreshold ∧
      windowSpan detector.cfg.cooldown ≤ now - inner.belowSince.getD now ∧
      (detector.decideAttack inner now).2 = { inner with on := false, belowSince := none }) ∨
    (inner.on = true ∧ inner.candidates.keys.length < detector.cfg.offThreshold ∧
      (detector.decideAttack inner now).2 =
        { inner with belowSince := some (inner.belowSince.getD now) }) ∨
    (inner.on = true ∧
      (detector.decideAttack inner now).2 = { inner with belowSince := none }) := by
  rw [decideAttack]
  dsimp only
  cases attack : inner.on with
  | false =>
    rw [Bool.not_false, if_pos rfl]
    by_cases above : detector.cfg.freshIpThreshold < inner.candidates.keys.length
    · rw [if_pos above]
      exact .inl ⟨rfl, above, rfl⟩
    · rw [if_neg above]
      exact .inr (.inl ⟨rfl, rfl⟩)
  | true =>
    rw [Bool.not_true, if_neg Bool.false_ne_true]
    by_cases below : inner.candidates.keys.length < detector.cfg.offThreshold
    · rw [if_pos below]
      by_cases cooled : windowSpan detector.cfg.cooldown ≤ now - inner.belowSince.getD now
      · rw [if_pos cooled]
        exact .inr (.inr (.inl ⟨rfl, below, cooled, rfl⟩))
      · rw [if_neg cooled]
        exact .inr (.inr (.inr (.inl ⟨rfl, below, rfl⟩)))
    · rw [if_neg below]
      exact .inr (.inr (.inr (.inr ⟨rfl, rfl⟩)))

theorem markSeen_attack (key : IpAddr) (now : DateTime) :
    (detector.markSeen inner key now).2.on = inner.on ∧
      (detector.markSeen inner key now).2.belowSince = inner.belowSince := by
  change (detector.rotate inner now).on = _ ∧ (detector.rotate inner now).belowSince = _
  rw [rotate]
  split
  · exact ⟨rfl, rfl⟩
  · exact ⟨rfl, rfl⟩

/-- Events do not touch the state of the attack. -/
theorem recordInner_attack (event : NormalizedEvent) :
    (detector.recordInner inner event).on = inner.on ∧
      (detector.recordInner inner event).belowSince = inner.belowSince := by
  rw [recordInner]
  split
  · split
    · rw [recordPath]
      dsimp only
      split
      · exact markSeen_attack _ _
      · have marked := @markSeen_attack detector inner (detector.key event) event.timestamp
        split
        · exact marked
        · exact marked
    · exact ⟨rfl, rfl⟩
  · exact ⟨rfl, rfl⟩

end Attack

/-! ## Evaluations -/

/-- The time of an evaluation and what it returned. -/
def evaluation : CrawlCall × Option (Option CrawlStatus) → Option (DateTime × Option CrawlStatus)
  | (.evaluate now, answer) => some (now, answer.join)
  | (.record _, _) => none

def evaluations (log : List (CrawlCall × Option (Option CrawlStatus))) :
    List (DateTime × Option CrawlStatus) :=
  log.filterMap evaluation

/-- An evaluation saw a low count. -/
def Low (evaluation : DateTime × Option CrawlStatus) : Prop :=
  ∃ status, evaluation.2 = some status ∧ status.freshIps < detector.cfg.offThreshold

/-- All evaluations from one at a given time on saw a low count. -/
def LowSince (since : DateTime) (evaluations : List (DateTime × Option CrawlStatus)) : Prop :=
  ∃ stretch, stretch <:+ evaluations ∧ stretch.head?.map Prod.fst = some since ∧
    ∀ evaluation ∈ stretch, detector.Low evaluation

variable {detector}

theorem LowSince.concat {since : DateTime} {evaluations : List (DateTime × Option CrawlStatus)}
    (low : detector.LowSince since evaluations) {next : DateTime × Option CrawlStatus}
    (isLow : detector.Low next) : detector.LowSince since (evaluations ++ [next]) := by
  obtain ⟨stretch, ⟨front, rfl⟩, starts, all⟩ := low
  refine ⟨stretch ++ [next], ⟨front, (List.append_assoc _ _ _).symm⟩, ?_, ?_⟩
  · cases stretch with
    | nil => cases starts
    | cons first stretch => exact starts
  · rw [List.forall_mem_append, List.forall_mem_singleton]
    exact ⟨all, isLow⟩

theorem lowSince_last {evaluations : List (DateTime × Option CrawlStatus)}
    {next : DateTime × Option CrawlStatus} (isLow : detector.Low next) :
    detector.LowSince next.1 (evaluations ++ [next]) :=
  ⟨[next], ⟨evaluations, rfl⟩, rfl, List.forall_mem_singleton.mpr isLow⟩

theorem evaluations_concat (log : List (CrawlCall × Option (Option CrawlStatus)))
    (entry : CrawlCall × Option (Option CrawlStatus)) :
    evaluations (log ++ [entry]) = evaluations log ++ (evaluation entry).toList := by
  rw [evaluations, List.filterMap_append, List.filterMap_cons, List.filterMap_nil]
  cases evaluation entry <;> rfl

/-- The time that is kept is one from which all evaluations were low. -/
structure Tracks (detector : DistributedCrawlDetector)
    (log : List (CrawlCall × Option (Option CrawlStatus))) (inner : CrawlInner) : Prop where
  low : ∀ since, inner.belowSince = some since → detector.LowSince since (evaluations log)
  idle : inner.on = false → inner.belowSince = none

variable {inner : CrawlInner}

/-- An evaluation with a low count goes on with the stretch or begins one. -/
theorem Tracks.lowSince_getD {log : List (CrawlCall × Option (Option CrawlStatus))}
    (tracks : detector.Tracks log inner)
    {next : DateTime × Option CrawlStatus} (isLow : detector.Low next) :
    detector.LowSince (inner.belowSince.getD next.1) (evaluations log ++ [next]) := by
  cases kept : inner.belowSince with
  | none => exact lowSince_last isLow
  | some since => exact (tracks.low since kept).concat isLow

theorem Tracks.evaluated {log : List (CrawlCall × Option (Option CrawlStatus))}
    (tracks : detector.Tracks log inner) (now : DateTime) :
    detector.Tracks (log ++ [(.evaluate now, some (some (detector.decideAttack inner now).1))])
      (detector.decideAttack inner now).2 := by
  have nothing : ∀ {log} {after : CrawlInner}, after.belowSince = none →
      detector.Tracks log after := by
    intro log after none_eq
    refine ⟨fun since kept => ?_, fun _ => none_eq⟩
    rw [none_eq] at kept
    cases kept
  rcases @decideAttack_cases detector inner now with ⟨-, -, after⟩ | ⟨off, after⟩ |
      ⟨-, -, -, after⟩ | ⟨attack, below, after⟩ | ⟨-, after⟩
  · exact nothing (congrArg CrawlInner.belowSince after)
  · exact nothing ((congrArg CrawlInner.belowSince after).trans (tracks.idle off))
  · exact nothing (congrArg CrawlInner.belowSince after)
  · have isLow : detector.Low (now, some (detector.decideAttack inner now).1) :=
      ⟨_, rfl, (freshIps_decideAttack now).trans_lt below⟩
    refine ⟨?_, ?_⟩
    · intro since kept
      rw [after] at kept
      cases kept
      rw [evaluations_concat]
      exact tracks.lowSince_getD isLow
    · intro off
      rw [after] at off
      exact absurd (attack.symm.trans off) (by decide)
  · exact nothing (congrArg CrawlInner.belowSince after)

/-- What holds after any calls, as long as the lock is not poisoned. -/
theorem tracks_run (calls : List CrawlCall) :
    (detector.run calls).2.poisoned = false →
      detector.Tracks (detector.run calls).1 (detector.run calls).2.inner := by
  refine @journal_induction _ _ _ _ detector.call .new
    (fun log state => state.poisoned = false → detector.Tracks log state.inner) ?_ ?_ calls
  · exact fun _ => ⟨fun since kept => absurd kept (Option.some_ne_none since).symm, fun _ => rfl⟩
  intro log state next before
  rcases detector.call_cases next state with ⟨poisoned, same⟩ | ⟨-, panicked⟩ |
      ⟨event, rfl, sound, recorded⟩ | ⟨now, cutoff, rfl, sound, evaluated⟩
  · intro sound
    rw [same, poisoned] at sound
    cases sound
  · intro sound
    rw [panicked] at sound
    cases sound
  · intro _
    obtain ⟨same, kept⟩ := @recordInner_attack detector state.inner event
    rw [recorded]
    refine ⟨?_, ?_⟩
    · intro since isSince
      rw [evaluations_concat, evaluation, Option.toList_none, List.append_nil]
      exact (before sound).low since (kept.symm.trans isSince)
    · intro off
      exact kept.trans ((before sound).idle (same.symm.trans off))
  · intro _
    rw [evaluated]
    have pruned : detector.Tracks log (pruneInner state.inner cutoff) :=
      ⟨(before sound).low, (before sound).idle⟩
    exact pruned.evaluated now

theorem bounded_run (calls : List CrawlCall) :
    (detector.run calls).2.inner.Bounded detector.cfg.maxTrackedIps := by
  refine @journal_induction _ _ _ _ detector.call .new
    (fun _ state => state.inner.Bounded detector.cfg.maxTrackedIps) ?_ ?_ calls
  · refine ⟨Nat.zero_le _, Nat.zero_le _, Nat.zero_le _, ?_⟩
    intro key ts found
    rw [CrawlState.new, CrawlInner.new, AList.lookup_empty] at found
    cases found
  intro _ state next before
  rcases detector.call_cases next state with ⟨-, same⟩ | ⟨-, panicked⟩ |
      ⟨event, -, -, recorded⟩ | ⟨now, cutoff, -, -, evaluated⟩
  · rw [same]
    exact before
  · rw [panicked]
    exact before
  · rw [recorded]
    exact recordInner_bounded before event
  · rw [evaluated]
    exact decideAttack_bounded (pruneInner_bounded before cutoff) now

theorem windowSpan_of_isSome {window : StdDuration}
    (representable : (Duration.fromStd window).isSome = true) :
    windowSpan window = window.asNanos := by
  obtain ⟨span, converted⟩ := Option.isSome_iff_exists.mp representable
  rw [windowSpan, converted, (Duration.fromStd_eq_some_iff.mp converted).2, Option.getD_some]

theorem run_concat (calls : List CrawlCall) (next : CrawlCall) :
    detector.run (calls ++ [next]) = advance detector.call (detector.run calls) next :=
  journal_concat calls next

/-- The state changes only in an evaluation that returns. -/
theorem evaluated_of_change {next : CrawlCall} {state : CrawlState}
    (changes : (finalState ((detector.call next).run state)).inner.on ≠ state.inner.on) :
    detector.Evaluates next state := by
  rcases detector.call_cases next state with ⟨-, same⟩ | ⟨-, panicked⟩ |
      ⟨event, -, -, recorded⟩ | evaluated
  · rw [same] at changes
    exact absurd rfl changes
  · rw [panicked] at changes
    exact absurd rfl changes
  · rw [recorded] at changes
    exact absurd (recordInner_attack event).1 changes
  · exact evaluated

theorem above_of_turned_on {now : DateTime} (off : inner.on = false)
    (attack : (detector.decideAttack inner now).2.on = true) :
    detector.cfg.freshIpThreshold < (detector.decideAttack inner now).1.freshIps := by
  rw [freshIps_decideAttack]
  rcases @decideAttack_cases detector inner now with ⟨-, above, -⟩ | ⟨-, after⟩ |
      ⟨on, -⟩ | ⟨on, -⟩ | ⟨on, -⟩
  · exact above
  · rw [after, off] at attack
    cases attack
  · rw [off] at on
    cases on
  · rw [off] at on
    cases on
  · rw [off] at on
    cases on

theorem below_of_turned_off {now : DateTime} (attack : inner.on = true)
    (off : (detector.decideAttack inner now).2.on = false) :
    (detector.decideAttack inner now).1.freshIps < detector.cfg.offThreshold ∧
      windowSpan detector.cfg.cooldown ≤ now - inner.belowSince.getD now := by
  rw [freshIps_decideAttack]
  rcases @decideAttack_cases detector inner now with ⟨notOn, -⟩ | ⟨notOn, -⟩ |
      ⟨-, below, cooled, -⟩ | ⟨-, -, after⟩ | ⟨-, after⟩
  · rw [attack] at notOn
    cases notOn
  · rw [attack] at notOn
    cases notOn
  · exact ⟨below, cooled⟩
  · rw [after] at off
    exact absurd (attack.symm.trans off) (by decide)
  · rw [after] at off
    exact absurd (attack.symm.trans off) (by decide)

/-- In every run the state changes only as documented, and the sets are within their limits. -/
theorem crawl_hysteresis_and_bounds (detector : DistributedCrawlDetector)
    (representable : (Duration.fromStd detector.cfg.cooldown).isSome = true)
    (calls : List CrawlCall) (next : CrawlCall) :
    ((detector.run calls).2.inner.on = false → (detector.run (calls ++ [next])).2.inner.on = true →
        ∃ now status, next = .evaluate now ∧ (detector.run (calls ++ [next])).1 =
            (detector.run calls).1 ++ [(.evaluate now, some (some status))] ∧
          detector.cfg.freshIpThreshold < status.freshIps) ∧
    ((detector.run calls).2.inner.on = true → (detector.run (calls ++ [next])).2.inner.on = false →
        ∃ now since, next = .evaluate now ∧ detector.cfg.cooldown.asNanos ≤ now - since ∧
          detector.LowSince since (evaluations (detector.run (calls ++ [next])).1)) ∧
    (detector.run calls).2.inner.seenCur.card + (detector.run calls).2.inner.seenPrev.card ≤
      detector.cfg.maxTrackedIps ∧
    (detector.run calls).2.inner.candidates.keys.length ≤ detector.cfg.maxTrackedIps ∧
    ∀ key ts, (detector.run calls).2.inner.candidates.lookup key = some ts →
      (ts, key) ∈ (detector.run calls).2.inner.order := by
  have bounded := @bounded_run detector calls
  rw [run_concat, advance]
  refine ⟨?_, ?_, ?_, bounded.candidates, bounded.entries⟩
  · intro off attack
    obtain ⟨now, cutoff, rfl, -, evaluated⟩ :=
      evaluated_of_change (ne_of_eq_of_ne attack (off ▸ (by decide)))
    rw [evaluated] at attack ⊢
    exact ⟨now, _, rfl, rfl, above_of_turned_on off attack⟩
  · intro attack off
    obtain ⟨now, cutoff, rfl, sound, evaluated⟩ :=
      evaluated_of_change (ne_of_eq_of_ne off (attack ▸ (by decide)))
    rw [evaluated] at off ⊢
    obtain ⟨below, cooled⟩ :=
      @below_of_turned_off detector (pruneInner (detector.run calls).2.inner cutoff) now attack off
    refine ⟨now, (detector.run calls).2.inner.belowSince.getD now, rfl, ?_, ?_⟩
    · rw [← windowSpan_of_isSome representable]
      exact cooled
    · rw [evaluations_concat]
      exact (tracks_run calls sound).lowSince_getD ⟨_, rfl, below⟩
  · have current := bounded.current
    have previous := bounded.previous
    omega

namespace HysteresisSample

/-- More than two fresh sources of searches are an attack. -/
def searchDetector : DistributedCrawlDetector :=
  withConfig
    { DistributedCrawlConfig.default with
      pathPrefixes := ["/search".toList]
      freshIpThreshold := 2
      offThreshold := 1 }

/-- A second of the run. -/
def second (count : Int) : DateTime :=
  1700000000000000000 + count * 1000000000

/-- Searches from three addresses. -/
def searches : List CrawlCall :=
  [1, 2, 3].map fun count : Nat => .record
    { timestamp := second count
      sourceIp := .v4 (BitVec.ofNat 32 (0x0a000000 + count))
      eventType := .httpRequest
      metadata := (∅ : Dict (List Char) (List Char)).insert "path".toList "/search?q=a".toList }

end HysteresisSample

open HysteresisSample in
/-- Three fresh sources turn the state on.  They leave the window; once the cooldown has passed
since the first low count, the state is off. -/
theorem crawl_hysteresis_on_and_off :
    let later := searches ++ [.evaluate (second 4), .evaluate (second 400)]
    (∃ status, (searchDetector.run (searches ++ [.evaluate (second 4)])).1 =
        (searchDetector.run searches).1 ++ [(.evaluate (second 4), some (some status))] ∧
      2 < status.freshIps) ∧
    ∃ since, 900000000000 ≤ second 1400 - since ∧
      searchDetector.LowSince since
        (evaluations (searchDetector.run (later ++ [.evaluate (second 1400)])).1) := by
  intro later
  obtain ⟨turnsOn, -⟩ := crawl_hysteresis_and_bounds searchDetector (by decide) searches
    (.evaluate (second 4))
  obtain ⟨-, turnsOff, -⟩ := crawl_hysteresis_and_bounds searchDetector (by decide) later
    (.evaluate (second 1400))
  obtain ⟨_, status, ⟨⟩, journal_eq, above⟩ := turnsOn (by decide +kernel) (by decide +kernel)
  obtain ⟨_, since, ⟨⟩, cooled, low⟩ := turnsOff (by decide +kernel) (by decide +kernel)
  exact ⟨⟨status, journal_eq, above⟩, since, cooled, low⟩

end DistributedCrawlDetector

end HiveGuard.Detectors
