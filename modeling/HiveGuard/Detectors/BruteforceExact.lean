import HiveGuard.Detectors.Bruteforce
import HiveGuard.Library.FrontQueue
import HiveGuard.Library.Journal

/-!
# What the failure detectors count

The three detectors do the same to their queues.  A counter says what that is: it has a
queue for each source, and an event that is counted for a source is put at the end of its
queue, after which the source is signalled or not.  From this alone follows what the queues
hold after any run, and what stands behind a signal.
-/

namespace HiveGuard.Detectors

open HiveGuard.Core Library.Dictionary Library.Effect Library.FrontQueue Library.Journal

/-! ## Counters -/

/-- What the journal of a detector holds for an event. -/
abbrev AnsweredEvent : Type :=
  NormalizedEvent × Option (Option DetectionSignal)

/-- The answer is a signal of the kind in question. -/
def signals (isSignal : DetectionSignal → Bool) (answer : Option (Option DetectionSignal)) :
    Bool :=
  answer.any fun found => found.any isSignal

/-- A failure reaches the threshold. -/
def reaches (threshold : Fin (2 ^ 32)) (window : StdDuration) (queue : List DateTime)
    (now : DateTime) : Bool :=
  (windowStart window now).isSome &&
    decide (threshold.val ≤ (arrive (windowStart window) queue now).length)

/-- What a failure does to the queues. -/
def Queued (threshold : Fin (2 ^ 32)) (window : StdDuration) (ip : IpAddr) (now : DateTime)
    (before after : IpAddr → List DateTime) : Prop :=
  ∀ other, after other =
    if other = ip then
      if reaches threshold window (before ip) now then []
      else arrive (windowStart window) (before ip) now
    else before other

/-- A detector that counts failures in a window. -/
structure WindowCounter (State : Type) where
  process : NormalizedEvent → EStateM Unit State (Option DetectionSignal)
  keyOf : NormalizedEvent → Option IpAddr
  isSignal : DetectionSignal → Bool
  threshold : Fin (2 ^ 32)
  window : StdDuration
  start : State
  queue : State → IpAddr → List DateTime
  queue_start : ∀ ip, queue start ip = []
  ignores : ∀ event state, keyOf event = none →
    Ends (process event) state (fun answer after => answer = none ∧ after = state)
      fun _ _ => False
  counts : ∀ event state ip, keyOf event = some ip →
    Ends (process event) state
      (fun answer after =>
        answer.any isSignal = reaches threshold window (queue state ip) event.timestamp ∧
          Queued threshold window ip event.timestamp (queue state) (queue after))
      fun _ after => reaches threshold window (queue state ip) event.timestamp = false ∧
        Queued threshold window ip event.timestamp (queue state) (queue after)

/-- The times of the failures of a source since it was last signalled. -/
def failuresSince (keyOf : NormalizedEvent → Option IpAddr) (isSignal : DetectionSignal → Bool)
    (ip : IpAddr) (log : List AnsweredEvent) : List DateTime :=
  let counted := log.filter fun entry => decide (keyOf entry.1 = some ip)
  (counted.rtakeWhile fun entry => !signals isSignal entry.2).map fun entry => entry.1.timestamp

section Since

variable {keyOf : NormalizedEvent → Option IpAddr} {isSignal : DetectionSignal → Bool}
  {ip : IpAddr} {log : List AnsweredEvent} {entry : AnsweredEvent}

theorem failuresSince_concat_other (other : keyOf entry.1 ≠ some ip) :
    failuresSince keyOf isSignal ip (log ++ [entry]) = failuresSince keyOf isSignal ip log := by
  rw [failuresSince, List.filter_append, List.filter_cons_of_neg (by simpa using other),
    List.filter_nil, List.append_nil]
  rfl

theorem failuresSince_concat (counted : keyOf entry.1 = some ip) :
    failuresSince keyOf isSignal ip (log ++ [entry]) = if signals isSignal entry.2 then []
      else failuresSince keyOf isSignal ip log ++ [entry.1.timestamp] := by
  rw [failuresSince, List.filter_append, List.filter_cons_of_pos (by simpa using counted),
    List.filter_nil]
  cases marked : signals isSignal entry.2 with
  | true => rw [List.rtakeWhile_concat_neg _ _ _ (by simp [marked]), if_pos rfl]; rfl
  | false =>
    rw [List.rtakeWhile_concat_pos _ _ _ (by simp [marked]), if_neg Bool.false_ne_true,
      List.map_append]
    rfl

end Since

namespace WindowCounter

variable {State : Type} (counter : WindowCounter State)

/-- The journal of events and the state after them. -/
def run (events : List NormalizedEvent) : List AnsweredEvent × State :=
  journal counter.process counter.start events

/-- The times that count for a source before the next event. -/
def since (events : List NormalizedEvent) (ip : IpAddr) : List DateTime :=
  failuresSince counter.keyOf counter.isSignal ip (counter.run events).1

/-- What the detector answers to an event after others. -/
def answer (events : List NormalizedEvent) (event : NormalizedEvent) :
    Option (Option DetectionSignal) :=
  returned ((counter.process event).run (counter.run events).2)

/-- What an event that is counted does, whether it fails or not. -/
theorem counts_run {event : NormalizedEvent} {ip : IpAddr}
    (counted : counter.keyOf event = some ip) (state : State) :
    signals counter.isSignal (returned ((counter.process event).run state)) =
        reaches counter.threshold counter.window (counter.queue state ip) event.timestamp ∧
      Queued counter.threshold counter.window ip event.timestamp (counter.queue state)
        (counter.queue (finalState ((counter.process event).run state))) := by
  have ends := counter.counts event state ip counted
  rw [Ends] at ends
  cases ran : (counter.process event).run state with
  | ok found after =>
    rw [ran] at ends
    exact ends
  | error failure after =>
    rw [ran] at ends
    exact ⟨ends.1.symm, ends.2⟩

/-- After any run a queue is what is kept of the failures since the last signal. -/
theorem queue_run (events : List NormalizedEvent) (ip : IpAddr) :
    counter.queue (counter.run events).2 ip =
      kept (windowStart counter.window) (counter.since events ip) := by
  have all := @journal_induction _ _ _ _ counter.process counter.start
    (fun log state => ∀ ip, counter.queue state ip = kept (windowStart counter.window)
      (failuresSince counter.keyOf counter.isSignal ip log)) counter.queue_start ?_ events
  · exact all ip
  · intro log state event before other
    cases key : counter.keyOf event with
    | none =>
      have ends := counter.ignores event state key
      rw [Ends] at ends
      cases ran : (counter.process event).run state with
      | error failure after =>
        rw [ran] at ends
        exact ends.elim
      | ok found after =>
        rw [ran] at ends
        obtain ⟨-, rfl⟩ := ends
        rw [failuresSince_concat_other (by rw [key]; exact (Option.some_ne_none other).symm)]
        exact before other
    | some ip =>
      obtain ⟨signals_eq, queue_eq⟩ := counter.counts_run key state
      rw [queue_eq other]
      by_cases same : other = ip
      · subst same
        rw [if_pos rfl, failuresSince_concat key, signals_eq]
        split
        · rfl
        · rw [kept_concat, before other]
      · have other_key : counter.keyOf event ≠ some other := by
          rw [key, Ne, Option.some_inj]
          exact Ne.symm same
        rw [if_neg same, failuresSince_concat_other other_key]
        exact before other

/-- Whether an event is answered with a signal depends on the failures since the last one. -/
theorem signals_answer {event : NormalizedEvent} {ip : IpAddr}
    (counted : counter.keyOf event = some ip) (events : List NormalizedEvent) :
    signals counter.isSignal (counter.answer events event) =
      reaches counter.threshold counter.window
        (kept (windowStart counter.window) (counter.since events ip)) event.timestamp := by
  rw [answer, (counter.counts_run counted _).1, queue_run]

theorem since_sublist (events : List NormalizedEvent) (ip : IpAddr) :
    (counter.since events ip).Sublist (events.map NormalizedEvent.timestamp) := by
  have fromLog : (counter.since events ip).Sublist
      ((counter.run events).1.map fun entry => entry.1.timestamp) :=
    List.Sublist.map _ ((List.rtakeWhile_suffix _ _).sublist.trans List.filter_sublist)
  have times : ((counter.run events).1.map fun entry => entry.1.timestamp) =
      events.map NormalizedEvent.timestamp := by
    conv_rhs => rw [← @map_fst_journal _ _ _ _ counter.process counter.start events]
    rw [List.map_map]
    rfl
  rw [← times]
  exact fromLog

/-! ## Failures in order -/

/-- The failures of a source since its last signal that are within a span before the event,
the event included. -/
def countAt (span : Duration) (events : List NormalizedEvent) (event : NormalizedEvent)
    (ip : IpAddr) : Nat :=
  (notBefore (event.timestamp - span) (counter.since events ip ++ [event.timestamp])).length

variable {counter} {events : List NormalizedEvent} {event : NormalizedEvent} {ip : IpAddr}

/-- For failures in order the queue holds those in the window. -/
theorem arrive_of_ordered
    (ordered : (counter.since events ip ++ [event.timestamp]).Pairwise (· ≤ ·))
    (dated : (windowStart counter.window event.timestamp).isSome = true) :
    arrive (windowStart counter.window) (kept (windowStart counter.window)
        (counter.since events ip)) event.timestamp =
      notBefore (event.timestamp - windowSpan counter.window)
        (counter.since events ip ++ [event.timestamp]) := by
  obtain ⟨first, isStart⟩ := Option.isSome_iff_exists.mp dated
  have first_eq : first = event.timestamp - windowSpan counter.window :=
    (DateTime.checkedAddSigned_eq_some_iff.mp isStart).2.symm
  subst first_eq
  refine arrive_kept_of_ordered ordered isStart ?_
  intro time member earlier isEarlier
  have notLater := (List.pairwise_append.mp ordered).2.2 time member event.timestamp
    List.mem_cons_self
  rw [← (DateTime.checkedAddSigned_eq_some_iff.mp isEarlier).2]
  exact Int.sub_le_sub_right notLater _

/-- An event is answered with a signal exactly if there are enough failures in the window. -/
def ExactAt (counter : WindowCounter State) (span : Duration) (events : List NormalizedEvent)
    (event : NormalizedEvent) (ip : IpAddr) : Prop :=
  signals counter.isSignal (counter.answer events event) = true ↔
    counter.threshold.val ≤ counter.countAt span events event ip

/-- For events in order, counting is exact as long as the start of the window has a date, or
there are too few failures anyway. -/
theorem exactAt_iff {span : Duration} (ordered : (events ++ [event]).Pairwise fun first second =>
      first.timestamp ≤ second.timestamp)
    (convertible : Duration.fromStd counter.window = some span)
    (counted : counter.keyOf event = some ip) :
    counter.ExactAt span events event ip ↔
      (windowStart counter.window event.timestamp).isSome = true ∨
        counter.countAt span events event ip < counter.threshold.val := by
  have span_eq : windowSpan counter.window = span := by
    rw [windowSpan, convertible, Option.getD_some]
  have sinceOrdered : (counter.since events ip ++ [event.timestamp]).Pairwise (· ≤ ·) := by
    have times : ((events ++ [event]).map NormalizedEvent.timestamp).Pairwise (· ≤ ·) :=
      List.pairwise_map.mpr ordered
    rw [List.map_append] at times
    exact times.sublist (List.Sublist.append_right (counter.since_sublist events ip) _)
  rw [ExactAt, counter.signals_answer counted, reaches, Bool.and_eq_true, decide_eq_true_eq]
  by_cases dated : (windowStart counter.window event.timestamp).isSome = true
  · rw [arrive_of_ordered sinceOrdered dated, span_eq, and_iff_right dated]
    exact iff_of_true Iff.rfl (.inl dated)
  · rw [or_iff_right dated, ← Nat.not_le]
    constructor
    · intro same enough
      exact dated (same.mpr enough).1
    · intro few
      exact iff_of_false (fun both => dated both.1) few

/-! ## Failures in any order -/

/-- Enough failures of a source since its last signal, the event included, lie within one
interval as long as the window. -/
def BurstAt (counter : WindowCounter State) (events : List NormalizedEvent)
    (event : NormalizedEvent) (ip : IpAddr) : Prop :=
  Burst counter.threshold.val counter.window.asNanos
    (counter.since events ip ++ [event.timestamp])

theorem windowSpan_le_asNanos (window : StdDuration) :
    windowSpan window ≤ window.asNanos := by
  rw [windowSpan]
  cases converted : Duration.fromStd window with
  | none => exact window.asNanos_nonneg
  | some span => exact (Duration.fromStd_eq_some_iff.mp converted).2.ge

/-- A signal has a burst behind it if the failures since the last one arrived in order. -/
theorem burstAt_of_signals
    (ordered : (counter.since events ip ++ [event.timestamp]).Pairwise (· ≤ ·))
    (counted : counter.keyOf event = some ip)
    (signalled : signals counter.isSignal (counter.answer events event) = true) :
    counter.BurstAt events event ip := by
  rw [counter.signals_answer counted, reaches, Bool.and_eq_true, decide_eq_true_eq] at signalled
  obtain ⟨dated, enough⟩ := signalled
  rw [arrive_of_ordered ordered dated] at enough
  refine ⟨event.timestamp - windowSpan counter.window, enough.trans_eq ?_⟩
  -- No failure is later than the event, which is within the window of its start.
  refine congrArg List.length (List.filter_congr fun time member => ?_)
  have notLater : time ≤ event.timestamp := by
    rcases List.mem_append.mp member with earlier | last
    · exact (List.pairwise_append.mp ordered).2.2 time earlier _ (List.mem_singleton_self _)
    · exact (List.mem_singleton.mp last).le
  have short := windowSpan_le_asNanos counter.window
  rw [decide_eq_decide]
  exact (and_iff_left (by linarith)).symm

end WindowCounter

/-! ## The detectors are counters -/

theorem queue_insert_failures (table : FailureTable) (ip other : IpAddr) (times : List DateTime) :
    FailureTable.queue (table.insert ip times) other =
      if other = ip then times else table.queue other := by
  rw [FailureTable.queue, lookup_insert]
  split
  · rfl
  · rfl

theorem pruneWindow_eq (window : StdDuration) (queue : List DateTime) (now : DateTime) :
    pruneWindow (queue ++ [now]) window now =
      if (windowStart window now).isSome then some (arrive (windowStart window) queue now)
      else none := by
  rw [pruneWindow, arrive]
  cases windowStart window now <;> rfl

theorem countFailure_ends (threshold : Fin (2 ^ 32)) (window : StdDuration) (ip : IpAddr)
    (now : DateTime) (source : FailureTable) :
    Ends (countFailure threshold window ip now) source
      (fun found after => found.isSome = reaches threshold window (source.queue ip) now ∧
        Queued threshold window ip now source.queue after.queue)
      fun _ after => reaches threshold window (source.queue ip) now = false ∧
        Queued threshold window ip now source.queue after.queue := by
  refine .get_bind (.set_bind (.bind (.expect ?_ ?_)))
  · intro times pruned
    rw [pruneWindow_eq, Option.ite_none_right_eq_some] at pruned
    obtain ⟨dated, times_eq⟩ := pruned
    cases times_eq
    split
    · rename_i enough
      have reached : reaches threshold window (source.queue ip) now = true := by
        rw [reaches, dated, Bool.true_and, decide_eq_true_eq]
        exact enough
      refine ⟨reached.symm, ?_⟩
      intro other
      rw [reached, if_pos rfl]
      exact queue_insert_failures source ip other []
    · rename_i few
      have notReached : reaches threshold window (source.queue ip) now = false := by
        rw [reaches, dated, Bool.true_and, decide_eq_false_iff_not]
        exact few
      refine ⟨notReached.symm, ?_⟩
      intro other
      rw [notReached, if_neg Bool.false_ne_true]
      exact queue_insert_failures source ip other _
  · intro undated
    have noStart : windowStart window now = none := by
      rw [pruneWindow, Option.map_eq_none_iff] at undated
      exact undated
    have notReached : reaches threshold window (source.queue ip) now = false := by
      rw [reaches, noStart]
      rfl
    refine ⟨notReached, ?_⟩
    intro other
    rw [notReached, if_neg Bool.false_ne_true, arrive, noStart]
    exact queue_insert_failures source ip other _

section CountEvents

variable (counted : EventType) (threshold : Fin (2 ^ 32)) (window : StdDuration)
  (signal : IpAddr → Nat → DateTime → DetectionSignal)

/-- The source an event is counted for. -/
def sourceOf (event : NormalizedEvent) : Option IpAddr :=
  if event.eventType = counted then some event.sourceIp else none

variable {counted} {event : NormalizedEvent}

theorem countEvents_ignores (ignored : sourceOf counted event = none) (state : FailureTable) :
    Ends (countEvents counted threshold window signal event) state
      (fun answer after => answer = none ∧ after = state) fun _ _ => False := by
  have other : event.eventType ≠ counted := by
    intro same
    rw [sourceOf, if_pos same] at ignored
    cases ignored
  rw [countEvents, if_neg other]
  exact ⟨rfl, rfl⟩

theorem countEvents_counts {ip : IpAddr} (source : sourceOf counted event = some ip)
    (state : FailureTable) :
    Ends (countEvents counted threshold window signal event) state
      (fun answer after => answer.any (fun _ => true) =
          reaches threshold window (state.queue ip) event.timestamp ∧
        Queued threshold window ip event.timestamp state.queue after.queue)
      fun _ after => reaches threshold window (state.queue ip) event.timestamp = false ∧
        Queued threshold window ip event.timestamp state.queue after.queue := by
  rw [sourceOf, Option.ite_none_right_eq_some] at source
  obtain ⟨isCounted, same⟩ := source
  cases same
  rw [countEvents, if_pos isCounted]
  refine .bind ((countFailure_ends threshold window event.sourceIp event.timestamp state).imp
    ?_ fun _ _ ended => ended)
  rintro found after ⟨reached, queued⟩
  refine ⟨?_, queued⟩
  rw [← reached]
  cases found <;> rfl

variable (counted)

/-- The detectors with one table. -/
def tableCounter : WindowCounter FailureTable where
  process := countEvents counted threshold window signal
  keyOf := sourceOf counted
  isSignal _ := true
  threshold := threshold
  window := window
  start := ∅
  queue := FailureTable.queue
  queue_start _ := rfl
  ignores _ state ignored := countEvents_ignores threshold window signal ignored state
  counts _ state _ source := countEvents_counts threshold window signal source state

end CountEvents

/-- The detector of failed mail logins as a counter. -/
def SmtpBruteforceDetector.counter (env : SignalEnv) (detector : SmtpBruteforceDetector) :
    WindowCounter FailureTable :=
  tableCounter .smtpAuthFailure detector.threshold detector.window (detector.signal env)

/-- The detector of client errors as a counter. -/
def Http4xxFloodDetector.counter (env : SignalEnv) (detector : Http4xxFloodDetector) :
    WindowCounter FailureTable :=
  tableCounter .http4xx detector.threshold detector.window (detector.signal env)

namespace SshBruteforceDetector

/-- A signal of the tier for all failures, by the beginning of its reason. -/
def isBruteforceSignal (signal : DetectionSignal) : Bool :=
  "SSH brute-force: ".toList.isPrefixOf signal.reason

section Process

variable {env : SignalEnv} {detector : SshBruteforceDetector}

theorem isBruteforceSignal_bruteforceSignal (key : IpNet) (count : Nat) (now : DateTime) :
    isBruteforceSignal (detector.bruteforceSignal env key count now) = true := by
  rw [isBruteforceSignal, bruteforceSignal, List.isPrefixOf_iff_prefix]
  simp only [List.append_assoc]
  exact List.prefix_append _ _

theorem isBruteforceSignal_enumerationSignal (key : IpNet) (count : Nat) (now : DateTime) :
    isBruteforceSignal (detector.enumerationSignal env key count now) = false := by
  rw [← Bool.not_eq_true, isBruteforceSignal, enumerationSignal, List.isPrefixOf_iff_prefix]
  rintro ⟨rest, same⟩
  simp at same

variable {event : NormalizedEvent}

theorem bruteforceCheck_ends (event : NormalizedEvent) (state : SshState) :
    let ip := (detector.key event).addr
    Ends (detector.bruteforceCheck env event) state
      (fun answer after => (answer.isSome = reaches detector.threshold detector.window
            (state.failures.queue ip) event.timestamp ∧
          answer.all isBruteforceSignal = true) ∧
        Queued detector.threshold detector.window ip event.timestamp state.failures.queue
          after.failures.queue)
      fun _ after => reaches detector.threshold detector.window (state.failures.queue ip)
          event.timestamp = false ∧
        Queued detector.threshold detector.window ip event.timestamp state.failures.queue
          after.failures.queue := by
  intro ip
  refine .bind (.zoom ((countFailure_ends detector.threshold detector.window ip event.timestamp
    state.failures).imp ?_ fun _ _ ended => ended))
  rintro found after ⟨reached, queued⟩
  refine ⟨⟨?_, ?_⟩, queued⟩
  · rw [← reached, Option.isSome_map]
  · cases found with
    | none => rfl
    | some count => exact isBruteforceSignal_bruteforceSignal _ _ _

/-- The second tier leaves the first alone. -/
theorem enumerationCheck_ends (event : NormalizedEvent) (state : SshState) :
    Ends (detector.enumerationCheck env event) state
      (fun answer after => answer.any isBruteforceSignal = false ∧ after.failures = state.failures)
      fun _ after => after.failures = state.failures := by
  refine .bind (.zoom ((countFailure_ends detector.enumThreshold detector.enumWindow
    (detector.key event).addr event.timestamp state.enumFailures).imp ?_ fun _ _ _ => rfl))
  intro found after _
  refine ⟨?_, rfl⟩
  cases found with
  | none => rfl
  | some count => exact isBruteforceSignal_enumerationSignal _ _ _

variable (detector) in
/-- The source an event is counted for. -/
def sourceOf (event : NormalizedEvent) : Option IpAddr :=
  if event.eventType = .authFailure then some (detector.key event).addr else none

theorem process_ignores (ignored : detector.sourceOf event = none) (state : SshState) :
    Ends (detector.process env event) state (fun answer after => answer = none ∧ after = state)
      fun _ _ => False := by
  have other : event.eventType ≠ .authFailure := by
    intro same
    rw [sourceOf, if_pos same] at ignored
    cases ignored
  rw [process, if_neg other]
  exact ⟨rfl, rfl⟩

theorem process_counts {ip : IpAddr} (source : detector.sourceOf event = some ip)
    (state : SshState) :
    Ends (detector.process env event) state (fun answer after => answer.any isBruteforceSignal =
          reaches detector.threshold detector.window (state.failures.queue ip) event.timestamp ∧
        Queued detector.threshold detector.window ip event.timestamp state.failures.queue
          after.failures.queue)
      fun _ after => reaches detector.threshold detector.window (state.failures.queue ip)
          event.timestamp = false ∧
        Queued detector.threshold detector.window ip event.timestamp state.failures.queue
          after.failures.queue := by
  rw [sourceOf, Option.ite_none_right_eq_some] at source
  obtain ⟨isCounted, same⟩ := source
  cases same
  rw [process, if_pos isCounted]
  refine .bind ((bruteforceCheck_ends event state).imp ?_ fun _ _ ended => ended)
  rintro answer middle ⟨⟨reached, isSignal⟩, queued⟩
  cases answer with
  | some signal => exact ⟨isSignal.trans reached, queued⟩
  | none =>
    dsimp only
    split
    · refine (enumerationCheck_ends event middle).imp ?_ ?_
      · rintro found after ⟨other, same⟩
        rw [same]
        exact ⟨other.trans reached, queued⟩
      · intro _ after same
        rw [same]
        exact ⟨reached.symm, queued⟩
    · exact ⟨reached, queued⟩

end Process

def counter (env : SignalEnv) (detector : SshBruteforceDetector) : WindowCounter SshState where
  process := detector.process env
  keyOf := detector.sourceOf
  isSignal := isBruteforceSignal
  threshold := detector.threshold
  window := detector.window
  start := .new
  queue state := state.failures.queue
  queue_start _ := rfl
  ignores _ state ignored := process_ignores ignored state
  counts _ state _ source := process_counts source state

end SshBruteforceDetector

/-! ## All three detectors -/

/-- For events in order and windows that dates can have, each detector counts exactly as long
as the start of the window has a date, or there are too few failures anyway. -/
theorem sliding_windows_exact_iff (env : SignalEnv) (span : Duration)
    (events : List NormalizedEvent) (event : NormalizedEvent)
    (ordered : (events ++ [event]).Pairwise fun first second =>
      first.timestamp ≤ second.timestamp) :
    (∀ (detector : SshBruteforceDetector) (ip : IpAddr),
      Duration.fromStd detector.window = some span → detector.sourceOf event = some ip →
        ((detector.counter env).ExactAt span events event ip ↔
          (windowStart detector.window event.timestamp).isSome = true ∨
            (detector.counter env).countAt span events event ip < detector.threshold.val)) ∧
    (∀ (detector : SmtpBruteforceDetector) (ip : IpAddr),
      Duration.fromStd detector.window = some span → sourceOf .smtpAuthFailure event = some ip →
        ((detector.counter env).ExactAt span events event ip ↔
          (windowStart detector.window event.timestamp).isSome = true ∨
            (detector.counter env).countAt span events event ip < detector.threshold.val)) ∧
    ∀ (detector : Http4xxFloodDetector) (ip : IpAddr),
      Duration.fromStd detector.window = some span → sourceOf .http4xx event = some ip →
        ((detector.counter env).ExactAt span events event ip ↔
          (windowStart detector.window event.timestamp).isSome = true ∨
            (detector.counter env).countAt span events event ip < detector.threshold.val) := by
  refine ⟨?_, ?_, ?_⟩
  · intro detector ip convertible counted
    exact @WindowCounter.exactAt_iff _ (detector.counter env) _ _ _ _ ordered convertible counted
  · intro detector ip convertible counted
    exact @WindowCounter.exactAt_iff _ (detector.counter env) _ _ _ _ ordered convertible counted
  · intro detector ip convertible counted
    exact @WindowCounter.exactAt_iff _ (detector.counter env) _ _ _ _ ordered convertible counted

namespace BruteforceSample

/-- Stand-ins for the functions of libraries. -/
def env : SignalEnv where
  displayIp _ := []
  displayNet _ := []
  debugDuration _ := []
  blake3 _ := Vector.replicate 32 0

def clientError (timestamp : DateTime) : NormalizedEvent where
  timestamp
  sourceIp := .v4 0x0a000001
  eventType := .http4xx
  metadata := ∅

def detector (threshold : Fin (2 ^ 32)) (secs : Fin (2 ^ 64)) : Http4xxFloodDetector where
  threshold
  window := .fromSecs secs
  banDuration := .fromSecs 3600

end BruteforceSample

open BruteforceSample in
theorem sliding_windows_exact_at_pair :
    ((detector 2 60).counter env).ExactAt 60000000000 [clientError 1700000000000000000]
      (clientError 1700000030000000000) (.v4 0x0a000001) :=
  ((sliding_windows_exact_iff env 60000000000 [clientError 1700000000000000000]
    (clientError 1700000030000000000) (by decide)).2.2 (detector 2 60) (.v4 0x0a000001)
      (by decide) (by decide)).mpr (.inl (by decide))

open BruteforceSample in
/-- A window that is a duration for dates can still start before the first date. -/
theorem sliding_window_without_start :
    Duration.fromStd (detector 1 10000000000000).window = some 10000000000000000000000 ∧
      ¬((detector 1 10000000000000).counter env).ExactAt 10000000000000000000000 []
        (clientError 1700000000000000000) (.v4 0x0a000001) := by
  refine ⟨by decide, ?_⟩
  intro exact
  have missed : signals (fun _ => true) (((detector 1 10000000000000).counter env).answer []
      (clientError 1700000000000000000)) = false := by
    decide +kernel
  have enough : 1 ≤ ((detector 1 10000000000000).counter env).countAt 10000000000000000000000 []
      (clientError 1700000000000000000) (.v4 0x0a000001) := by
    decide +kernel
  have signalled := exact.mpr enough
  exact Bool.false_ne_true (missed.symm.trans signalled)

/-- A signal has a burst behind it if the failures of its source since the last signal arrived
in order, whatever the order of the others. -/
theorem signal_has_burst (env : SignalEnv) (events : List NormalizedEvent)
    (event : NormalizedEvent) :
    (∀ (detector : SshBruteforceDetector) (ip : IpAddr), detector.sourceOf event = some ip →
      ((detector.counter env).since events ip ++ [event.timestamp]).Pairwise (· ≤ ·) →
      signals (detector.counter env).isSignal ((detector.counter env).answer events event) =
        true → (detector.counter env).BurstAt events event ip) ∧
    (∀ (detector : SmtpBruteforceDetector) (ip : IpAddr),
      sourceOf .smtpAuthFailure event = some ip →
      ((detector.counter env).since events ip ++ [event.timestamp]).Pairwise (· ≤ ·) →
      signals (detector.counter env).isSignal ((detector.counter env).answer events event) =
        true → (detector.counter env).BurstAt events event ip) ∧
    ∀ (detector : Http4xxFloodDetector) (ip : IpAddr), sourceOf .http4xx event = some ip →
      ((detector.counter env).since events ip ++ [event.timestamp]).Pairwise (· ≤ ·) →
      signals (detector.counter env).isSignal ((detector.counter env).answer events event) =
        true → (detector.counter env).BurstAt events event ip := by
  refine ⟨?_, ?_, ?_⟩
  · intro detector ip counted ordered
    exact WindowCounter.burstAt_of_signals ordered counted
  · intro detector ip counted ordered
    exact WindowCounter.burstAt_of_signals ordered counted
  · intro detector ip counted ordered
    exact WindowCounter.burstAt_of_signals ordered counted

open BruteforceSample in
/-- The last two errors make a burst; those before the first signal came later. -/
theorem signal_has_burst_at_second :
    let counter := (detector 2 60).counter env
    let events := [clientError 1700000100000000000, clientError 1700000110000000000,
      clientError 1700000000000000000]
    signals counter.isSignal (counter.answer events (clientError 1700000030000000000)) = true ∧
      counter.BurstAt events (clientError 1700000030000000000) (.v4 0x0a000001) := by
  intro counter events
  have signalled : signals counter.isSignal
      (counter.answer events (clientError 1700000030000000000)) = true := by decide +kernel
  have ordered : (counter.since events (.v4 0x0a000001) ++
      [(clientError 1700000030000000000).timestamp]).Pairwise (· ≤ ·) := by decide +kernel
  exact ⟨signalled, (signal_has_burst env events (clientError 1700000030000000000)).2.2
    (detector 2 60) (.v4 0x0a000001) rfl ordered signalled⟩

open BruteforceSample in
/-- Two client errors that arrive in reverse order, a hundred seconds apart, lead to a signal of
a detector with a window of one minute. -/
theorem signal_without_burst :
    let counter := (detector 2 60).counter env
    signals counter.isSignal (counter.answer [clientError 1700000100000000000]
        (clientError 1700000000000000000)) = true ∧
      ¬counter.BurstAt [clientError 1700000100000000000] (clientError 1700000000000000000)
        (.v4 0x0a000001) := by
  intro counter
  refine ⟨by decide +kernel, ?_⟩
  have since_eq : counter.since [clientError 1700000100000000000] (.v4 0x0a000001) =
      [1700000100000000000] := by
    decide +kernel
  rw [WindowCounter.BurstAt, since_eq]
  exact not_burst_pair (by decide)

end HiveGuard.Detectors
