import HiveGuard.Detectors.NetKey
import HiveGuard.Library.Journal
import HiveGuard.Library.Utf8

/-!
# The detector of login attempts

POST requests to login pages are counted by address, and by subnet where that is turned on.
A subnet is signalled when enough attempts of enough different addresses stand in its queue;
the queue is then emptied.

An error is a panic: the start of the window has no date.
-/

namespace HiveGuard.Detectors

open HiveGuard.Core Library Library.Dictionary Library.Effect Library.Journal Library.Text
open NetKey

/-- The configuration; what the detector remembers is in `HttpLoginState`. -/
structure HttpLoginBruteforceDetector where
  paths : List (List Char)
  threshold : Fin (2 ^ 32)
  window : StdDuration
  banDuration : StdDuration
  subnetV4Prefix : Fin 256
  subnetV6Prefix : Fin 256
  subnetThreshold : Fin (2 ^ 32)
  subnetMinDistinctIps : Nat

structure HttpLoginState where
  hits : Dict IpAddr (List DateTime)
  subnetHits : Dict IpNet (List (DateTime × IpAddr))
  events : Nat

def HttpLoginState.new : HttpLoginState :=
  ⟨∅, ∅, 0⟩

/-- The attempts that wait in the queue of a subnet. -/
def HttpLoginState.queue (state : HttpLoginState) (subnet : IpNet) : List (DateTime × IpAddr) :=
  (state.subnetHits.lookup subnet).getD []

namespace HttpLoginBruteforceDetector

/-- State is swept every this many counted requests. -/
def sweepEvery : Nat :=
  4096

def defaultSubnetThreshold : Fin (2 ^ 32) :=
  20

def defaultSubnetMinDistinctIps : Nat :=
  5

def withConfig (paths : List (List Char)) (threshold : Fin (2 ^ 32)) (window : StdDuration)
    (banDuration : StdDuration) : HttpLoginBruteforceDetector where
  paths := paths
  threshold := threshold
  window := window
  banDuration := banDuration
  subnetV4Prefix := 0
  subnetV6Prefix := 0
  subnetThreshold := defaultSubnetThreshold
  subnetMinDistinctIps := defaultSubnetMinDistinctIps

def withSubnetAggregation (detector : HttpLoginBruteforceDetector) (v4Prefix v6Prefix : Fin 256)
    (threshold : Fin (2 ^ 32)) (minDistinctIps : Nat) : HttpLoginBruteforceDetector :=
  { detector with
    subnetV4Prefix := min v4Prefix 32
    subnetV6Prefix := min v6Prefix 128
    subnetThreshold := threshold
    subnetMinDistinctIps := max minDistinctIps 1 }

variable (env : SignalEnv) (detector : HttpLoginBruteforceDetector)

/-- The window for dates; one that is too long counts as none at all. -/
def windowOf : Duration :=
  (Duration.fromStd detector.window).getD 0

/-- Forget the queues whose last attempt is out of the window, now and then. -/
def maybeSweep (now : DateTime) : EStateM Unit HttpLoginState Unit := do
  let state ← get
  set { state with events := (state.events + 1) % 2 ^ 64 }
  if state.events % sweepEvery = sweepEvery - 1 then
    let cutoff ← expect () (now.checkedAddSigned (-detector.windowOf))
    modify fun state => { state with
      hits := retain (fun _ times => times.getLast?.any fun time => decide (cutoff ≤ time))
        state.hits
      subnetHits := retain (fun _ queue => queue.getLast?.any fun hit => decide (cutoff ≤ hit.1))
        state.subnetHits }
  else
    pure ()

/-- The loop that drops attempts from the front of a queue: those before the cutoff, and
more while the queue is longer than the cap. -/
def dropFront (cutoff : DateTime) (cap : Nat) :
    List (DateTime × IpAddr) → List (DateTime × IpAddr)
  | [] => []
  | hit :: hits =>
    if hit.1 < cutoff ∨ cap < (hit :: hits).length then dropFront cutoff cap hits
    else hit :: hits

/-- The minute of a date, with the divisions of the source. -/
def minuteOf (now : DateTime) : Int :=
  (now / 1000000000).tdiv 60

def subnetSignal (subnet : IpNet) (count distinct : Nat) (now : DateTime) (path : List Char) :
    DetectionSignal where
  sourceIp := subnet
  severity := 180
  -- The single-precision number next to 0.9.
  confidence := 15099494 / 2 ^ 24
  reason := "HTTP login brute-force (subnet): ".toList ++ (toString count).toList ++
    " POST requests to '".toList ++ path ++ "' from ".toList ++ (toString distinct).toList ++
    " addresses in ".toList ++ env.displayNet subnet ++ " in ".toList ++
    env.debugDuration detector.window
  evidenceHash := env.blake3 (encode (env.displayNet subnet ++
    ":http_login_bruteforce:subnet:".toList ++ (toString count).toList ++ ":".toList ++
    (toString (minuteOf now)).toList))
  suggestedAction := .ban detector.banDuration
  detectorName := "http_login_bruteforce".toList
  timestamp := now

/-- Record an attempt in the queue of its subnet; the subnet is signalled when there are
enough attempts of enough addresses. -/
def subnetCheck (ip : IpAddr) (now : DateTime) (path : List Char) :
    EStateM Unit HttpLoginState (Option DetectionSignal) := do
  if detector.subnetThreshold = 0 then
    pure none
  else
    match subnetOf ip detector.subnetV4Prefix detector.subnetV6Prefix with
    | none => pure none
    | some subnet => do
        let cutoff ← expect () (now.checkedAddSigned (-detector.windowOf))
        let state ← get
        let queue := dropFront cutoff (detector.subnetThreshold.val * 4 + 64)
          (state.queue subnet ++ [(now, ip)])
        let distinct := (queue.map Prod.snd).toFinset.card
        if queue.length < detector.subnetThreshold.val ∨
            distinct < detector.subnetMinDistinctIps then
          set { state with subnetHits := state.subnetHits.insert subnet queue }
          pure none
        else
          set { state with subnetHits := state.subnetHits.insert subnet [] }
          pure (some (detector.subnetSignal env subnet queue.length distinct now path))

/-- Drop the times before the cutoff from the front. -/
def pruneWindow (cutoff : DateTime) (times : List DateTime) : List DateTime :=
  times.dropWhile fun time => decide (time < cutoff)

def addressSignal (ip : IpAddr) (count : Nat) (now : DateTime) (path : List Char) :
    DetectionSignal where
  sourceIp := hostNet ip
  severity := 180
  confidence := 15099494 / 2 ^ 24
  reason := "HTTP login brute-force: ".toList ++ (toString count).toList ++
    " POST requests to '".toList ++ path ++ "' from ".toList ++ env.displayIp ip ++
    " in ".toList ++ env.debugDuration detector.window
  evidenceHash := env.blake3 (encode (env.displayIp ip ++ ":http_login_bruteforce:".toList ++
    (toString count).toList))
  suggestedAction := .ban detector.banDuration
  detectorName := "http_login_bruteforce".toList
  timestamp := now

/-- The attempt is counted for its address before the start of the window is computed. -/
def addressCheck (ip : IpAddr) (now : DateTime) (path : List Char) :
    EStateM Unit HttpLoginState (Option DetectionSignal) := do
  let state ← get
  let times := (state.hits.lookup ip).getD [] ++ [now]
  set { state with hits := state.hits.insert ip times }
  let cutoff ← expect () (now.checkedAddSigned (-detector.windowOf))
  let times := pruneWindow cutoff times
  modify fun state => { state with hits := state.hits.insert ip times }
  let count := times.length % 2 ^ 32
  if count < detector.threshold.val then pure none
  else pure (some (detector.addressSignal env ip count now path))

def matchesLoginPath (path : List Char) : Bool :=
  detector.paths.any fun loginPath => loginPath.isPrefixOf path

/-- The path of an event that is counted: a POST request to a login page. -/
def attemptPath (event : NormalizedEvent) : Option (List Char) :=
  match event.eventType with
  | .httpRequest | .http4xx | .http5xx => do
      let method ← event.metadata.lookup "method".toList
      if eqIgnoreAsciiCase method "POST".toList then
        let path ← event.metadata.lookup "path".toList
        if detector.matchesLoginPath path then some path else none
      else
        none
  | _ => none

/-- A subnet is signalled first: its ban covers the address as well. -/
def process (event : NormalizedEvent) :
    EStateM Unit HttpLoginState (Option DetectionSignal) := do
  match detector.attemptPath event with
  | none => pure none
  | some path => do
      detector.maybeSweep event.timestamp
      match ← detector.subnetCheck env event.sourceIp event.timestamp path with
      | some signal => pure (some signal)
      | none => detector.addressCheck env event.sourceIp event.timestamp path

/-! ## What stands in the queues -/

/-- A signal for a subnet, by the beginning of its reason. -/
def isSubnetSignal (signal : DetectionSignal) : Bool :=
  "HTTP login brute-force (subnet): ".toList.isPrefixOf signal.reason

/-- What the journal of the detector holds for an event. -/
abbrev Entry : Type :=
  NormalizedEvent × Option (Option DetectionSignal)

/-- The event led to a signal for the subnet. -/
def signalled (subnet : IpNet) (entry : Entry) : Bool :=
  entry.2.any fun answer => answer.any fun signal =>
    isSubnetSignal signal && decide (signal.sourceIp = subnet)

/-- The events after the last one that led to a signal for the subnet. -/
def sinceSignal (subnet : IpNet) (log : List Entry) : List NormalizedEvent :=
  (log.rtakeWhile fun entry => !signalled subnet entry).map Prod.fst

/-- The event is counted for the subnet. -/
def countsFor (subnet : IpNet) (event : NormalizedEvent) : Bool :=
  (detector.attemptPath event).isSome &&
    decide (subnetOf event.sourceIp detector.subnetV4Prefix detector.subnetV6Prefix = some subnet)

/-- The attempts of a subnet since it was last signalled. -/
def attempts (subnet : IpNet) (log : List Entry) : List (DateTime × IpAddr) :=
  ((sinceSignal subnet log).filter (detector.countsFor subnet)).map fun event =>
    (event.timestamp, event.sourceIp)

variable {env detector}

theorem dropFront_suffix (cutoff : DateTime) (cap : Nat) (hits : List (DateTime × IpAddr)) :
    dropFront cutoff cap hits <:+ hits := by
  induction hits with
  | nil => exact List.suffix_rfl
  | cons hit hits ih =>
    rw [dropFront]
    split
    · exact ih.trans (List.suffix_cons hit hits)
    · exact List.suffix_rfl

/-- The first attempt that is left is within the window, and so are those after it. -/
theorem le_of_mem_dropFront {cutoff : DateTime} {cap : Nat} {hits : List (DateTime × IpAddr)}
    (ordered : hits.Pairwise fun first second => first.1 ≤ second.1) {hit : DateTime × IpAddr}
    (member : hit ∈ dropFront cutoff cap hits) : cutoff ≤ hit.1 := by
  induction hits with
  | nil => cases member
  | cons first hits ih =>
    rw [List.pairwise_cons] at ordered
    rw [dropFront] at member
    split at member
    · exact ih ordered.2 member
    · rename_i kept
      have recent : cutoff ≤ first.1 := not_lt.mp fun old => kept (.inl old)
      rcases List.mem_cons.mp member with rfl | later
      · exact recent
      · exact recent.trans (ordered.1 hit later)

theorem isSubnetSignal_subnetSignal (subnet : IpNet) (count distinct : Nat) (now : DateTime)
    (path : List Char) :
    isSubnetSignal (detector.subnetSignal env subnet count distinct now path) = true := by
  rw [isSubnetSignal, subnetSignal, List.isPrefixOf_iff_prefix]
  simp only [List.append_assoc]
  exact List.prefix_append _ _

theorem isSubnetSignal_addressSignal (ip : IpAddr) (count : Nat) (now : DateTime)
    (path : List Char) :
    isSubnetSignal (detector.addressSignal env ip count now path) = false := by
  rw [← Bool.not_eq_true, isSubnetSignal, addressSignal, List.isPrefixOf_iff_prefix]
  rintro ⟨rest, same⟩
  simp at same

theorem queue_insert (state : HttpLoginState) (subnet other : IpNet)
    (queue : List (DateTime × IpAddr)) :
    HttpLoginState.queue { state with subnetHits := state.subnetHits.insert subnet queue } other =
      if other = subnet then queue else state.queue other := by
  rw [HttpLoginState.queue, lookup_insert]
  split
  · rfl
  · rfl

/-! ## What one event does to the queues -/

/-- No queue has grown. -/
def Thinned (source target : HttpLoginState) : Prop :=
  ∀ subnet, (target.queue subnet).Sublist (source.queue subnet)

theorem maybeSweep_ends (now : DateTime) (source : HttpLoginState) :
    Ends (detector.maybeSweep now) source (fun _ => Thinned source) fun _ => Thinned source := by
  refine .get_bind (.set_bind ?_)
  split
  · refine .bind (.expect ?_ fun _ _ => .refl _)
    intro cutoff _ subnet
    change (((retain _ source.subnetHits).lookup subnet).getD []).Sublist _
    rw [lookup_retain, HttpLoginState.queue]
    cases source.subnetHits.lookup subnet with
    | none => exact .refl _
    | some queue =>
      rw [Option.filter_some]
      split
      · exact .refl _
      · exact List.nil_sublist _
  · exact fun _ => .refl _

variable (detector)

/-- The queue of a subnet with a further attempt. -/
def extended (state : HttpLoginState) (subnet : IpNet) (ip : IpAddr) (now : DateTime) :
    List (DateTime × IpAddr) :=
  dropFront (now - detector.windowOf) (detector.subnetThreshold.val * 4 + 64)
    (state.queue subnet ++ [(now, ip)])

/-- What stands behind a signal for a subnet. -/
structure Evidence (state : HttpLoginState) (ip : IpAddr) (now : DateTime)
    (signal : DetectionSignal) : Prop where
  isSubnet : isSubnetSignal signal = true
  subnet : subnetOf ip detector.subnetV4Prefix detector.subnetV6Prefix = some signal.sourceIp
  attempts : detector.subnetThreshold.val ≤
    (extended detector state signal.sourceIp ip now).length
  distinct : detector.subnetMinDistinctIps ≤
    ((extended detector state signal.sourceIp ip now).map Prod.snd).toFinset.card

/-- The attempt an address adds to the queue of its subnet. -/
def added (ip : IpAddr) (now : DateTime) (subnet : IpNet) : List (DateTime × IpAddr) :=
  if subnetOf ip detector.subnetV4Prefix detector.subnetV6Prefix = some subnet then [(now, ip)]
  else []

variable {detector}

theorem sublist_append_added {source target : HttpLoginState} {ip : IpAddr} {now : DateTime}
    (thinned : Thinned source target) (subnet : IpNet) :
    (target.queue subnet).Sublist (source.queue subnet ++ added detector ip now subnet) :=
  (thinned subnet).trans (List.sublist_append_left _ _)

/-- What is left in the queues without and with a signal for a subnet. -/
def SubnetOutcome (detector : HttpLoginBruteforceDetector) (source : HttpLoginState)
    (ip : IpAddr) (now : DateTime) : Option DetectionSignal → HttpLoginState → Prop
  | none, target => ∀ subnet, (target.queue subnet).Sublist
      (source.queue subnet ++ added detector ip now subnet)
  | some signal, target => Evidence detector source ip now signal ∧ ∀ subnet,
      target.queue subnet = if subnet = signal.sourceIp then [] else source.queue subnet

theorem subnetCheck_ends (ip : IpAddr) (now : DateTime) (path : List Char)
    (source : HttpLoginState) :
    Ends (detector.subnetCheck env ip now path) source
      (SubnetOutcome detector source ip now) fun _ target => target = source := by
  have unchanged := @sublist_append_added detector source source ip now fun _ => .refl _
  rw [subnetCheck]
  split
  · exact unchanged
  · cases made : subnetOf ip detector.subnetV4Prefix detector.subnetV6Prefix with
    | none => exact unchanged
    | some subnet =>
      refine .bind (.expect ?_ fun _ => rfl)
      intro cutoff inRange
      obtain ⟨-, rfl⟩ := DateTime.checkedAddSigned_eq_some_iff.mp inRange
      refine .get_bind ?_
      dsimp only
      split
      · intro other
        rw [queue_insert]
        split
        · rename_i same
          rw [same, added, if_pos made]
          exact (dropFront_suffix _ _ _).sublist
        · exact unchanged other
      · rename_i reached
        rw [not_or, Nat.not_lt, Nat.not_lt] at reached
        exact ⟨⟨isSubnetSignal_subnetSignal _ _ _ _ _, made, reached.1, reached.2⟩,
          fun other => queue_insert source subnet other []⟩

theorem addressCheck_ends (ip : IpAddr) (now : DateTime) (path : List Char)
    (source : HttpLoginState) :
    Ends (detector.addressCheck env ip now path) source
      (fun answer target => (∀ signal, answer = some signal → isSubnetSignal signal = false) ∧
        Thinned source target) fun _ => Thinned source := by
  refine .get_bind (.set_bind (.bind (.expect ?_ fun _ _ => .refl _)))
  intro cutoff _
  refine .modify_bind ?_
  dsimp only
  split
  · exact ⟨fun _ found => (Option.some_ne_none _ found.symm).elim, fun _ => .refl _⟩
  · refine ⟨?_, fun _ => .refl _⟩
    rintro signal ⟨⟩
    exact isSubnetSignal_addressSignal _ _ _ _

/-- What an event that is counted does. -/
def Outcome (detector : HttpLoginBruteforceDetector) (source : HttpLoginState)
    (ip : IpAddr) (now : DateTime) (answer : Option DetectionSignal) (target : HttpLoginState) :
    Prop :=
  (∃ signal, answer = some signal ∧ ∃ swept, Thinned source swept ∧
      SubnetOutcome detector swept ip now (some signal) target) ∨
    (∀ signal, answer = some signal → isSubnetSignal signal = false) ∧
      SubnetOutcome detector source ip now none target

variable {event : NormalizedEvent}

theorem process_ends {path : List Char}
    (counted : detector.attemptPath event = some path) (source : HttpLoginState) :
    Ends (detector.process env event) source
      (Outcome detector source event.sourceIp event.timestamp)
      fun _ => SubnetOutcome detector source event.sourceIp event.timestamp none := by
  rw [process, counted]
  refine .bind ((maybeSweep_ends event.timestamp source).imp ?_ ?_)
  · intro _ swept sweeps
    refine .bind ((subnetCheck_ends event.sourceIp event.timestamp path swept).imp ?_ ?_)
    · intro answer checked outcome
      cases answer with
      | some signal => exact .inl ⟨signal, rfl, swept, sweeps, outcome⟩
      | none =>
        have grown : ∀ target, Thinned checked target →
            SubnetOutcome detector source event.sourceIp event.timestamp none target :=
          fun target thinned subnet => (thinned subnet).trans ((outcome subnet).trans
            (List.Sublist.append_right (sweeps subnet) _))
        refine (addressCheck_ends event.sourceIp event.timestamp path checked).imp ?_ ?_
        · exact fun _ target ended => .inr ⟨ended.1, grown target ended.2⟩
        · exact fun _ target thinned => grown target thinned
    · rintro _ target rfl
      exact sublist_append_added sweeps
  · exact fun _ target thinned => sublist_append_added thinned

/-! ## Whole runs -/

variable (env detector) in
/-- The journal of events and the state after them. -/
def run (events : List NormalizedEvent) : List Entry × HttpLoginState :=
  journal (detector.process env) .new events

variable {subnet : IpNet}

theorem attempts_concat {entry : Entry} {log : List Entry}
    (unmarked : signalled subnet entry = false) :
    detector.attempts subnet (log ++ [entry]) = detector.attempts subnet log ++
      if detector.countsFor subnet entry.1 then [(entry.1.timestamp, entry.1.sourceIp)]
      else [] := by
  rw [attempts, sinceSignal, List.rtakeWhile_concat_pos _ _ _ (by simp [unmarked]),
    List.map_append, List.filter_append, List.map_append]
  congr 1
  cases counts : detector.countsFor subnet entry.1 <;> simp [counts]

theorem countsFor_iff {path : List Char}
    (counted : detector.attemptPath event = some path) :
    (if detector.countsFor subnet event then [(event.timestamp, event.sourceIp)] else []) =
      added detector event.sourceIp event.timestamp subnet := by
  rw [countsFor, counted, added]
  simp

/-- Every queue holds, in order, some of the attempts since the last signal for the subnet. -/
def QueuesHold (detector : HttpLoginBruteforceDetector) (log : List Entry)
    (state : HttpLoginState) : Prop :=
  ∀ subnet, (state.queue subnet).Sublist (detector.attempts subnet log)

theorem QueuesHold.process {log : List Entry} {state : HttpLoginState}
    (before : QueuesHold detector log state) (event : NormalizedEvent) :
    QueuesHold detector (log ++ [(event, returned ((detector.process env event).run state))])
      (finalState ((detector.process env event).run state)) := by
  intro subnet
  cases counted : detector.attemptPath event with
  | none =>
    have run : (detector.process env event).run state = .ok none state := by
      rw [HttpLoginBruteforceDetector.process, counted]
      rfl
    rw [run]
    have unmarked : signalled subnet (event, some none) = false := rfl
    have other : detector.countsFor subnet event = false := by
      rw [countsFor, counted]
      rfl
    change (state.queue subnet).Sublist (detector.attempts subnet (log ++ [(event, some none)]))
    rw [attempts_concat unmarked, other]
    simpa using before subnet
  | some path =>
    have grown : ∀ {answer target}, signalled subnet (event, answer) = false →
        SubnetOutcome detector state event.sourceIp event.timestamp none target →
          (target.queue subnet).Sublist
            (detector.attempts subnet (log ++ [(event, answer)])) := by
      intro answer target unmarked outcome
      rw [attempts_concat unmarked, countsFor_iff counted]
      exact (outcome subnet).trans (List.Sublist.append_right (before subnet) _)
    have ends := @process_ends env detector event path counted state
    rw [Ends] at ends
    cases result : (detector.process env event).run state with
    | error failure target =>
      rw [result] at ends
      exact grown rfl ends
    | ok answer target =>
      rw [result] at ends
      rcases ends with ⟨signal, rfl, swept, thinned, evidence, queues⟩ | ⟨noSubnet, outcome⟩
      · change (target.queue subnet).Sublist
          (detector.attempts subnet (log ++ [(event, some (some signal))]))
        rw [queues subnet]
        split
        · exact List.nil_sublist _
        · rename_i different
          have unmarked : signalled subnet (event, some (some signal)) = false := by
            simp [signalled, Ne.symm different]
          rw [attempts_concat unmarked]
          exact (thinned subnet).trans ((before subnet).trans (List.sublist_append_left _ _))
      · refine grown ?_ outcome
        cases answer with
        | none => rfl
        | some signal => simp [signalled, returned, noSubnet signal rfl]

theorem queuesHold_run (events : List NormalizedEvent) :
    QueuesHold detector (detector.run env events).1 (detector.run env events).2 :=
  journal_induction (fun _ => List.Sublist.refl _) (fun _ _ event before => before.process event)
    events

/-- The window for dates is not longer than the configured one. -/
theorem windowOf_le (detector : HttpLoginBruteforceDetector) :
    detector.windowOf ≤ detector.window.asNanos := by
  rw [windowOf]
  cases converted : Duration.fromStd detector.window with
  | none =>
    have nonneg : (0 : Int) ≤
        detector.window.secs.val * 1000000000 + detector.window.nanos.val := by
      positivity
    exact nonneg
  | some span =>
    rw [Option.getD_some, ← (Duration.fromStd_eq_some_iff.mp converted).2]

/-- The events that are counted for a subnet within the window before a date. -/
def evidenceAt (detector : HttpLoginBruteforceDetector) (subnet : IpNet) (now : DateTime)
    (events : List NormalizedEvent) : List NormalizedEvent :=
  events.filter fun event => (detector.attemptPath event).isSome &&
    subnet.contains event.sourceIp &&
      decide (now - detector.window.asNanos ≤ event.timestamp ∧ event.timestamp ≤ now)

theorem sinceSignal_suffix (subnet : IpNet) (events : List NormalizedEvent) :
    sinceSignal subnet (detector.run env events).1 <:+ events := by
  conv_rhs => rw [← @map_fst_journal _ _ _ _ (detector.process env) .new events]
  exact (List.rtakeWhile_suffix _ _).map Prod.fst

/-- The extended queue holds, in order, some of the evidence. -/
theorem extended_sublist_evidenceAt {events : List NormalizedEvent}
    (ordered : (events ++ [event]).Pairwise fun first second => first.timestamp ≤ second.timestamp)
    {swept : HttpLoginState} (thinned : Thinned (detector.run env events).2 swept)
    (counts : detector.countsFor subnet event = true) :
    (extended detector swept subnet event.sourceIp event.timestamp).Sublist
      ((detector.evidenceAt subnet event.timestamp
        (sinceSignal subnet (detector.run env events).1 ++ [event])).map fun event =>
          (event.timestamp, event.sourceIp)) := by
  let hitOf : NormalizedEvent → DateTime × IpAddr :=
    fun event => (event.timestamp, event.sourceIp)
  let since := sinceSignal subnet (detector.run env events).1 ++ [event]
  let inWindow : DateTime × IpAddr → Bool := fun hit =>
    decide (event.timestamp - detector.window.asNanos ≤ hit.1 ∧ hit.1 ≤ event.timestamp)
  have within : since.Sublist (events ++ [event]) :=
    List.Sublist.append_right (sinceSignal_suffix subnet events).sublist _
  -- The queue and the event are attempts of the subnet, in the order of their times.
  have queue : (swept.queue subnet ++ [hitOf event]).Sublist
      ((since.filter (detector.countsFor subnet)).map hitOf) := by
    have last : [event].filter (detector.countsFor subnet) = [event] := by simp [counts]
    rw [List.filter_append, List.map_append, last]
    exact List.Sublist.append_right ((thinned subnet).trans (queuesHold_run events subnet)) _
  have candidates : (since.filter (detector.countsFor subnet)).Sublist (events ++ [event]) :=
    List.filter_sublist.trans within
  have queueOrdered : (swept.queue subnet ++ [hitOf event]).Pairwise
      fun first second => first.1 ≤ second.1 := by
    refine List.Pairwise.sublist queue ?_
    rw [List.pairwise_map]
    exact ordered.sublist candidates
  have kept : (extended detector swept subnet event.sourceIp event.timestamp).Sublist
      (swept.queue subnet ++ [hitOf event]) :=
    (dropFront_suffix _ _ _).sublist
  have recent : ∀ hit ∈ extended detector swept subnet event.sourceIp event.timestamp,
      inWindow hit = true := by
    intro hit member
    have starts := le_of_mem_dropFront queueOrdered member
    have shorter := detector.windowOf_le
    have ends : hit.1 ≤ event.timestamp := by
      obtain ⟨other, isCandidate, rfl⟩ := List.mem_map.mp (queue.subset (kept.subset member))
      rcases List.mem_append.mp (candidates.subset isCandidate) with earlier | same
      · exact (List.pairwise_append.mp ordered).2.2 other earlier event List.mem_cons_self
      · rw [List.mem_singleton.mp same]
    exact decide_eq_true ⟨(Int.sub_le_sub_left shorter _).trans starts, ends⟩
  have filtered := (kept.trans queue).filter inWindow
  rw [List.filter_eq_self.mpr recent, List.filter_map, List.filter_filter] at filtered
  refine filtered.trans (List.Sublist.map hitOf (List.monotone_filter_right _ ?_))
  intro other both
  simp only [Function.comp_apply, Bool.and_eq_true, countsFor, decide_eq_true_eq] at both ⊢
  exact ⟨⟨both.2.1, (subnetOf_spec both.2.2).1⟩, of_decide_eq_true both.1⟩

end HttpLoginBruteforceDetector

open HttpLoginBruteforceDetector in
/-- A subnet is signalled on evidence only.  For events in the order of their times: when the
last of them leads to a signal for a subnet, at least the threshold of counted attempts, from
at least the required number of different addresses of the subnet, came within the window and
after the last signal for the subnet; and the network of the signal holds the source of the
event and has no host bits. -/
theorem subnet_signal_has_evidence (env : SignalEnv) (paths : List (List Char))
    (threshold : Fin (2 ^ 32)) (window banDuration : StdDuration) (v4Prefix v6Prefix : Fin 256)
    (subnetThreshold : Fin (2 ^ 32)) (minDistinctIps : Nat) (events : List NormalizedEvent)
    (event : NormalizedEvent)
    (ordered : (events ++ [event]).Pairwise fun first second =>
      first.timestamp ≤ second.timestamp)
    (signal : DetectionSignal) :
    let detector := (withConfig paths threshold window banDuration).withSubnetAggregation
      v4Prefix v6Prefix subnetThreshold minDistinctIps
    let before := detector.run env events
    returned ((detector.process env event).run before.2) = some (some signal) →
    isSubnetSignal signal = true →
    let evidence := detector.evidenceAt signal.sourceIp event.timestamp
      (sinceSignal signal.sourceIp before.1 ++ [event])
    subnetThreshold.val ≤ evidence.length ∧
      minDistinctIps ≤ (evidence.map NormalizedEvent.sourceIp).toFinset.card ∧
      signal.sourceIp.contains event.sourceIp = true ∧ signal.sourceIp.Canonical := by
  intro detector before produced isSubnet evidence
  have result := eq_ok_of_returned produced
  cases counted : detector.attemptPath event with
  | none =>
    rw [process, counted] at produced
    cases produced
  | some path =>
    have ends := @process_ends env detector event path counted before.2
    rw [Ends, result] at ends
    rcases ends with ⟨_, ⟨⟩, swept, thinned, behind, -⟩ | ⟨noSubnet, -⟩
    · have counts : detector.countsFor signal.sourceIp event = true := by
        rw [countsFor, counted, behind.subnet]
        simp
      have stands := extended_sublist_evidenceAt ordered thinned counts
      have addresses : ((extended detector swept signal.sourceIp event.sourceIp
          event.timestamp).map Prod.snd).toFinset ⊆
          (evidence.map NormalizedEvent.sourceIp).toFinset := by
        have mapped := (stands.map Prod.snd).subset
        rw [List.map_map] at mapped
        intro ip member
        rw [List.mem_toFinset] at member ⊢
        exact mapped member
      refine ⟨?_, ?_, subnetOf_spec behind.subnet⟩
      · have lengths := stands.length_le
        rw [List.length_map] at lengths
        exact behind.attempts.trans lengths
      · have required : minDistinctIps ≤ detector.subnetMinDistinctIps := Nat.le_max_left _ _
        exact required.trans (behind.distinct.trans (Finset.card_le_card addresses))
    · rw [noSubnet signal rfl] at isSubnet
      cases isSubnet

namespace HttpLoginBruteforceDetector.Sample

/-- Stand-ins for the functions of libraries. -/
def env : SignalEnv where
  displayIp _ := []
  displayNet _ := []
  debugDuration _ := []
  blake3 _ := Vector.replicate 32 0

def attempt (ip : BitVec 32) : NormalizedEvent where
  timestamp := 1700000000000000000
  sourceIp := .v4 ip
  eventType := .httpRequest
  metadata := [⟨"method".toList, "post".toList⟩, ⟨"path".toList, "/wp-login.php".toList⟩].toAList

end HttpLoginBruteforceDetector.Sample

open HttpLoginBruteforceDetector in
/-- Two attempts from a subnet lead to a signal for it. -/
theorem subnet_signal_has_evidence_at_pair :
    let window := StdDuration.fromSecs 600
    let detector := (withConfig ["/wp-login.php".toList] 5 window window).withSubnetAggregation
      24 64 2 2
    let subnet : IpNet := .ofV4 0x0a000000 24
    let signal := detector.subnetSignal Sample.env subnet 2 2 1700000000000000000
      "/wp-login.php".toList
    returned ((detector.process Sample.env (Sample.attempt 0x0a000002)).run
        (detector.run Sample.env [Sample.attempt 0x0a000001]).2) = some (some signal) ∧
      signal.sourceIp.contains (.v4 0x0a000002) = true ∧ signal.sourceIp.Canonical := by
  intro window detector subnet signal
  have produced : returned ((detector.process Sample.env (Sample.attempt 0x0a000002)).run
      (detector.run Sample.env [Sample.attempt 0x0a000001]).2) = some (some signal) := by
    decide +kernel
  have evidence := subnet_signal_has_evidence Sample.env ["/wp-login.php".toList] 5 window window
    24 64 2 2 [Sample.attempt 0x0a000001] (Sample.attempt 0x0a000002) (by decide +kernel) signal
    produced (by decide +kernel)
  exact ⟨produced, evidence.2.2⟩

end HiveGuard.Detectors
