import HiveGuard.Daemon.BanDurations
import HiveGuard.Detectors.Event

/-!
# The default scoring engine

Signals are collected by the address of their network.  A decision is made when the signals
of an address that are not older than the window weigh enough; its bucket is then emptied.
The time of a call is read from the clock.

An error is a panic: the start of the window has no date, or in a build with overflow checks
the weights do not fit a machine integer.
-/

namespace HiveGuard.Scoring

open HiveGuard.Core Daemon Detectors Library.Dictionary Library.Effect

structure Config where
  accumulationWindowSecs : Fin (2 ^ 64)
  banSeverityThreshold : Fin (2 ^ 32)
  defaultBanDurationSecs : Fin (2 ^ 64)

def Config.default : Config where
  accumulationWindowSecs := 1800
  banSeverityThreshold := 100
  defaultBanDurationSecs := 86400

/-- The weight of a signal, which is its severity times its confidence, the text of a network,
and whether integers are checked for overflow. -/
structure ScoringEnv where
  weightedSeverity : DetectionSignal → Fin 256
  displayNet : IpNet → List Char
  overflowChecks : Bool

/-- The signals by address. -/
abbrev Signals : Type :=
  Dict IpAddr (List DetectionSignal)

def bucket (signals : Signals) (ip : IpAddr) : List DetectionSignal :=
  (signals.lookup ip).getD []

variable (env : ScoringEnv) (cfg : Config)

/-- The window for dates; one that is too long counts as none at all. -/
def Config.windowOf : Duration :=
  (Duration.fromStd (.fromSecs cfg.accumulationWindowSecs)).getD 0

/-- Drop the signals of an address that are before the window. -/
def pruneSignals (ip : IpAddr) (now : DateTime) : EStateM Unit Signals Unit := do
  let signals ← get
  match signals.lookup ip with
  | none => pure ()
  | some found => do
      let cutoff ← expect () (now.checkedAddSigned (-cfg.windowOf))
      let kept := found.filter fun signal => decide (cutoff ≤ signal.timestamp)
      set (if kept = [] then signals.erase ip else signals.insert ip kept)

def record (signal : DetectionSignal) : EStateM Unit Signals Unit :=
  modify fun signals => signals.insert signal.sourceIp.addr
    (bucket signals signal.sourceIp.addr ++ [signal])

/-- The weights of signals together. -/
def weight (signals : List DetectionSignal) : Nat :=
  (signals.map fun signal => (env.weightedSeverity signal).val).sum

/-- The sum of the weights as a machine integer. -/
def totalSeverity (signals : List DetectionSignal) : EStateM Unit Signals Nat :=
  if weight env signals < 2 ^ 32 then pure (weight env signals)
  else if env.overflowChecks then throw ()
  else pure (weight env signals % 2 ^ 32)

def suggestedBan (signal : DetectionSignal) : Option StdDuration :=
  match signal.suggestedAction with
  | .ban duration => some duration
  | .observe => none
  | .escalate => none

/-- The nanoseconds of a span, by which spans are compared. -/
def nanosOf (duration : StdDuration) : Nat :=
  duration.secs.val * 1000000000 + duration.nanos.val

/-- The longest ban that is suggested. -/
def banDuration (signals : List DetectionSignal) : StdDuration :=
  ((signals.filterMap suggestedBan).argmax nanosOf).getD
    (.fromSecs cfg.defaultBanDurationSecs)

/-- The signal with the highest severity, the last one of several. -/
def bestSignal (signals : List DetectionSignal) : Option DetectionSignal :=
  signals.reverse.argmax fun signal => signal.severity.val

/-- The widest network of the signals, the first one of several. -/
def subjectOf (signals : List DetectionSignal) (ip : IpAddr) : IpNet :=
  ((signals.map DetectionSignal.sourceIp).argmin IpNet.prefixLen).getD (hostNet ip)

def decisionOf (signals : List DetectionSignal) (best : DetectionSignal) (total : Nat)
    (ip : IpAddr) (now : DateTime) : BanDecision where
  subject := subjectOf signals ip
  duration := banDuration cfg signals
  reason := String.ofList ("Accumulated severity ".toList ++ (toString total).toList ++
    " (threshold ".toList ++ (toString cfg.banSeverityThreshold.val).toList ++ ") for ".toList ++
    env.displayNet (subjectOf signals ip))
  severity := ⟨min total 255, by omega⟩
  evidenceHash := best.evidenceHash
  source := .localDetector (String.ofList best.detectorName)
  timestamp := now

def evaluate (ip : IpAddr) (now : DateTime) : EStateM Unit Signals (Option BanDecision) := do
  pruneSignals cfg ip now
  let signals ← get
  match signals.lookup ip with
  | none => pure none
  | some found =>
    if found = [] then
      pure none
    else do
      let total ← totalSeverity env found
      if total < cfg.banSeverityThreshold.val then
        pure none
      else
        match bestSignal found with
        | none => pure none
        | some best => do
            set (signals.insert ip [])
            pure (some (decisionOf env cfg found best total ip now))

def pruneAll (now : DateTime) : List IpAddr → EStateM Unit Signals Unit
  | [] => pure ()
  | ip :: ips => do
      pruneSignals cfg ip now
      pruneAll now ips

def decay (now : DateTime) : EStateM Unit Signals Unit := do
  let signals ← get
  pruneAll cfg now signals.keys

/-- The calls of the engine, with the time read from the clock. -/
inductive Call where
  | record (signal : DetectionSignal)
  | evaluate (ip : IpAddr) (now : DateTime)
  | decay (now : DateTime)

def perform (call : Call) : EStateM Unit Signals (Option BanDecision) :=
  match call with
  | .record signal => do
      record signal
      pure none
  | .evaluate ip now => evaluate env cfg ip now
  | .decay now => do
      decay cfg now
      pure none

end HiveGuard.Scoring
