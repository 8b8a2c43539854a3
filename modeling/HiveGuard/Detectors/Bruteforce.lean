import HiveGuard.Detectors.NetKey
import HiveGuard.Library.Effect
import HiveGuard.Library.Utf8

/-!
# Detectors of repeated failures

The detectors of failed SSH logins, failed mail logins and client errors of HTTP keep the
times of the failures of each source in a queue, drop what is before the window from its
front, and signal the source and empty its queue when the queue is long enough.  The SSH
detector has a second tier for user names that do not exist.

An error is a panic: the start of the window has no date.  The failure is in the queue by
then.
-/

namespace HiveGuard.Detectors

open HiveGuard.Core Library.Dictionary Library.Effect Library.Text
open NetKey

/-- The times of the failures of each source. -/
abbrev FailureTable : Type :=
  Dict IpAddr (List DateTime)

def FailureTable.queue (table : FailureTable) (ip : IpAddr) : List DateTime :=
  (table.lookup ip).getD []

/-- The window for dates; one that is too long counts as none at all. -/
def windowSpan (window : StdDuration) : Duration :=
  (Duration.fromStd window).getD 0

/-- The start of the window, which may have no date. -/
def windowStart (window : StdDuration) (now : DateTime) : Option DateTime :=
  now.checkedAddSigned (-windowSpan window)

/-- Drop the times before the window from the front. -/
def pruneWindow (deque : List DateTime) (window : StdDuration) (now : DateTime) :
    Option (List DateTime) :=
  (windowStart window now).map fun cutoff => deque.dropWhile fun time => decide (time < cutoff)

/-- Count a failure of a source.  If there are enough in the window, the queue is emptied and
their number returned. -/
def countFailure (threshold : Fin (2 ^ 32)) (window : StdDuration) (ip : IpAddr)
    (now : DateTime) : EStateM Unit FailureTable (Option Nat) := do
  let table ← get
  let deque := table.queue ip ++ [now]
  set (table.insert ip deque)
  let deque ← expect () (pruneWindow deque window now)
  if threshold.val ≤ deque.length then do
    set (table.insert ip [])
    pure (some deque.length)
  else do
    set (table.insert ip deque)
    pure none

/-- A detector that counts the events of one type by their address. -/
def countEvents (counted : EventType) (threshold : Fin (2 ^ 32)) (window : StdDuration)
    (signal : IpAddr → Nat → DateTime → DetectionSignal) (event : NormalizedEvent) :
    EStateM Unit FailureTable (Option DetectionSignal) := do
  if event.eventType = counted then
    let found ← countFailure threshold window event.sourceIp event.timestamp
    pure (found.map fun count => signal event.sourceIp count event.timestamp)
  else
    pure none

def computeEvidenceHash (env : SignalEnv) (ip : IpAddr) (reason : List Char) : Vector UInt8 32 :=
  env.blake3 (encode (env.displayIp ip ++ ":".toList ++ reason))

/-! ## Failed SSH logins -/

structure SshBruteforceDetector where
  threshold : Fin (2 ^ 32)
  window : StdDuration
  banDuration : StdDuration
  enumThreshold : Fin (2 ^ 32)
  enumWindow : StdDuration
  enumBanDuration : StdDuration
  ipv6Prefix : Fin 256

structure SshState where
  failures : FailureTable
  enumFailures : FailureTable

def SshState.new : SshState :=
  ⟨∅, ∅⟩

namespace SshBruteforceDetector

variable (env : SignalEnv) (detector : SshBruteforceDetector)

/-- The network a source is counted by. -/
def key (event : NormalizedEvent) : IpNet :=
  sourceKey event.sourceIp detector.ipv6Prefix

def bruteforceSignal (key : IpNet) (count : Nat) (now : DateTime) : DetectionSignal :=
  let reason := "SSH brute-force: ".toList ++ (toString count).toList ++
    " failed logins from ".toList ++ env.displayNet key ++ " in window".toList
  { sourceIp := key
    severity := 150
    -- The single-precision number next to 0.9.
    confidence := 15099494 / 2 ^ 24
    reason
    evidenceHash := computeEvidenceHash env key.addr reason
    suggestedAction := .ban detector.banDuration
    detectorName := "ssh_bruteforce".toList
    timestamp := now }

def enumerationSignal (key : IpNet) (count : Nat) (now : DateTime) : DetectionSignal :=
  let reason := "SSH user enumeration: ".toList ++ (toString count).toList ++
    " invalid-user attempts from ".toList ++ env.displayNet key ++ " in window".toList
  { sourceIp := key
    severity := 180
    confidence := 15099494 / 2 ^ 24
    reason
    evidenceHash := computeEvidenceHash env key.addr reason
    suggestedAction := .ban detector.enumBanDuration
    detectorName := "ssh_bruteforce".toList
    timestamp := now }

def isInvalidUser (event : NormalizedEvent) : Bool :=
  event.metadata.lookup "invalid_user".toList == some "true".toList

/-- The tier for all failures. -/
def bruteforceCheck (event : NormalizedEvent) :
    EStateM Unit SshState (Option DetectionSignal) := do
  let found ← zoom SshState.failures (fun table state => { state with failures := table })
    (countFailure detector.threshold detector.window (detector.key event).addr event.timestamp)
  pure (found.map fun count =>
    detector.bruteforceSignal env (detector.key event) count event.timestamp)

/-- The tier for user names that do not exist. -/
def enumerationCheck (event : NormalizedEvent) :
    EStateM Unit SshState (Option DetectionSignal) := do
  let found ← zoom SshState.enumFailures (fun table state => { state with enumFailures := table })
    (countFailure detector.enumThreshold detector.enumWindow (detector.key event).addr
      event.timestamp)
  pure (found.map fun count =>
    detector.enumerationSignal env (detector.key event) count event.timestamp)

def process (event : NormalizedEvent) : EStateM Unit SshState (Option DetectionSignal) := do
  if event.eventType = .authFailure then
    match ← detector.bruteforceCheck env event with
    | some signal => pure (some signal)
    | none => if isInvalidUser event then detector.enumerationCheck env event else pure none
  else
    pure none

end SshBruteforceDetector

/-! ## Failed mail logins -/

structure SmtpBruteforceDetector where
  threshold : Fin (2 ^ 32)
  window : StdDuration
  banDuration : StdDuration

namespace SmtpBruteforceDetector

variable (env : SignalEnv) (detector : SmtpBruteforceDetector)

def signal (ip : IpAddr) (count : Nat) (now : DateTime) : DetectionSignal :=
  let reason := "SMTP brute-force: ".toList ++ (toString count).toList ++
    " failed SASL authentications from ".toList ++ env.displayIp ip ++ " in window".toList
  { sourceIp := hostNet ip
    severity := 150
    confidence := 15099494 / 2 ^ 24
    reason
    evidenceHash := computeEvidenceHash env ip reason
    suggestedAction := .ban detector.banDuration
    detectorName := "smtp_bruteforce".toList
    timestamp := now }

def process : NormalizedEvent → EStateM Unit FailureTable (Option DetectionSignal) :=
  countEvents .smtpAuthFailure detector.threshold detector.window (detector.signal env)

end SmtpBruteforceDetector

/-! ## Client errors of HTTP -/

structure Http4xxFloodDetector where
  threshold : Fin (2 ^ 32)
  window : StdDuration
  banDuration : StdDuration

namespace Http4xxFloodDetector

variable (env : SignalEnv) (detector : Http4xxFloodDetector)

def signal (ip : IpAddr) (count : Nat) (now : DateTime) : DetectionSignal :=
  let reason := "HTTP 4xx flood: ".toList ++ (toString count).toList ++ " errors from ".toList ++
    env.displayIp ip ++ " in window".toList
  { sourceIp := hostNet ip
    severity := 120
    -- The single-precision number next to 0.85.
    confidence := 14260634 / 2 ^ 24
    reason
    evidenceHash := computeEvidenceHash env ip reason
    suggestedAction := .ban detector.banDuration
    detectorName := "http_4xx_flood".toList
    timestamp := now }

def process : NormalizedEvent → EStateM Unit FailureTable (Option DetectionSignal) :=
  countEvents .http4xx detector.threshold detector.window (detector.signal env)

end Http4xxFloodDetector

end HiveGuard.Detectors
