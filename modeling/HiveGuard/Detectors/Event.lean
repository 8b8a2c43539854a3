import HiveGuard.Core.Chrono
import HiveGuard.Library.Dictionary

/-!
# Events and signals

What the log sources hand to the detectors and what the detectors answer.  The name of
the source and the raw line of an event are not read by any modelled detector.
-/

namespace HiveGuard.Detectors

open HiveGuard.Core Library.Dictionary

inductive EventType where
  | authFailure
  | authSuccess
  | httpRequest
  | http4xx
  | http5xx
  | smtpAuthFailure
  | portAccess
  | connectionEvent
  | custom (name : List Char)
  deriving DecidableEq

structure NormalizedEvent where
  timestamp : DateTime
  sourceIp : IpAddr
  eventType : EventType
  metadata : Dict (List Char) (List Char)

/-- Requests, whatever the server answered. -/
def NormalizedEvent.isHttp (event : NormalizedEvent) : Bool :=
  decide (event.eventType = .httpRequest ∨ event.eventType = .http4xx ∨
    event.eventType = .http5xx)

inductive Action where
  | ban (duration : StdDuration)
  | observe
  | escalate
  deriving DecidableEq

/-- The confidence is a single-precision number, given by its exact value. -/
structure DetectionSignal where
  sourceIp : IpNet
  severity : Fin 256
  confidence : ℚ
  reason : List Char
  evidenceHash : Vector UInt8 32
  suggestedAction : Action
  detectorName : List Char
  timestamp : DateTime
  deriving DecidableEq

/-- What detectors take from libraries to write a signal: the texts of addresses, networks
and spans of time, and a hash. -/
structure SignalEnv where
  displayIp : IpAddr → List Char
  displayNet : IpNet → List Char
  debugDuration : StdDuration → List Char
  blake3 : List UInt8 → Vector UInt8 32

/-- The network of a single address. -/
def hostNet : IpAddr → IpNet
  | .v4 addr => .v4 (.host addr)
  | .v6 addr => .v6 (.host addr)

end HiveGuard.Detectors
