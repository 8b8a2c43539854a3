import HiveGuard.Core.Net

/-!
# Records and errors

Times are chrono instants counted in nanoseconds since the Unix epoch, and
durations are counted in nanoseconds.
-/

namespace HiveGuard.Core

/-- `chrono::DateTime<Utc>` in nanoseconds since the Unix epoch. -/
abbrev DateTime := Int

/-- `chrono::Duration` in nanoseconds. -/
abbrev Duration := Int

namespace Duration

def seconds (count : Int) : Duration :=
  count * 1000000000

def minutes (count : Int) : Duration :=
  seconds (60 * count)

/-- Whole seconds of a duration, rounded toward zero. -/
def numSeconds (duration : Duration) : Int :=
  duration.tdiv 1000000000

end Duration

/-- Application-level errors.  The operating system's error inside `io` is not
inspected by any modelled function. -/
inductive HiveGuardError where
  | config (message : String)
  | io
  | storage (message : String)
  | protocol (message : String)
  deriving DecidableEq

inductive BanSource where
  | localDetector (name : String)
  | clusterPeer (nodeId : String)
  | manualAdmin
  deriving DecidableEq

def BanSource.isClusterPeer : BanSource → Bool
  | clusterPeer _ => true
  | _ => false

/-- GeoIP / ASN enrichment data for an address. -/
structure GeoIpInfo where
  countryIso : Option String
  asn : Option (Fin (2 ^ 32))
  asnOrg : Option String
  isDatacenter : Bool
  deriving DecidableEq

structure BanRecord where
  subject : IpNet
  createdAt : DateTime
  expiresAt : Option DateTime
  severity : Fin 256
  reason : String
  evidenceHash : Vector UInt8 32
  source : BanSource
  geoInfo : Option GeoIpInfo
  deriving DecidableEq

/-- Lifetimes compare by start and then by end.  As in Rust's order on
`Option`, a missing end is the smallest. -/
def lifetimeLt (first second : DateTime × Option DateTime) : Bool :=
  decide (first.1 < second.1) ||
    (decide (first.1 = second.1) &&
      match first.2, second.2 with
      | _, none => false
      | none, some _ => true
      | some firstEnd, some secondEnd => decide (firstEnd < secondEnd))

end HiveGuard.Core
