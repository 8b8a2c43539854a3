import HiveGuard.Core.Hlc
import HiveGuard.Core.Models

/-!
# Conflict-free replicated ban records

`merge` joins two records of one subject field by field.  Reason and evidence
are taken from the record modified last, and the tombstone flag is computed
afresh from the united votes.
-/

namespace HiveGuard.Core

/-- CRDT-aware ban record for conflict-free replication across nodes. -/
structure CrdtBanRecord where
  subject : IpNet
  firstSeen : HlcTimestamp
  banUntil : HlcTimestamp
  severity : Fin 256
  reporters : Finset String
  evidenceHash : Vector UInt8 32
  reason : String
  tombstoneReporters : Finset String
  tombstone : Bool
  lastModified : HlcTimestamp
  deriving DecidableEq

/-- Minimum number of distinct nodes that must vote to tombstone a ban. -/
def tombstoneQuorum : Nat := 2

namespace CrdtBanRecord

/-- Have enough nodes voted to tombstone the ban? -/
def quorumReached (record : CrdtBanRecord) : Bool :=
  decide (tombstoneQuorum ≤ record.tombstoneReporters.card)

def mergeFields (self other : CrdtBanRecord) : CrdtBanRecord :=
  let reason :=
    if self.lastModified < other.lastModified then other.reason else self.reason
  let evidenceHash :=
    if self.lastModified < other.lastModified then other.evidenceHash
    else self.evidenceHash
  let mergedTombstoneReporters := self.tombstoneReporters ∪ other.tombstoneReporters
  { subject := self.subject
    firstSeen := min self.firstSeen other.firstSeen
    banUntil := max self.banUntil other.banUntil
    severity := max self.severity other.severity
    reporters := self.reporters ∪ other.reporters
    evidenceHash := evidenceHash
    reason := reason
    tombstoneReporters := mergedTombstoneReporters
    tombstone := decide (tombstoneQuorum ≤ mergedTombstoneReporters.card)
    lastModified := max self.lastModified other.lastModified }

/-- Merge two records; `none` when the subjects differ. -/
def merge (self other : CrdtBanRecord) : Option CrdtBanRecord :=
  if self.subject ≠ other.subject then none else some (mergeFields self other)

/-- Not tombstoned and not expired. -/
def isActive (record : CrdtBanRecord) (currentTimeMs : Nat) : Bool :=
  !record.tombstone && decide (currentTimeMs < record.banUntil.wallTimeMs.val)

end CrdtBanRecord

end HiveGuard.Core
