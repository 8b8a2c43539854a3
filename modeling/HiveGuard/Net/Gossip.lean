import HiveGuard.Core.AntiPoison
import HiveGuard.Core.BanStore
import HiveGuard.Library.Effect
import HiveGuard.Net.SignedRecord

/-!
# The gossip engine

The engine collects signed observations of bans as votes, filed by subject and
signer, and turns them into decisions once the signers together are trusted
enough.  A call works through one batch of records.  A record that fails a check
is skipped, and what was changed before the check stays changed, so a skipped
record is an action that stops with an error.
-/

namespace HiveGuard.Net

open HiveGuard.Core Library.Dictionary Library.Effect Library.Encoding

/-- Actions the caller of the engine should execute. -/
inductive GossipAction where
  | sendBanSync (targetIds : List String) (records : List SignedBanRecord)
  | sendDigestExchange (targetId : String) (digest : Bytes)
  | sendDiffRequest (targetId : String) (missingKeys : List String)
  | applyBans (records : List BanRecord)
  deriving DecidableEq

/-- Votes by subject and signer. -/
abbrev Reports := Dict String (Dict String BanRecord)

/-- The part of the engine that ban records touch: votes, and the digests of
recently accepted records with the time until which they are remembered. -/
structure GossipEngine where
  reports : Reports
  accepted : Dict (Vector UInt8 32) DateTime

namespace GossipEngine

def new : GossipEngine :=
  ⟨∅, ∅⟩

/-- Two hexadecimal digits for each byte. -/
def toHex (bytes : Bytes) : String :=
  String.ofList (bytes.flatMap fun byte =>
    [Nat.digitChar (byte.toNat / 16), Nat.digitChar (byte.toNat % 16)])

/-- Version key of a record. -/
def recordKey (env : Externals) (record : BanRecord) : String :=
  let payload := env.serializeVersion
    ⟨record.subject, record.createdAt, record.expiresAt, record.severity, record.reason,
      record.evidenceHash⟩
  env.display record.subject ++ "#" ++ toHex (env.blake3 payload).toList

end GossipEngine

/-- The times read while one record is handled: by the eligibility test and by
the rate limiter, for itself and for a cleanup. -/
structure Readings where
  eligible : DateTime
  limiter : DateTime
  cleanup : DateTime

/-- The arguments of a call, each record with the times read for it.  What the
trust table says about a list of reporters is a predicate of the list; it gets
them in the order of the dictionary and may itself arrange them otherwise. -/
structure BanSync where
  records : List (SignedBanRecord × Readings)
  senderId : String
  shouldEnforce : List String → Bool
  rateLimiter : RateLimiter
  banCounts : Dict String Nat
  peerPublicKeys : Dict String Bytes
  eligible : DateTime → BanRecord → Bool
  now : DateTime

/-- Limit on subjects, votes and remembered digests. -/
def maxReports : Nat :=
  8192

/-- Limit on the votes for one subject. -/
def maxVotes : Nat :=
  64

/-- Limit on the serialised size of a record. -/
def maxEncodedSize : Nat :=
  16 * 1024

/-- The variables of the loop over a batch. -/
structure SyncState where
  reports : Reports
  reportCount : Nat
  seen : Dict (Vector UInt8 32) DateTime
  batchSeen : Dict (Vector UInt8 32) Unit
  rateLimiter : RateLimiter
  accepted : List BanRecord

namespace BanSync

variable (env : Externals) (call : BanSync)

/-- Skip the rest of the work on a record if a check finds something wrong. -/
def skipIf (wrong : Bool) : EStateM Unit SyncState Unit :=
  if wrong then throw () else pure ()

/-- The checks before any cryptography on a record; the digest under which the
record is known. -/
def screen (signed : SignedBanRecord) : EStateM Unit SyncState (Vector UInt8 32) := do
  skipIf (signed.record.source.isClusterPeer ||
    signed.record.expiresAt.any fun expiry => decide (expiry ≤ call.now))
  match env.serializeSigned signed with
  | .error _ => throw ()
  | .ok encoded => do
      skipIf (decide (maxEncodedSize < encoded.length))
      let key := env.blake3 encoded
      let state ← get
      skipIf ((state.seen.lookup key).isSome || (state.batchSeen.lookup key).isSome)
      set { state with batchSeen := state.batchSeen.insert key () }
      pure key

/-- Is the record signed with the key known for its signer? -/
def authentic (signed : SignedBanRecord) : Bool :=
  match call.peerPublicKeys.lookup signed.signerId with
  | none => false
  | some publicKey => (signed.verify env publicKey).isOk

/-- May the record be added to the votes on its subject?  A new signer needs room
below the limits; a signer who voted for a later lifetime keeps that vote. -/
def admitVote (signed : SignedBanRecord) (votes : Dict String BanRecord) :
    EStateM Unit SyncState Unit :=
  match votes.lookup signed.signerId with
  | none => do
      skipIf (decide (maxReports ≤ (← get).reportCount) ||
        decide (maxVotes ≤ votes.keys.length))
      modify fun state => { state with reportCount := state.reportCount + 1 }
  | some old =>
    skipIf (lifetimeLt (signed.record.createdAt, signed.record.expiresAt)
      (old.createdAt, old.expiresAt))

def castVote (signed : SignedBanRecord) : EStateM Unit SyncState (Dict String BanRecord) := do
  let state ← get
  let subject := env.display signed.record.subject
  skipIf ((state.reports.lookup subject).isNone &&
    decide (maxReports ≤ state.reports.keys.length))
  let votes := (state.reports.lookup subject).getD ∅
  set { state with reports := state.reports.insert subject votes }
  admitVote signed votes
  let votes := votes.insert signed.signerId signed.record
  modify fun state => { state with reports := state.reports.insert subject votes }
  pure votes

/-- The record that all votes support. -/
def decision (signed : SignedBanRecord) (votes : Dict String BanRecord) : BanRecord :=
  { signed.record with
    createdAt := ((values votes).map BanRecord.createdAt).min?.getD signed.record.createdAt
    expiresAt := ((values votes).filterMap BanRecord.expiresAt).min?
    severity := ((values votes).map BanRecord.severity).min?.getD signed.record.severity
    source := .clusterPeer signed.signerId }

/-- Charge the sender for a decision. -/
def charge (readings : Readings) : EStateM Unit SyncState Unit := do
  let state ← get
  let (allowed, rateLimiter) :=
    state.rateLimiter.checkAndRecord call.senderId readings.limiter readings.cleanup
  set { state with rateLimiter }
  skipIf !allowed

/-- The first digest with the earliest end. -/
def oldest (seen : Dict (Vector UInt8 32) DateTime) : Option (Vector UInt8 32 × DateTime) :=
  seen.entries.foldl
    (fun best entry =>
      match best with
      | none => some (entry.1, entry.2)
      | some earliest => if entry.2 < earliest.2 then some (entry.1, entry.2) else best)
    none

/-- Make room for one more digest: at the limit, the one remembered for the
shortest time goes. -/
def evictOldest (seen : Dict (Vector UInt8 32) DateTime) : Dict (Vector UInt8 32) DateTime :=
  if maxReports ≤ seen.keys.length then
    match oldest seen with
    | some (key, _) => seen.erase key
    | none => seen
  else
    seen

/-- One round of the loop over a batch. -/
def handleRecord (signed : SignedBanRecord) (readings : Readings) :
    EStateM Unit SyncState Unit := do
  let key ← call.screen env signed
  skipIf !call.authentic env signed
  let votes ← castVote env signed
  skipIf !call.shouldEnforce votes.keys
  let record := decision signed votes
  skipIf !call.eligible readings.eligible record
  call.charge readings
  modify fun state =>
    { state with
      seen := (evictOldest state.seen).insert key (call.now + Duration.seconds 5)
      accepted := state.accepted ++ [record] }

/-- The variables before the loop: expired votes and digests are dropped. -/
def initially (engine : GossipEngine) : SyncState :=
  let reports := retain (fun _ votes => !votes.entries.isEmpty)
    (mapValues (retain fun _ record => InMemoryBanStore.unexpired call.now record)
      engine.reports)
  { reports
    reportCount := ((values reports).map fun votes => votes.keys.length).sum
    seen := retain (fun _ expiry => decide (call.now < expiry)) engine.accepted
    batchSeen := ∅
    rateLimiter := call.rateLimiter
    accepted := [] }

/-- The variables after some records of the batch. -/
def loop (engine : GossipEngine) (handled : List (SignedBanRecord × Readings)) : SyncState :=
  handled.foldl
    (fun state entry => finalState ((call.handleRecord env entry.1 entry.2).run state))
    (call.initially engine)

/-- Is the sender's ban volume anomalous compared to the other nodes'? -/
def quarantined : Bool :=
  let counts := values (retain (fun node _ => decide (node ≠ call.senderId)) call.banCounts)
  let senderCount := (call.banCounts.lookup call.senderId).getD 0
  !counts.isEmpty && checkQuarantine (senderCount + call.records.length) (median counts)

end BanSync

/-- Process received signed ban records with full security filtering, and apply
local eligibility to the final quorum decision before charging it. -/
def GossipEngine.handleBanSyncFilteredWithPolicy (env : Externals) (engine : GossipEngine)
    (call : BanSync) : Option GossipAction × GossipEngine × RateLimiter :=
  if call.records.isEmpty || call.quarantined then
    (none, engine, call.rateLimiter)
  else
    let state := call.loop env engine call.records
    (if state.accepted.isEmpty then none else some (.applyBans state.accepted),
      ⟨state.reports, state.seen⟩, state.rateLimiter)

end HiveGuard.Net
