import HiveGuard.Net.Gossip
import HiveGuard.Persistence.StateManager

/-!
# Bans from the cluster

The part of the cluster actor that ban records from peers pass through.  Records
that could not be applied anyway are dropped first; the gossip engine then turns
the others into decisions, and the decisions are checked again, stored and
enforced.
-/

namespace HiveGuard.Daemon

open HiveGuard.Core Library.Dictionary Library.Encoding Net Persistence

/-- The limits on bans from peers. -/
structure TrustConfig where
  remoteMinPrefixV4 : Fin 256
  remoteMinPrefixV6 : Fin 256
  remoteMaxTtlSecs : Fin (2 ^ 64)

/-- A finite, locally configured blast-radius limit. -/
def remotePolicyAllows (policy : TrustConfig) (record : BanRecord) (now : DateTime) : Bool :=
  let minPrefix := match record.subject with
    | .v4 _ => policy.remoteMinPrefixV4
    | .v6 _ => policy.remoteMinPrefixV6
  match record.expiresAt with
  | none => false
  | some expiry =>
    -- A maximum that is not an `i64` allows nothing.
    if policy.remoteMaxTtlSecs.val < 2 ^ 63 then
      decide (minPrefix.val ≤ record.subject.prefixLen) &&
        decide (record.createdAt ≤ now + Duration.minutes 5) &&
        decide (now < expiry) && decide (record.createdAt < expiry) &&
        decide (Duration.numSeconds (expiry - record.createdAt) ≤
          policy.remoteMaxTtlSecs.val) &&
        decide (Duration.numSeconds (expiry - now) ≤ policy.remoteMaxTtlSecs.val)
    else
      false

/-- Does a ban from a peer change anything?  The network address of its subject is
not banned yet, or by an older ban of a peer on the very same subject. -/
def remoteChangesState (stores : Stores) (record : BanRecord) : Bool :=
  match stores.banStore.isBanned record.subject.addr with
  | none => true
  | some existing =>
    decide (existing.subject = record.subject) && existing.source.isClusterPeer &&
      lifetimeLt (existing.createdAt, existing.expiresAt) (record.createdAt, record.expiresAt)

/-- All checks of the local state on a ban from a peer. -/
def applicable (policy : TrustConfig) (stores : Stores) (now : DateTime) (record : BanRecord) :
    Bool :=
  remotePolicyAllows policy record now && StateManager.acceptsRemoteBan stores record &&
    !stores.whitelist.overlaps record.subject && remoteChangesState stores record

/-! ## Applying decisions -/

/-- The record with its origin: a decision keeps its signer, anything else is
ascribed to the transporting peer. -/
def attributed (sender : String) (record : BanRecord) : BanRecord :=
  if record.source.isClusterPeer then record
  else { record with source := .clusterPeer sender }

section Apply

variable (env : Persistence.Externals) (policy : TrustConfig) (sender : String)
  (now : DateTime)

/-- One round of `applyBans`: the subject handed to the enforcer, if any.  A ban
that cannot be stored is passed over. -/
def applyBan (world : World) (record : BanRecord) : Option IpNet × World :=
  if applicable policy world.manager.toStores now record then
    match (StateManager.addBan env (attributed sender record)).run world with
    | .ok () stored => (some record.subject, stored)
    | .error _ failed => (none, failed)
  else
    (none, world)

/-- Persist and enforce bans received from a peer; the subjects handed to the
enforcer in order. -/
def applyBans (world : World) (records : List BanRecord) : List IpNet × World :=
  records.foldl
    (fun progress record =>
      let (enforced, world) := applyBan env policy sender now progress.2 record
      (progress.1 ++ enforced.toList, world))
    ([], world)

end Apply

/-! ## Ingesting batches -/

/-- The state of the actor that ban records touch.  The window of the ban counts
starts at a reading of the monotonic clock in nanoseconds. -/
structure ClusterActor where
  engine : GossipEngine
  rateLimiter : RateLimiter
  rawLimiter : RateLimiter
  remotePolicy : TrustConfig
  countWindow : Int
  banCounts : Dict String Nat
  world : World

/-- A batch of records from a peer, with what the trust table and the known keys
are at the time, and the clock readings on the way: for each record those of the
first filter and those of the engine. -/
structure Delivery where
  sender : String
  records : List (SignedBanRecord × Readings × Readings)
  shouldEnforce : List String → Bool
  peerPublicKeys : Dict String Bytes
  elapsedAt : Int
  windowAt : Int
  syncNow : DateTime
  applyNow : DateTime

/-- The variables of the first filter. -/
structure Prefilter where
  batch : Dict (String × String) Unit
  rawLimiter : RateLimiter
  kept : List (SignedBanRecord × Readings)

namespace ClusterActor

variable (env : Persistence.Externals) (net : Net.Externals)

/-- One round of the first filter. -/
def prefilter (self : ClusterActor) (sender : String) (state : Prefilter)
    (entry : SignedBanRecord × Readings × Readings) : Prefilter :=
  let (signed, readings, later) := entry
  if applicable self.remotePolicy self.world.manager.toStores readings.eligible signed.record then
    let key := (signed.signerId, GossipEngine.recordKey net signed.record)
    if (state.batch.lookup key).isSome then
      state
    else
      let (allowed, rawLimiter) :=
        state.rawLimiter.checkAndRecord sender readings.limiter readings.cleanup
      { batch := state.batch.insert key ()
        rawLimiter
        kept := if allowed then state.kept ++ [(signed, later)] else state.kept }
  else
    state

/-- Start a new window of the ban counts when a minute has passed. -/
def renewWindow (self : ClusterActor) (delivery : Delivery) : ClusterActor :=
  if 60 * 1000000000 ≤ delivery.elapsedAt - self.countWindow then
    { self with banCounts := ∅, countWindow := delivery.windowAt }
  else
    self

/-- The call of the gossip engine for the records that passed the first filter. -/
def syncCall (self : ClusterActor) (delivery : Delivery)
    (kept : List (SignedBanRecord × Readings)) : BanSync where
  records := kept
  senderId := delivery.sender
  shouldEnforce := delivery.shouldEnforce
  rateLimiter := self.rateLimiter
  banCounts := self.banCounts
  peerPublicKeys := delivery.peerPublicKeys
  eligible now record := applicable self.remotePolicy self.world.manager.toStores now record
  now := delivery.syncNow

/-- Apply what the gossip engine decided. -/
def applyAction (self : ClusterActor) (delivery : Delivery) : Option GossipAction → ClusterActor
  | some (.applyBans records) =>
    { self with
      banCounts := self.banCounts.insert delivery.sender
        ((self.banCounts.lookup delivery.sender).getD 0 + records.length)
      world := (applyBans env self.remotePolicy delivery.sender delivery.applyNow self.world
        records).2 }
  | _ => self

/-- Run incoming signed records through the full security filter, then apply
whatever survives. -/
def ingestRemoteBans (self : ClusterActor) (delivery : Delivery) : ClusterActor :=
  if delivery.records.isEmpty then
    self
  else
    let self := self.renewWindow delivery
    let filtered := delivery.records.foldl (self.prefilter net delivery.sender)
      ⟨∅, self.rawLimiter, []⟩
    let (action, engine, rateLimiter) := self.engine.handleBanSyncFilteredWithPolicy net
      (self.syncCall delivery filtered.kept)
    applyAction env { self with engine, rateLimiter, rawLimiter := filtered.rawLimiter } delivery
      action

end ClusterActor

end HiveGuard.Daemon
