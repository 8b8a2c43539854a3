import HiveGuard.Core.BanStore
import HiveGuard.Core.CrdtStore
import HiveGuard.Core.Whitelist
import HiveGuard.Persistence.Snapshot

/-!
# The state manager

The manager owns the in-memory stores and the log.  Every mutation is logged
before it is made.  Starting up loads the snapshot and replays the log over it;
taking a snapshot saves the stores and truncates the log.

A manager works on a device, and the two together form a `World`.  Calls that
read the clock take the time as an argument.
-/

namespace HiveGuard.Persistence

open HiveGuard.Core Library.Dictionary Library.Effect Library.Encoding

/-- The in-memory state that snapshot and log describe. -/
structure Stores where
  banStore : InMemoryBanStore
  whitelist : WhitelistManager
  crdtStore : CrdtStore
  revocations : Dict IpNet DateTime

namespace Stores

def new : Stores :=
  ⟨.new, .new, .new, ∅⟩

def loadSnapshot (result : SnapshotResult) : Stores where
  revocations := insertAll ∅ (result.revocations.map fun entry => ⟨entry.1, entry.2⟩)
  banStore := result.bans.foldl InMemoryBanStore.addBan .new
  whitelist := result.whitelist.foldl WhitelistManager.add .new
  crdtStore := result.crdtBans.foldl CrdtStore.insert .new

/-- One step of log replay. -/
def replayEntry (stores : Stores) : WalEntry → Stores
  | .addBan record => { stores with banStore := stores.banStore.addBan record }
  | .revokeBan subject cutoff =>
    { stores with
      revocations := stores.revocations.insert subject cutoff
      banStore := (stores.banStore.removeBan subject).2 }
  | .removeBan subject =>
    { stores with banStore := (stores.banStore.removeBan subject).2 }
  | .addWhitelist net => { stores with whitelist := stores.whitelist.add net }
  | .removeWhitelist net => { stores with whitelist := (stores.whitelist.remove net).2 }
  | .addCrdtBan record => { stores with crdtStore := stores.crdtStore.addCrdtBan record }
  | .tombstoneCrdtBan subject =>
    { stores with crdtStore := (stores.crdtStore.tombstoneCrdtBan subject).2 }

/-- The data of a snapshot of these stores, in iteration order. -/
def snapshotData (stores : Stores) : SnapshotDataV4 where
  bans := stores.banStore.getAllBans
  whitelist := stores.whitelist.entries.keys
  crdtBans := values stores.crdtStore.records
  revocations := stores.revocations.entries.map fun entry => (entry.1, entry.2)

end Stores

/-- Coordinates in-memory state, log and snapshots. -/
structure StateManager extends Stores where
  walWriter : WalWriter

/-- A running manager and the device it works on. -/
structure World extends Device where
  manager : StateManager

/-- Result of `admitBan`. -/
inductive BanAdmission where
  | added
  | extended (previousExpiry : Option DateTime)
  | alreadyCovered (coveredBy : IpNet) (expiresAt : Option DateTime)
  deriving DecidableEq

/-- A ban is only extended when the new expiry is at least this much later. -/
def minBanExtension : Duration :=
  Duration.minutes 5

namespace World

/-- The log and its writer. -/
def walState (world : World) : WalState :=
  ⟨world.toDevice, world.manager.walWriter⟩

def setWalState (state : WalState) (world : World) : World :=
  { world with
    toDevice := state.toDevice
    manager := { world.manager with walWriter := state.writer } }

def setStores (stores : Stores) (world : World) : World :=
  { world with manager := { world.manager with toStores := stores } }

/-- Run an action of the log writer. -/
def onWal {α : Type} (action : EStateM HiveGuardError WalState α) :
    EStateM HiveGuardError World α :=
  zoom walState setWalState action

/-- Run an action that involves the device only. -/
def onDevice {α : Type} (action : EStateM HiveGuardError Device α) :
    EStateM HiveGuardError World α :=
  zoom World.toDevice (fun device world => { world with toDevice := device }) action

end World

namespace StateManager

open World

variable (env : Externals)

/-- The snapshot part of starting up.  A snapshot that exists and does not load
is fatal. -/
def recoverSnapshot (dataDir : String) :
    Option Bytes → EStateM HiveGuardError Device Stores
  | none => pure .new
  | some file =>
    match loadSnapshotV2 env file with
    | .ok result => pure (.loadSnapshot result)
    | .error error =>
      throw (.storage ("cannot recover snapshot " ++ dataDir ++
        "/snapshot.bin; refusing to start with empty state: " ++ errorText env error))

/-- Create a manager, recovering its state from snapshot and log. -/
def new (dataDir : String) (syncMode : WalSyncMode) :
    EStateM HiveGuardError Device StateManager := do
  let disk := (← get).disk
  let loaded ← recoverSnapshot env dataDir disk.snapshot
  let recovered := (WalReader.replay env disk.wal).foldl Stores.replayEntry loaded
  let walWriter ← WalWriter.open env syncMode
  pure { recovered with walWriter }

/-- Add a ban under its canonical subject, unless it meets a protected
network. -/
def addBan (record : BanRecord) : EStateM HiveGuardError World Unit := do
  let record := { record with subject := record.subject.trunc }
  if (← get).manager.whitelist.overlaps record.subject then
    throw (.config ("ban " ++ env.display record.subject ++ " overlaps a protected network"))
  onWal (WalWriter.append env (.addBan record))
  modify fun world => world.setStores
    { world.manager.toStores with banStore := world.manager.banStore.addBan record }

/-- Does an existing expiry make the new one pointless? -/
def outlasts : Option DateTime → Option DateTime → Bool
  | none, _ => true
  | some _, none => false
  | some existing, some new => decide (new ≤ existing + minBanExtension)

/-- Add a ban unless an active ban already covers it for at least as long. -/
def admitBan (record : BanRecord) (now : DateTime) :
    EStateM HiveGuardError World BanAdmission := do
  let covering := (← get).manager.banStore.coveringBans record.subject
  match covering.find? fun ban =>
      InMemoryBanStore.unexpired now ban && outlasts ban.expiresAt record.expiresAt with
  | some ban => pure (.alreadyCovered ban.subject ban.expiresAt)
  | none =>
    let extendedFrom := covering.find? fun ban =>
      decide (ban.subject = record.subject) && InMemoryBanStore.unexpired now ban
    match extendedFrom with
    | some ban => do
        addBan env { record with createdAt := ban.createdAt }
        pure (.extended ban.expiresAt)
    | none => do
        addBan env record
        pure .added

def removeBan (subject : IpNet) : EStateM HiveGuardError World Bool := do
  onWal (WalWriter.append env (.removeBan subject))
  let world ← get
  let (removed, banStore) := world.manager.banStore.removeBan subject
  set (world.setStores { world.manager.toStores with banStore })
  pure removed

/-- The cutoff a revocation at time `now` records: no earlier than the start of
the revoked ban and the previous cutoff of the subject. -/
def revocationCutoff (stores : Stores) (subject : IpNet) (now : DateTime) : DateTime :=
  let cutoff :=
    match stores.banStore.getAllBans.find? fun ban => decide (ban.subject = subject) with
    | some record => max now record.createdAt
    | none => now
  match stores.revocations.lookup subject with
  | some previous => max cutoff previous
  | none => cutoff

/-- Remove a ban and keep a cutoff against older decisions of peers. -/
def revokeBan (subject : IpNet) (now : DateTime) : EStateM HiveGuardError World Bool := do
  let subject := subject.trunc
  let cutoff := revocationCutoff (← get).manager.toStores subject now
  onWal (WalWriter.append env (.revokeBan subject cutoff))
  let world ← get
  let (removed, banStore) := world.manager.banStore.removeBan subject
  set (world.setStores
    { world.manager.toStores with
      revocations := world.manager.revocations.insert subject cutoff
      banStore })
  pure removed

/-- May a ban decided by a peer be stored? -/
def acceptsRemoteBan (stores : Stores) (record : BanRecord) : Bool :=
  !stores.whitelist.overlaps record.subject &&
    !stores.revocations.entries.any fun revocation =>
      (revocation.1.contains record.subject.addr ||
          record.subject.contains revocation.1.addr) &&
        decide (record.createdAt ≤ revocation.2)

/-- Set the tombstone flag of a replicated record. -/
def tombstoneCrdtBan (subject : IpNet) : EStateM HiveGuardError World Bool := do
  onWal (WalWriter.append env (.tombstoneCrdtBan subject))
  let world ← get
  let (present, crdtStore) := world.manager.crdtStore.tombstoneCrdtBan subject
  set (world.setStores { world.manager.toStores with crdtStore })
  pure present

/-- The loop over the bans a whitelist covers. -/
def revokeCovered : List IpNet → List IpNet → EStateM HiveGuardError World (List IpNet)
  | [], revoked => pure revoked
  | subject :: covered, revoked => do
      let removed ← removeBan env subject
      let revoked := if removed then revoked ++ [subject] else revoked
      if ((← get).manager.crdtStore.records.lookup subject).isSome then
        let _ ← tombstoneCrdtBan env subject
      revokeCovered covered revoked

/-- Remove every ban whose subject overlaps the whitelist and return the removed
subjects. -/
def revokeBansCoveredByWhitelist : EStateM HiveGuardError World (List IpNet) := do
  let manager := (← get).manager
  let covered := (manager.banStore.getAllBans.map BanRecord.subject).filter
    manager.whitelist.overlaps
  revokeCovered env covered []

/-- Add a whitelist entry and revoke the bans it covers. -/
def addWhitelist (net : IpNet) : EStateM HiveGuardError World (List IpNet) := do
  onWal (WalWriter.append env (.addWhitelist net))
  modify fun world => world.setStores
    { world.manager.toStores with whitelist := world.manager.whitelist.add net }
  revokeBansCoveredByWhitelist env

def removeWhitelist (net : IpNet) : EStateM HiveGuardError World Unit := do
  onWal (WalWriter.append env (.removeWhitelist net))
  modify fun world => world.setStores
    { world.manager.toStores with whitelist := (world.manager.whitelist.remove net).2 }

def addCrdtBan (record : CrdtBanRecord) : EStateM HiveGuardError World Unit := do
  onWal (WalWriter.append env (.addCrdtBan record))
  modify fun world => world.setStores
    { world.manager.toStores with
      crdtStore := world.manager.crdtStore.addCrdtBan record }

/-- Save the current state and truncate the log. -/
def takeSnapshot : EStateM HiveGuardError World Unit := do
  let data := (← get).manager.snapshotData
  onDevice (saveSnapshotWithRevocations env data)
  onWal WalWriter.truncate

/-- Flush the log. -/
def flushWal : EStateM HiveGuardError World Unit :=
  onWal WalWriter.flush

end StateManager

end HiveGuard.Persistence
