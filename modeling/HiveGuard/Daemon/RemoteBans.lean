import HiveGuard.Daemon.Cluster
import HiveGuard.Net.Quorum
import HiveGuard.Persistence.Admission
import HiveGuard.Persistence.Revocation

/-!
# Local decisions win over remote ones

Batches from peers add bans and replace older bans of peers; a ban that was
decided locally stays exactly as it is.  The guard looks at the most specific ban
of the network address and compares subjects as they are spelled, while storing a
ban clears its host bits.  No spelling slips through: a ban that would be
overwritten is seen, and it can only be the one compared when the subject is spelled
without host bits.  Only a counter that has wrapped around hides a ban: with `2 ^ 32` bans
of one prefix length, a peer's ban replaces a local one.
-/

namespace HiveGuard.Daemon

open HiveGuard.Core Library.Dictionary Library.Effect Net Persistence

/-- Neither the whitelist nor a revocation speaks against the ban. -/
structure Unopposed (stores : Stores) (record : BanRecord) : Prop where
  whitelist : ∀ entry, entry ∈ immutableProtected ∨ entry ∈ stores.whitelist.entries →
    ¬IpNet.SharesAddress entry record.subject
  revocations : ∀ revoked cutoff, stores.revocations.lookup revoked = some cutoff →
    IpNet.SharesAddress revoked record.subject → cutoff < record.createdAt

/-- What batches from peers may do to the stores. -/
structure Deferential (source target : Stores) : Prop where
  whitelist : target.whitelist = source.whitelist
  revocations : target.revocations = source.revocations
  grown : target.banStore.Fits → source.banStore.Fits
  counted : source.banStore.Counted → target.banStore.Fits → target.banStore.Counted
  kept : source.banStore.Counted → target.banStore.Fits →
    ∀ subject record, source.banStore.bans.lookup subject = some record →
      record.source.isClusterPeer = false → target.banStore.bans.lookup subject = some record
  stored : ∀ subject record, target.banStore.bans.lookup subject = some record →
    source.banStore.bans.lookup subject = some record ∨ Unopposed source record

theorem Deferential.refl (stores : Stores) : Deferential stores stores :=
  ⟨rfl, rfl, id, fun counted _ => counted, fun _ _ _ _ found _ => found,
    fun _ _ found => .inl found⟩

theorem Deferential.trans {first second third : Stores} (earlier : Deferential first second)
    (later : Deferential second third) : Deferential first third where
  whitelist := later.whitelist.trans earlier.whitelist
  revocations := later.revocations.trans earlier.revocations
  grown := earlier.grown ∘ later.grown
  counted counted fits := later.counted (earlier.counted counted (later.grown fits)) fits
  kept := by
    intro counted fits subject record found isLocal
    have middle := later.grown fits
    exact later.kept (earlier.counted counted middle) fits subject record
      (earlier.kept counted middle subject record found isLocal) isLocal
  stored := by
    intro subject record found
    rcases later.stored subject record found with middle | unopposed
    · exact earlier.stored subject record middle
    · refine .inr ⟨?_, ?_⟩
      · rw [← earlier.whitelist]
        exact unopposed.whitelist
      · rw [← earlier.revocations]
        exact unopposed.revocations

/-! ## The guards -/

/-- A ban that storing the record would overwrite is a peer's. -/
theorem isClusterPeer_of_remoteChangesState {stores : Stores} {record existing : BanRecord}
    (counted : stores.banStore.Counted) (changes : remoteChangesState stores record = true)
    (found : stores.banStore.bans.lookup record.subject.trunc = some existing) :
    existing.source.isClusterPeer = true := by
  rw [remoteChangesState] at changes
  cases banned : stores.banStore.isBanned record.subject.addr with
  | none => exact absurd banned (InMemoryBanStore.isBanned_ne_none counted found)
  | some seen =>
    simp only [banned, Bool.and_eq_true, decide_eq_true_eq] at changes
    obtain ⟨⟨subject_eq, fromPeer⟩, -⟩ := changes
    obtain ⟨net, -, stored⟩ := InMemoryBanStore.exists_of_isBanned banned
    -- The ban that was seen is filed without host bits, so the record has none.
    have key_eq : record.subject.trunc = net.trunc := by
      rw [← subject_eq, stores.banStore.subject_eq net.trunc seen stored, IpNet.trunc_trunc]
    rw [key_eq, stored] at found
    cases found
    exact fromPeer

theorem unopposed_of_accepts {stores : Stores} {record stored : BanRecord}
    (accepts : StateManager.acceptsRemoteBan stores record = true)
    (subject_eq : stored.subject = record.subject.trunc)
    (createdAt_eq : stored.createdAt = record.createdAt) : Unopposed stores stored := by
  obtain ⟨unprotected, newer⟩ := (World.acceptsRemoteBan_iff stores record).mp accepts
  constructor
  · intro entry listed shares
    rw [subject_eq, IpNet.sharesAddress_trunc_right] at shares
    exact unprotected ⟨entry, listed, shares⟩
  · intro revoked cutoff found shares
    rw [subject_eq, IpNet.sharesAddress_trunc_right] at shares
    rw [createdAt_eq]
    exact newer revoked cutoff found shares

/-- Storing a checked record under its network. -/
theorem deferential_addBan {stores : Stores} {record added : BanRecord}
    (accepts : StateManager.acceptsRemoteBan stores record = true)
    (changes : remoteChangesState stores record = true)
    (subject_eq : added.subject = record.subject)
    (createdAt_eq : added.createdAt = record.createdAt) :
    Deferential stores
      (stores.replayEntry (.addBan { added with subject := added.subject.trunc })) where
  whitelist := rfl
  revocations := rfl
  grown fits net := (stores.banStore.countP_le_addBan _ net).trans_lt (fits net)
  counted counted fits := InMemoryBanStore.counted_addBan counted fits
  kept := by
    intro counted _ subject existing found isLocal
    simp only [Stores.replayEntry, InMemoryBanStore.addBan, lookup_insert]
    split
    · rename_i same
      rw [same, subject_eq] at found
      have fromPeer := isClusterPeer_of_remoteChangesState counted changes found
      rw [isLocal] at fromPeer
      contradiction
    · exact found
  stored := by
    intro subject found foundAfter
    simp only [Stores.replayEntry, InMemoryBanStore.addBan, lookup_insert] at foundAfter
    split at foundAfter
    · cases foundAfter
      exact .inr (unopposed_of_accepts accepts (by rw [subject_eq]) createdAt_eq)
    · exact .inl foundAfter

theorem attributed_subject (sender : String) (record : BanRecord) :
    (attributed sender record).subject = record.subject := by
  rw [attributed]
  split <;> rfl

theorem attributed_createdAt (sender : String) (record : BanRecord) :
    (attributed sender record).createdAt = record.createdAt := by
  rw [attributed]
  split <;> rfl

/-! ## Batches -/

section Batches

variable (env : Persistence.Externals)

theorem applyBan_deferential (policy : TrustConfig) (sender : String) (now : DateTime)
    (world : World) (record : BanRecord) :
    Deferential world.manager.toStores
      (applyBan env policy sender now world record).2.manager.toStores := by
  rw [applyBan]
  split
  · rename_i checked
    simp only [applicable, Bool.and_eq_true] at checked
    obtain ⟨⟨⟨-, accepts⟩, -⟩, changes⟩ := checked
    have ends := StateManager.addBan_ends env (attributed sender record) world
    rw [Ends] at ends
    cases run : (StateManager.addBan env (attributed sender record)).run world with
    | error error failed =>
      rw [run] at ends
      simp only [ends]
      exact .refl _
    | ok value stored =>
      rw [run] at ends
      simp only [ends]
      exact deferential_addBan accepts changes (attributed_subject sender record)
        (attributed_createdAt sender record)
  · exact .refl _

theorem applyBans_concat (policy : TrustConfig) (sender : String) (now : DateTime)
    (world : World) (records : List BanRecord) (record : BanRecord) :
    (applyBans env policy sender now world (records ++ [record])).2 =
      (applyBan env policy sender now (applyBans env policy sender now world records).2
        record).2 := by
  rw [applyBans, List.foldl_concat]
  rfl

theorem applyBans_deferential (policy : TrustConfig) (sender : String) (now : DateTime)
    (records : List BanRecord) (world : World) :
    Deferential world.manager.toStores
      (applyBans env policy sender now world records).2.manager.toStores := by
  induction records using List.reverseRecOn with
  | nil => exact .refl _
  | append_singleton records record ih =>
    rw [applyBans_concat]
    exact ih.trans (applyBan_deferential env policy sender now _ record)

variable (net : Net.Externals)

theorem ingestRemoteBans_deferential (actor : ClusterActor) (delivery : Delivery) :
    Deferential actor.world.manager.toStores
      (actor.ingestRemoteBans env net delivery).world.manager.toStores := by
  have renewed : (actor.renewWindow delivery).world = actor.world := by
    rw [ClusterActor.renewWindow]
    split <;> rfl
  rw [ClusterActor.ingestRemoteBans]
  split
  · exact .refl _
  · dsimp only
    rw [ClusterActor.applyAction.eq_def]
    split
    · rw [← renewed]
      exact applyBans_deferential env _ _ _ _ _
    · rw [← renewed]
      exact .refl _

/-- A batch of records from peers: a message, or decisions handed over. -/
inductive RemoteBatch where
  | ingest (delivery : Delivery)
  | apply (sender : String) (now : DateTime) (records : List BanRecord)

def ClusterActor.receive (actor : ClusterActor) : RemoteBatch → ClusterActor
  | .ingest delivery => actor.ingestRemoteBans env net delivery
  | .apply sender now records =>
    { actor with world := (applyBans env actor.remotePolicy sender now actor.world records).2 }

theorem receive_apply_of_ok {actor : ClusterActor} {sender : String} {now : DateTime}
    {record : BanRecord} {target : World}
    (passes : applicable actor.remotePolicy actor.world.manager.toStores now record = true)
    (run : (StateManager.addBan env (attributed sender record)).run actor.world =
      .ok () target) :
    (actor.receive env net (.apply sender now [record])).world = target := by
  change (applyBan env actor.remotePolicy sender now actor.world record).2 = target
  rw [applyBan, if_pos passes]
  simp only [run]

theorem receive_deferential (actor : ClusterActor) (batch : RemoteBatch) :
    Deferential actor.world.manager.toStores
      (actor.receive env net batch).world.manager.toStores := by
  cases batch with
  | ingest delivery => exact ingestRemoteBans_deferential env net actor delivery
  | apply sender now records => exact applyBans_deferential env _ sender now records actor.world

theorem receiveAll_deferential (actor : ClusterActor) (batches : List RemoteBatch) :
    Deferential actor.world.manager.toStores
      (batches.foldl (ClusterActor.receive env net) actor).world.manager.toStores := by
  induction batches generalizing actor with
  | nil => exact .refl _
  | cons batch batches ih =>
    exact (receive_deferential env net actor batch).trans (ih _)

/-- Whatever batches arrive from peers, in whatever state: every ban that was not there
before meets neither a protected network nor a revocation that is not older than the ban,
and whitelist and revocations themselves stay as they are.  No local ban is changed or
removed if the counters are right at the start and no prefix length comes to `2 ^ 32`
bans. -/
theorem remote_batches_keep_local_decisions (actor : ClusterActor)
    (batches : List RemoteBatch) :
    let before := actor.world.manager.toStores
    let after := (batches.foldl (ClusterActor.receive env net) actor).world.manager.toStores
    (after.whitelist = before.whitelist ∧ after.revocations = before.revocations) ∧
      (before.banStore.Counted → after.banStore.Fits →
        ∀ subject record, before.banStore.bans.lookup subject = some record →
          record.source.isClusterPeer = false →
          after.banStore.bans.lookup subject = some record) ∧
      ∀ subject record, after.banStore.bans.lookup subject = some record →
        before.banStore.bans.lookup subject = some record ∨
          (∀ entry, entry ∈ immutableProtected ∨ entry ∈ before.whitelist.entries →
              ¬IpNet.SharesAddress entry record.subject) ∧
            ∀ revoked cutoff, before.revocations.lookup revoked = some cutoff →
              IpNet.SharesAddress revoked record.subject → cutoff < record.createdAt := by
  intro before after
  have deferential := receiveAll_deferential env net actor batches
  refine ⟨⟨deferential.whitelist, deferential.revocations⟩, deferential.kept, ?_⟩
  intro subject record found
  exact (deferential.stored subject record found).imp_right fun unopposed =>
    ⟨unopposed.whitelist, unopposed.revocations⟩

end Batches

/-! ## A sample batch -/

/-- A node that banned `8.8.8.0/24` itself, with the default limits. -/
def sampleActor : ClusterActor where
  engine := .new
  rateLimiter := .new 100 (Duration.minutes 1)
  rawLimiter := .new 10000 (Duration.minutes 1)
  remotePolicy := ⟨24, 48, 86400⟩
  countWindow := 0
  banCounts := ∅
  world := finalState ((StateManager.addBan Wire.externals World.sampleBan).run World.sampleStart)

/-- A peer's later ban of a network. -/
def peerBan (subject : IpNet) : BanRecord :=
  { World.sampleBan with
    subject
    createdAt := 1700000100000000000
    expiresAt := some 1700003600000000000
    source := .clusterPeer "beta" }

/-- A newer ban of the same network, spelled with host bits, and one of another
network. -/
def sampleBatch : RemoteBatch :=
  .apply "relay" 1700000200000000000
    [peerBan (.ofV4 0x0808084d#32 24), peerBan World.sampleReplica.subject]

theorem remote_batches_keep_local_decisions_sample :
    let before := sampleActor.world.manager.banStore.bans
    let after := (sampleActor.receive Wire.externals Sample.externals
      sampleBatch).world.manager.banStore.bans
    before.lookup World.sampleBan.subject.trunc =
        some { World.sampleBan with subject := World.sampleBan.subject.trunc } ∧
      after.lookup World.sampleBan.subject.trunc =
        some { World.sampleBan with subject := World.sampleBan.subject.trunc } ∧
      after.lookup World.sampleReplica.subject = some (peerBan World.sampleReplica.subject) := by
  intro before after
  have stored : before.lookup World.sampleBan.subject.trunc =
      some { World.sampleBan with subject := World.sampleBan.subject.trunc } := by
    decide +kernel
  have run : (StateManager.addBan Wire.externals World.sampleBan).run World.sampleStart =
      .ok () sampleActor.world := eq_ok_of_succeeded (by decide +kernel)
  have counted : sampleActor.world.manager.banStore.Counted := by
    rw [StateManager.banStore_of_addBan_ok Wire.externals run]
    exact InMemoryBanStore.counted_addBan InMemoryBanStore.counted_new
      (InMemoryBanStore.fits_of_length (by decide +kernel))
  obtain ⟨-, kept, -⟩ := remote_batches_keep_local_decisions Wire.externals Sample.externals
    sampleActor [sampleBatch]
  have fits := InMemoryBanStore.fits_of_length (show
    (sampleActor.receive Wire.externals Sample.externals
      sampleBatch).world.manager.banStore.bans.keys.length < 2 ^ 32 by decide +kernel)
  exact ⟨stored, kept counted fits _ _ stored rfl, by decide +kernel⟩

/-! ## A counter that has wrapped around -/

/-- A node with these bans. -/
def actorWith (store : InMemoryBanStore) : ClusterActor :=
  { sampleActor with world := StateManager.worldWith store }

open InMemoryBanStore

/-- A ban that is not counted is replaced by that of a peer. -/
theorem replaced_of_count {store : InMemoryBanStore}
    (empty : ∀ net, store.counts.count net = 0) :
    ((actorWith store).receive Wire.externals Sample.externals
      (.apply "relay" 1700000200000000000
        [peerBan (hostV6 0)])).world.manager.banStore.bans.lookup (hostV6 0) =
          some (peerBan (hostV6 0)) := by
  have changes : remoteChangesState (actorWith store).world.manager.toStores
      (peerBan (hostV6 0)) = true := by
    have unseen : (actorWith store).world.manager.banStore.isBanned
        (peerBan (hostV6 0)).subject.addr = none := isBanned_of_count empty _
    rw [remoteChangesState, unseen]
  have checked : (remotePolicyAllows ⟨24, 48, 86400⟩ (peerBan (hostV6 0)) 1700000200000000000 &&
      StateManager.acceptsRemoteBan World.sampleStart.manager.toStores (peerBan (hostV6 0)) &&
        !World.sampleStart.manager.whitelist.overlaps (hostV6 0)) = true := by
    decide +kernel
  have passes : applicable (actorWith store).remotePolicy (actorWith store).world.manager.toStores
      1700000200000000000 (peerBan (hostV6 0)) = true := by
    rw [applicable, changes, Bool.and_true]
    exact checked
  have attributed_eq : attributed "relay" (peerBan (hostV6 0)) = peerBan (hostV6 0) := if_pos rfl
  have trunc_eq : (hostV6 0).trunc = hostV6 0 := congrArg IpNet.v6 (trunc_host _)
  obtain ⟨target, run⟩ := StateManager.exists_addBan store
    (attributed "relay" (peerBan (hostV6 0))) (by decide) (by decide +kernel)
  have stored := StateManager.banStore_of_addBan_ok Wire.externals run
  rw [attributed_eq] at stored
  replace stored := stored.trans
    (congrArg (fun subject => store.addBan (peerBan subject)) trunc_eq)
  rw [receive_apply_of_ok Wire.externals Sample.externals passes run, stored, addBan,
    lookup_insert]
  exact if_pos rfl

/-- A node that has banned all addresses of `2001:db8::/96` for good, one by one, lets a
peer's ban of an hour take the place of its own. -/
theorem remote_batch_overrides_local_ban :
    let actor := actorWith (hostsBanned hostV6 (2 ^ 32))
    let after := actor.receive Wire.externals Sample.externals
      (.apply "relay" 1700000200000000000 [peerBan (hostV6 0)])
    actor.world.manager.banStore.bans.lookup (hostV6 0) = some (permanentBan (hostV6 0)) ∧
      (permanentBan (hostV6 0)).source.isClusterPeer = false ∧
      after.world.manager.banStore.bans.lookup (hostV6 0) = some (peerBan (hostV6 0)) := by
  have first := lookup_hostsBanned hosts_hostV6 (show 0 < 2 ^ 32 by decide)
  have replaced := replaced_of_count (count_hostsBanned hosts_hostV6)
  generalize hostsBanned hostV6 (2 ^ 32) = store at *
  exact ⟨first, rfl, replaced⟩

end HiveGuard.Daemon
