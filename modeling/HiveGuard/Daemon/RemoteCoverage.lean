import HiveGuard.Daemon.RemoteBans

/-!
# What remote bans do to protection

A ban from a peer replaces the peer ban of the same subject when it was created
later, even if it ends earlier, and is dropped when the most specific ban of its
network address stands in the way, even if that ban has expired or is narrower.  In
both cases an address can lose or miss protection; conditions under which none does are
stated here.
-/

namespace HiveGuard.Daemon

open HiveGuard.Core Library.Dictionary Library.Effect Persistence
open InMemoryBanStore

/-! ## Replacing a ban -/

/-- The active ban that a record would replace ends no later than the record, or
other active bans hold all its addresses for as long. -/
def ReplacesShorter (store : InMemoryBanStore) (now : DateTime) (record : BanRecord) : Prop :=
  ∀ existing, store.bans.lookup record.subject.trunc = some existing →
    unexpired now existing = true →
      LastsUntil record.expiresAt existing.expiresAt ∨
        ∀ ip, existing.subject.contains ip = true →
          ∃ other, store.bans.lookup other.subject = some other ∧
            other.subject ≠ existing.subject ∧ unexpired now other = true ∧
            other.subject.contains ip = true ∧
            LastsUntil other.expiresAt existing.expiresAt

theorem keepsCover_addBan_iff (store : InMemoryBanStore) (now : DateTime)
    {record added : BanRecord} (subject_eq : added.subject = record.subject.trunc)
    (expiry_eq : added.expiresAt = record.expiresAt) :
    KeepsCover now store (store.addBan added) ↔ ReplacesShorter store now record := by
  have lookup_eq : ∀ net, (store.addBan added).bans.lookup net =
      if net = added.subject then some added else store.bans.lookup net :=
    fun net => lookup_insert _ _ _ _
  constructor
  · intro keeps existing found active
    have existing_subject := store.subject_eq _ _ found
    by_cases shorter : LastsUntil record.expiresAt existing.expiresAt
    · exact .inl shorter
    · refine .inr fun ip member => ?_
      obtain ⟨other, otherFound, otherActive, otherMember, lasts⟩ :=
        keeps ip existing.expiresAt
          ⟨existing, by rwa [existing_subject], active, member, .refl _⟩
      rw [lookup_eq] at otherFound
      split at otherFound
      · obtain rfl := Option.some.inj otherFound
        exact absurd (expiry_eq ▸ lasts) shorter
      · rename_i different
        refine ⟨other, otherFound, ?_, otherActive, otherMember, lasts⟩
        rwa [existing_subject, ← subject_eq]
  · rintro replaces ip deadline ⟨existing, found, active, member, covers⟩
    by_cases same : existing.subject = added.subject
    · rw [same, subject_eq] at found
      rcases replaces existing found active with shorter | others
      · rw [← expiry_eq] at shorter
        exact store.covers_addBan (unexpired_of_lastsUntil active shorter) (same ▸ member)
          (shorter.trans covers)
      · obtain ⟨other, otherFound, different, otherActive, otherMember, lasts⟩ := others ip member
        refine ⟨other, ?_, otherActive, otherMember, lasts.trans covers⟩
        rwa [lookup_eq, if_neg (same ▸ different)]
    · refine ⟨existing, ?_, active, member, covers⟩
      rwa [lookup_eq, if_neg same]

section Apply

variable (env : Persistence.Externals) (policy : TrustConfig) (sender : String) (now : DateTime)

/-- If the record passes the checks and can be stored, it replaces nothing longer. -/
def Harmless (world : World) (record : BanRecord) : Prop :=
  applicable policy world.manager.toStores now record = true →
    succeeded ((StateManager.addBan env (attributed sender record)).run world) = true →
      ReplacesShorter world.manager.banStore now record

theorem attributed_expiresAt (record : BanRecord) :
    (attributed sender record).expiresAt = record.expiresAt := by
  rw [attributed]
  split <;> rfl

/-- One record keeps all protection exactly if it is harmless. -/
theorem keepsCover_applyBan_iff (world : World) (record : BanRecord) :
    KeepsCover now world.manager.banStore
        (applyBan env policy sender now world record).2.manager.banStore ↔
      Harmless env policy sender now world record := by
  rw [applyBan, Harmless]
  split
  · rename_i checked
    cases run : (StateManager.addBan env (attributed sender record)).run world with
    | error error failed =>
      simp only [StateManager.banStore_of_addBan_error env run, succeeded, Bool.false_eq_true,
        false_imp_iff, implies_true, iff_true]
      exact .refl now _
    | ok value stored =>
      simp only [StateManager.banStore_of_addBan_ok env run, checked, succeeded,
        forall_true_left]
      refine keepsCover_addBan_iff _ now ?_ (attributed_expiresAt sender record)
      exact congrArg IpNet.trunc (attributed_subject sender record)
  · rename_i skipped
    exact iff_of_true (.refl now _) fun checked => absurd checked skipped

theorem applyBans_singleton (world : World) (record : BanRecord) :
    (applyBans env policy sender now world [record]).2 =
      (applyBan env policy sender now world record).2 :=
  rfl

/-- A list of remote bans shortens no protection if each of its records is harmless in
the state it is applied in; and a single record shortens none exactly if it is
harmless. -/
theorem applyBans_keepsCover (world : World) :
    (∀ records, (∀ earlier record later, records = earlier ++ record :: later →
        Harmless env policy sender now (applyBans env policy sender now world earlier).2 record) →
      ∀ ip deadline, world.manager.banStore.Covers now ip deadline →
        (applyBans env policy sender now world records).2.manager.banStore.Covers now ip deadline) ∧
      ∀ record, (∀ ip deadline, world.manager.banStore.Covers now ip deadline →
          (applyBans env policy sender now world [record]).2.manager.banStore.Covers now ip
            deadline) ↔ Harmless env policy sender now world record := by
  refine ⟨fun records => ?_, fun record => ?_⟩
  · intro harmless
    induction records using List.reverseRecOn with
    | nil => exact KeepsCover.refl now _
    | append_singleton records record ih =>
      have earlier := ih fun first middle rest parts =>
        harmless first middle (rest ++ [record]) (by rw [parts]; simp)
      rw [applyBans_concat]
      exact KeepsCover.trans earlier ((keepsCover_applyBan_iff env policy sender now _ record).mpr
        (harmless records record [] rfl))
  · rw [applyBans_singleton]
    exact keepsCover_applyBan_iff env policy sender now world record

end Apply

/-- A peer's ban of `8.8.8.0/24` for most of a day. -/
def longPeerBan : BanRecord :=
  { peerBan (.ofV4 0x08080800#32 24) with
    createdAt := 1700000000000000000
    expiresAt := some 1700080000000000000 }

/-- A node that holds the long ban. -/
def longBanWorld : World :=
  finalState ((StateManager.addBan Wire.externals longPeerBan).run World.sampleStart)

theorem applyBans_shortens :
    let after := (applyBans Wire.externals ⟨24, 48, 86400⟩ "beta" 1700000200000000000 longBanWorld
      [peerBan longPeerBan.subject]).2
    longBanWorld.manager.banStore.Covers 1700000200000000000 (.v4 0x08080801#32)
        longPeerBan.expiresAt ∧
      ¬after.manager.banStore.Covers 1700000200000000000 (.v4 0x08080801#32)
        longPeerBan.expiresAt := by
  simp only [covers_iff]
  decide +kernel

/-! ## Dropping a record as redundant -/

/-- A record is dropped with reason if the most specific ban of its network address is
active and holds the whole network: then every address of the record is protected. -/
theorem rejection_sound {stores : Stores} {now : DateTime} {record : BanRecord}
    (matched : ∀ ban, stores.banStore.isBanned record.subject.addr = some ban →
      unexpired now ban = true ∧ record.subject.Within ban.subject)
    (rejected : remoteChangesState stores record = false) :
    ∀ ip, record.subject.contains ip = true → stores.banStore.Protects now ip := by
  intro ip member
  rw [remoteChangesState] at rejected
  cases found : stores.banStore.isBanned record.subject.addr with
  | none =>
    rw [found] at rejected
    contradiction
  | some ban =>
    obtain ⟨active, within⟩ := matched ban found
    obtain ⟨net, -, stored⟩ := exists_of_isBanned found
    have filed : stores.banStore.bans.lookup ban.subject = some ban := by
      rwa [stores.banStore.subject_eq _ _ stored]
    exact ⟨ban, getAllBans_mem_iff.mpr filed, active, within ip member⟩

/-- A node that banned `8.8.8.0/24` drops a ban of the upper half. -/
theorem rejection_sound_at_half :
    let record := peerBan (.ofV4 0x08080880#32 25)
    remoteChangesState sampleActor.world.manager.toStores record = false ∧
      ∀ ip, record.subject.contains ip = true →
        sampleActor.world.manager.banStore.Protects 1700000200000000000 ip := by
  intro record
  have found : sampleActor.world.manager.banStore.isBanned record.subject.addr =
      some { World.sampleBan with subject := World.sampleBan.subject.trunc } := by
    decide +kernel
  have rejected : remoteChangesState sampleActor.world.manager.toStores record = false := by
    decide +kernel
  refine ⟨rejected, rejection_sound ?_ rejected⟩
  intro ban seen
  cases found.symm.trans seen
  exact ⟨rfl, IpNet.SharesAddress.within ⟨.v4 0x08080880#32, by decide, by decide⟩ (by decide)⟩

/-- A node that banned one address of `8.8.8.0/24`. -/
def narrowBanWorld : World :=
  finalState ((StateManager.addBan Wire.externals
    { World.sampleBan with subject := .ofV4 0x08080800#32 32 }).run World.sampleStart)

theorem rejection_unsound :
    let stores := narrowBanWorld.manager.toStores
    let record := peerBan (.ofV4 0x08080800#32 24)
    let now := 1700000200000000000
    remotePolicyAllows ⟨24, 48, 86400⟩ record now = true ∧
      StateManager.acceptsRemoteBan stores record = true ∧
      remoteChangesState stores record = false ∧
      record.subject.contains (.v4 0x08080801#32) = true ∧
      ¬stores.banStore.Protects now (.v4 0x08080801#32) := by
  unfold Protects
  decide +kernel

end HiveGuard.Daemon
