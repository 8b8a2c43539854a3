import HiveGuard.Persistence.Protection

/-!
# Starting up with a configured whitelist

At startup the configured networks join the recovered whitelist, the bans that meet it are
revoked, and only then the remaining bans reach the firewall.  A configured network that a
single entry holds already is not added again.  Nothing is assumed of the recovered state:
a crash may have left bans behind that its own whitelist forbids.
-/

namespace HiveGuard.Daemon

open HiveGuard.Core Library.Effect Persistence

section Model

variable (env : Externals)

/-- One round of the loop over the configured networks. -/
def addConfigNet (net : IpNet) : EStateM HiveGuardError World Unit := do
  if !(← get).manager.whitelist.covers net then
    let _ ← StateManager.addWhitelist env net

/-- Load the configured whitelist into the state and revoke the bans it meets. -/
def applyConfigWhitelist (nets : List IpNet) : EStateM HiveGuardError World (List IpNet) := do
  forM nets (addConfigNet env)
  StateManager.revokeBansCoveredByWhitelist env

/-- The subjects of the stored bans that have not ended.  The clock is read once for each
ban. -/
def currentBans (reading : BanRecord → DateTime) (store : InMemoryBanStore) : List IpNet :=
  (store.getAllBans.filter fun ban => InMemoryBanStore.unexpired (reading ban) ban).map
    BanRecord.subject

/-- The recovered state and the firewall, which may be of any kind. -/
structure Startup (Enforcer : Type) where
  world : World
  enforcer : Enforcer

variable {Enforcer : Type}

/-- Load the configured whitelist, revoke the bans it meets, and then hand what remains to
the firewall. -/
def initWhitelistAndSync (syncFull : List IpNet → EStateM HiveGuardError Enforcer Unit)
    (nets : List IpNet) (reading : BanRecord → DateTime) :
    EStateM HiveGuardError (Startup Enforcer) Unit := do
  let _ ← zoom Startup.world (fun world startup => { startup with world })
    (applyConfigWhitelist env nets)
  let banned := currentBans reading (← get).world.manager.banStore
  zoom Startup.enforcer (fun enforcer startup => { startup with enforcer }) (syncFull banned)

end Model

theorem mem_currentBans_iff {reading : BanRecord → DateTime} {store : InMemoryBanStore}
    {subject : IpNet} :
    subject ∈ currentBans reading store ↔ ∃ record, store.bans.lookup subject = some record ∧
        InMemoryBanStore.unexpired (reading record) record = true := by
  simp only [currentBans, List.mem_map, List.mem_filter, InMemoryBanStore.getAllBans_mem_iff]
  constructor
  · rintro ⟨record, ⟨stored, active⟩, rfl⟩
    exact ⟨record, stored, active⟩
  · rintro ⟨record, stored, active⟩
    have subject_eq := store.subject_eq subject record stored
    exact ⟨record, ⟨by rwa [subject_eq], active⟩, subject_eq⟩

/-! ## The loop over the configured networks -/

/-- What the loop may have done: the whitelist has gained configured networks only and now
holds all of them, and no ban is new. -/
structure Widened (nets : List IpNet) (source target : World) : Prop where
  kept : ∀ entry ∈ source.manager.whitelist.entries, entry ∈ target.manager.whitelist.entries
  origin : ∀ entry ∈ target.manager.whitelist.entries,
    entry ∈ source.manager.whitelist.entries ∨ entry ∈ nets
  covered : ∀ net ∈ nets, ∃ entry, target.manager.whitelist.Listed entry ∧ net.Within entry
  bans : ∀ subject record, target.manager.banStore.bans.lookup subject = some record →
    source.manager.banStore.bans.lookup subject = some record
  unmet : ∀ subject record, source.manager.banStore.bans.lookup subject = some record →
    target.manager.whitelist.overlaps subject = false →
      target.manager.banStore.bans.lookup subject = some record

namespace Widened

variable {first rest : List IpNet} {source middle target : World}

theorem refl (source : World) : Widened [] source source where
  kept _ member := member
  origin _ member := .inl member
  covered := by simp
  bans _ _ stored := stored
  unmet _ _ stored _ := stored

theorem listed (widened : Widened rest middle target) {entry : IpNet}
    (listed : middle.manager.whitelist.Listed entry) : target.manager.whitelist.Listed entry :=
  listed.imp_right (widened.kept entry)

theorem overlaps (widened : Widened rest middle target) {subject : IpNet}
    (apart : target.manager.whitelist.overlaps subject = false) :
    middle.manager.whitelist.overlaps subject = false := by
  rw [← Bool.not_eq_true, WhitelistManager.overlaps_iff] at apart ⊢
  rintro ⟨entry, entryListed, shares⟩
  exact apart ⟨entry, widened.listed entryListed, shares⟩

theorem trans (start : Widened first source middle) (next : Widened rest middle target) :
    Widened (first ++ rest) source target where
  kept entry member := next.kept entry (start.kept entry member)
  origin entry member := by
    rcases next.origin entry member with earlier | added
    · exact (start.origin entry earlier).imp_right (List.mem_append_left rest)
    · exact .inr (List.mem_append_right _ added)
  covered net member := by
    rcases List.mem_append.mp member with early | late
    · rcases start.covered net early with ⟨entry, entryListed, within⟩
      exact ⟨entry, next.listed entryListed, within⟩
    · exact next.covered net late
  bans subject record stored := start.bans subject record (next.bans subject record stored)
  unmet subject record stored apart :=
    next.unmet subject record (start.unmet subject record stored (next.overlaps apart)) apart

/-- The whitelist overlaps what meets a configured, a recovered or an immutable network. -/
theorem overlaps_iff {nets : List IpNet} (widened : Widened nets source target) (subject : IpNet) :
    target.manager.whitelist.overlaps subject = true ↔
      ∃ net, (net ∈ nets ∨ net ∈ source.manager.whitelist.entries ∨ net ∈ immutableProtected) ∧
        IpNet.SharesAddress net subject := by
  rw [WhitelistManager.overlaps_iff]
  constructor
  · rintro ⟨entry, immutable | added, shares⟩
    · exact ⟨entry, .inr (.inr immutable), shares⟩
    · rcases widened.origin entry added with recovered | configured
      · exact ⟨entry, .inr (.inl recovered), shares⟩
      · exact ⟨entry, .inl configured, shares⟩
  · rintro ⟨net, configured | recovered | immutable, ip, inNet, inSubject⟩
    · rcases widened.covered net configured with ⟨entry, entryListed, within⟩
      exact ⟨entry, entryListed, ip, within ip inNet, inSubject⟩
    · exact ⟨net, .inr (widened.kept net recovered), ip, inNet, inSubject⟩
    · exact ⟨net, .inl immutable, ip, inNet, inSubject⟩

end Widened

section Runs

variable {env : Externals} {source target : World}

theorem widened_addWhitelist {net : IpNet} {revoked : List IpNet}
    (run : (StateManager.addWhitelist env net).run source = .ok revoked target) :
    Widened [net] source target := by
  rcases World.addWhitelist_ok run with ⟨entries_eq, remaining⟩
  constructor
  · intro entry member
    rw [entries_eq, AList.mem_insert]
    exact .inr member
  · intro entry member
    rw [entries_eq, AList.mem_insert] at member
    rcases member with rfl | earlier
    · exact .inr (List.mem_singleton_self entry)
    · exact .inl earlier
  · intro other member
    rw [List.mem_singleton] at member
    subst other
    refine ⟨net, .inr ?_, fun ip member => member⟩
    rw [entries_eq, AList.mem_insert]
    exact .inl rfl
  · exact fun subject record stored => ((remaining subject record).mp stored).1
  · exact fun subject record stored apart => (remaining subject record).mpr ⟨stored, apart⟩

theorem widened_addConfigNet {net : IpNet}
    (run : (addConfigNet env net).run source = .ok () target) : Widened [net] source target := by
  rw [addConfigNet] at run
  rcases bind_eq_ok_iff.mp run with ⟨_, _, getRun, run⟩
  cases getRun
  split at run
  · rcases bind_eq_ok_iff.mp run with ⟨revoked, _, addRun, pureRun⟩
    cases pureRun
    exact widened_addWhitelist addRun
  · rename_i covered
    cases run
    rw [Bool.not_eq_true, Bool.not_eq_false'] at covered
    refine ⟨fun _ member => member, fun _ member => .inl member, ?_,
      fun _ _ stored => stored, fun _ _ stored _ => stored⟩
    intro other member
    rw [List.mem_singleton] at member
    subst other
    exact WhitelistManager.within_of_covers covered

theorem widened_forM {nets : List IpNet}
    (run : (forM nets (addConfigNet env)).run source = .ok () target) :
    Widened nets source target := by
  induction nets generalizing source with
  | nil =>
    cases run
    exact .refl _
  | cons net nets ih =>
    rw [List.forM_cons] at run
    rcases bind_eq_ok_iff.mp run with ⟨_, middle, netRun, restRun⟩
    exact (widened_addConfigNet netRun).trans (ih restRun)

/-- After the configured whitelist is applied, the stored bans are the recovered ones that
meet no configured, recovered or immutable network. -/
theorem lookup_applyConfigWhitelist {nets revoked : List IpNet}
    (run : (applyConfigWhitelist env nets).run source = .ok revoked target)
    (subject : IpNet) (record : BanRecord) :
    target.manager.banStore.bans.lookup subject = some record ↔
      source.manager.banStore.bans.lookup subject = some record ∧
        ∀ net, (net ∈ nets ∨ net ∈ source.manager.whitelist.entries ∨
          net ∈ immutableProtected) → ¬IpNet.SharesAddress net subject := by
  rcases bind_eq_ok_iff.mp run with ⟨_, middle, loopRun, sweepRun⟩
  have widened := widened_forM loopRun
  rcases World.revokeBansCoveredByWhitelist_ok sweepRun with ⟨-, remaining⟩
  have apart_iff : middle.manager.whitelist.overlaps subject = false ↔
      ∀ net, (net ∈ nets ∨ net ∈ source.manager.whitelist.entries ∨
        net ∈ immutableProtected) → ¬IpNet.SharesAddress net subject := by
    rw [← Bool.not_eq_true, widened.overlaps_iff, not_exists]
    exact forall_congr' fun net => not_and
  rw [remaining, ← apart_iff]
  constructor
  · rintro ⟨stored, apart⟩
    exact ⟨widened.bans subject record stored, apart⟩
  · rintro ⟨stored, apart⟩
    exact ⟨widened.unmet subject record stored apart, apart⟩

end Runs

/-- Whatever state was recovered, and whatever the firewall is: if starting up returns, it
handed the firewall the unexpired stored bans that share no address with a configured
network, a recovered whitelist entry or an immutable network, and nothing else. -/
theorem initWhitelistAndSync_exact (env : Externals) {Enforcer : Type}
    {syncFull : List IpNet → EStateM HiveGuardError Enforcer Unit} {nets : List IpNet}
    {reading : BanRecord → DateTime} {source target : Startup Enforcer}
    (run : (initWhitelistAndSync env syncFull nets reading).run source = .ok () target) :
    ∃ banned, (syncFull banned).run source.enforcer = .ok () target.enforcer ∧
      ∀ subject, subject ∈ banned ↔
        ∃ record, source.world.manager.banStore.bans.lookup subject = some record ∧
          InMemoryBanStore.unexpired (reading record) record = true ∧
          ∀ net, (net ∈ nets ∨ net ∈ source.world.manager.whitelist.entries ∨
            net ∈ immutableProtected) → ¬IpNet.SharesAddress net subject := by
  rcases bind_eq_ok_iff.mp run with ⟨revoked, middle, stateRun, nextRun⟩
  rcases zoom_eq_ok_iff.mp stateRun with ⟨applied, applyRun, rfl⟩
  rcases bind_eq_ok_iff.mp nextRun with ⟨_, _, getRun, enforcerRun⟩
  cases getRun
  rcases zoom_eq_ok_iff.mp enforcerRun with ⟨synced, syncRun, rfl⟩
  refine ⟨_, syncRun, fun subject => ?_⟩
  rw [mem_currentBans_iff]
  refine exists_congr fun record => ?_
  rw [lookup_applyConfigWhitelist applyRun]
  exact and_right_comm.trans and_assoc

/-- The state that a crash leaves between a whitelist entry for `8.8.8.8` and the removal of
the ban of `8.8.8.0/24` that it forbids; a ban of `9.9.9.0/24` stands beside it. -/
def interruptedWorld : World :=
  finalState ((do
    StateManager.addBan Wire.externals World.sampleBan
    StateManager.addBan Wire.externals
      { World.sampleBan with subject := .ofV4 0x09090900#32 24 }
    StateManager.logEntry Wire.externals (.addWhitelist (.ofV4 0x08080808#32 32)) :
      EStateM HiveGuardError World Unit).run World.sampleStart)

/-- A firewall that keeps the last list it was given. -/
def recordingSync (banned : List IpNet) : EStateM HiveGuardError (List IpNet) Unit :=
  set banned

theorem initWhitelistAndSync_exact_after_crash :
    ∃ target, (initWhitelistAndSync Wire.externals recordingSync [.ofV4 0x07070700#32 24]
        fun _ => 1700000000000000000).run ⟨interruptedWorld, []⟩ = .ok () target ∧
      (interruptedWorld.manager.banStore.bans.lookup (.ofV4 0x08080800#32 24)).isSome ∧
      .ofV4 0x08080800#32 24 ∉ target.enforcer := by
  have success : succeeded ((initWhitelistAndSync Wire.externals recordingSync
      [.ofV4 0x07070700#32 24] fun _ => 1700000000000000000).run ⟨interruptedWorld, []⟩) =
        true := by
    decide +kernel
  have listed : (interruptedWorld.manager.whitelist.entries.lookup
      (.ofV4 0x08080808#32 32)).isSome = true := by
    decide +kernel
  have run := eq_ok_of_succeeded success
  refine ⟨_, run, by decide +kernel, ?_⟩
  rcases initWhitelistAndSync_exact Wire.externals run with ⟨banned, synced, exact_iff⟩
  cases synced
  intro member
  rcases (exact_iff _).mp member with ⟨record, stored, active, apart⟩
  exact apart (.ofV4 0x08080808#32 32) (.inr (.inl (AList.lookup_isSome.mp listed)))
    ⟨.v4 0x08080808#32, by decide, by decide⟩

end HiveGuard.Daemon
