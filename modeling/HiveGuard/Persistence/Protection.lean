import HiveGuard.Persistence.Recovery

/-!
# Whitelisted networks are never banned

A ban is stored only when it meets no protected network, and a new whitelist
entry removes the bans it meets.  Replay stores bans without looking at the
whitelist, so a restart keeps the property only because it recovers the view.
-/

namespace HiveGuard.Persistence

open HiveGuard.Core Library.Dictionary Library.Effect Library.Trace

namespace View

/-- The networks a view protects. -/
def Listed (view : View) (entry : IpNet) : Prop :=
  entry ∈ immutableProtected ∨ entry ∈ view.whitelist

/-- No ban shares an address with a protected network. -/
def Safe (view : View) : Prop :=
  ∀ subject record, view.bans.lookup subject = some record →
    ¬WhitelistManager.Protects view.Listed subject

theorem safe_empty : View.empty.Safe := by
  intro subject record found
  simp [empty] at found

variable {first second : View}

theorem Listed.mono
    (fewer : ∀ net, net ∈ second.whitelist → net ∈ first.whitelist) {entry : IpNet}
    (listed : second.Listed entry) : first.Listed entry :=
  listed.imp_right (fewer entry)

/-- Fewer bans and fewer whitelist entries keep a view safe. -/
theorem Safe.mono (safe : first.Safe)
    (fewerBans : ∀ subject record, second.bans.lookup subject = some record →
      ∃ stored, first.bans.lookup subject = some stored)
    (fewerEntries : ∀ net, net ∈ second.whitelist → net ∈ first.whitelist) : second.Safe := by
  rintro subject record found ⟨entry, listed, shares⟩
  obtain ⟨stored, before⟩ := fewerBans subject record found
  exact safe subject stored before ⟨entry, listed.mono fewerEntries, shares⟩

theorem Safe.erased (safe : first.Safe) {removed : IpNet}
    (bans_eq : second.bans = first.bans.erase removed)
    (whitelist_eq : second.whitelist = first.whitelist) : second.Safe := by
  refine safe.mono ?_ fun net member => whitelist_eq ▸ member
  intro subject stored found
  rw [bans_eq, map_lookup_erase] at found
  split at found
  · contradiction
  · exact ⟨stored, found⟩

end View

theorem Stores.overlaps_iff (stores : Stores) (net : IpNet) :
    stores.whitelist.overlaps net = true ↔ WhitelistManager.Protects stores.view.Listed net :=
  WhitelistManager.overlaps_iff stores.whitelist net

/-- An entry other than a new whitelist entry keeps the view safe, if the ban it
adds meets no protected network. -/
theorem View.Safe.apply {stores : Stores} (safe : stores.view.Safe) {entry : WalEntry}
    (unprotected : ∀ record, entry = .addBan record →
      stores.whitelist.overlaps record.subject = false)
    (notWhitelist : ∀ net, entry ≠ .addWhitelist net) : (stores.view.apply entry).Safe := by
  cases entry with
  | addBan record =>
    rintro subject stored found protection
    simp only [View.apply, map_lookup_insert] at found
    split at found
    · rename_i same
      subst subject
      have overlap := (stores.overlaps_iff record.subject).mpr protection
      rw [unprotected record rfl] at overlap
      contradiction
    · exact safe subject stored found protection
  | removeBan removed => exact safe.erased rfl rfl
  | revokeBan removed cutoff => exact safe.erased rfl rfl
  | addWhitelist net => exact absurd rfl (notWhitelist net)
  | removeWhitelist removed =>
    refine safe.mono (fun _ stored found => ⟨stored, found⟩) ?_
    intro net member
    exact (Finmap.mem_erase.mp member).2
  | addCrdtBan record => exact safe
  | tombstoneCrdtBan subject =>
    simp only [View.apply]
    split
    · exact safe
    · exact safe

namespace World

variable {env : Externals}

variable {source target : World}

theorem steps_safe {change : Mutation} (notWhitelist : ∀ net, change ≠ .addWhitelist net)
    {logged : List WalEntry}
    (steps : Steps (StateManager.logEntry env) change.Permits source logged target)
    (safe : source.view.Safe) : target.view.Safe := by
  induction steps with
  | nil state => exact safe
  | @cons source middle target entry logged permitted run rest ih =>
    apply ih
    rw [view_logEntry run]
    exact View.Safe.apply safe (by rintro record rfl; exact permitted)
      (by rintro net rfl; exact notWhitelist net permitted)

theorem removeBan_ok {subject : IpNet} {removed : Bool}
    (run : (StateManager.removeBan env subject).run source = .ok removed target) :
    target.manager.whitelist = source.manager.whitelist ∧
      target.manager.banStore.bans = source.manager.banStore.bans.erase subject := by
  rw [StateManager.removeBan_eq] at run
  obtain ⟨state, -, rfl⟩ := (StateManager.logEntry_ok_iff env).mp
    (StateManager.logEntry_of_answer env run)
  exact ⟨rfl, rfl⟩

/-- Setting the flag of a replicated record touches neither bans nor whitelist. -/
theorem tombstoneCrdtBan_ok {subject : IpNet} {flagged : Bool}
    (run : (StateManager.tombstoneCrdtBan env subject).run source = .ok flagged target) :
    target.manager.whitelist = source.manager.whitelist ∧
      target.manager.banStore = source.manager.banStore := by
  rw [StateManager.tombstoneCrdtBan_eq] at run
  obtain ⟨state, -, rfl⟩ := (StateManager.logEntry_ok_iff env).mp
    (StateManager.logEntry_of_answer env run)
  exact ⟨rfl, rfl⟩

/-- One round of the loop removes its subject. -/
theorem revokeCovered_cons_ok {first : IpNet} {covered revoked removed : List IpNet}
    (run : (StateManager.revokeCovered env (first :: covered) revoked).run source =
      .ok removed target) :
    ∃ middle revoked,
      (StateManager.revokeCovered env covered revoked).run middle = .ok removed target ∧
        middle.manager.whitelist = source.manager.whitelist ∧
        middle.manager.banStore.bans = source.manager.banStore.bans.erase first := by
  rw [StateManager.revokeCovered] at run
  obtain ⟨_, removal, removeRun, run⟩ := bind_eq_ok_iff.mp run
  obtain ⟨whitelist_eq, bans_eq⟩ := removeBan_ok removeRun
  obtain ⟨_, _, getRun, run⟩ := bind_eq_ok_iff.mp run
  cases getRun
  dsimp only at run
  split at run
  · obtain ⟨_, middle, tombstoneRun, run⟩ := bind_eq_ok_iff.mp run
    obtain ⟨sameWhitelist, sameBans⟩ := tombstoneCrdtBan_ok tombstoneRun
    exact ⟨middle, _, run, sameWhitelist.trans whitelist_eq, by rw [sameBans, bans_eq]⟩
  · exact ⟨removal, _, run, whitelist_eq, bans_eq⟩

/-- The loop removes the subjects it was given, no others, and touches no whitelist entry. -/
theorem revokeCovered_ok {covered revoked removed : List IpNet}
    (run : (StateManager.revokeCovered env covered revoked).run source = .ok removed target) :
    target.manager.whitelist = source.manager.whitelist ∧
      ∀ subject record, target.manager.banStore.bans.lookup subject = some record ↔
        source.manager.banStore.bans.lookup subject = some record ∧ subject ∉ covered := by
  induction covered generalizing revoked source with
  | nil =>
    cases run
    exact ⟨rfl, fun subject record => by simp⟩
  | cons first covered ih =>
    obtain ⟨middle, revoked, rest, whitelist_eq, bans_eq⟩ := revokeCovered_cons_ok run
    obtain ⟨targetWhitelist, targetBans⟩ := ih rest
    refine ⟨targetWhitelist.trans whitelist_eq, ?_⟩
    intro subject record
    rw [targetBans, bans_eq, lookup_erase]
    split
    · rename_i same
      simp [same]
    · rename_i different
      simp [different]

/-- The sweep removes the bans that meet the whitelist, and no others. -/
theorem revokeBansCoveredByWhitelist_ok {removed : List IpNet}
    (run : (StateManager.revokeBansCoveredByWhitelist env).run source = .ok removed target) :
    target.manager.whitelist = source.manager.whitelist ∧
      ∀ subject record, target.manager.banStore.bans.lookup subject = some record ↔
        source.manager.banStore.bans.lookup subject = some record ∧
          source.manager.whitelist.overlaps subject = false := by
  rw [StateManager.revokeBansCoveredByWhitelist] at run
  obtain ⟨_, _, getRun, run⟩ := bind_eq_ok_iff.mp run
  cases getRun
  obtain ⟨whitelist_eq, remaining⟩ := revokeCovered_ok run
  refine ⟨whitelist_eq, fun subject record => ?_⟩
  rw [remaining]
  refine and_congr_right fun before => ?_
  -- A stored ban is listed under its subject, so only the overlap test decides.
  have subject_eq := source.manager.banStore.subject_eq subject record before
  have member : record ∈ source.manager.banStore.getAllBans := by
    rw [InMemoryBanStore.getAllBans_mem_iff, subject_eq]
    exact before
  have listed : subject ∈ source.manager.banStore.getAllBans.map BanRecord.subject :=
    List.mem_map.mpr ⟨record, member, subject_eq⟩
  rw [List.mem_filter, and_iff_right listed, Bool.not_eq_true]

/-- After the sweep no ban meets the whitelist, whatever was stored before. -/
theorem safe_revokeBansCoveredByWhitelist {removed : List IpNet}
    (run : (StateManager.revokeBansCoveredByWhitelist env).run source = .ok removed target) :
    target.view.Safe := by
  obtain ⟨whitelist_eq, remaining⟩ := revokeBansCoveredByWhitelist_ok run
  intro subject record found protection
  have stored : target.manager.banStore.bans.lookup subject = some record := by
    simpa [view, Stores.view] using found
  have overlap := (target.manager.toStores.overlaps_iff subject).mpr protection
  rw [whitelist_eq, ((remaining subject record).mp stored).2] at overlap
  contradiction

/-- A new entry joins the whitelist, and the bans that meet the whitelist go. -/
theorem addWhitelist_ok {net : IpNet} {removed : List IpNet}
    (run : (StateManager.addWhitelist env net).run source = .ok removed target) :
    target.manager.whitelist.entries = source.manager.whitelist.entries.insert net () ∧
      ∀ subject record, target.manager.banStore.bans.lookup subject = some record ↔
        source.manager.banStore.bans.lookup subject = some record ∧
          target.manager.whitelist.overlaps subject = false := by
  rw [StateManager.addWhitelist_eq] at run
  obtain ⟨_, middle, logRun, sweepRun⟩ := bind_eq_ok_iff.mp run
  obtain ⟨state, -, rfl⟩ := (StateManager.logEntry_ok_iff env).mp logRun
  obtain ⟨whitelist_eq, remaining⟩ := revokeBansCoveredByWhitelist_ok sweepRun
  rw [whitelist_eq]
  exact ⟨rfl, remaining⟩

theorem safe_mutation {change : Mutation} (safe : source.view.Safe)
    (run : (change.perform env).run source = .ok () target) : target.view.Safe := by
  by_cases whitelists : ∃ net, change = .addWhitelist net
  · obtain ⟨net, rfl⟩ := whitelists
    obtain ⟨removed, _, addRun, dropRun⟩ := bind_eq_ok_iff.mp run
    cases dropRun
    rw [StateManager.addWhitelist_eq] at addRun
    obtain ⟨_, _, -, sweepRun⟩ := bind_eq_ok_iff.mp addRun
    exact safe_revokeBansCoveredByWhitelist sweepRun
  · have traced := change.traced env source
    rw [run] at traced
    cases traced with
    | returned steps =>
      exact steps_safe (fun net same => whitelists ⟨net, same⟩) steps safe

theorem safe_of_history {dataDir : String} {syncMode : WalSyncMode} {io : List Outcome}
    {admissible : Call → Prop} {start world : World}
    (fresh : (StateManager.new env dataDir syncMode).run ⟨.empty, io⟩ =
      .ok start.manager start.toDevice)
    (history : History env dataDir admissible start world) : world.view.Safe := by
  induction history with
  | refl =>
    have persisted : Persisted env start .empty [] := persisted_new fresh rfl
    rw [persisted.view_eq]
    exact View.safe_empty
  | @tail source target earlier step ih =>
    obtain ⟨base, entries, persisted⟩ := exists_persisted fresh earlier
    cases step with
    | call call admitted run =>
      cases call with
      | mutation change => exact safe_mutation ih run
      | takeSnapshot =>
        have view_eq : target.view = source.view := (persisted_takeSnapshot run).view_eq
        rwa [view_eq]
      | flushWal =>
        have view_eq : target.view = source.view := by
          rw [(persisted.flushWal run).view_eq, persisted.view_eq]
        rwa [view_eq]
    | restart syncMode io run =>
      have view_eq : target.view = source.view := persisted.view_restart run
      rwa [view_eq]
    | reorder reordered => rwa [reordered.view]

variable (env) in
/-- In every state of every history of calls that returned, restarts included, no
stored ban shares an address with a whitelist entry or an immutable network. -/
theorem not_sharesAddress_of_stored {dataDir : String} {syncMode : WalSyncMode}
    {io : List Outcome} {admissible : Call → Prop} {start world : World}
    (fresh : (StateManager.new env dataDir syncMode).run ⟨.empty, io⟩ =
      .ok start.manager start.toDevice) (history : History env dataDir admissible start world)
    {subject : IpNet} {record : BanRecord}
    (stored : world.manager.banStore.bans.lookup subject = some record) {entry : IpNet}
    (listed : entry ∈ immutableProtected ∨ entry ∈ world.manager.whitelist.entries) :
    ¬IpNet.SharesAddress entry record.subject := by
  intro shares
  have subject_eq := world.manager.banStore.subject_eq subject record stored
  rw [subject_eq] at shares
  have found : world.view.bans.lookup subject = some record := by
    simpa [view, Stores.view] using stored
  exact safe_of_history fresh history subject record found ⟨entry, listed, shares⟩

/-- A ban of `8.8.8.0/24`, given with host bits, next to a whitelisted address. -/
theorem not_sharesAddress_of_stored_sample :
    let calls := [Call.mutation (.addBan sampleBan),
      .mutation (.addWhitelist sampleReplica.subject), .takeSnapshot]
    ∃ world, (forM calls (Call.perform Wire.externals)).run sampleStart = .ok () world ∧
      world.manager.banStore.bans.lookup sampleBan.subject.trunc =
        some { sampleBan with subject := sampleBan.subject.trunc } ∧
      sampleReplica.subject ∈ world.manager.whitelist.entries ∧
      ¬IpNet.SharesAddress sampleReplica.subject sampleBan.subject.trunc := by
  intro calls
  have success : succeeded
      ((forM calls (Call.perform Wire.externals)).run sampleStart) = true := by
    decide +kernel
  have stored : (finalState ((forM calls (Call.perform Wire.externals)).run
      sampleStart)).manager.banStore.bans.lookup sampleBan.subject.trunc =
        some { sampleBan with subject := sampleBan.subject.trunc } := by
    decide +kernel
  have listed : ((finalState ((forM calls (Call.perform Wire.externals)).run
      sampleStart)).manager.whitelist.entries.lookup sampleReplica.subject).isSome = true := by
    decide +kernel
  have run := eq_ok_of_succeeded success
  have history : History Wire.externals "/var/lib/hiveguard" (fun _ => True) sampleStart _ :=
    history_of_forM (fun _ _ => trivial) run
  exact ⟨_, run, stored, AList.lookup_isSome.mp listed,
    not_sharesAddress_of_stored Wire.externals sampleStart_fresh history stored
      (.inr (AList.lookup_isSome.mp listed))⟩

end World

end HiveGuard.Persistence
