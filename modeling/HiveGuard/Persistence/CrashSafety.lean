import HiveGuard.Persistence.LargeState
import HiveGuard.Persistence.ReplayTwice

/-!
# Interrupted snapshots

A snapshot may stop after any of its calls into the operating system.  Before
the rename the old snapshot and the log are both there; after it the new
snapshot already contains what the log would replay; after the truncation the
log is empty.  In each case a restart recovers the state, provided the snapshot
it finds is small enough to be loaded.
-/

namespace HiveGuard.Persistence

open HiveGuard.Core Library.Effect Library.Encoding Library.Postcard
open WalWriter

/-- Replicated records enter with a flag that states their quorum. -/
def Call.Consistent : Call → Prop
  | .mutation (.addCrdtBan record) => record.FlagConsistent
  | _ => True

namespace World

variable {env : Externals}

/-- A directory from which a new manager starts with this view. -/
def Recovers (env : Externals) (dataDir : String) (syncMode : WalSyncMode) (disk : Disk)
    (view : View) : Prop :=
  ∃ manager device, (StateManager.new env dataDir syncMode).run ⟨disk, []⟩ =
    .ok manager device ∧ manager.view = view

theorem SnapshotOf.keyed {base : View} {snapshot : Option Bytes}
    (snapshotOf : SnapshotOf env base snapshot) : base.Keyed := by
  cases snapshot with
  | none =>
    rw [show base = .empty from snapshotOf]
    exact Stores.new.view_keyed
  | some file =>
    obtain ⟨stores, encoded, -, -, rfl⟩ := snapshotOf
    exact stores.view_keyed

/-- Snapshot and log together give the view, if the snapshot can be loaded. -/
theorem SnapshotOf.recovers_iff {base view : View} {disk : Disk}
    (snapshotOf : SnapshotOf env base disk.snapshot)
    (view_eq : base.applyAll (WalReader.replay env disk.wal) = view) (dataDir : String)
    (syncMode : WalSyncMode) :
    Recovers env dataDir syncMode disk view ↔
      ∀ file, disk.snapshot = some file → file.length ≤ snapshotMaxSize := by
  constructor
  · rintro ⟨manager, device, run, -⟩ file found
    obtain ⟨loaded, loads, -, -⟩ := StateManager.new_ok run
    rw [found, Stores.ofSnapshotFile] at loads
    cases result : loadSnapshotV2 env file with
    | error error =>
      rw [result] at loads
      contradiction
    | ok result => exact loadSnapshotV2_small env ‹_›
  · intro small
    obtain ⟨loaded, loads⟩ := snapshotOf.loads small
    obtain ⟨manager, device, run⟩ := StateManager.new_succeeds loads dataDir syncMode
    refine ⟨manager, device, run, ?_⟩
    obtain ⟨other, otherLoads, manager_eq, -⟩ := StateManager.new_ok run
    rw [manager_eq, snapshotOf.view_of_loads otherLoads, view_eq]

/-- What an interrupted snapshot leaves on disk still stands for the view. -/
theorem Persisted.interrupted {source : World} {base : View} {entries : List WalEntry}
    (persisted : Persisted env source base entries) (consistent : View.FlagsConsistent entries)
    {result : EStateM.Result HiveGuardError World Unit}
    (taken : StateManager.SnapshotTaken env source result) :
    ∃ found, SnapshotOf env found (finalState result).disk.snapshot ∧
      found.applyAll (WalReader.replay env (finalState result).disk.wal) = source.view := by
  have current : ∀ {encoded}, env.snapshotV4.encode source.manager.snapshotData = .ok encoded →
      SnapshotOf env source.view (some (snapshotFile encoded)) :=
    fun encodes => ⟨source.manager.toStores, _, encodes, rfl, rfl⟩
  cases taken with
  | kept error tmp io =>
    refine ⟨base, persisted.snapshot, ?_⟩
    rw [finalState_error, persisted.replay_eq, persisted.view_eq]
  | renamed encodes io =>
    refine ⟨source.view, current encodes, ?_⟩
    rw [finalState_error, persisted.replay_eq, persisted.view_eq]
    exact View.applyAll_twice persisted.snapshot.keyed consistent
  | emptied encodes io => exact ⟨source.view, current encodes, rfl⟩
  | done encodes io => exact ⟨source.view, current encodes, rfl⟩

/-- Histories with consistent replicated records keep the log consistent. -/
theorem exists_persisted_consistent {dataDir : String} {syncMode : WalSyncMode}
    {io : List Outcome} {start world : World}
    (fresh : (StateManager.new env dataDir syncMode).run ⟨.empty, io⟩ =
      .ok start.manager start.toDevice)
    (history : History env dataDir Call.Consistent start world) :
    ∃ base entries, Persisted env world base entries ∧ View.FlagsConsistent entries := by
  induction history with
  | refl => exact ⟨.empty, [], persisted_new fresh rfl, nofun⟩
  | tail _ step ih =>
    obtain ⟨base, entries, persisted, consistent⟩ := ih
    cases step with
    | call call admitted run =>
      cases call with
      | mutation change =>
        obtain ⟨logged, steps, targetPersisted⟩ := persisted.mutation change run
        refine ⟨base, _, targetPersisted, ?_⟩
        intro record member
        rcases List.mem_append.mp member with before | added
        · exact consistent record before
        · obtain ⟨_, permitted⟩ := steps.permitted _ added
          cases (permitted : change = .addCrdtBan record)
          exact admitted
      | takeSnapshot => exact ⟨_, [], persisted_takeSnapshot run, nofun⟩
      | flushWal => exact ⟨base, entries, persisted.flushWal run, consistent⟩
    | restart syncMode io run =>
      refine ⟨base, _, persisted_new run persisted.snapshot, ?_⟩
      rwa [persisted.replay_eq]
    | reorder reordered => exact ⟨base, entries, persisted.reorder reordered, consistent⟩

/-- The process dies between the rename and the truncation: the directory, the
temporary file with its two writes, its flush, the rename and the flush of the
directory succeed. -/
def diesBeforeTruncate : List Outcome :=
  [.done, .done, .done, .done, .done, .done, .done, .failed 0]

theorem snapshot_of_failed (world : World) :
    (finalState ((StateManager.takeSnapshot env).run
      ⟨⟨world.disk, [.failed 0]⟩, world.manager⟩)).disk.snapshot = world.disk.snapshot := by
  simp only [StateManager.takeSnapshot, EStateM.run_bind, EStateM.run_get,
    saveSnapshotWithRevocations]
  cases encodes : env.snapshotV4.encode world.manager.snapshotData <;> rfl

theorem snapshot_of_diesBeforeTruncate {world : World} {encoded : Bytes}
    (encodes : env.snapshotV4.encode world.manager.snapshotData = .ok encoded) :
    (finalState ((StateManager.takeSnapshot env).run
      ⟨⟨world.disk, diesBeforeTruncate⟩, world.manager⟩)).disk.snapshot =
        some (snapshotFile encoded) := by
  simp only [StateManager.takeSnapshot, EStateM.run_bind, EStateM.run_get,
    saveSnapshotWithRevocations, encodes]
  rfl

/-- The snapshot on disk, and one of the current state, are not above the size
limit of the loader. -/
structure SnapshotsFit (env : Externals) (world : World) : Prop where
  stored : ∀ file, world.disk.snapshot = some file → file.length ≤ snapshotMaxSize
  current : ∀ encoded, env.snapshotV4.encode world.manager.snapshotData = .ok encoded →
    (snapshotFile encoded).length ≤ snapshotMaxSize

theorem SnapshotsFit.interrupted {source : World} (fit : SnapshotsFit env source)
    {result : EStateM.Result HiveGuardError World Unit}
    (taken : StateManager.SnapshotTaken env source result) :
    ∀ file, (finalState result).disk.snapshot = some file → file.length ≤ snapshotMaxSize := by
  cases taken with
  | kept error tmp io => exact fit.stored
  | renamed encodes io | emptied encodes io | done encodes io =>
    rintro file ⟨⟩
    exact fit.current _ encodes

variable (env) in
/-- From every state of a history, a snapshot interrupted at whatever point is
recovered from exactly when the snapshot on disk and the one being taken are not
above the size limit of the loader.  In particular the whole log replayed over
the state that contains its effects changes nothing. -/
theorem recovers_interrupted_takeSnapshot_iff {dataDir : String} {syncMode : WalSyncMode}
    {io : List Outcome} {start world : World}
    (fresh : (StateManager.new env dataDir syncMode).run ⟨.empty, io⟩ =
      .ok start.manager start.toDevice)
    (history : History env dataDir Call.Consistent start world) (restartMode : WalSyncMode) :
    world.view.applyAll (WalReader.replay env world.disk.wal) = world.view ∧
      ((∀ script, Recovers env dataDir restartMode (finalState ((StateManager.takeSnapshot env).run
            ⟨⟨world.disk, script⟩, world.manager⟩)).disk world.view) ↔ SnapshotsFit env world) := by
  obtain ⟨base, entries, persisted, consistent⟩ := exists_persisted_consistent fresh history
  have recovers_iff : ∀ script, Recovers env dataDir restartMode
      (finalState ((StateManager.takeSnapshot env).run
        ⟨⟨world.disk, script⟩, world.manager⟩)).disk world.view ↔
        ∀ file, (finalState ((StateManager.takeSnapshot env).run
          ⟨⟨world.disk, script⟩, world.manager⟩)).disk.snapshot = some file →
            file.length ≤ snapshotMaxSize := by
    intro script
    have scripted : Persisted env ⟨⟨world.disk, script⟩, world.manager⟩ base entries :=
      ⟨persisted.snapshot, persisted.holds.congr rfl rfl, persisted.view_eq⟩
    obtain ⟨found, snapshotOf, view_eq⟩ := scripted.interrupted consistent
      (StateManager.takeSnapshot_taken env ⟨⟨world.disk, script⟩, world.manager⟩)
    exact snapshotOf.recovers_iff view_eq dataDir restartMode
  constructor
  · rw [persisted.replay_eq, persisted.view_eq]
    exact View.applyAll_twice persisted.snapshot.keyed consistent
  · constructor
    · intro recovers
      constructor
      · -- Interrupted at once, the call leaves the old snapshot.
        intro file found
        apply (recovers_iff [.failed 0]).mp (recovers [.failed 0])
        rw [snapshot_of_failed]
        exact found
      · intro encoded encodes
        exact (recovers_iff diesBeforeTruncate).mp (recovers diesBeforeTruncate) _
          (snapshot_of_diesBeforeTruncate encodes)
    · intro fit script
      have scripted : SnapshotsFit env ⟨⟨world.disk, script⟩, world.manager⟩ :=
        ⟨fit.stored, fit.current⟩
      exact (recovers_iff script).mpr
        (scripted.interrupted (StateManager.takeSnapshot_taken env _))

/-- After 45 million whitelisted addresses the snapshot is above the size limit
that only the loader checks.  When the process dies right after the rename, no
manager starts on the directory again. -/
theorem takeSnapshot_not_recovered :
    (StateManager.new Wire.externals "/var/lib/hiveguard" .fdatasync).run ⟨.empty, []⟩ =
        .ok sampleStart.manager sampleStart.toDevice ∧
    ∃ world, History Wire.externals "/var/lib/hiveguard" Call.Consistent sampleStart world ∧
      ∀ restartMode io manager device,
        (StateManager.new Wire.externals "/var/lib/hiveguard" restartMode).run
          ⟨(finalState ((StateManager.takeSnapshot Wire.externals).run
            ⟨⟨world.disk, diesBeforeTruncate⟩, world.manager⟩)).disk, io⟩ ≠ .ok manager device := by
  have admitted : ∀ net, Call.Consistent (.mutation (.addWhitelist net)) := fun _ => trivial
  have lengthReadsBack : ReadsBack writeVarint readVarint 45000000 := fun _ => rfl
  obtain ⟨world, encoded, history, encodes, large⟩ :=
    exists_history_hosts "/var/lib/hiveguard" admitted (by decide) lengthReadsBack
  refine ⟨sampleStart_fresh, world, history, ?_⟩
  intro restartMode io manager device run
  obtain ⟨loaded, loads, -, -⟩ := StateManager.new_ok run
  rw [snapshot_of_diesBeforeTruncate encodes, Stores.ofSnapshotFile,
    loadSnapshotV2_snapshotFile Wire.externals encodes, if_pos] at loads
  · contradiction
  · rw [snapshotFile, List.length_append, snapshotMaxSize]
    omega

theorem recovers_interrupted_takeSnapshot_sample :
    ∃ world, (forM sampleCalls (Call.perform Wire.externals)).run sampleStart = .ok () world ∧
      Recovers Wire.externals "/var/lib/hiveguard" .sync
        (finalState ((StateManager.takeSnapshot Wire.externals).run
          ⟨⟨world.disk, diesBeforeTruncate⟩, world.manager⟩)).disk world.view := by
  have consistent : ∀ call ∈ sampleCalls, call.Consistent := by
    simp only [sampleCalls, List.forall_mem_cons, Call.Consistent]
    exact ⟨trivial, rfl, trivial, trivial, trivial, by simp⟩
  have run := eq_ok_of_succeeded sampleCalls_succeeded
  have history : History Wire.externals "/var/lib/hiveguard" Call.Consistent sampleStart _ :=
    history_of_forM consistent run
  have current : (match Wire.externals.snapshotV4.encode (finalState ((forM sampleCalls
      (Call.perform Wire.externals)).run sampleStart)).manager.snapshotData with
    | .ok encoded => decide ((snapshotFile encoded).length ≤ snapshotMaxSize)
    | .error _ => false) = true := by
    decide +kernel
  refine ⟨_, run, ((recovers_interrupted_takeSnapshot_iff Wire.externals
    sampleStart_fresh history .sync).2).mpr ⟨sampleCalls_snapshot_small, ?_⟩
      diesBeforeTruncate⟩
  intro encoded encodes
  rw [encodes] at current
  simpa using current

end World

/-! ## Reading a snapshot back -/

/-- A snapshot that was written loads as the data it was made from exactly if the
magic number and the serialised data together keep to the limit of the loader. -/
theorem loads_saved_iff (env : Externals) {data : SnapshotDataV4} {device target : Device}
    (saved : (saveSnapshotWithRevocations env data).run device = .ok () target) :
    (∃ file, target.disk.snapshot = some file ∧ loadSnapshotV2 env file =
        .ok ⟨data.bans, data.whitelist, data.crdtBans, data.revocations⟩) ↔
      ∀ encoded, env.snapshotV4.encode data = .ok encoded →
        snapshotMagicV4.length + encoded.length ≤ snapshotMaxSize := by
  have written := saveSnapshotWithRevocations_saved env data device
  rw [saved] at written
  cases written with
  | @done encoded _ encodes _ =>
    constructor
    · rintro ⟨file, found, loads⟩ other otherEncodes
      cases found
      rw [encodes] at otherEncodes
      cases otherEncodes
      rw [← List.length_append]
      exact loadSnapshotV2_small env loads
    · intro fits
      refine ⟨_, rfl, ?_⟩
      have small : ¬(snapshotFile encoded).length > snapshotMaxSize := by
        rw [snapshotFile, List.length_append]
        exact Nat.not_lt.mpr (fits encoded encodes)
      rw [loadSnapshotV2_snapshotFile env encodes, if_neg small]

theorem loads_saved_at_one_network :
    ∃ target file, (saveSnapshotWithRevocations Wire.externals
        ⟨[], [.v4 (host 1)], [], []⟩).run ⟨.empty, []⟩ = .ok () target ∧
      target.disk.snapshot = some file ∧
      loadSnapshotV2 Wire.externals file = .ok ⟨[], [.v4 (host 1)], [], []⟩ := by
  have lengthReadsBack : ReadsBack writeVarint readVarint [host 1].length := fun _ => rfl
  have encodes := Wire.encode_whitelist lengthReadsBack
  have small : snapshotMagicV4.length +
      (Wire.writeSnapshot ⟨[], [host 1].map .v4, [], []⟩).length ≤ snapshotMaxSize := by
    decide +kernel
  rcases saveSnapshotWithRevocations_faultless Wire.externals encodes .empty with
    ⟨target, saved, -⟩
  have loads := (loads_saved_iff Wire.externals saved).mpr (by
    intro encoded otherEncodes
    cases encodes.symm.trans otherEncodes
    exact small)
  rcases loads with ⟨file, found, loaded⟩
  exact ⟨target, file, saved, found, loaded⟩

/-- A whitelist of 45 million addresses is written without complaint, and no loader
accepts what was written. -/
theorem saved_not_loaded :
    ∃ data target, (saveSnapshotWithRevocations Wire.externals data).run ⟨.empty, []⟩ =
        .ok () target ∧ ∀ file result, target.disk.snapshot = some file →
        loadSnapshotV2 Wire.externals file ≠ .ok result := by
  have length_eq : (hosts 45000000).length = 45000000 := by simp [hosts]
  have lengthReadsBack : ReadsBack writeVarint readVarint (hosts 45000000).length := by
    rw [length_eq]
    exact fun _ => rfl
  have encodes := Wire.encode_whitelist lengthReadsBack
  have large := Wire.length_writeSnapshot_whitelist (hosts 45000000)
  rcases saveSnapshotWithRevocations_faultless Wire.externals encodes .empty with
    ⟨target, saved, written⟩
  refine ⟨_, target, saved, ?_⟩
  intro file result found loads
  rw [written] at found
  cases found
  have small := loadSnapshotV2_small Wire.externals loads
  rw [snapshotFile, List.length_append, snapshotMaxSize] at small
  omega

end HiveGuard.Persistence
