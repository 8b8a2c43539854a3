import HiveGuard.Persistence.Logging
import HiveGuard.Persistence.Wire

/-!
# Recovery

At any moment of a history of successful calls, the snapshot on disk stands for
an earlier view and the log holds exactly what happened since.  Starting a new
manager on the same directory therefore recovers the current view.
-/

namespace HiveGuard.Persistence

open HiveGuard.Core Library.Effect Library.Encoding Library.Trace
open WalWriter

/-- All calls of a running manager. -/
inductive Call where
  | mutation (change : Mutation)
  | takeSnapshot
  | flushWal

namespace Call

def perform (env : Externals) : Call → EStateM HiveGuardError World Unit
  | mutation change => change.perform env
  | takeSnapshot => StateManager.takeSnapshot env
  | flushWal => StateManager.flushWal

end Call

namespace World

def view (world : World) : View :=
  world.manager.toStores.view

/-- The same state with other iteration orders of its hash maps. -/
structure Reordered (first second : World) : Prop where
  device : second.toDevice = first.toDevice
  writer : second.manager.walWriter = first.manager.walWriter
  view : second.view = first.view

/-- What can happen to a manager while all its calls return: a call, a restart
on the same directory, and a change of iteration orders. -/
inductive Step (env : Externals) (dataDir : String) (admissible : Call → Prop) :
    World → World → Prop
  | call {source target : World} (call : Call) (admitted : admissible call)
      (run : (call.perform env).run source = .ok () target) :
      Step env dataDir admissible source target
  | restart {source target : World} (syncMode : WalSyncMode) (io : List Outcome)
      (run : (StateManager.new env dataDir syncMode).run ⟨source.disk, io⟩ =
        .ok target.manager target.toDevice) : Step env dataDir admissible source target
  | reorder {source target : World} (reordered : Reordered source target) :
      Step env dataDir admissible source target

/-- Any number of steps. -/
def History (env : Externals) (dataDir : String) (admissible : Call → Prop) :
    World → World → Prop :=
  Relation.ReflTransGen (Step env dataDir admissible)

variable (env : Externals)

/-- The snapshot file, or its absence, was made from this view. -/
def SnapshotOf (base : View) : Option Bytes → Prop
  | none => base = .empty
  | some file => ∃ (stores : Stores) (encoded : Bytes),
      env.snapshotV4.encode stores.snapshotData = .ok encoded ∧
        file = snapshotFile encoded ∧ stores.view = base

/-- The snapshot was made from `base` and the log holds the entries since. -/
structure Persisted (world : World) (base : View) (entries : List WalEntry) : Prop where
  snapshot : SnapshotOf env base world.disk.snapshot
  holds : Holds env world.walState entries
  view_eq : world.view = base.applyAll entries

variable {env}

variable {base : View} {entries : List WalEntry}

theorem Persisted.replay_eq {world : World}
    (persisted : Persisted env world base entries) :
    WalReader.replay env world.disk.wal = entries :=
  persisted.holds.replay_eq

theorem SnapshotOf.view_of_loads {snapshot : Option Bytes} {loaded : Stores}
    (snapshotOf : SnapshotOf env base snapshot)
    (loads : Stores.ofSnapshotFile env snapshot = .ok loaded) : loaded.view = base := by
  cases snapshot with
  | none =>
    cases loads
    exact snapshotOf.symm
  | some file =>
    obtain ⟨stores, encoded, encodes, rfl, rfl⟩ := snapshotOf
    exact Stores.view_ofSnapshotFile env encodes loads

theorem SnapshotOf.loads {snapshot : Option Bytes}
    (snapshotOf : SnapshotOf env base snapshot)
    (small : ∀ file, snapshot = some file → file.length ≤ snapshotMaxSize) :
    ∃ loaded, Stores.ofSnapshotFile env snapshot = .ok loaded := by
  cases snapshot with
  | none => exact ⟨_, rfl⟩
  | some file =>
    obtain ⟨stores, encoded, encodes, rfl, -⟩ := snapshotOf
    exact Stores.ofSnapshotFile_ok_of_small env encodes (small _ rfl)

/-! ## What each step keeps -/

variable {source target : World}

theorem view_logEntry {entry : WalEntry}
    (run : (StateManager.logEntry env entry).run source = .ok () target) :
    target.view = source.view.apply entry := by
  obtain ⟨state, -, rfl⟩ := (StateManager.logEntry_ok_iff env).mp run
  exact Stores.view_replayEntry source.manager.toStores entry

/-- Logged entries extend the log and move the view by their meaning. -/
theorem steps_logged {allowed : World → WalEntry → Prop}
    {logged : List WalEntry}
    (steps : Steps (StateManager.logEntry env) allowed source logged target)
    (holds : Holds env source.walState entries) :
    Holds env target.walState (entries ++ logged) ∧ target.disk.snapshot = source.disk.snapshot ∧
      target.view = source.view.applyAll logged := by
  induction steps generalizing entries with
  | nil state => exact ⟨by rwa [List.append_nil], rfl, rfl⟩
  | @cons source middle target entry logged permitted run rest ih =>
    have middleView := view_logEntry run
    obtain ⟨state, appendRun, rfl⟩ := (StateManager.logEntry_ok_iff env).mp run
    obtain ⟨appended, snapshot_eq⟩ := holds.append_ok appendRun
    obtain ⟨targetHolds, targetSnapshot, targetView⟩ := ih appended
    refine ⟨by rwa [List.append_assoc] at targetHolds, targetSnapshot.trans snapshot_eq, ?_⟩
    rw [targetView, View.applyAll_cons, middleView]

theorem Persisted.mutation
    (persisted : Persisted env source base entries) (mutation : Mutation)
    (run : (mutation.perform env).run source = .ok () target) :
    ∃ logged, Steps (StateManager.logEntry env) mutation.Permits source logged target ∧
      Persisted env target base (entries ++ logged) := by
  have traced := mutation.traced env source
  rw [run] at traced
  cases traced with
  | @returned logged _ steps _ =>
    obtain ⟨holds, snapshot_eq, view_eq⟩ := steps_logged steps persisted.holds
    refine ⟨logged, steps, by rw [snapshot_eq]; exact persisted.snapshot, holds, ?_⟩
    rw [view_eq, persisted.view_eq, View.applyAll_append]

/-- Whatever the log was worth before, a snapshot captures the view. -/
theorem persisted_takeSnapshot
    (run : (StateManager.takeSnapshot env).run source = .ok () target) :
    Persisted env target source.view [] := by
  have taken := StateManager.takeSnapshot_taken env source
  rw [run] at taken
  cases taken with
  | done encodes io =>
    exact ⟨⟨source.manager.toStores, _, encodes, rfl, rfl⟩, holds_nil env rfl rfl, rfl⟩

theorem Persisted.flushWal
    (persisted : Persisted env source base entries)
    (run : StateManager.flushWal.run source = .ok () target) :
    Persisted env target base entries := by
  obtain ⟨state, flushRun, rfl⟩ := zoom_eq_ok_iff.mp run
  obtain ⟨io, flushed⟩ := flush_kept source.walState
  rw [flushRun, finalState_ok] at flushed
  subst state
  exact ⟨persisted.snapshot, persisted.holds.congr rfl rfl, persisted.view_eq⟩

theorem Persisted.reorder
    (persisted : Persisted env source base entries) (reordered : Reordered source target) :
    Persisted env target base entries := by
  have disk_eq : target.disk = source.disk := by rw [reordered.device]
  refine ⟨?_, persisted.holds.congr ?_ reordered.writer,
    reordered.view.trans persisted.view_eq⟩
  · rw [disk_eq]
    exact persisted.snapshot
  · exact congrArg Disk.wal disk_eq

variable {dataDir : String} {syncMode : WalSyncMode} {io : List Outcome}

/-- A manager started on a directory whose snapshot was made from `base`. -/
theorem persisted_new {disk : Disk}
    (run : (StateManager.new env dataDir syncMode).run ⟨disk, io⟩ =
      .ok target.manager target.toDevice) (snapshotOf : SnapshotOf env base disk.snapshot) :
    Persisted env target base (WalReader.replay env disk.wal) := by
  obtain ⟨loaded, loads, view_eq, openRun⟩ := StateManager.new_ok run
  obtain ⟨-, disk_eq, -⟩ := open_ok openRun
  refine ⟨?_, open_holds openRun, ?_⟩
  · rw [disk_eq]
    exact snapshotOf
  · rw [view, view_eq, snapshotOf.view_of_loads loads]

/-- A restart recovers the view. -/
theorem Persisted.view_restart {manager : StateManager} {device : Device}
    (persisted : Persisted env source base entries)
    (run : (StateManager.new env dataDir syncMode).run ⟨source.disk, io⟩ =
      .ok manager device) : manager.view = source.view := by
  have restarted : Persisted env ⟨device, manager⟩ base
      (WalReader.replay env source.disk.wal) := persisted_new run persisted.snapshot
  rw [persisted.view_eq, ← persisted.replay_eq]
  exact restarted.view_eq

theorem Persisted.step {admissible : Call → Prop} (persisted : Persisted env source base entries)
    (step : Step env dataDir admissible source target) :
    ∃ base entries, Persisted env target base entries := by
  cases step with
  | call call admitted run =>
    cases call with
    | mutation change =>
      obtain ⟨logged, -, targetPersisted⟩ := persisted.mutation change run
      exact ⟨base, _, targetPersisted⟩
    | takeSnapshot => exact ⟨_, [], persisted_takeSnapshot run⟩
    | flushWal => exact ⟨base, entries, persisted.flushWal run⟩
  | restart syncMode io run => exact ⟨base, _, persisted_new run persisted.snapshot⟩
  | reorder reordered => exact ⟨base, entries, persisted.reorder reordered⟩

theorem exists_persisted
    {admissible : Call → Prop} {start world : World}
    (fresh : (StateManager.new env dataDir syncMode).run ⟨.empty, io⟩ =
      .ok start.manager start.toDevice) (history : History env dataDir admissible start world) :
    ∃ base entries, Persisted env world base entries := by
  induction history with
  | refl => exact ⟨.empty, _, persisted_new fresh rfl⟩
  | tail _ step ih =>
    obtain ⟨base, entries, persisted⟩ := ih
    exact persisted.step step

/-- Successful calls one after another are a history. -/
theorem history_of_forM {admissible : Call → Prop} {calls : List Call}
    (admitted : ∀ call ∈ calls, admissible call)
    (run : (forM calls (Call.perform env)).run source = .ok () target) :
    History env dataDir admissible source target := by
  induction calls generalizing source with
  | nil =>
    cases run
    exact .refl
  | cons call calls ih =>
    rw [List.forM_cons] at run
    obtain ⟨_, middle, callRun, run⟩ := bind_eq_ok_iff.mp run
    exact .head (.call call (admitted call List.mem_cons_self) callRun)
      (ih (fun later member => admitted later (List.mem_cons_of_mem _ member))
        run)

variable (env) in
/-- After any history of calls that returned, starting from an empty directory, a
new manager on the same directory has the same bans, whitelist entries,
replicated records and revocations.  It does start, on a working device, as long
as the snapshot on disk is not above the size limit. -/
theorem view_new_of_history {dataDir : String} {syncMode : WalSyncMode} {io : List Outcome}
    {admissible : Call → Prop} {start world : World}
    (fresh : (StateManager.new env dataDir syncMode).run ⟨.empty, io⟩ =
      .ok start.manager start.toDevice) (history : History env dataDir admissible start world)
    (small : ∀ file, world.disk.snapshot = some file → file.length ≤ snapshotMaxSize)
    (restartMode : WalSyncMode) :
    (∃ manager device, (StateManager.new env dataDir restartMode).run ⟨world.disk, []⟩ =
      .ok manager device) ∧ ∀ restartIo manager device,
        (StateManager.new env dataDir restartMode).run ⟨world.disk, restartIo⟩ =
          .ok manager device → manager.view = world.view := by
  obtain ⟨base, entries, persisted⟩ := exists_persisted fresh history
  constructor
  · obtain ⟨loaded, loads⟩ := persisted.snapshot.loads small
    exact StateManager.new_succeeds loads dataDir restartMode
  · intro restartIo manager device run
    exact persisted.view_restart run

/-! ## A sample history -/

/-- A ban of `8.8.8.0/24` by a detector. -/
def sampleBan : BanRecord where
  subject := .ofV4 0x08080808#32 24
  createdAt := 1700000000000000000
  expiresAt := none
  severity := 150
  reason := "scan"
  evidenceHash := Vector.replicate 32 7
  source := .localDetector "ssh"
  geoInfo := none

/-- A replicated record of `9.9.9.9/32`. -/
def sampleReplica : CrdtBanRecord where
  subject := .ofV4 0x09090909#32 32
  firstSeen := ⟨1000, 0, 7⟩
  banUntil := ⟨90000, 0, 7⟩
  severity := 100
  reporters := {"node-a"}
  evidenceHash := Vector.replicate 32 0
  reason := "flood"
  tombstoneReporters := ∅
  tombstone := false
  lastModified := ⟨1000, 0, 7⟩

/-- A manager just started on an empty directory. -/
def sampleStart : World :=
  ⟨⟨⟨some [], none, none⟩, []⟩, ⟨.new, ⟨none, .fdatasync, false⟩⟩⟩

theorem sampleStart_fresh :
    (StateManager.new Wire.externals "/var/lib/hiveguard" .fdatasync).run ⟨.empty, []⟩ =
      .ok sampleStart.manager sampleStart.toDevice :=
  rfl

/-- A ban, a replicated record, a snapshot, a revocation and a whitelist entry. -/
def sampleCalls : List Call :=
  [.mutation (.addBan sampleBan), .mutation (.addCrdtBan sampleReplica), .takeSnapshot,
    .mutation (.revokeBan sampleBan.subject 1700000001000000000),
    .mutation (.addWhitelist sampleReplica.subject)]

theorem sampleCalls_succeeded :
    succeeded ((forM sampleCalls (Call.perform Wire.externals)).run sampleStart) = true := by
  decide +kernel

theorem sampleCalls_snapshot_small : ∀ file,
    (finalState ((forM sampleCalls (Call.perform Wire.externals)).run
      sampleStart)).disk.snapshot = some file → file.length ≤ snapshotMaxSize := by
  have small : ((finalState ((forM sampleCalls (Call.perform Wire.externals)).run
      sampleStart)).disk.snapshot.all fun file => decide (file.length ≤ snapshotMaxSize)) =
        true := by
    decide +kernel
  intro file found
  rw [found] at small
  simpa using small

theorem view_new_of_history_sample :
    ∃ world, (forM sampleCalls (Call.perform Wire.externals)).run sampleStart = .ok () world ∧
      ∃ manager device,
        (StateManager.new Wire.externals "/var/lib/hiveguard" .sync).run ⟨world.disk, []⟩ =
            .ok manager device ∧ manager.view = world.view := by
  have run := eq_ok_of_succeeded sampleCalls_succeeded
  have history : History Wire.externals "/var/lib/hiveguard" (fun _ => True) sampleStart _ :=
    history_of_forM (fun _ _ => trivial) run
  obtain ⟨⟨manager, device, restarts⟩, recovers⟩ :=
    view_new_of_history Wire.externals sampleStart_fresh history sampleCalls_snapshot_small .sync
  exact ⟨_, run, manager, device, restarts, recovers [] manager device restarts⟩

end World

end HiveGuard.Persistence
