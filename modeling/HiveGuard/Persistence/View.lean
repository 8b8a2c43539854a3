import HiveGuard.Persistence.StateManager
import HiveGuard.Persistence.WalWrite

/-!
# The state a manager stands for

A `View` is what a manager's stores mean, without iteration orders and prefix
counts: four maps.  A log entry is a function on views.  The stores refine this
reading, both when a mutation is made and when it is replayed, and a snapshot of
the stores loads as stores of the same view.
-/

namespace HiveGuard.Persistence

open HiveGuard.Core Library.Dictionary Library.Effect Library.Encoding

/-- Bans, whitelist entries, replicated records and revocation cutoffs. -/
@[ext]
structure View where
  bans : Map IpNet BanRecord
  whitelist : Map IpNet Unit
  crdt : Map IpNet CrdtBanRecord
  revocations : Map IpNet DateTime

namespace View

def empty : View :=
  ⟨∅, ∅, ∅, ∅⟩

/-- The meaning of a log entry. -/
def apply (view : View) : WalEntry → View
  | .addBan record => { view with bans := view.bans.insert record.subject record }
  | .removeBan subject => { view with bans := view.bans.erase subject }
  | .addWhitelist net => { view with whitelist := view.whitelist.insert net () }
  | .removeWhitelist net => { view with whitelist := view.whitelist.erase net }
  | .addCrdtBan record =>
    { view with
      crdt := view.crdt.insert record.subject
        (CrdtStore.received (view.crdt.lookup record.subject) record) }
  | .tombstoneCrdtBan subject =>
    match view.crdt.lookup subject with
    | some existing =>
      { view with crdt := view.crdt.insert subject { existing with tombstone := true } }
    | none => view
  | .revokeBan subject cutoff =>
    { view with
      revocations := view.revocations.insert subject cutoff
      bans := view.bans.erase subject }

/-- The meaning of a log. -/
def applyAll (view : View) (entries : List WalEntry) : View :=
  entries.foldl apply view

@[simp]
theorem applyAll_cons (view : View) (entry : WalEntry) (entries : List WalEntry) :
    view.applyAll (entry :: entries) = (view.apply entry).applyAll entries :=
  rfl

@[simp]
theorem applyAll_append (view : View) (first second : List WalEntry) :
    view.applyAll (first ++ second) = (view.applyAll first).applyAll second :=
  List.foldl_append

end View

namespace Stores

def view (stores : Stores) : View where
  bans := toMap stores.banStore.bans
  whitelist := toMap stores.whitelist.entries
  crdt := toMap stores.crdtStore.records
  revocations := toMap stores.revocations

/-- Replaying an entry does to the stores what the entry means. -/
theorem view_replayEntry (stores : Stores) (entry : WalEntry) :
    (stores.replayEntry entry).view = stores.view.apply entry := by
  cases entry with
  | addBan record => simp [replayEntry, view, View.apply, InMemoryBanStore.addBan]
  | removeBan subject => simp [replayEntry, view, View.apply, InMemoryBanStore.removeBan]
  | addWhitelist net => simp [replayEntry, view, View.apply, WhitelistManager.add]
  | removeWhitelist net => simp [replayEntry, view, View.apply, WhitelistManager.remove]
  | addCrdtBan record =>
    simp [replayEntry, view, View.apply, CrdtStore.records_addCrdtBan]
  | tombstoneCrdtBan subject =>
    simp only [replayEntry, view, View.apply, CrdtStore.records_tombstoneCrdtBan,
      lookup_toMap]
    cases stores.crdtStore.records.lookup subject <;> simp
  | revokeBan subject cutoff =>
    simp [replayEntry, view, View.apply, InMemoryBanStore.removeBan]

theorem view_foldl_replayEntry (entries : List WalEntry) (stores : Stores) :
    (entries.foldl replayEntry stores).view = stores.view.applyAll entries := by
  induction entries generalizing stores with
  | nil => rfl
  | cons entry entries ih =>
    rw [List.foldl_cons, ih, view_replayEntry, View.applyAll_cons]

/-! ## Snapshots of stores -/

theorem bans_foldl_addBan (records : List BanRecord) (store : InMemoryBanStore) :
    (records.foldl InMemoryBanStore.addBan store).bans =
      insertAll store.bans (records.map fun record => ⟨record.subject, record⟩) := by
  induction records generalizing store with
  | nil => rfl
  | cons record records ih => exact ih (store.addBan record)

theorem entries_foldl_add (nets : List IpNet) (whitelist : WhitelistManager) :
    (nets.foldl WhitelistManager.add whitelist).entries =
      insertAll whitelist.entries (nets.map fun net => ⟨net, ()⟩) := by
  induction nets generalizing whitelist with
  | nil => rfl
  | cons net nets ih => exact ih (whitelist.add net)

theorem records_foldl_insert (records : List CrdtBanRecord) (store : CrdtStore) :
    (records.foldl CrdtStore.insert store).records =
      insertAll store.records (records.map fun record => ⟨record.subject, record⟩) := by
  induction records generalizing store with
  | nil => rfl
  | cons record records ih => exact ih (store.insert record)

/-- Loading a snapshot of stores gives stores of the same view. -/
theorem view_loadSnapshot (stores : Stores) :
    (loadSnapshot ⟨stores.snapshotData.bans, stores.snapshotData.whitelist,
      stores.snapshotData.crdtBans, stores.snapshotData.revocations⟩).view = stores.view := by
  have bans_eq := entries_eq_map_values stores.banStore.subject_eq
  have crdt_eq := entries_eq_map_values stores.crdtStore.subject_eq
  have whitelist_eq : stores.whitelist.entries.keys.map (fun net => Sigma.mk net ()) =
      stores.whitelist.entries.entries := by
    rw [AList.keys, List.keys, List.map_map]
    exact List.map_id _
  ext1
  · simp only [view, loadSnapshot, snapshotData, bans_foldl_addBan]
    rw [InMemoryBanStore.getAllBans, ← bans_eq]
    exact toMap_insertAll_entries _
  · simp only [view, loadSnapshot, snapshotData, entries_foldl_add]
    rw [whitelist_eq]
    exact toMap_insertAll_entries _
  · simp only [view, loadSnapshot, snapshotData, records_foldl_insert]
    rw [← crdt_eq]
    exact toMap_insertAll_entries _
  · simp only [view, loadSnapshot, snapshotData, List.map_map]
    exact (congrArg (fun entries => toMap (insertAll ∅ entries)) (List.map_id _)).trans
      (toMap_insertAll_entries _)

variable (env : Externals)

/-- The stores a snapshot file, or its absence, stands for. -/
def ofSnapshotFile : Option Bytes → Except HiveGuardError Stores
  | none => .ok .new
  | some file => (loadSnapshotV2 env file).map loadSnapshot

/-- A snapshot file in the current format, when it loads, stands for the view it
was made from. -/
theorem view_ofSnapshotFile {stores loaded : Stores} {encoded : Bytes}
    (encodes : env.snapshotV4.encode stores.snapshotData = .ok encoded)
    (loads : ofSnapshotFile env (some (snapshotFile encoded)) = .ok loaded) :
    loaded.view = stores.view := by
  rw [ofSnapshotFile, loadSnapshotV2_snapshotFile env encodes] at loads
  split at loads
  · contradiction
  · cases loads
    exact view_loadSnapshot stores

theorem ofSnapshotFile_ok_of_small {stores : Stores} {encoded : Bytes}
    (encodes : env.snapshotV4.encode stores.snapshotData = .ok encoded)
    (small : (snapshotFile encoded).length ≤ snapshotMaxSize) :
    ∃ loaded, ofSnapshotFile env (some (snapshotFile encoded)) = .ok loaded := by
  rw [ofSnapshotFile, loadSnapshotV2_snapshotFile env encodes, if_neg (Nat.not_lt.mpr small)]
  exact ⟨_, rfl⟩

end Stores

/-! ## Starting up -/

namespace StateManager

variable {env : Externals}

variable {dataDir : String} {device target : Device}

theorem recoverSnapshot_ok_iff {snapshot : Option Bytes} {loaded : Stores} :
    (recoverSnapshot env dataDir snapshot).run device = .ok loaded target ↔
      Stores.ofSnapshotFile env snapshot = .ok loaded ∧ target = device := by
  cases snapshot with
  | none => simp [recoverSnapshot, Stores.ofSnapshotFile, eq_comm]
  | some file =>
    cases result : loadSnapshotV2 env file with
    | error error =>
      simp only [recoverSnapshot, Stores.ofSnapshotFile, result, Except.map]
      constructor
      · intro run
        cases run
      · rintro ⟨loads, -⟩
        cases loads
    | ok result =>
      simp [recoverSnapshot, Stores.ofSnapshotFile, result, Except.map, eq_comm]

theorem recoverSnapshot_error {snapshot : Option Bytes} {error : HiveGuardError}
    (run : (recoverSnapshot env dataDir snapshot).run device = .error error target) :
    target = device := by
  rw [recoverSnapshot.eq_def] at run
  split at run
  · contradiction
  · split at run
    · contradiction
    · cases run
      rfl

/-- A manager that started holds what snapshot and log stand for, and the log is
unchanged as far as it can be read. -/
theorem new_ok {syncMode : WalSyncMode}
    {manager : StateManager}
    (run : (StateManager.new env dataDir syncMode).run device = .ok manager target) :
    ∃ loaded, Stores.ofSnapshotFile env device.disk.snapshot = .ok loaded ∧
      manager.view = loaded.view.applyAll (WalReader.replay env device.disk.wal) ∧
      (WalWriter.open env syncMode).run device = .ok manager.walWriter target := by
  rw [StateManager.new] at run
  obtain ⟨_, _, getRun, run⟩ := bind_eq_ok_iff.mp run
  cases getRun
  obtain ⟨loaded, middle, loadRun, run⟩ := bind_eq_ok_iff.mp run
  obtain ⟨walWriter, opened, openRun, run⟩ := bind_eq_ok_iff.mp run
  obtain ⟨loads, rfl⟩ := recoverSnapshot_ok_iff.mp loadRun
  cases run
  exact ⟨loaded, loads, Stores.view_foldl_replayEntry _ _, openRun⟩

variable (env) in
/-- Starting up, also when it fails, changes neither the snapshot nor what can be
read of the log. -/
theorem new_kept (dataDir : String) (syncMode : WalSyncMode) (device : Device) :
    (finalState ((StateManager.new env dataDir syncMode).run device)).disk.snapshot =
        device.disk.snapshot ∧
      WalReader.replay env (finalState ((StateManager.new env dataDir syncMode).run
        device)).disk.wal = WalReader.replay env device.disk.wal := by
  simp only [StateManager.new, EStateM.run_bind, EStateM.run_get]
  cases loading : (recoverSnapshot env dataDir device.disk.snapshot).run device with
  | error error target =>
    have target_eq : target = device := recoverSnapshot_error loading
    subst target
    exact ⟨rfl, rfl⟩
  | ok loaded target =>
    obtain ⟨-, rfl⟩ := recoverSnapshot_ok_iff.mp loading
    have kept := WalWriter.open_kept env syncMode target
    dsimp only
    cases opening : (WalWriter.open env syncMode).run target with
    | error error opened => rwa [opening] at kept
    | ok writer opened => rwa [opening] at kept

/-- On a device without faults a readable snapshot is all it takes to start. -/
theorem new_succeeds {disk : Disk} {loaded : Stores}
    (loads : Stores.ofSnapshotFile env disk.snapshot = .ok loaded) (dataDir : String)
    (syncMode : WalSyncMode) :
    ∃ manager target,
      (StateManager.new env dataDir syncMode).run ⟨disk, []⟩ = .ok manager target := by
  obtain ⟨writer, opened, openRun⟩ := WalWriter.open_faultless env syncMode disk
  refine ⟨_, opened, bind_eq_ok_iff.mpr ⟨_, _, rfl, bind_eq_ok_iff.mpr
    ⟨loaded, _, recoverSnapshot_ok_iff.mpr ⟨loads, rfl⟩, bind_eq_ok_iff.mpr
      ⟨writer, opened, openRun, rfl⟩⟩⟩⟩

end StateManager

end HiveGuard.Persistence
