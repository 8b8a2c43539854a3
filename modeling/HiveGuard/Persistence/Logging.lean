import HiveGuard.Library.Trace
import HiveGuard.Persistence.View

/-!
# Mutations as logged entries

All mutations of the manager are sequences of one primitive step: append an
entry to the log and, once that returned, make the change that replaying the
entry would make.  The calls differ only in the entries they log and in what
they check before.
-/

namespace HiveGuard.Persistence

open HiveGuard.Core Library.Effect Library.Encoding Library.Trace

namespace StateManager

open World

variable (env : Externals)

def logEntry (entry : WalEntry) : EStateM HiveGuardError World Unit := do
  onWal (WalWriter.append env entry)
  modify fun world => world.setStores (world.manager.toStores.replayEntry entry)

variable {source target : World}

theorem logEntry_ok_iff {entry : WalEntry} {value : Unit} :
    (logEntry env entry).run source = .ok value target ↔
      ∃ state, (WalWriter.append env entry).run source.walState = .ok () state ∧
        target = (source.setWalState state).setStores
          (source.manager.toStores.replayEntry entry) := by
  rw [logEntry, bind_eq_ok_iff]
  constructor
  · rintro ⟨_, middle, appendRun, modifyRun⟩
    obtain ⟨state, appended, rfl⟩ := zoom_eq_ok_iff.mp appendRun
    cases modifyRun
    exact ⟨state, appended, rfl⟩
  · rintro ⟨state, appended, rfl⟩
    exact ⟨(), _, zoom_eq_ok_iff.mpr ⟨state, appended, rfl⟩, rfl⟩

theorem logEntry_error_iff {entry : WalEntry} {error : HiveGuardError} :
    (logEntry env entry).run source = .error error target ↔
      ∃ state, (WalWriter.append env entry).run source.walState = .error error state ∧
        target = source.setWalState state := by
  rw [logEntry, bind_eq_error_iff]
  constructor
  · rintro (appendRun | ⟨_, middle, -, modifyRun⟩)
    · exact zoom_eq_error_iff.mp appendRun
    · contradiction
  · intro failed
    exact .inl (zoom_eq_error_iff.mpr failed)

/-- A logged entry changes the stores by what the entry means, a refused one leaves
them alone. -/
theorem logEntry_ends (entry : WalEntry) (source : World) :
    Ends (logEntry env entry) source
      (fun _ target => target.manager.toStores = source.manager.toStores.replayEntry entry)
      fun _ target => target.manager.toStores = source.manager.toStores := by
  rw [Ends]
  cases run : (logEntry env entry).run source with
  | ok value target =>
    obtain ⟨state, -, rfl⟩ := (logEntry_ok_iff env).mp run
    rfl
  | error error target =>
    obtain ⟨state, -, rfl⟩ := (logEntry_error_iff env).mp run
    rfl

/-! ## The calls in terms of logged entries -/

theorem addBan_eq (record : BanRecord) :
    addBan env record = (do
      if (← get).manager.whitelist.overlaps record.subject.trunc then
        throw (.config ("ban " ++ env.display record.subject.trunc ++
          " overlaps a protected network"))
      logEntry env (.addBan { record with subject := record.subject.trunc })) :=
  rfl

theorem addBan_ends (record : BanRecord) (source : World) :
    Ends (addBan env record) source
      (fun _ target => target.manager.toStores = source.manager.toStores.replayEntry
        (.addBan { record with subject := record.subject.trunc }))
      fun _ target => target.manager.toStores = source.manager.toStores := by
  rw [addBan_eq]
  apply Ends.get_bind
  by_cases overlap : source.manager.whitelist.overlaps record.subject.trunc = true
  · rw [if_pos overlap]
    exact rfl
  · rw [if_neg overlap]
    exact logEntry_ends env _ source

theorem banStore_of_addBan_ok {record : BanRecord} {value : Unit}
    (run : (addBan env record).run source = .ok value target) :
    target.manager.banStore =
      source.manager.banStore.addBan { record with subject := record.subject.trunc } := by
  have ends := addBan_ends env record source
  rw [Ends, run] at ends
  exact congrArg Stores.banStore ends

theorem banStore_of_addBan_error {record : BanRecord}
    {error : HiveGuardError} (run : (addBan env record).run source = .error error target) :
    target.manager.banStore = source.manager.banStore := by
  have ends := addBan_ends env record source
  rw [Ends, run] at ends
  exact congrArg Stores.banStore ends

/-- Logging an entry and then answering from the stores as they were. -/
theorem append_answer_eq (entry : WalEntry) (answer : Stores → Bool) :
    (do onWal (WalWriter.append env entry)
        let world ← get
        set (world.setStores (world.manager.toStores.replayEntry entry))
        pure (answer world.manager.toStores) : EStateM HiveGuardError World Bool) = (do
      let before ← get
      logEntry env entry
      pure (answer before.manager.toStores)) := by
  apply ext_run
  intro world
  simp only [logEntry, EStateM.run_bind, EStateM.run_get]
  cases run : (onWal (WalWriter.append env entry)).run world with
  | ok value middle =>
    obtain ⟨state, -, rfl⟩ := zoom_eq_ok_iff.mp run
    rfl
  | error error middle => rfl

theorem removeBan_eq (subject : IpNet) :
    removeBan env subject = (do
      let before ← get
      logEntry env (.removeBan subject)
      pure (before.manager.banStore.removeBan subject).1) :=
  append_answer_eq env (.removeBan subject) fun stores => (stores.banStore.removeBan subject).1

theorem revokeBan_eq (subject : IpNet) (now : DateTime) :
    revokeBan env subject now = (do
      let before ← get
      logEntry env (.revokeBan subject.trunc
        (revocationCutoff before.manager.toStores subject.trunc now))
      pure (before.manager.banStore.removeBan subject.trunc).1) := by
  apply ext_run
  intro world
  exact congrArg (fun action => action.run world) (append_answer_eq env
    (.revokeBan subject.trunc (revocationCutoff world.manager.toStores subject.trunc now))
    fun stores => (stores.banStore.removeBan subject.trunc).1)

theorem tombstoneCrdtBan_eq (subject : IpNet) :
    tombstoneCrdtBan env subject = (do
      let before ← get
      logEntry env (.tombstoneCrdtBan subject)
      pure (before.manager.crdtStore.tombstoneCrdtBan subject).1) :=
  append_answer_eq env (.tombstoneCrdtBan subject) fun stores =>
    (stores.crdtStore.tombstoneCrdtBan subject).1

/-- What these calls logged when they returned. -/
theorem logEntry_of_answer {entry : World → WalEntry} {answer : World → Bool} {answered : Bool}
    (run : (do
      let before ← get
      logEntry env (entry before)
      pure (answer before) : EStateM HiveGuardError World Bool).run source =
        .ok answered target) :
    (logEntry env (entry source)).run source = .ok () target := by
  obtain ⟨_, _, getRun, run⟩ := bind_eq_ok_iff.mp run
  cases getRun
  obtain ⟨_, _, logRun, run⟩ := bind_eq_ok_iff.mp run
  cases run
  exact logRun

theorem addWhitelist_eq (net : IpNet) :
    addWhitelist env net = (do
      logEntry env (.addWhitelist net)
      revokeBansCoveredByWhitelist env) := by
  simp only [addWhitelist, logEntry, bind_assoc]
  rfl

end StateManager

/-- The calls that change the state. -/
inductive Mutation where
  | addBan (record : BanRecord)
  | admitBan (record : BanRecord) (now : DateTime)
  | removeBan (subject : IpNet)
  | revokeBan (subject : IpNet) (now : DateTime)
  | addWhitelist (net : IpNet)
  | revokeBansCoveredByWhitelist
  | removeWhitelist (net : IpNet)
  | addCrdtBan (record : CrdtBanRecord)
  | tombstoneCrdtBan (subject : IpNet)

namespace Mutation

variable (env : Externals)

/-- Make the call and drop its answer. -/
def perform : Mutation → EStateM HiveGuardError World Unit
  | addBan record => StateManager.addBan env record
  | admitBan record now => do let _ ← StateManager.admitBan env record now
  | removeBan subject => do let _ ← StateManager.removeBan env subject
  | revokeBan subject now => do let _ ← StateManager.revokeBan env subject now
  | addWhitelist net => do let _ ← StateManager.addWhitelist env net
  | revokeBansCoveredByWhitelist => do
      let _ ← StateManager.revokeBansCoveredByWhitelist env
  | removeWhitelist net => StateManager.removeWhitelist env net
  | addCrdtBan record => StateManager.addCrdtBan env record
  | tombstoneCrdtBan subject => do let _ ← StateManager.tombstoneCrdtBan env subject

/-- The entries a call may log in a state: bans that meet no protected network,
cutoffs no earlier than the previous one of the subject, and no whitelist entry
or replicated record but the one it was given. -/
def Permits (mutation : Mutation) (world : World) : WalEntry → Prop
  | .addBan record => world.manager.whitelist.overlaps record.subject = false
  | .revokeBan subject cutoff =>
    ∀ previous, world.manager.revocations.lookup subject = some previous → previous ≤ cutoff
  | .addWhitelist net => mutation = .addWhitelist net
  | .addCrdtBan record => mutation = .addCrdtBan record
  | _ => True

open StateManager

theorem previous_le_revocationCutoff {stores : Stores} {subject : IpNet} {now previous : DateTime}
    (found : stores.revocations.lookup subject = some previous) :
    previous ≤ revocationCutoff stores subject now := by
  rw [revocationCutoff, found]
  exact le_max_right _ _

theorem traced_addBan (mutation : Mutation) (record : BanRecord) (world : World) :
    Traced (logEntry env) mutation.Permits world ((StateManager.addBan env record).run world) := by
  rw [addBan_eq]
  apply Traced.get_bind
  by_cases overlap : world.manager.whitelist.overlaps record.subject.trunc = true
  · rw [if_pos overlap]
    exact Traced.bind (Traced.throw world _) nofun
  · rw [if_neg overlap]
    exact Traced.single (Bool.eq_false_of_not_eq_true overlap)

theorem traced_removeBan (mutation : Mutation) (subject : IpNet) (world : World) :
    Traced (logEntry env) mutation.Permits world
      ((StateManager.removeBan env subject).run world) := by
  rw [removeBan_eq]
  apply Traced.get_bind
  exact Traced.bind (Traced.single trivial) fun _ target _ => Traced.pure target _

theorem traced_tombstoneCrdtBan (mutation : Mutation) (subject : IpNet) (world : World) :
    Traced (logEntry env) mutation.Permits world
      ((StateManager.tombstoneCrdtBan env subject).run world) := by
  rw [tombstoneCrdtBan_eq]
  apply Traced.get_bind
  exact Traced.bind (Traced.single trivial) fun _ target _ => Traced.pure target _

theorem traced_revokeBan (mutation : Mutation) (subject : IpNet) (now : DateTime) (world : World) :
    Traced (logEntry env) mutation.Permits world
      ((StateManager.revokeBan env subject now).run world) := by
  rw [revokeBan_eq]
  apply Traced.get_bind
  refine Traced.bind (Traced.single ?_) fun _ target _ => Traced.pure target _
  intro previous found
  exact previous_le_revocationCutoff found

theorem traced_admitBan (mutation : Mutation) (record : BanRecord) (now : DateTime)
    (world : World) :
    Traced (logEntry env) mutation.Permits world
      ((StateManager.admitBan env record now).run world) := by
  rw [StateManager.admitBan]
  apply Traced.get_bind
  dsimp only
  split
  · exact Traced.pure world _
  · split
    · exact Traced.bind (traced_addBan env mutation _ world)
        fun _ target _ => Traced.pure target _
    · exact Traced.bind (traced_addBan env mutation _ world)
        fun _ target _ => Traced.pure target _

theorem traced_revokeCovered (mutation : Mutation) (covered revoked : List IpNet) (world : World) :
    Traced (logEntry env) mutation.Permits world
      ((revokeCovered env covered revoked).run world) := by
  induction covered generalizing revoked world with
  | nil => exact Traced.pure world revoked
  | cons subject covered ih =>
    rw [revokeCovered]
    refine Traced.bind (traced_removeBan env mutation subject world) fun removed target _ => ?_
    apply Traced.get_bind
    dsimp only
    by_cases replicated : (target.manager.crdtStore.records.lookup subject).isSome = true
    · rw [if_pos replicated]
      exact Traced.bind (traced_tombstoneCrdtBan env mutation subject target)
        fun _ later _ => ih _ later
    · rw [if_neg replicated]
      exact ih _ target

/-- Every mutation is a sequence of logged entries that it permits. -/
theorem traced (mutation : Mutation) (world : World) :
    Traced (logEntry env) mutation.Permits world ((mutation.perform env).run world) := by
  cases mutation with
  | addBan record => exact traced_addBan env _ record world
  | admitBan record now =>
    exact Traced.bind (traced_admitBan env _ record now world)
      fun _ target _ => Traced.pure target _
  | removeBan subject =>
    exact Traced.bind (traced_removeBan env _ subject world)
      fun _ target _ => Traced.pure target _
  | revokeBan subject now =>
    exact Traced.bind (traced_revokeBan env _ subject now world)
      fun _ target _ => Traced.pure target _
  | addWhitelist net =>
    refine Traced.bind ?_ fun _ target _ => Traced.pure target _
    rw [addWhitelist_eq]
    exact Traced.bind (Traced.single rfl)
      fun _ target _ => Traced.get_bind (traced_revokeCovered env _ _ _ target)
  | revokeBansCoveredByWhitelist =>
    exact Traced.bind (Traced.get_bind (traced_revokeCovered env _ _ _ world))
      fun _ target _ => Traced.pure target _
  | removeWhitelist net => exact Traced.single trivial
  | addCrdtBan record => exact Traced.single rfl
  | tombstoneCrdtBan subject =>
    exact Traced.bind (traced_tombstoneCrdtBan env _ subject world)
      fun _ target _ => Traced.pure target _

end Mutation

/-! ## Taking a snapshot -/

namespace StateManager

open World

variable (env : Externals)

/-- The manager with a fresh handle on an emptied log. -/
def withEmptyLog (manager : StateManager) (writeFailed : Bool) : StateManager :=
  { manager with walWriter := ⟨some 0, manager.walWriter.syncMode, writeFailed⟩ }

/-- Everything `takeSnapshot` can do.  The stores stay as they are; the snapshot
is the old one or the current one, and the log is complete or, behind the current
snapshot, empty. -/
inductive SnapshotTaken (source : World) : EStateM.Result HiveGuardError World Unit → Prop
  | kept (error : HiveGuardError) (tmp : Option Bytes) (io : List Outcome) :
      SnapshotTaken source
        (.error error ⟨⟨⟨source.disk.wal, source.disk.snapshot, tmp⟩, io⟩, source.manager⟩)
  | renamed {encoded : Bytes}
      (encodes : env.snapshotV4.encode source.manager.snapshotData = .ok encoded)
      (io : List Outcome) :
      SnapshotTaken source
        (.error .io
          ⟨⟨⟨source.disk.wal, some (snapshotFile encoded), none⟩, io⟩, source.manager⟩)
  | emptied {encoded : Bytes}
      (encodes : env.snapshotV4.encode source.manager.snapshotData = .ok encoded)
      (io : List Outcome) :
      SnapshotTaken source
        (.error .io
          ⟨⟨⟨some [], some (snapshotFile encoded), none⟩, io⟩,
            source.manager.withEmptyLog source.manager.walWriter.writeFailed⟩)
  | done {encoded : Bytes}
      (encodes : env.snapshotV4.encode source.manager.snapshotData = .ok encoded)
      (io : List Outcome) :
      SnapshotTaken source
        (.ok ()
          ⟨⟨⟨some [], some (snapshotFile encoded), none⟩, io⟩,
            source.manager.withEmptyLog false⟩)

/-- Truncating the log behind a snapshot that is in place. -/
theorem truncate_taken {source : World} {encoded : Bytes}
    (encodes : env.snapshotV4.encode source.manager.snapshotData = .ok encoded)
    (io : List Outcome) :
    SnapshotTaken env source ((onWal WalWriter.truncate).run
      ⟨⟨⟨source.disk.wal, some (snapshotFile encoded), none⟩, io⟩, source.manager⟩) := by
  have truncated := WalWriter.truncate_truncated
    ⟨⟨⟨source.disk.wal, some (snapshotFile encoded), none⟩, io⟩, source.manager.walWriter⟩
  cases truncating : (onWal WalWriter.truncate).run
      ⟨⟨⟨source.disk.wal, some (snapshotFile encoded), none⟩, io⟩, source.manager⟩ with
  | error error target =>
    obtain ⟨state, truncateRun, rfl⟩ := zoom_eq_error_iff.mp truncating
    rw [walState] at truncateRun
    rw [truncateRun] at truncated
    cases truncated with
    | notOpened io faults => exact .renamed encodes _
    | notFlushed io faults => exact .emptied encodes _
  | ok value target =>
    obtain ⟨state, truncateRun, rfl⟩ := zoom_eq_ok_iff.mp truncating
    rw [walState] at truncateRun
    rw [truncateRun] at truncated
    cases truncated with
    | done io faultless => exact .done encodes _

theorem takeSnapshot_taken (world : World) :
    SnapshotTaken env world ((takeSnapshot env).run world) := by
  have saved := saveSnapshotWithRevocations_saved env world.manager.snapshotData world.toDevice
  simp only [takeSnapshot, EStateM.run_bind, EStateM.run_get]
  cases saving : (onDevice (saveSnapshotWithRevocations env world.manager.snapshotData)).run
      world with
  | error error target =>
    obtain ⟨device, saveRun, rfl⟩ := zoom_eq_error_iff.mp saving
    rw [saveRun] at saved
    cases saved with
    | renamed encodes faults => exact .renamed encodes _
    | kept reason => exact .kept error _ _
  | ok value target =>
    obtain ⟨device, saveRun, rfl⟩ := zoom_eq_ok_iff.mp saving
    rw [saveRun] at saved
    cases saved with
    | @done encoded io encodes faultless => exact truncate_taken env encodes io

end StateManager

end HiveGuard.Persistence
