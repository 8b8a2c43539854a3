import HiveGuard.Persistence.Recovery
import HiveGuard.Persistence.ReplayTwice

/-!
# Revocations are permanent

A cutoff recorded by `revokeBan` refuses the older decisions of peers for ever:
through calls that fail as well as calls that return, through changes of the
other stores behind the log's back, through interrupted snapshots and through
restarts.  What carries the argument is that the cutoffs in memory never get
ahead of what is on disk.  The log by itself lowers no cutoff, and log and
snapshot together recover at least the cutoffs in memory.
-/

namespace HiveGuard.Persistence

open HiveGuard.Core Library.Dictionary Library.Effect Library.Overwrite
open WalWriter

namespace View

/-- Every cutoff of the first view is one of the second, or was raised there. -/
def KeepsCutoffs (first second : View) : Prop :=
  ∀ subject cutoff, first.revocations.lookup subject = some cutoff →
    ∃ later, second.revocations.lookup subject = some later ∧ cutoff ≤ later

theorem KeepsCutoffs.refl (view : View) : view.KeepsCutoffs view :=
  fun _ cutoff found => ⟨cutoff, found, le_rfl⟩

variable {first second : View}

theorem KeepsCutoffs.of_eq
    (same : second.revocations = first.revocations) : first.KeepsCutoffs second :=
  fun _ cutoff found => ⟨cutoff, by rwa [same], le_rfl⟩

theorem KeepsCutoffs.trans {third : View} (earlier : first.KeepsCutoffs second)
    (later : second.KeepsCutoffs third) : first.KeepsCutoffs third := by
  intro subject cutoff found
  obtain ⟨middle, middleFound, raised⟩ := earlier subject cutoff found
  obtain ⟨last, lastFound, raisedAgain⟩ := later subject middle middleFound
  exact ⟨last, lastFound, raised.trans raisedAgain⟩

theorem KeepsCutoffs.apply (keeps : first.KeepsCutoffs second)
    (entry : WalEntry) : (first.apply entry).KeepsCutoffs (second.apply entry) := by
  intro subject cutoff found
  rw [lookup_revocations_apply] at found ⊢
  cases written : revocationWrite subject entry with
  | none =>
    rw [written] at found
    exact keeps subject cutoff found
  | some content =>
    rw [written] at found
    exact ⟨cutoff, found, le_rfl⟩

/-- A log over a view that kept the cutoffs the log itself led to keeps them. -/
theorem keepsCutoffs_applyAll {base view : View} {entries : List WalEntry}
    (keeps : (base.applyAll entries).KeepsCutoffs view) :
    (base.applyAll entries).KeepsCutoffs (view.applyAll entries) := by
  intro subject cutoff found
  have kept := keeps subject cutoff found
  rw [lookup_revocations_applyAll] at found ⊢
  rcases settle_cases (revocationWrite subject) entries with
    untouched | ⟨content, overwritten⟩
  · rwa [untouched]
  · rw [overwritten] at found
    exact ⟨cutoff, by rw [overwritten, found], le_rfl⟩

end View

/-- No mutation lowers a cutoff. -/
theorem Mutation.Permits.keepsCutoffs {change : Mutation} {world : World} {entry : WalEntry}
    (permitted : change.Permits world entry) :
    world.view.KeepsCutoffs (world.view.apply entry) := by
  cases entry with
  | revokeBan revoked cutoff =>
    intro subject previous found
    simp only [View.lookup_revocations_apply, View.revocationWrite]
    by_cases same : subject = revoked
    · subst subject
      have stored : world.manager.revocations.lookup revoked = some previous := by
        simpa [World.view, Stores.view] using found
      exact ⟨cutoff, by simp, permitted previous stored⟩
    · exact ⟨previous, by simpa [same] using found, le_rfl⟩
  | tombstoneCrdtBan subject =>
    apply View.KeepsCutoffs.of_eq
    simp only [View.apply]
    split <;> rfl
  | addBan _ | removeBan _ | addWhitelist _ | removeWhitelist _ | addCrdtBan _ =>
    exact View.KeepsCutoffs.of_eq rfl

namespace World

variable (env : Externals)

/-- A snapshot and log entries that together recover the cutoffs of a view, where
the log alone lowers none of them. -/
structure Backs (snapshot : Option Library.Encoding.Bytes) (entries : List WalEntry)
    (view : View) : Prop where
  log : ∀ other : View, view.KeepsCutoffs other → view.KeepsCutoffs (other.applyAll entries)
  recovered : ∀ loaded, Stores.ofSnapshotFile env snapshot = .ok loaded →
    view.KeepsCutoffs (loaded.view.applyAll entries)

/-- The cutoffs in memory are backed by what is on disk. -/
structure Guarded (world : World) : Prop where
  exists_entries : ∃ entries, Holds env world.walState entries ∧
    Backs env world.disk.snapshot entries world.view

/-- The same revocations on the same directory: changes of the other stores and
of iteration orders, and whatever the device does next. -/
structure SameRevocations (first second : World) : Prop where
  disk : second.disk = first.disk
  writer : second.manager.walWriter = first.manager.walWriter
  revocations : second.view.revocations = first.view.revocations

/-- A start on this directory, which may fail at any point. -/
def Attempt (dataDir : String) (first second : Disk) : Prop :=
  ∃ syncMode io,
    second = (finalState ((StateManager.new env dataDir syncMode).run ⟨first, io⟩)).disk

/-- What can happen to a manager: a call that returns or fails, changes that do
not concern revocations, and a restart after any number of failed attempts. -/
inductive Evolution (dataDir : String) : World → World → Prop
  | call (source : World) (call : Call) :
      Evolution dataDir source (finalState ((call.perform env).run source))
  | others {source target : World} (same : SameRevocations source target) :
      Evolution dataDir source target
  | restart {source target : World} {disk : Disk} {io : List Outcome} (syncMode : WalSyncMode)
      (attempts : Relation.ReflTransGen (Attempt env dataDir) source.disk disk)
      (run : (StateManager.new env dataDir syncMode).run ⟨disk, io⟩ =
        .ok target.manager target.toDevice) : Evolution dataDir source target

/-- Any number of such events. -/
def Evolves (dataDir : String) : World → World → Prop :=
  Relation.ReflTransGen (Evolution env dataDir)

variable {env}

theorem Backs.extend {snapshot : Option Library.Encoding.Bytes} {entries : List WalEntry}
    {view : View} {entry : WalEntry} (backs : Backs env snapshot entries view)
    (keeps : view.KeepsCutoffs (view.apply entry)) :
    Backs env snapshot (entries ++ [entry]) (view.apply entry) ∧
      Backs env snapshot (entries ++ [entry]) view := by
  have extended : ∀ other : View, view.KeepsCutoffs (other.applyAll entries) →
      (view.apply entry).KeepsCutoffs (other.applyAll (entries ++ [entry])) := by
    intro other kept
    rw [View.applyAll_append]
    exact kept.apply entry
  refine ⟨⟨?_, ?_⟩, ⟨?_, ?_⟩⟩
  · intro other kept
    exact extended other (backs.log other (keeps.trans kept))
  · intro loaded loads
    exact extended loaded.view (backs.recovered loaded loads)
  · intro other kept
    exact keeps.trans (extended other (backs.log other kept))
  · intro loaded loads
    exact keeps.trans (extended loaded.view (backs.recovered loaded loads))

theorem Backs.congr {snapshot : Option Library.Encoding.Bytes} {entries : List WalEntry}
    {first second : View} (backs : Backs env snapshot entries first)
    (same : second.revocations = first.revocations) : Backs env snapshot entries second where
  log := by
    intro other kept
    exact (View.KeepsCutoffs.of_eq same.symm).trans
      (backs.log other ((View.KeepsCutoffs.of_eq same).trans kept))
  recovered := by
    intro loaded loads
    exact (View.KeepsCutoffs.of_eq same.symm).trans (backs.recovered loaded loads)

/-! ## What each event keeps -/

variable {source target : World}

/-- A logged entry, whether or not it reached the log as a whole. -/
theorem Guarded.logEntry {change : Mutation} {entry : WalEntry}
    (guarded : Guarded env source) (permitted : change.Permits source entry) :
    Guarded env (finalState ((StateManager.logEntry env entry).run source)) ∧
      source.view.KeepsCutoffs
        (finalState ((StateManager.logEntry env entry).run source)).view := by
  obtain ⟨entries, holds, backs⟩ := guarded.exists_entries
  obtain ⟨backsApplied, backsSource⟩ := backs.extend permitted.keepsCutoffs
  cases run : (StateManager.logEntry env entry).run source with
  | ok value target =>
    obtain ⟨state, appendRun, rfl⟩ := (StateManager.logEntry_ok_iff env).mp run
    obtain ⟨appended, snapshot_eq⟩ := holds.append_ok appendRun
    have view_eq : (source.manager.toStores.replayEntry entry).view =
        source.view.apply entry := Stores.view_replayEntry source.manager.toStores entry
    refine ⟨⟨entries ++ [entry], appended, ?_⟩, ?_⟩
    · change Backs env state.disk.snapshot _ (source.manager.toStores.replayEntry entry).view
      rw [view_eq, snapshot_eq]
      exact backsApplied
    · change View.KeepsCutoffs _ (source.manager.toStores.replayEntry entry).view
      rw [view_eq]
      exact permitted.keepsCutoffs
  | error error target =>
    obtain ⟨state, appendRun, rfl⟩ := (StateManager.logEntry_error_iff env).mp run
    obtain ⟨appended, snapshot_eq⟩ := holds.append_error appendRun
    refine ⟨?_, .refl source.view⟩
    rcases appended with unchanged | extended
    · refine ⟨entries, unchanged, ?_⟩
      change Backs env state.disk.snapshot entries source.view
      rwa [snapshot_eq]
    · refine ⟨entries ++ [entry], extended, ?_⟩
      change Backs env state.disk.snapshot _ source.view
      rwa [snapshot_eq]

theorem Guarded.mutation (guarded : Guarded env source) (change : Mutation) :
    Guarded env (finalState ((change.perform env).run source)) ∧
      source.view.KeepsCutoffs (finalState ((change.perform env).run source)).view := by
  refine (change.traced env source).invariant
    (fun world => Guarded env world ∧ source.view.KeepsCutoffs world.view) ?_
    ⟨guarded, .refl source.view⟩
  rintro world entry permitted ⟨worldGuarded, kept⟩
  obtain ⟨laterGuarded, laterKept⟩ := worldGuarded.logEntry permitted
  exact ⟨laterGuarded, kept.trans laterKept⟩

/-- Whatever a snapshot call got done, the view stays and stays backed. -/
theorem Guarded.takeSnapshot (guarded : Guarded env source) :
    Guarded env (finalState ((StateManager.takeSnapshot env).run source)) ∧ source.view.KeepsCutoffs
        (finalState ((StateManager.takeSnapshot env).run source)).view := by
  obtain ⟨entries, holds, backs⟩ := guarded.exists_entries
  have backsSaved : ∀ {encoded : Library.Encoding.Bytes} {log : List WalEntry},
      env.snapshotV4.encode source.manager.snapshotData = .ok encoded →
      (∀ other : View, source.view.KeepsCutoffs other →
        source.view.KeepsCutoffs (other.applyAll log)) →
      Backs env (some (snapshotFile encoded)) log source.view := by
    intro encoded log encodes logKeeps
    refine ⟨logKeeps, fun loaded loads => logKeeps loaded.view ?_⟩
    rw [Stores.view_ofSnapshotFile env encodes loads]
    exact .refl source.view
  have taken := StateManager.takeSnapshot_taken env source
  generalize (StateManager.takeSnapshot env).run source = result at taken
  cases taken with
  | kept error tmp io => exact ⟨⟨entries, holds.congr rfl rfl, backs⟩, .refl source.view⟩
  | renamed encodes io =>
    exact ⟨⟨entries, holds.congr rfl rfl, backsSaved encodes backs.log⟩, .refl source.view⟩
  | emptied encodes io =>
    exact ⟨⟨[], holds_nil env rfl rfl, backsSaved encodes fun _ => id⟩, .refl source.view⟩
  | done encodes io =>
    exact ⟨⟨[], holds_nil env rfl rfl, backsSaved encodes fun _ => id⟩, .refl source.view⟩

theorem Guarded.call (guarded : Guarded env source) (call : Call) :
    Guarded env (finalState ((call.perform env).run source)) ∧
      source.view.KeepsCutoffs (finalState ((call.perform env).run source)).view := by
  cases call with
  | mutation change => exact guarded.mutation change
  | takeSnapshot => exact guarded.takeSnapshot
  | flushWal =>
    obtain ⟨entries, holds, backs⟩ := guarded.exists_entries
    obtain ⟨io, flushed⟩ := flush_kept source.walState
    have final : finalState (StateManager.flushWal.run source) =
        ⟨⟨source.disk, io⟩, source.manager⟩ := by
      rw [StateManager.flushWal, onWal, finalState_zoom, flushed]
      rfl
    rw [Call.perform, final]
    exact ⟨⟨entries, holds.congr rfl rfl, backs⟩, .refl source.view⟩

theorem Guarded.others (guarded : Guarded env source)
    (same : SameRevocations source target) : Guarded env target := by
  obtain ⟨entries, holds, backs⟩ := guarded.exists_entries
  refine ⟨entries, holds.congr (congrArg Disk.wal same.disk) same.writer, ?_⟩
  rw [same.disk]
  exact backs.congr same.revocations

variable {dataDir : String}

theorem attempts_kept {first second : Disk}
    (attempts : Relation.ReflTransGen (Attempt env dataDir) first second) :
    second.snapshot = first.snapshot ∧
      WalReader.replay env second.wal = WalReader.replay env first.wal := by
  induction attempts with
  | refl => exact ⟨rfl, rfl⟩
  | tail _ attempt ih =>
    obtain ⟨syncMode, io, rfl⟩ := attempt
    obtain ⟨snapshot_eq, replay_eq⟩ := StateManager.new_kept env dataDir syncMode ⟨_, io⟩
    exact ⟨snapshot_eq.trans ih.1, replay_eq.trans ih.2⟩

/-- A manager that just started, on whatever directory. -/
theorem guarded_new {syncMode : WalSyncMode} {device : Device}
    (run : (StateManager.new env dataDir syncMode).run device =
      .ok target.manager target.toDevice) : Guarded env target := by
  obtain ⟨loaded, loads, view_eq, openRun⟩ := StateManager.new_ok run
  obtain ⟨-, disk_eq, -⟩ := open_ok openRun
  refine ⟨_, open_holds openRun, ?_⟩
  rw [World.view, view_eq, disk_eq]
  refine ⟨fun other => View.keepsCutoffs_applyAll, fun other otherLoads => ?_⟩
  cases loads.symm.trans otherLoads
  exact .refl _

theorem Guarded.restart {syncMode : WalSyncMode}
    {disk : Disk} {io : List Outcome} (guarded : Guarded env source)
    (attempts : Relation.ReflTransGen (Attempt env dataDir) source.disk disk)
    (run : (StateManager.new env dataDir syncMode).run ⟨disk, io⟩ =
      .ok target.manager target.toDevice) : source.view.KeepsCutoffs target.view := by
  obtain ⟨entries, holds, backs⟩ := guarded.exists_entries
  obtain ⟨snapshot_eq, replay_eq⟩ := attempts_kept attempts
  obtain ⟨loaded, loads, view_eq, -⟩ := StateManager.new_ok run
  rw [snapshot_eq] at loads
  rw [World.view, World.view, view_eq, replay_eq]
  have kept := backs.recovered loaded loads
  rwa [← holds.replay_eq] at kept

theorem Guarded.evolution
    (guarded : Guarded env source) (evolution : Evolution env dataDir source target) :
    Guarded env target ∧ source.view.KeepsCutoffs target.view := by
  cases evolution with
  | call call => exact guarded.call call
  | others same => exact ⟨guarded.others same, .of_eq same.revocations⟩
  | restart syncMode attempts run => exact ⟨guarded_new run, guarded.restart attempts run⟩

theorem Guarded.evolves
    (guarded : Guarded env source) (evolves : Evolves env dataDir source target) :
    Guarded env target ∧ source.view.KeepsCutoffs target.view := by
  induction evolves with
  | refl => exact ⟨guarded, .refl source.view⟩
  | tail _ evolution ih =>
    obtain ⟨middleGuarded, middleKept⟩ := ih
    obtain ⟨targetGuarded, targetKept⟩ := middleGuarded.evolution evolution
    exact ⟨targetGuarded, middleKept.trans targetKept⟩

/-! ## Refusing old decisions -/

/-- A peer's decision is accepted when no protected network and no revocation that
is not older meets its subject. -/
theorem acceptsRemoteBan_iff (stores : Stores) (record : BanRecord) :
    StateManager.acceptsRemoteBan stores record = true ↔
      ¬WhitelistManager.Protects stores.whitelist.Listed record.subject ∧
        ∀ revoked cutoff, stores.revocations.lookup revoked = some cutoff →
          IpNet.SharesAddress revoked record.subject → cutoff < record.createdAt := by
  rw [StateManager.acceptsRemoteBan, Bool.and_eq_true, Bool.not_eq_true', Bool.not_eq_true',
    ← WhitelistManager.overlaps_iff, Bool.not_eq_true, List.any_eq_false]
  apply and_congr_right'
  constructor
  · intro unrevoked revoked cutoff found shares
    have overlap : netsOverlap revoked record.subject = true :=
      (netsOverlap_iff revoked record.subject).mpr shares
    have late := unrevoked ⟨revoked, cutoff⟩ (mem_entries_iff.mpr found)
    rw [netsOverlap] at overlap
    simpa [overlap] using late
  · rintro newer ⟨revoked, cutoff⟩ member refused
    rw [Bool.and_eq_true, decide_eq_true_eq] at refused
    have shares := (netsOverlap_iff revoked record.subject).mp refused.1
    exact absurd (newer revoked cutoff (mem_entries_iff.mp member) shares)
      (Int.not_lt.mpr refused.2)

theorem revokeBan_records {subject : IpNet} {now : DateTime}
    {removed : Bool}
    (run : (StateManager.revokeBan env subject now).run source = .ok removed target) :
    target.manager.revocations.lookup subject.trunc =
      some (StateManager.revocationCutoff source.manager.toStores subject.trunc now) := by
  rw [StateManager.revokeBan_eq] at run
  obtain ⟨state, -, rfl⟩ := (StateManager.logEntry_ok_iff env).mp
    (StateManager.logEntry_of_answer env run)
  exact AList.lookup_insert _

variable (env) in
/-- In every state of a manager, however it was reached and whatever the directory
held when it started, a revocation that returns records a cutoff, and from then
on no decision of a peer that is not newer than this cutoff is accepted for a
network that shares an address with the revoked one.  No cutoff is ever lowered
or forgotten. -/
theorem revocation_permanent {dataDir : String} {syncMode : WalSyncMode} {device : Device}
    {start world : World} (started : (StateManager.new env dataDir syncMode).run device =
      .ok start.manager start.toDevice) (reached : Evolves env dataDir start world) :
    (∀ subject now removed revoked,
      (StateManager.revokeBan env subject now).run world = .ok removed revoked →
      ∃ cutoff, revoked.manager.revocations.lookup subject.trunc = some cutoff ∧
        ∀ later, Evolves env dataDir revoked later →
          ∀ record : BanRecord, IpNet.SharesAddress record.subject subject →
            record.createdAt ≤ cutoff →
            StateManager.acceptsRemoteBan later.manager.toStores record = false) ∧
      ∀ later, Evolves env dataDir world later →
        ∀ subject cutoff, world.manager.revocations.lookup subject = some cutoff →
          ∃ current, later.manager.revocations.lookup subject = some current ∧
            cutoff ≤ current := by
  obtain ⟨guarded, -⟩ := (guarded_new started).evolves reached
  have never_lowered : ∀ {first second : World}, Guarded env first →
      Evolves env dataDir first second → ∀ subject cutoff,
        first.manager.revocations.lookup subject = some cutoff →
          ∃ current, second.manager.revocations.lookup subject = some current ∧
            cutoff ≤ current := by
    intro first second firstGuarded evolves subject cutoff found
    simpa [view, Stores.view] using (firstGuarded.evolves evolves).2 subject cutoff
      (by simpa [view, Stores.view] using found)
  refine ⟨?_, fun later evolves => never_lowered guarded evolves⟩
  intro subject now removed revoked run
  refine ⟨_, revokeBan_records run, ?_⟩
  intro later evolves record shares old
  have revokedGuarded : Guarded env revoked := by
    have final := (guarded.mutation (.revokeBan subject now)).1
    rwa [Mutation.perform, EStateM.run_bind, run] at final
  obtain ⟨current, found, raised⟩ :=
    never_lowered revokedGuarded evolves _ _ (revokeBan_records run)
  rw [← Bool.not_eq_true, acceptsRemoteBan_iff]
  rintro ⟨-, newer⟩
  have recent := newer _ current found (IpNet.sharesAddress_trunc_left.mpr shares.symm)
  exact absurd recent (Int.not_lt.mpr (old.trans raised))

/-- A peer's ban of one address of a revoked network, as old as the revocation,
after a snapshot and a restart. -/
theorem revocation_permanent_sample :
    let world := finalState
      ((Call.perform Wire.externals (.mutation (.addBan sampleBan))).run sampleStart)
    let peerBan := { sampleBan with
      subject := .ofV4 0x08080809#32 32
      createdAt := 1700000001000000000 }
    ∃ revoked later,
      (StateManager.revokeBan Wire.externals sampleBan.subject 1700000001000000000).run world =
          .ok true revoked ∧
        Evolves Wire.externals "/var/lib/hiveguard" revoked later ∧
        StateManager.acceptsRemoteBan later.manager.toStores peerBan = false := by
  intro world peerBan
  obtain ⟨revoked, revokes, recorded, restarts⟩ : ∃ revoked,
      (StateManager.revokeBan Wire.externals sampleBan.subject 1700000001000000000).run world =
          .ok true revoked ∧
        revoked.manager.revocations.lookup sampleBan.subject.trunc =
          some 1700000001000000000 ∧
        succeeded ((StateManager.new Wire.externals "/var/lib/hiveguard" .sync).run
          ⟨(finalState ((Call.perform Wire.externals .takeSnapshot).run revoked)).disk, []⟩) =
            true := by
    refine ⟨_, eq_ok_of_returned ?_, ?_, ?_⟩
    · decide +kernel
    · decide +kernel
    · decide +kernel
  obtain ⟨manager, device, restartRun⟩ := exists_of_succeeded _ restarts
  have evolves : Evolves Wire.externals "/var/lib/hiveguard" revoked ⟨device, manager⟩ :=
    .tail (.single (.call _ .takeSnapshot)) (.restart .sync .refl restartRun)
  obtain ⟨cutoff, found, refuses⟩ := (revocation_permanent Wire.externals sampleStart_fresh
    (.single (.call sampleStart (.mutation (.addBan sampleBan))))).1 _ _ _ _ revokes
  have cutoff_eq : cutoff = 1700000001000000000 := by
    rw [recorded] at found
    exact (Option.some.inj found).symm
  refine ⟨_, _, revokes, evolves, refuses _ evolves peerBan ?_ cutoff_eq.ge⟩
  exact ⟨.v4 0x08080809#32, by decide, by decide⟩

end World

end HiveGuard.Persistence
