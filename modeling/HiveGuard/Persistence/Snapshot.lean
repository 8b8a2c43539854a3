import HiveGuard.Persistence.Wal

/-!
# Snapshots

A snapshot is a magic number followed by the encoded state.  It is written to a
temporary file, flushed, and renamed over the previous snapshot.  Loading
understands four formats and refuses files above a size that saving does not
check.
-/

namespace HiveGuard.Persistence

open HiveGuard.Core Library.Encoding

/-- `HVGD0001` -/
def snapshotMagicV1 : Bytes := [72, 86, 71, 68, 48, 48, 48, 49]

/-- `HVGD0002` -/
def snapshotMagicV2 : Bytes := [72, 86, 71, 68, 48, 48, 48, 50]

/-- `HVGD0003` -/
def snapshotMagicV3 : Bytes := [72, 86, 71, 68, 48, 48, 48, 51]

/-- `HVGD0004` -/
def snapshotMagicV4 : Bytes := [72, 86, 71, 68, 48, 48, 48, 52]

/-- Maximum snapshot file size: 256 MiB. -/
def snapshotMaxSize : Nat := 256 * 1024 * 1024

structure SnapshotResult where
  bans : List BanRecord
  whitelist : List IpNet
  crdtBans : List CrdtBanRecord
  revocations : List (IpNet × DateTime)

variable (env : Externals)

/-- Write the state to the temporary file and rename it over the snapshot.
Renaming is atomic. -/
def saveSnapshotWithRevocations (data : SnapshotDataV4) :
    EStateM HiveGuardError Device Unit := do
  perform id fun _ => id
  match env.snapshotV4.encode data with
  | .error message => throw (.storage ("snapshot serialize: " ++ message))
  | .ok encoded => do
      perform (fun disk => { disk with snapshotTmp := some [] }) fun _ => id
      writeTmp snapshotMagicV4
      writeTmp encoded
      syncData
      perform (fun disk => { disk with snapshot := disk.snapshotTmp, snapshotTmp := none })
        fun _ => id
      syncData
where
  /-- `write_all` on the temporary file. -/
  writeTmp (data : Bytes) : EStateM HiveGuardError Device Unit :=
    perform (fun disk => { disk with snapshotTmp := disk.snapshotTmp.map (· ++ data) })
      fun written disk =>
        { disk with snapshotTmp := disk.snapshotTmp.map (· ++ data.take written) }

/-- The value a decoder returns, when it used all bytes. -/
def decodeAll {α : Type} (decoded : Except String (α × Bytes)) : Except HiveGuardError α :=
  match decoded with
  | .error message => .error (.storage ("snapshot deserialize: " ++ message))
  | .ok (data, []) => .ok data
  | .ok (_, _ :: _) => .error (.storage "unexpected trailing snapshot bytes")

/-- Load a snapshot of any supported format. -/
def loadSnapshotV2 (file : Bytes) : Except HiveGuardError SnapshotResult := do
  if file.length > snapshotMaxSize then
    throw (.storage ("snapshot file too large: " ++ toString file.length ++ " bytes (max " ++
      toString snapshotMaxSize ++ ")"))
  match WalReader.readExact 8 file with
  | none => throw .io
  | some (magic, encoded) =>
    if magic = snapshotMagicV4 then do
      let data ← decodeAll (env.snapshotV4.decode encoded)
      pure ⟨data.bans, data.whitelist, data.crdtBans, data.revocations⟩
    else if magic = snapshotMagicV3 then do
      let data ← decodeAll (env.takeSnapshotV3 encoded)
      pure ⟨data.bans, data.whitelist, data.crdtBans, []⟩
    else if magic = snapshotMagicV2 then
      match env.deserializeV2 encoded with
      | .error message => throw (.storage message)
      | .ok data => pure ⟨data.bans, data.whitelist, data.crdtBans, []⟩
    else if magic = snapshotMagicV1 then
      match env.deserializeV1 encoded with
      | .error message => throw (.storage message)
      | .ok data => pure ⟨data.bans, data.whitelist, [], []⟩
    else
      throw (.storage ("invalid snapshot magic: expected HVGD0001, HVGD0002, HVGD0003 or " ++
        "HVGD0004, got [" ++ ", ".intercalate (magic.map fun byte => toString byte) ++ "]"))

/-! ## What saving leaves behind -/

/-- The bytes of a snapshot in the current format. -/
def snapshotFile (encoded : Bytes) : Bytes :=
  snapshotMagicV4 ++ encoded

variable {data : SnapshotDataV4} {encoded : Bytes}

/-- A saved snapshot loads as the data it was made from, unless it is too
large. -/
theorem loadSnapshotV2_snapshotFile
    (encodes : env.snapshotV4.encode data = .ok encoded) :
    loadSnapshotV2 env (snapshotFile encoded) =
      if (snapshotFile encoded).length > snapshotMaxSize then
        .error (.storage ("snapshot file too large: " ++
          toString (snapshotFile encoded).length ++ " bytes (max " ++
          toString snapshotMaxSize ++ ")"))
      else .ok ⟨data.bans, data.whitelist, data.crdtBans, data.revocations⟩ := by
  have decodes := env.snapshotV4.decode_encode data encoded encodes
  have split : WalReader.readExact 8 (snapshotFile encoded) =
      some (snapshotMagicV4, encoded) := by
    simp [WalReader.readExact, snapshotFile, snapshotMagicV4]
  rw [loadSnapshotV2]
  by_cases large : (snapshotFile encoded).length > snapshotMaxSize
  · rw [if_pos large, if_pos large]
    rfl
  · rw [if_neg large, if_neg large, split]
    simp only [if_true, decodes]
    rfl

/-- A snapshot that loads is within the size limit. -/
theorem loadSnapshotV2_small {file : Bytes} {result : SnapshotResult}
    (loads : loadSnapshotV2 env file = .ok result) : file.length ≤ snapshotMaxSize := by
  by_contra large
  rw [loadSnapshotV2, if_pos (Nat.lt_of_not_le large)] at loads
  contradiction

/-- Everything saving can do: the snapshot is untouched as long as the rename
has not happened, and complete afterwards.  The log is never touched. -/
inductive Saved (data : SnapshotDataV4) (source : Device) :
    EStateM.Result HiveGuardError Device Unit → Prop
  | done {encoded : Bytes} {io : List Outcome}
      (encodes : env.snapshotV4.encode data = .ok encoded)
      (faultless : source.io = [] → io = []) :
      Saved data source (.ok () ⟨⟨source.disk.wal, some (snapshotFile encoded), none⟩, io⟩)
  | renamed {encoded : Bytes} {io : List Outcome}
      (encodes : env.snapshotV4.encode data = .ok encoded) (faults : source.io ≠ []) :
      Saved data source
        (.error .io ⟨⟨source.disk.wal, some (snapshotFile encoded), none⟩, io⟩)
  | kept {error : HiveGuardError} {tmp : Option Bytes} {io : List Outcome}
      (reason : source.io ≠ [] ∨ ∃ message, env.snapshotV4.encode data = .error message) :
      Saved data source (.error error ⟨⟨source.disk.wal, source.disk.snapshot, tmp⟩, io⟩)

variable {env}

/-- The disks agree on everything but the temporary file. -/
def SameFiles (first second : Disk) : Prop :=
  first.wal = second.wal ∧ first.snapshot = second.snapshot

theorem Saved.of_sameFiles {source middle : Device}
    {result : EStateM.Result HiveGuardError Device Unit} (saved : Saved env data middle result)
    (same : SameFiles middle.disk source.disk) (quiet : source.io = [] → middle.io = []) :
    Saved env data source result := by
  obtain ⟨wal_eq, snapshot_eq⟩ := same
  cases saved with
  | done encodes faultless =>
    rw [wal_eq]
    exact .done encodes (faultless ∘ quiet)
  | renamed encodes faults =>
    rw [wal_eq]
    exact .renamed encodes (mt quiet faults)
  | kept reason =>
    rw [wal_eq, snapshot_eq]
    exact .kept (reason.imp_left (mt quiet))

/-- A call that touches only the temporary file, before the rest of saving. -/
theorem Saved.perform_bind {whole : Disk → Disk}
    {partly : Nat → Disk → Disk} {next : Unit → EStateM HiveGuardError Device Unit}
    {device : Device} (wholeSame : SameFiles (whole device.disk) device.disk)
    (partlySame : ∀ written, SameFiles (partly written device.disk) device.disk)
    (rest : ∀ io, Saved env data ⟨whole device.disk, io⟩ ((next ()).run ⟨whole device.disk, io⟩)) :
    Saved env data device ((perform whole partly >>= next).run device) := by
  rcases perform_bind_cases whole partly next device with
    ⟨io, run, quiet⟩ | ⟨written, io, run, faults⟩
  · rw [run]
    exact (rest io).of_sameFiles wholeSame quiet
  · obtain ⟨wal_eq, snapshot_eq⟩ := partlySame written
    have partly_eq : partly written device.disk =
        ⟨device.disk.wal, device.disk.snapshot, (partly written device.disk).snapshotTmp⟩ := by
      rw [← wal_eq, ← snapshot_eq]
    rw [run, partly_eq]
    exact .kept (.inl faults)

/-- The rename brings the complete temporary file into place; flushing the
directory can still fail. -/
theorem saved_rename
    (encodes : env.snapshotV4.encode data = .ok encoded) (wal snapshot : Option Bytes)
    (io : List Outcome) :
    Saved env data ⟨⟨wal, snapshot, some (snapshotFile encoded)⟩, io⟩
      ((perform (fun disk => { disk with snapshot := disk.snapshotTmp, snapshotTmp := none })
        (fun _ => id) >>= fun _ => syncData).run
          ⟨⟨wal, snapshot, some (snapshotFile encoded)⟩, io⟩) := by
  rcases perform_bind_cases _ _ _ _ with ⟨rest, run, quiet⟩ | ⟨_, rest, run, faults⟩
  · rw [run]
    rcases perform_cases id (fun _ => id) _ with ⟨last, run, lastQuiet⟩ | ⟨_, last, run, faults⟩
    · rw [syncData, run]
      exact .done encodes (lastQuiet ∘ quiet)
    · rw [syncData, run]
      exact .renamed encodes (mt quiet faults)
  · rw [run]
    exact .kept (.inl faults)

variable (env)

theorem saveSnapshotWithRevocations_saved (data : SnapshotDataV4) (device : Device) :
    Saved env data device ((saveSnapshotWithRevocations env data).run device) := by
  have same : ∀ {disk : Disk} {tmp : Option Bytes},
      SameFiles { disk with snapshotTmp := tmp } disk := ⟨rfl, rfl⟩
  rw [saveSnapshotWithRevocations]
  refine .perform_bind same (fun _ => same) fun _ => ?_
  cases encodes : env.snapshotV4.encode data with
  | error message => exact .kept (.inr ⟨message, encodes⟩)
  | ok encoded =>
    refine .perform_bind same (fun _ => same) fun _ => ?_
    refine .perform_bind same (fun _ => same) fun _ => ?_
    refine .perform_bind same (fun _ => same) fun _ => ?_
    refine .perform_bind same (fun _ => same) fun io => ?_
    exact saved_rename encodes device.disk.wal device.disk.snapshot io

/-- On a device without faults all that can be serialised is written. -/
theorem saveSnapshotWithRevocations_faultless
    (encodes : env.snapshotV4.encode data = .ok encoded) (disk : Disk) :
    ∃ target, (saveSnapshotWithRevocations env data).run ⟨disk, []⟩ = .ok () target ∧
      target.disk.snapshot = some (snapshotFile encoded) := by
  have saved := saveSnapshotWithRevocations_saved env data ⟨disk, []⟩
  cases run : (saveSnapshotWithRevocations env data).run ⟨disk, []⟩ with
  | ok value target =>
    rw [run] at saved
    cases saved with
    | done otherEncodes faultless =>
      rw [encodes] at otherEncodes
      cases otherEncodes
      exact ⟨_, rfl, rfl⟩
  | error error target =>
    rw [run] at saved
    cases saved with
    | renamed otherEncodes faults => exact absurd rfl faults
    | kept reason =>
      rcases reason with faults | ⟨message, refused⟩
      · exact absurd rfl faults
      · rw [encodes] at refused
        contradiction

end HiveGuard.Persistence
