import HiveGuard.Core.Crdt
import HiveGuard.Library.Effect
import HiveGuard.Library.Encoding

/-!
# What is on disk

The persistence layer keeps a write-ahead log `wal.bin` and a snapshot
`snapshot.bin` in one directory; a snapshot is first written to `snapshot.tmp`.
Records and snapshots are turned into bytes by third-party crates, which stay
parameters.

Every call into the operating system may fail.  The environment's script lists
the outcomes of the coming calls; when it is used up, calls succeed.  A call
that fails ends the operation that made it, so a script that fails a call also
describes a process that died there.
-/

namespace HiveGuard.Persistence

open HiveGuard.Core Library.Encoding

/-- WAL entry representing a state mutation. -/
inductive WalEntry where
  | addBan (record : BanRecord)
  | removeBan (subject : IpNet)
  | addWhitelist (net : IpNet)
  | removeWhitelist (net : IpNet)
  | addCrdtBan (record : CrdtBanRecord)
  | tombstoneCrdtBan (subject : IpNet)
  | revokeBan (subject : IpNet) (cutoff : DateTime)
  deriving DecidableEq

structure SnapshotDataV1 where
  bans : List BanRecord
  whitelist : List IpNet

structure SnapshotDataV2 where
  bans : List BanRecord
  whitelist : List IpNet
  crdtBans : List CrdtBanRecord

/-- The current snapshot format, with durable local revocations. -/
structure SnapshotDataV4 where
  bans : List BanRecord
  whitelist : List IpNet
  crdtBans : List CrdtBanRecord
  revocations : List (IpNet × DateTime)
  deriving DecidableEq

/-- The third-party functions the persistence layer calls: postcard for log
records and snapshots, bincode for two older snapshot formats, the CRC-32
checksum, the text form of a network, and the text of an operating system
error. -/
structure Externals where
  wal : Codec WalEntry
  snapshotV4 : Codec SnapshotDataV4
  takeSnapshotV3 : Bytes → Except String (SnapshotDataV2 × Bytes)
  deserializeV2 : Bytes → Except String SnapshotDataV2
  deserializeV1 : Bytes → Except String SnapshotDataV1
  crc32 : Bytes → Fin (2 ^ 32)
  display : IpNet → String
  ioErrorText : String

def errorText (env : Externals) : HiveGuardError → String
  | .config message => "configuration error: " ++ message
  | .io => "I/O error: " ++ env.ioErrorText
  | .storage message => "storage error: " ++ message
  | .protocol message => "protocol error: " ++ message

/-- The files of the data directory. -/
structure Disk where
  wal : Option Bytes
  snapshot : Option Bytes
  snapshotTmp : Option Bytes

/-- An empty data directory. -/
def Disk.empty : Disk :=
  ⟨none, none, none⟩

/-- Outcome of one call into the operating system.  A failed write may have
brought some of its bytes to the file. -/
inductive Outcome where
  | done
  | failed (written : Nat)
  deriving DecidableEq

/-- The disk and the outcomes of the coming calls. -/
structure Device where
  disk : Disk
  io : List Outcome

def nextOutcome : EStateM HiveGuardError Device Outcome := fun device =>
  match device.io with
  | [] => .ok .done device
  | outcome :: rest => .ok outcome { device with io := rest }

/-- One call: `whole` is its effect when it succeeds, `partly n` what a failed
call leaves after `n` bytes. -/
def perform (whole : Disk → Disk) (partly : Nat → Disk → Disk) :
    EStateM HiveGuardError Device Unit := do
  match ← nextOutcome with
  | .done => modify fun device => { device with disk := whole device.disk }
  | .failed written => do
      modify fun device => { device with disk := partly written device.disk }
      throw .io

/-- A call that flushes data and changes no file's content. -/
def syncData : EStateM HiveGuardError Device Unit :=
  perform id fun _ => id

/-- A call has its whole effect and returns, or a partial effect and fails, which
a device without faults never does. -/
theorem perform_cases (whole : Disk → Disk) (partly : Nat → Disk → Disk) (device : Device) :
    (∃ io, (perform whole partly).run device = .ok () ⟨whole device.disk, io⟩ ∧
      (device.io = [] → io = [])) ∨ ∃ written io, (perform whole partly).run device =
        .error .io ⟨partly written device.disk, io⟩ ∧ device.io ≠ [] := by
  obtain ⟨disk, io⟩ := device
  cases io with
  | nil => exact .inl ⟨[], rfl, fun _ => rfl⟩
  | cons outcome io =>
    cases outcome with
    | done => exact .inl ⟨io, rfl, by simp⟩
    | failed written => exact .inr ⟨written, io, rfl, by simp⟩

@[simp]
theorem perform_faultless (whole : Disk → Disk) (partly : Nat → Disk → Disk) (disk : Disk) :
    (perform whole partly).run ⟨disk, []⟩ = .ok () ⟨whole disk, []⟩ :=
  rfl

/-- A call before other actions: they run after its whole effect, or the failed
call ends the sequence. -/
theorem perform_bind_cases {α : Type} (whole : Disk → Disk) (partly : Nat → Disk → Disk)
    (next : Unit → EStateM HiveGuardError Device α) (device : Device) :
    (∃ io, (perform whole partly >>= next).run device =
        (next ()).run ⟨whole device.disk, io⟩ ∧ (device.io = [] → io = [])) ∨
      ∃ written io, (perform whole partly >>= next).run device =
        .error .io ⟨partly written device.disk, io⟩ ∧ device.io ≠ [] := by
  rw [EStateM.run_bind]
  rcases perform_cases whole partly device with
    ⟨io, run, faultless⟩ | ⟨written, io, run, faults⟩
  · exact .inl ⟨io, by rw [run], faultless⟩
  · exact .inr ⟨written, io, by rw [run], faults⟩

theorem perform_ok {whole : Disk → Disk} {partly : Nat → Disk → Disk} {device target : Device}
    {value : Unit} (run : (perform whole partly).run device = .ok value target) :
    target.disk = whole device.disk ∧ (device.io = [] → target.io = []) := by
  rcases perform_cases whole partly device with ⟨io, ran, faultless⟩ | ⟨written, io, ran, -⟩
  · rw [ran] at run
    cases run
    exact ⟨rfl, faultless⟩
  · rw [ran] at run
    contradiction

end HiveGuard.Persistence
