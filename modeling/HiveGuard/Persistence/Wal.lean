import HiveGuard.Persistence.Format

/-!
# The write-ahead log

Record format: four bytes length, the payload, four bytes CRC-32, numbers in
little-endian order.  The reader returns the records before the first one that
is incomplete, oversized, corrupt or undecodable, together with the offset where
they end.  The writer stops accepting entries once a write has failed.
-/

namespace HiveGuard.Persistence

open HiveGuard.Core Library.Effect Library.Encoding

inductive WalSyncMode where
  | fdatasync
  | sync
  | none
  deriving DecidableEq

/-- Maximum payload size: 16 MiB. -/
def walMaxRecordSize : Nat := 16 * 1024 * 1024

/-- The writer's open file and its state.  A file opened for appending has no
cursor of its own; one opened for writing continues at its cursor. -/
structure WalWriter where
  cursor : Option Nat
  syncMode : WalSyncMode
  writeFailed : Bool

/-- The device together with a writer. -/
structure WalState extends Device where
  writer : WalWriter

namespace WalState

/-- Run a device call that does not involve the writer. -/
def onDevice {α : Type} (action : EStateM HiveGuardError Device α) :
    EStateM HiveGuardError WalState α :=
  zoom WalState.toDevice (fun device state => { state with toDevice := device }) action

/-- Bytes of a file after a write at a position; a gap reads as zeros. -/
def overwrite (file : Bytes) (position : Nat) (data : Bytes) : Bytes :=
  file.take position ++ List.replicate (position - file.length) 0 ++ data ++
    file.drop (position + data.length)

/-- Bring bytes to the log file through the writer's handle. -/
def write (data : Bytes) (state : WalState) : WalState :=
  let file := state.disk.wal.getD []
  match state.writer.cursor with
  | none => { state with disk := { state.disk with wal := some (file ++ data) } }
  | some position =>
    { state with
      disk := { state.disk with wal := some (overwrite file position data) }
      writer := { state.writer with cursor := some (position + data.length) } }

/-- `write_all`: on failure only a part of the data reached the file. -/
def writeAll (data : Bytes) : EStateM HiveGuardError WalState Unit := do
  match ← onDevice nextOutcome with
  | .done => modify (write data)
  | .failed written => do
      modify (write (data.take written))
      throw .io

end WalState

/-! ## Reader -/

namespace WalReader

variable (env : Externals)

/-- `read_exact`: the first `count` bytes and the rest, or end of file. -/
def readExact (count : Nat) (file : Bytes) : Option (Bytes × Bytes) :=
  if count ≤ file.length then some (file.take count, file.drop count) else none

/-- One round of the replay loop: the entry of the record at the front and the
record's payload length; `none` when the loop stops. -/
def readRecord (file : Bytes) : Option (WalEntry × Nat) := do
  let (lenBuf, file) ← readExact 4 file
  let length := fromLeBytes lenBuf
  if length > walMaxRecordSize then
    none
  let (payload, file) ← readExact length file
  let (crcBuf, _) ← readExact 4 file
  if fromLeBytes crcBuf ≠ (env.crc32 payload).val then
    none
  match env.wal.decode payload with
  | .ok (entry, []) => some (entry, length)
  | _ => none

/-- The replay loop with its accumulators: the entries read and the offset where
the last whole record ended.  Every round takes at least eight bytes off the
file, so as many rounds as the file has bytes are enough. -/
def replayLoop : Nat → Bytes → List WalEntry → Nat → List WalEntry × Nat
  | 0, _, entries, validEnd => (entries, validEnd)
  | rounds + 1, file, entries, validEnd =>
    match readRecord env file with
    | none => (entries, validEnd)
    | some (entry, length) =>
      replayLoop rounds (file.drop (4 + length + 4)) (entries ++ [entry])
        (validEnd + (4 + length + 4))

/-- All valid entries of a log file and the offset where they end.  A missing
file has none. -/
def replayWithOffset (file : Option Bytes) : List WalEntry × Nat :=
  match file with
  | none => ([], 0)
  | some bytes => replayLoop env bytes.length bytes [] 0

def replay (file : Option Bytes) : List WalEntry :=
  (replayWithOffset env file).1

/-- Read-only preflight: reject any incomplete or corrupt tail. -/
def replayStrict (file : Option Bytes) : Except HiveGuardError (List WalEntry) :=
  match file with
  | none => .error .io
  | some bytes =>
    let (entries, validEnd) := replayWithOffset env (some bytes)
    if validEnd ≠ bytes.length then
      .error (.storage ("WAL is not fully recoverable: " ++ toString validEnd ++
        " valid bytes out of " ++ toString bytes.length))
    else
      .ok entries

end WalReader

/-! ## Writer -/

namespace WalWriter

variable (env : Externals)

/-- Open or create the log for appending and cut off a corrupt tail. -/
def «open» (syncMode : WalSyncMode) : EStateM HiveGuardError Device WalWriter := do
  perform (fun disk => { disk with wal := some (disk.wal.getD []) }) fun _ => id
  let file := (← get).disk.wal
  let validEnd := (WalReader.replayWithOffset env file).2
  if (file.getD []).length ≠ validEnd then
    perform (fun disk => { disk with wal := disk.wal.map (List.take validEnd) }) fun _ => id
    syncData
  pure { cursor := none, syncMode := syncMode, writeFailed := false }

def record (payload : Bytes) : Bytes :=
  toLeBytes payload.length ++ payload ++ toLeBytes (env.crc32 payload).val

/-- Bring a record to the file and flush it as the sync mode asks. -/
def writeRecord (payload : Bytes) : EStateM HiveGuardError WalState Unit := do
  WalState.writeAll (toLeBytes payload.length)
  WalState.writeAll payload
  WalState.writeAll (toLeBytes (env.crc32 payload).val)
  if (← get).writer.syncMode ≠ .none then
    WalState.onDevice syncData

/-- Append a single entry.  After a failed write nothing is accepted behind the
possibly partial record. -/
def append (entry : WalEntry) : EStateM HiveGuardError WalState Unit := do
  if (← get).writer.writeFailed then
    throw (.storage "WAL unavailable after a failed write; recovery is required")
  match env.wal.encode entry with
  | .error message => throw (.storage ("WAL serialize error: " ++ message))
  | .ok payload => do
      if payload.length > walMaxRecordSize then
        throw (.storage "WAL record exceeds maximum size")
      tryCatch (writeRecord env payload) fun error => do
        modify fun state => { state with writer := { state.writer with writeFailed := true } }
        throw error

/-- Truncate the log after a snapshot.  The new handle writes at a cursor. -/
def truncate : EStateM HiveGuardError WalState Unit := do
  match ← WalState.onDevice nextOutcome with
  | .failed _ => throw .io
  | .done =>
    modify fun state =>
      { state with
        disk := { state.disk with wal := some [] }
        writer := { state.writer with cursor := some 0 } }
  WalState.onDevice syncData
  modify fun state => { state with writer := { state.writer with writeFailed := false } }

/-- Flush the log without truncating it.  Without syncing there is nothing to
flush, because the file has no user-space buffer. -/
def flush : EStateM HiveGuardError WalState Unit := do
  if (← get).writer.syncMode ≠ .none then
    WalState.onDevice syncData

end WalWriter

end HiveGuard.Persistence
