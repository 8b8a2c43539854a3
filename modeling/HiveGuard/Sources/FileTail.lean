import HiveGuard.Library.Machine
import HiveGuard.Sources.LogFile

/-!
# Tailing a log file

The reader of the file source.  One call reads at most a chunk of lines from an offset,
or, when it has fallen too far behind, jumps close to the end of the file.  The offset
is kept by the watcher from call to call.
-/

namespace HiveGuard.Sources

open Library Library.Lines

structure ReadLimits where
  maxChunkBytes : Nat
  maxLagBytes : Nat

structure ReadOutcome where
  lines : List (List Char)
  offset : Nat
  fileLen : Nat
  rotated : Bool
  skippedBytes : Nat
  more : Bool
  deriving DecidableEq

/-- What the loop over the lines leaves behind. -/
structure ReadLoop where
  lines : List (List Char)
  bytesRead : Nat
  stoppedAtLineBoundary : Bool

section Read

-- Decoding of UTF-8 with replacement characters.
variable (decode : List UInt8 → List Char)

def lineText (body : List UInt8) : List Char :=
  decode (stripCarriageReturn body)

/-- The loop over the lines, each read up to its newline.  The end of the file, a line
without an end and a fault all stop it. -/
def readLines (maxChunkBytes : Nat) : Nat → List (List UInt8) → ReadLoop
  | bytesRead, [] => ⟨[], bytesRead, decide (bytesRead < maxChunkBytes)⟩
  | bytesRead, piece :: pieces =>
    if bytesRead < maxChunkBytes then
      if piece.getLast? = some newline then
        let rest := readLines maxChunkBytes (bytesRead + piece.length) pieces
        { rest with lines := lineText decode piece.dropLast :: rest.lines }
      else
        ⟨[], bytesRead, true⟩
    else
      ⟨[], bytesRead, false⟩

/-- After a jump, drop the line in which it ended; there may be no end of it yet. -/
def dropPartial (file : LogFile) :
    List (List UInt8) → Except ReadError (Option (Nat × List (List UInt8)))
  | piece :: pieces =>
    if piece.getLast? = some newline then
      .ok (some (piece.length, pieces))
    else if file.fault.isSome then
      .error .reading
    else
      .ok none
  | [] => if file.fault.isSome then .error .reading else .ok none

/-- Where to start reading, and how many bytes are left out. -/
def chooseStart (limits : ReadLimits) (fileLen startOffset : Nat) : Machine (Nat × Nat) :=
  if 0 < limits.maxLagBytes ∧ limits.maxLagBytes < fileLen - startOffset then do
    let newStart := fileLen - max limits.maxChunkBytes 1
    let skippedBytes ← Machine.sub (2 ^ 64) newStart startOffset
    pure (newStart, skippedBytes)
  else
    pure (startOffset, 0)

/-- The outcome of the loop, started with some bytes already read. -/
def loopOutcome (file : LogFile) (limits : ReadLimits) (rotated : Bool)
    (startOffset skippedBytes bytesRead : Nat) (pieces : List (List UInt8)) : ReadOutcome :=
  let loop := readLines decode limits.maxChunkBytes bytesRead pieces
  let newOffset := startOffset + loop.bytesRead
  { lines := loop.lines
    offset := newOffset
    fileLen := file.fileLen
    rotated
    skippedBytes
    more := !loop.stoppedAtLineBoundary && decide (newOffset < file.fileLen) }

/-- Read from an offset on, after a jump if bytes were left out. -/
def readFrom (file : LogFile) (limits : ReadLimits) (rotated : Bool)
    (startOffset skippedBytes : Nat) : Except ReadError ReadOutcome := do
  let pieces := splitInclusive newline (file.readable.drop startOffset)
  let found ← if 0 < skippedBytes then dropPartial file pieces else pure (some (0, pieces))
  match found with
  | none => pure ⟨[], startOffset, file.fileLen, rotated, skippedBytes, false⟩
  | some (bytesRead, pieces) =>
    pure (loopOutcome decode file limits rotated startOffset skippedBytes bytesRead pieces)

def readNewLinesBlocking (access : FileAccess) (offset : Nat) (limits : ReadLimits) :
    Machine (Except ReadError ReadOutcome) :=
  match access with
  | .notFound => pure (.ok ⟨[], offset, offset, false, 0, false⟩)
  | .failed => pure (.error .access)
  | .opened file => do
      let rotated := decide (file.fileLen < offset)
      let (startOffset, skippedBytes) ←
        chooseStart limits file.fileLen (if rotated then 0 else offset)
      if file.fileLen = startOffset then
        pure (.ok ⟨[], startOffset, file.fileLen, rotated, skippedBytes, false⟩)
      else
        pure (readFrom decode file limits rotated startOffset skippedBytes)

structure FileWatcher where
  offset : Nat
  deriving DecidableEq

/-- The watcher after a call; a failed call leaves the offset as it is. -/
def FileWatcher.settle (watcher : FileWatcher) : Except ReadError ReadOutcome → FileWatcher
  | .error _ => watcher
  | .ok outcome => ⟨outcome.offset⟩

def FileWatcher.readNewLines (watcher : FileWatcher) (limits : ReadLimits)
    (access : FileAccess) : Machine (Except ReadError ReadOutcome × FileWatcher) := do
  let result ← readNewLinesBlocking decode access watcher.offset limits
  pure (result, watcher.settle result)

/-- Consecutive calls, and the outcomes of those that did not fail. -/
def FileWatcher.readAll (limits : ReadLimits) :
    FileWatcher → List FileAccess → Machine (List ReadOutcome × FileWatcher)
  | watcher, [] => pure ([], watcher)
  | watcher, access :: accesses => do
      let (result, watcher) ← watcher.readNewLines decode limits access
      let (outcomes, watcher) ← readAll limits watcher accesses
      pure (result.toOption.toList ++ outcomes, watcher)

end Read

end HiveGuard.Sources
