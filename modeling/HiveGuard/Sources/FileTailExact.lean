import HiveGuard.Sources.FileTail

/-!
# The tail of a log file is read exactly

As long as the reader keeps up, a call that starts at a line start returns whole lines,
and its new offset is a line start again.  So consecutive calls return the finished lines
of the file one after the other, and a call that does not ask for another one has
returned them all.
-/

namespace HiveGuard.Sources

open Library Library.Lines

section Read

variable (decode : List UInt8 → List Char)

/-! ## The loop -/

/-- What the loop has done with the pieces it was given. -/
structure LoopResult (maxChunkBytes bytesRead : Nat) (pieces taken rest : List (List UInt8))
    (loop : ReadLoop) : Prop where
  split : pieces = taken ++ rest
  areLines : ∀ piece ∈ taken, IsLine newline piece
  lines : loop.lines = (taken.map List.dropLast).map (lineText decode)
  bytesRead : loop.bytesRead = bytesRead + taken.flatten.length
  exhausted : loop.stoppedAtLineBoundary = true → newline ∉ rest.flatten
  full : loop.stoppedAtLineBoundary = false → maxChunkBytes ≤ loop.bytesRead

variable {pieces : List (List UInt8)}

theorem isLine_of_isLines {piece : List UInt8}
    (lines : IsLines newline (piece :: pieces)) (ends : piece.getLast? = some newline) :
    IsLine newline piece := by
  cases lines with
  | unterminated clean nonempty => exact absurd (List.mem_of_getLast? ends) clean
  | cons clean rest => exact ⟨_, clean, rfl⟩

theorem not_mem_of_isLines {piece : List UInt8}
    (lines : IsLines newline (piece :: pieces)) (open_ : piece.getLast? ≠ some newline) :
    newline ∉ (piece :: pieces).flatten := by
  cases lines with
  | unterminated clean nonempty => simpa using clean
  | cons clean rest => exact absurd List.getLast?_concat open_

theorem readLines_result (maxChunkBytes bytesRead : Nat)
    (lines : IsLines newline pieces) :
    ∃ taken rest, LoopResult decode maxChunkBytes bytesRead pieces taken rest
      (readLines decode maxChunkBytes bytesRead pieces) := by
  induction pieces generalizing bytesRead with
  | nil =>
    refine ⟨[], [], rfl, by simp, rfl, rfl, by simp, ?_⟩
    intro stopped
    exact Nat.le_of_not_lt (of_decide_eq_false stopped)
  | cons piece pieces ih =>
    rw [readLines]
    split
    · rename_i room
      split
      · rename_i ends
        rcases ih (bytesRead + piece.length) lines.tail with
          ⟨taken, rest, result⟩
        refine ⟨piece :: taken, rest, ?_, ?_, ?_, ?_, result.exhausted, result.full⟩
        · rw [List.cons_append, ← result.split]
        · rw [List.forall_mem_cons]
          exact ⟨isLine_of_isLines lines ends, result.areLines⟩
        · exact congrArg _ result.lines
        · rw [List.flatten_cons, List.length_append, ← Nat.add_assoc]
          exact result.bytesRead
      · rename_i open_
        exact ⟨[], piece :: pieces, rfl, by simp, rfl, rfl,
          fun _ => not_mem_of_isLines lines open_, by simp⟩
    · rename_i full
      exact ⟨[], piece :: pieces, rfl, by simp, rfl, rfl, by simp,
        fun _ => Nat.le_of_not_lt full⟩

/-! ## One call -/

/-- A call has returned the finished lines from its start up to its new offset, and has
left none unless it asks for another call. -/
structure ReadsOn (file : LogFile) (start : Nat) (outcome : ReadOutcome) : Prop where
  le : start ≤ outcome.offset
  lineStart : LineStart newline file.content outcome.offset
  lines : outcome.lines =
    (finished newline (between file.content start outcome.offset)).map (lineText decode)
  caughtUp : outcome.more = false → file.fault = none →
    newline ∉ between file.content outcome.offset file.fileLen

theorem drop_eq_append (file : LogFile) (start : Nat) :
    ∃ unread, file.content.drop start = file.readable.drop start ++ unread ∧
      (file.fault = none → unread = []) := by
  rcases file.readable_isPrefix.drop start with ⟨unread, split⟩
  refine ⟨unread, split.symm, ?_⟩
  intro whole
  rw [LogFile.readable_of_fault whole] at split
  simpa using split

variable {file : LogFile} {startOffset bytesRead : Nat} {pieces : List (List UInt8)}

theorem loopOutcome_readsOn (limits : ReadLimits) (rotated : Bool)
    (startOffset skippedBytes bytesRead : Nat)
    (starts : LineStart newline file.content (startOffset + bytesRead))
    (lines : IsLines newline pieces)
    (stream : file.readable.drop (startOffset + bytesRead) = pieces.flatten) :
    ReadsOn decode file (startOffset + bytesRead)
      (loopOutcome decode file limits rotated startOffset skippedBytes bytesRead pieces) := by
  rcases readLines_result decode limits.maxChunkBytes bytesRead lines with ⟨taken, rest, result⟩
  rcases drop_eq_append file (startOffset + bytesRead) with ⟨unread, split, complete⟩
  have offset_eq : (loopOutcome decode file limits rotated startOffset skippedBytes bytesRead
      pieces).offset = startOffset + bytesRead + taken.flatten.length := by
    rw [loopOutcome, result.bytesRead, Nat.add_assoc]
  rw [stream, result.split, List.flatten_append, List.append_assoc] at split
  rcases starts.add split (endsLine_flatten result.areLines) with ⟨starts', part⟩
  constructor
  · rw [offset_eq]
    exact Nat.le_add_right _ _
  · rw [offset_eq]
    exact starts'
  · rw [offset_eq, part, finished_flatten result.areLines]
    exact result.lines
  · intro noMore whole
    rw [offset_eq]
    rw [loopOutcome, Bool.and_eq_false_iff, Bool.not_eq_false', decide_eq_false_iff_not,
      result.bytesRead, ← Nat.add_assoc] at noMore
    rcases noMore with stopped | beyond
    · intro member
      have later := (between_prefix_drop _ _ _).subset member
      rw [← List.drop_drop, split, List.drop_left, complete whole, List.append_nil] at later
      exact result.exhausted stopped later
    · rw [between_of_le _ (Nat.le_of_not_lt beyond)]
      exact List.not_mem_nil

variable {limits : ReadLimits}

/-- A call that asks for another one has read a chunk. -/
theorem loopOutcome_advances (room : 0 < limits.maxChunkBytes)
    (rotated : Bool) (skippedBytes : Nat) (lines : IsLines newline pieces)
    (more : (loopOutcome decode file limits rotated startOffset skippedBytes bytesRead
      pieces).more = true) :
    startOffset < (loopOutcome decode file limits rotated startOffset skippedBytes bytesRead
      pieces).offset := by
  rcases readLines_result decode limits.maxChunkBytes bytesRead lines with ⟨taken, rest, result⟩
  rw [loopOutcome, Bool.and_eq_true, Bool.not_eq_true'] at more
  have full := result.full more.1
  change startOffset < startOffset + _
  omega

theorem readFrom_readsOn (room : 0 < limits.maxChunkBytes)
    (rotated : Bool) (starts : LineStart newline file.content startOffset) :
    ∃ outcome, readFrom decode file limits rotated startOffset 0 = .ok outcome ∧
      ReadsOn decode file startOffset outcome ∧
      (outcome.more = true → startOffset < outcome.offset) := by
  have lines := isLines_splitInclusive newline (file.readable.drop startOffset)
  refine ⟨_, rfl, ?_, ?_⟩
  · exact loopOutcome_readsOn decode limits rotated startOffset 0 0 starts lines
      (flatten_splitInclusive _ _).symm
  · exact loopOutcome_advances decode room rotated 0 lines

/-- The reader is not further behind than it may be. -/
def KeepsUp (limits : ReadLimits) (file : LogFile) (offset : Nat) : Prop :=
  limits.maxLagBytes = 0 ∨ file.fileLen - offset ≤ limits.maxLagBytes

variable {offset start : Nat}

theorem chooseStart_of_keepsUp
    (keepsUp : KeepsUp limits file offset) :
    chooseStart limits file.fileLen offset = pure (offset, 0) := by
  rw [chooseStart, if_neg]
  rintro ⟨positive, exceeded⟩
  rcases keepsUp with off | near
  · omega
  · omega

variable {watcher : FileWatcher}

theorem readNewLines_of_keepsUp
    (inside : watcher.offset ≤ file.fileLen) (keepsUp : KeepsUp limits file watcher.offset) :
    let result := if file.fileLen = watcher.offset then
        .ok ⟨[], watcher.offset, file.fileLen, false, 0, false⟩
      else readFrom decode file limits false watcher.offset 0
    watcher.readNewLines decode limits (.opened file) = pure (result, watcher.settle result) := by
  have notRotated : decide (file.fileLen < watcher.offset) = false := by simpa using inside
  rw [FileWatcher.readNewLines, readNewLinesBlocking]
  simp only [notRotated, Bool.false_eq_true, if_false, chooseStart_of_keepsUp keepsUp,
    Machine.pure_bind]
  split <;> rfl

/-- A call that keeps up reads on from the offset. -/
theorem readNewLines_readsOn (room : 0 < limits.maxChunkBytes)
    (starts : LineStart newline file.content watcher.offset)
    (inside : watcher.offset ≤ file.fileLen) (keepsUp : KeepsUp limits file watcher.offset) :
    ∃ outcome, watcher.readNewLines decode limits (.opened file) =
        pure (.ok outcome, ⟨outcome.offset⟩) ∧ ReadsOn decode file watcher.offset outcome ∧
      (outcome.more = true → watcher.offset < outcome.offset) := by
  rw [readNewLines_of_keepsUp decode inside keepsUp]
  by_cases atEnd : file.fileLen = watcher.offset
  · rw [if_pos atEnd]
    refine ⟨_, rfl, ⟨le_refl _, starts, ?_, ?_⟩, by simp⟩
    · rw [between_of_le _ (le_refl _)]
      rfl
    · intro _ _
      rw [between_of_le _ (le_of_eq atEnd)]
      exact List.not_mem_nil
  · rcases readFrom_readsOn decode room false starts with ⟨outcome, read, readsOn, advances⟩
    rw [if_neg atEnd, read]
    exact ⟨outcome, rfl, readsOn, advances⟩

/-! ## Consecutive calls -/

def RunKeepsUp (limits : ReadLimits) : FileWatcher → List LogFile → Prop
  | _, [] => True
  | watcher, file :: files =>
    KeepsUp limits file watcher.offset ∧
      RunKeepsUp limits (watcher.readNewLines decode limits (.opened file)).value.2 files

/-- A run has returned the finished lines of the file from its start up to the offset,
and has left none unless its last call asks for another one. -/
structure RunReads (last : LogFile) (start : Nat) (outcomes : List ReadOutcome)
    (offset : Nat) : Prop where
  le : start ≤ offset
  lineStart : LineStart newline last.content offset
  lines : outcomes.flatMap ReadOutcome.lines =
    (finished newline (between last.content start offset)).map (lineText decode)
  caughtUp : ∀ outcome ∈ outcomes.getLast?, outcome.more = false → last.fault = none →
    newline ∉ between last.content offset last.fileLen

variable {decode}

variable {outcome : ReadOutcome}

theorem ReadsOn.single
    (reads : ReadsOn decode file start outcome) :
    RunReads decode file start [outcome] outcome.offset := by
  refine ⟨reads.le, reads.lineStart, ?_, ?_⟩
  · rw [List.flatMap_singleton]
    exact reads.lines
  · intro other same
    cases same
    exact reads.caughtUp

/-- The lines of an earlier file are those of every later one. -/
theorem ReadsOn.cons
    (reads : ReadsOn decode file start outcome) {last : LogFile} (follows : file.Follows last)
    {outcomes : List ReadOutcome} (nonempty : outcomes ≠ [])
    (run : RunReads decode last outcome.offset outcomes offset) :
    RunReads decode last start (outcome :: outcomes) offset := by
  refine ⟨reads.le.trans run.le, run.lineStart, ?_, ?_⟩
  · rw [List.flatMap_cons, reads.lines, run.lines,
      ← between_extend follows.1 reads.lineStart.1, ← List.map_append,
      ← (reads.lineStart.extend follows.1).finished_between reads.le run.le]
  · rw [List.getLast?_cons_of_ne_nil nonempty]
    exact run.caughtUp

theorem readAll_cons {next : FileWatcher} {access : FileAccess}
    (read : watcher.readNewLines decode limits access = pure (.ok outcome, next))
    (accesses : List FileAccess) :
    watcher.readAll decode limits (access :: accesses) =
      ⟨(outcome :: (next.readAll decode limits accesses).value.1,
        (next.readAll decode limits accesses).value.2),
        (next.readAll decode limits accesses).overflowed⟩ := by
  rw [FileWatcher.readAll, read, Machine.pure_bind]
  simp only [bind, pure, Bool.or_false]
  rfl

variable {limits : ReadLimits}

/-- In a run that keeps up, the calls together read on from the first offset. -/
theorem readAll_runReads (room : 0 < limits.maxChunkBytes)
    {first : LogFile} {files : List LogFile} (grows : (first :: files).Pairwise LogFile.Follows)
    (starts : LineStart newline first.content watcher.offset)
    (inside : watcher.offset ≤ first.fileLen)
    (keepsUp : RunKeepsUp decode limits watcher (first :: files)) {last : LogFile}
    (isLast : last ∈ (first :: files).getLast?) :
    let run := watcher.readAll decode limits ((first :: files).map .opened)
    run.overflowed = false ∧ run.value.1 ≠ [] ∧
      RunReads decode last watcher.offset run.value.1 run.value.2.offset := by
  induction files generalizing watcher first with
  | nil =>
    cases isLast
    rcases readNewLines_readsOn decode room starts inside keepsUp.1 with ⟨outcome, read, reads, -⟩
    rw [List.map_cons, readAll_cons read]
    exact ⟨rfl, List.cons_ne_nil _ _, reads.single⟩
  | cons second files ih =>
    rw [List.getLast?_cons_cons] at isLast
    rcases List.pairwise_cons.mp grows with ⟨follow, grows⟩
    rcases readNewLines_readsOn decode room starts inside keepsUp.1 with ⟨outcome, read, reads, -⟩
    have keepsUp' := keepsUp.2
    rw [read] at keepsUp'
    have follows := follow second List.mem_cons_self
    rcases ih grows (reads.lineStart.extend follows.1)
      (reads.lineStart.1.trans follows.2) keepsUp' isLast with ⟨clean, nonempty, run⟩
    rw [List.map_cons, readAll_cons read]
    exact ⟨clean, List.cons_ne_nil _ _,
      reads.cons (follow last (List.mem_of_getLast? isLast)) nonempty run⟩

/-- A call that leaves a finished line asks for another one. -/
theorem ReadsOn.more_of_mem
    (reads : ReadsOn decode file start outcome) (whole : file.fault = none)
    (later : outcome.offset ≤ offset) (left : newline ∈ between file.content offset file.fileLen) :
    outcome.more = true := by
  by_contra noMore
  apply reads.caughtUp (Bool.not_eq_true _ ▸ noMore) whole
  exact between_subset (List.prefix_refl _) later (le_refl _) left

/-- As long as a line that was finished at the start is left, every call moves on. -/
theorem readAll_advances (room : 0 < limits.maxChunkBytes)
    {first : LogFile} {files : List LogFile} (grows : (first :: files).Pairwise LogFile.Follows)
    (starts : LineStart newline first.content watcher.offset)
    (inside : watcher.offset ≤ first.fileLen)
    (keepsUp : RunKeepsUp decode limits watcher (first :: files))
    (whole : ∀ file ∈ first :: files, file.fault = none) (left : newline ∈ between first.content
      (watcher.readAll decode limits ((first :: files).map .opened)).value.2.offset first.fileLen) :
    watcher.offset + (first :: files).length ≤
      (watcher.readAll decode limits ((first :: files).map .opened)).value.2.offset := by
  induction files generalizing watcher first with
  | nil =>
    rcases readNewLines_readsOn decode room starts inside keepsUp.1 with
      ⟨outcome, read, reads, advances⟩
    rw [List.map_cons, readAll_cons read] at left ⊢
    exact advances (reads.more_of_mem (whole first List.mem_cons_self) (le_refl _) left)
  | cons second files ih =>
    rcases List.pairwise_cons.mp grows with ⟨follow, grows⟩
    rcases readNewLines_readsOn decode room starts inside keepsUp.1 with
      ⟨outcome, read, reads, advances⟩
    have keepsUp' := keepsUp.2
    rw [read] at keepsUp'
    have follows := follow second List.mem_cons_self
    rw [List.map_cons, readAll_cons read] at left ⊢
    have left' := between_subset follows.1 (le_refl _) (first.grown.trans follows.2) left
    have moved := ih grows (reads.lineStart.extend follows.1)
      (reads.lineStart.1.trans follows.2) keepsUp'
      (fun file member => whole file (List.mem_cons_of_mem _ member)) left'
    have step := advances (reads.more_of_mem (whole first List.mem_cons_self)
      ((Nat.le_add_right _ _).trans moved) left)
    rw [List.length_cons]
    change outcome.offset + _ ≤ _ at moved
    exact le_trans (by omega) moved

end Read

end HiveGuard.Sources
