import HiveGuard.Sources.FileTailExact

/-!
# Jumping ahead in a log file

A reader that has fallen too far behind jumps to a chunk before the end of the file.
The target can lie before the offset, which underflows the count of left-out bytes, and
it can lie inside a line that is not finished yet, which the next call then takes for a
whole one.  This module says when a jump does neither.
-/

namespace HiveGuard.Sources

open Library Library.Lines

/-- A record of a file: from a line start up to the next newline. -/
def IsRecord (content body : List UInt8) : Prop :=
  ∃ before after, content = before ++ (body ++ newline :: after) ∧
    EndsLine newline before ∧ newline ∉ body

theorem isRecord_of_mem_finished {content body : List UInt8} {start stop : Nat}
    (starts : LineStart newline content start)
    (member : body ∈ finished newline (between content start stop)) : IsRecord content body := by
  rcases mem_finished member with ⟨before, after, part, ends, clean⟩
  rcases between_prefix_drop content start stop with ⟨rest, split⟩
  refine ⟨content.take start ++ before, after ++ rest, ?_, starts.2.append ends, clean⟩
  rw [part] at split
  conv_lhs => rw [← List.take_append_drop start content, ← split]
  simp only [List.append_assoc, List.cons_append]

section Lag

variable (decode : List UInt8 → List Char) {limits : ReadLimits} {file : LogFile}

/-- All lines of an outcome are records. -/
def WholeLines (content : List UInt8) (lines : List (List Char)) : Prop :=
  ∀ line ∈ lines, ∃ body, IsRecord content body ∧ line = lineText decode body

/-- The result of a call does not corrupt the stream: nothing underflowed, the offset did
not move back, every line is a record, and the next call starts at a line start again. -/
structure Uncorrupted (file : LogFile) (offset : Nat)
    (result : Machine (Except ReadError ReadOutcome × FileWatcher)) : Prop where
  noUnderflow : result.overflowed = false
  forward : offset ≤ result.value.2.offset
  whole : ∀ outcome, result.value.1 = .ok outcome → WholeLines decode file.content outcome.lines
  lineStart : LineStart newline file.content result.value.2.offset

/-- The position a jump leads to. -/
def jumpTarget (limits : ReadLimits) (file : LogFile) : Nat :=
  file.fileLen - max limits.maxChunkBytes 1

/-- The reader keeps up, or its jump leads forward and to a line start or before a newline
that can be read. -/
def JumpsSafely (limits : ReadLimits) (file : LogFile) (offset : Nat) : Prop :=
  KeepsUp limits file offset ∨ offset ≤ jumpTarget limits file ∧
    (newline ∈ file.readable.drop (jumpTarget limits file) ∨
      LineStart newline file.content (jumpTarget limits file) ∨ file.fault.isSome = true)

variable {decode}

theorem ReadsOn.wholeLines {start : Nat} {outcome : ReadOutcome}
    (reads : ReadsOn decode file start outcome) (starts : LineStart newline file.content start) :
    WholeLines decode file.content outcome.lines := by
  intro line member
  rw [reads.lines, List.mem_map] at member
  rcases member with ⟨body, member, rfl⟩
  exact ⟨body, isRecord_of_mem_finished starts member, rfl⟩

/-! ## One call -/

variable {offset : Nat}

theorem chooseStart_of_lag (lags : ¬KeepsUp limits file offset) :
    chooseStart limits file.fileLen offset =
      ⟨(jumpTarget limits file, (Machine.sub (2 ^ 64) (jumpTarget limits file) offset).value),
        (Machine.sub (2 ^ 64) (jumpTarget limits file) offset).overflowed⟩ := by
  rw [KeepsUp, not_or] at lags
  rw [chooseStart, if_pos (by omega)]
  exact congrArg _ (Bool.or_false _)

theorem jumpTarget_lt (lags : ¬KeepsUp limits file offset) :
    jumpTarget limits file < file.fileLen := by
  rw [KeepsUp, not_or] at lags
  rw [jumpTarget]
  omega

variable {watcher : FileWatcher}

theorem readNewLines_of_lag (inside : watcher.offset ≤ file.fileLen)
    (lags : ¬KeepsUp limits file watcher.offset) :
    let skipped := Machine.sub (2 ^ 64) (jumpTarget limits file) watcher.offset
    let result := readFrom decode file limits false (jumpTarget limits file) skipped.value
    watcher.readNewLines decode limits (.opened file) =
      ⟨(result, watcher.settle result), skipped.overflowed⟩ := by
  have notRotated : decide (file.fileLen < watcher.offset) = false := by simpa using inside
  have notEnd := (jumpTarget_lt lags).ne'
  rw [FileWatcher.readNewLines, readNewLinesBlocking]
  simp only [notRotated, Bool.false_eq_true, if_false, chooseStart_of_lag lags, bind, pure,
    if_neg notEnd, Bool.or_false]

theorem dropPartial_of_mem (file : LogFile) {stream : List UInt8} (present : newline ∈ stream) :
    ∃ piece pieces, dropPartial file (splitInclusive newline stream) =
        .ok (some (piece.length, pieces)) ∧
      IsLine newline piece ∧ IsLines newline pieces ∧ stream = piece ++ pieces.flatten := by
  rcases splitInclusive_eq_cons present with ⟨piece, pieces, split, isLine, lines, whole⟩
  refine ⟨piece, pieces, ?_, isLine, lines, whole⟩
  rcases isLine with ⟨body, -, rfl⟩
  rw [split, dropPartial, if_pos List.getLast?_concat]

theorem dropPartial_of_not_mem (file : LogFile) {stream : List UInt8} (absent : newline ∉ stream) :
    dropPartial file (splitInclusive newline stream) =
      if file.fault.isSome then .error .reading else .ok none := by
  cases split : splitInclusive newline stream with
  | nil => rw [dropPartial]
  | cons piece pieces =>
    rw [dropPartial, if_neg]
    intro ends
    apply absent
    rw [← flatten_splitInclusive newline stream, split, List.flatten_cons]
    exact List.mem_append_left _ (List.mem_of_getLast? ends)

variable {target skipped : Nat}

/-- A jump that finds a newline reads on behind it. -/
theorem readFrom_of_mem (limits : ReadLimits) (rotated : Bool) (jumped : 0 < skipped)
    (present : newline ∈ file.readable.drop target) :
    ∃ outcome start, readFrom decode file limits rotated target skipped = .ok outcome ∧
      target ≤ start ∧ LineStart newline file.content start ∧
      ReadsOn decode file start outcome := by
  rcases dropPartial_of_mem file present with
    ⟨piece, pieces, dropped, isLine, lines, stream⟩
  rcases drop_eq_append file target with ⟨unread, split, -⟩
  rw [stream, List.append_assoc] at split
  have starts := lineStart_add_line split isLine
  have rest : file.readable.drop (target + piece.length) = pieces.flatten := by
    rw [← List.drop_drop, stream, List.drop_left]
  refine ⟨_, target + piece.length, ?_, Nat.le_add_right _ _, starts,
    loopOutcome_readsOn decode limits rotated target skipped piece.length starts lines rest⟩
  rw [readFrom, if_pos jumped, dropped]
  rfl

/-- A jump that finds no newline stays where it has led. -/
theorem readFrom_of_not_mem (limits : ReadLimits) (rotated : Bool) (jumped : 0 < skipped)
    (absent : newline ∉ file.readable.drop target) :
    readFrom decode file limits rotated target skipped = if file.fault.isSome then .error .reading
      else .ok ⟨[], target, file.fileLen, rotated, skipped, false⟩ := by
  rw [readFrom, if_pos jumped, dropPartial_of_not_mem file absent]
  split <;> rfl

theorem ReadsOn.uncorrupted {start : Nat} {outcome : ReadOutcome}
    (reads : ReadsOn decode file start outcome) (starts : LineStart newline file.content start)
    (later : offset ≤ start) :
    Uncorrupted decode file offset ⟨(.ok outcome, ⟨outcome.offset⟩), false⟩ := by
  refine ⟨rfl, later.trans reads.le, ?_, reads.lineStart⟩
  intro other same
  cases same
  exact reads.wholeLines starts

/-- A jump forward leaves the stream uncorrupted if it finds a newline, if it has led to
a line start, or if reading failed. -/
theorem readFrom_uncorrupted_iff (limits : ReadLimits)
    (starts : LineStart newline file.content watcher.offset) (forward : watcher.offset ≤ target)
    (jumped : 0 < skipped) :
    Uncorrupted decode file watcher.offset ⟨(readFrom decode file limits false target skipped,
          watcher.settle (readFrom decode file limits false target skipped)), false⟩ ↔
      newline ∈ file.readable.drop target ∨ LineStart newline file.content target ∨
        file.fault.isSome = true := by
  by_cases present : newline ∈ file.readable.drop target
  · rcases readFrom_of_mem limits false jumped present with
      ⟨outcome, start, read, later, starts', reads⟩
    rw [read]
    exact iff_of_true (reads.uncorrupted starts' (forward.trans later)) (.inl present)
  · rw [or_iff_right present, readFrom_of_not_mem limits false jumped present]
    by_cases faulty : file.fault.isSome = true
    · rw [if_pos faulty]
      refine iff_of_true ⟨rfl, le_refl _, ?_, starts⟩ (.inr faulty)
      intro outcome same
      cases same
    · rw [if_neg faulty, or_iff_left faulty]
      constructor
      · intro uncorrupted
        exact uncorrupted.lineStart
      · intro starts'
        refine ⟨rfl, forward, ?_, starts'⟩
        intro outcome same
        cases same
        exact List.forall_mem_nil _

/-- Exactly the safe jumps leave the stream uncorrupted. -/
theorem readNewLines_uncorrupted_iff (room : 0 < limits.maxChunkBytes)
    (starts : LineStart newline file.content watcher.offset)
    (inside : watcher.offset ≤ file.fileLen) :
    Uncorrupted decode file watcher.offset (watcher.readNewLines decode limits (.opened file)) ↔
      JumpsSafely limits file watcher.offset := by
  by_cases keepsUp : KeepsUp limits file watcher.offset
  · rcases readNewLines_readsOn decode room starts inside keepsUp with ⟨outcome, read, reads, -⟩
    rw [read]
    exact iff_of_true (reads.uncorrupted starts (le_refl _)) (.inl keepsUp)
  · rw [JumpsSafely, or_iff_right keepsUp, readNewLines_of_lag inside keepsUp]
    by_cases forward : watcher.offset ≤ jumpTarget limits file
    · have noUnderflow :=
        (Machine.overflowed_sub_eq_false_iff (2 ^ 64) _ _).mpr forward
      have skipped_eq := Machine.val_sub_of_le forward
        ((jumpTarget_lt keepsUp).trans file.addressable)
      simp only [noUnderflow, skipped_eq]
      rw [and_iff_right forward]
      rcases Nat.eq_or_lt_of_le forward with same | jumped
      · rcases readFrom_readsOn decode room false starts with ⟨outcome, read, reads, -⟩
        rw [← same, Nat.sub_self, read]
        exact iff_of_true (reads.uncorrupted starts (le_refl _)) (.inr (.inl starts))
      · exact readFrom_uncorrupted_iff limits starts forward (Nat.sub_pos_of_lt jumped)
    · have underflow : (Machine.sub (2 ^ 64) (jumpTarget limits file) watcher.offset).overflowed =
          true := by
        rw [← Bool.not_eq_false, Machine.overflowed_sub_eq_false_iff]
        exact forward
      refine iff_of_false ?_ fun safe => forward safe.1
      intro uncorrupted
      rw [uncorrupted.noUnderflow] at underflow
      cases underflow

/-! ## Consecutive calls -/

variable (decode limits)

/-- Every call of a run leaves the stream uncorrupted. -/
def RunUncorrupted : FileWatcher → List LogFile → Prop
  | _, [] => True
  | watcher, file :: files =>
    Uncorrupted decode file watcher.offset (watcher.readNewLines decode limits (.opened file)) ∧
      RunUncorrupted (watcher.readNewLines decode limits (.opened file)).value.2 files

def RunJumpsSafely : FileWatcher → List LogFile → Prop
  | _, [] => True
  | watcher, file :: files =>
    JumpsSafely limits file watcher.offset ∧
      RunJumpsSafely (watcher.readNewLines decode limits (.opened file)).value.2 files

variable {decode limits}

/-- In a run on a growing file that starts at a line start, all calls leave the stream
uncorrupted exactly if all jumps are safe. -/
theorem runUncorrupted_iff_jumpsSafely (chunk : 65536 ≤ limits.maxChunkBytes)
    {watcher : FileWatcher} {files : List LogFile} (grows : files.Pairwise LogFile.Follows)
    (starts : ∀ first ∈ files.head?,
      LineStart newline first.content watcher.offset ∧ watcher.offset ≤ first.fileLen) :
    RunUncorrupted decode limits watcher files ↔ RunJumpsSafely decode limits watcher files := by
  induction files generalizing watcher with
  | nil => exact Iff.rfl
  | cons file files ih =>
    rcases List.pairwise_cons.mp grows with ⟨follow, grows⟩
    rcases starts file rfl with ⟨starts, inside⟩
    rw [RunUncorrupted, RunJumpsSafely,
      ← readNewLines_uncorrupted_iff (by omega) starts inside]
    apply and_congr_right
    intro uncorrupted
    apply ih grows
    intro next member
    have follows := follow next (List.mem_of_head? member)
    have starts' := uncorrupted.lineStart
    exact ⟨starts'.extend follows.1, starts'.1.trans follows.2⟩

end Lag

/-- A jump into a file of empty lines. -/
theorem runUncorrupted_at_empty_lines :
    let decode := List.map fun byte : UInt8 => Char.ofNat byte.toNat
    let file := LogFile.still (List.replicate 65537 newline)
      (by rw [List.length_replicate]; decide)
    RunUncorrupted decode ⟨65536, 65536⟩ ⟨0⟩ [file] := by
  intro decode file
  refine (runUncorrupted_iff_jumpsSafely (le_refl _) (List.pairwise_singleton _ _) ?_).mpr
    ⟨.inr ⟨Nat.zero_le _, .inl ?_⟩, trivial⟩
  · intro first member
    cases member
    exact ⟨lineStart_zero _ _, Nat.zero_le _⟩
  · change newline ∈ (List.replicate 65537 newline).drop _
    have target : jumpTarget ⟨65536, 65536⟩ file = 1 := by
      rw [jumpTarget]
      change (List.replicate 65537 newline).length - _ = 1
      rw [List.length_replicate]
      rfl
    rw [target, List.drop_replicate, List.mem_replicate]
    exact ⟨by decide, rfl⟩

section PartOfLine

variable (decode : List UInt8 → List Char) {limits : ReadLimits}

/-- A long line that is not finished yet, and the same line finished. -/
def unfinishedLine (limits : ReadLimits) : List UInt8 :=
  List.replicate (limits.maxLagBytes + 1) 120

theorem newline_not_mem_replicate (count : Nat) : newline ∉ List.replicate count 120 := by
  rw [List.mem_replicate]
  rintro ⟨-, same⟩
  exact absurd same (by decide)

/-- The only record of the finished line is the whole of it. -/
theorem isRecord_finishedLine {body : List UInt8}
    (record : IsRecord (unfinishedLine limits ++ [newline]) body) :
    body = unfinishedLine limits := by
  rcases record with ⟨before, after, split, ends, clean⟩
  have counts := congrArg (List.count newline) split
  simp only [List.count_append, List.count_cons_self, List.count_nil,
    List.count_eq_zero_of_not_mem (newline_not_mem_replicate _), unfinishedLine] at counts
  have nothing : before = [] := by
    by_contra nonempty
    have member : newline ∈ before := by
      have isLast := List.getLast?_eq_some_getLast nonempty
      exact List.mem_of_getLast? (ends _ isLast ▸ isLast)
    have := List.count_pos_iff.mpr member
    omega
  rw [nothing, List.nil_append] at split
  exact ((append_separator_inj (newline_not_mem_replicate _) clean).mp split).1.symm

variable (small : (unfinishedLine limits).length < 2 ^ 64)
variable (small' : (unfinishedLine limits ++ [newline]).length < 2 ^ 64)

theorem length_unfinishedLine (limits : ReadLimits) :
    (unfinishedLine limits).length = limits.maxLagBytes + 1 :=
  List.length_replicate

/-- The first call jumps into the line. -/
theorem jump_into_unfinishedLine (room : 0 < limits.maxChunkBytes)
    (wider : limits.maxChunkBytes < limits.maxLagBytes) :
    ∃ outcome, (FileWatcher.mk 0).readNewLines decode limits
        (.opened (.still (unfinishedLine limits) small)) = pure (.ok outcome, ⟨outcome.offset⟩) ∧
      outcome.lines = [] ∧ outcome.offset = limits.maxLagBytes + 1 - limits.maxChunkBytes := by
  have length_eq := length_unfinishedLine limits
  have fileLen_eq : (LogFile.still _ small).fileLen = limits.maxLagBytes + 1 := length_eq
  have target_eq : jumpTarget limits (.still _ small) =
      limits.maxLagBytes + 1 - limits.maxChunkBytes := by
    rw [jumpTarget, fileLen_eq, Nat.max_eq_left room]
  have lags : ¬KeepsUp limits (.still _ small) 0 := by
    rw [KeepsUp, fileLen_eq]
    omega
  have absent :
      newline ∉ (LogFile.still _ small).readable.drop (jumpTarget limits (.still _ small)) :=
    fun member => newline_not_mem_replicate _ (List.mem_of_mem_drop member)
  have jumped : 0 < (Machine.sub (2 ^ 64) (jumpTarget limits (.still _ small)) 0).value := by
    rw [Machine.val_sub_of_le (Nat.zero_le _) (by rw [target_eq]; omega), target_eq]
    omega
  rw [readNewLines_of_lag (Nat.zero_le _) lags]
  simp only [readFrom_of_not_mem limits false jumped absent]
  exact ⟨_, rfl, rfl, target_eq⟩

theorem readLines_line {maxChunkBytes : Nat} (room : 0 < maxChunkBytes) {body : List UInt8}
    (clean : newline ∉ body) :
    (readLines decode maxChunkBytes 0 (splitInclusive newline (body ++ [newline]))).lines =
      [lineText decode body] := by
  rw [splitInclusive_line clean, readLines, if_pos room, if_pos List.getLast?_concat]
  simp only [List.dropLast_concat]
  rfl

/-- The second call takes the rest of the line for a line. -/
theorem read_rest_of_line (room : 0 < limits.maxChunkBytes)
    (wider : limits.maxChunkBytes < limits.maxLagBytes) :
    ∃ outcome next, (FileWatcher.mk (limits.maxLagBytes + 1 - limits.maxChunkBytes)).readNewLines
        decode limits (.opened (.still (unfinishedLine limits ++ [newline]) small')) =
      pure (.ok outcome, next) ∧
      outcome.lines = [lineText decode (List.replicate limits.maxChunkBytes 120)] := by
  have fileLen_eq : (LogFile.still _ small').fileLen = limits.maxLagBytes + 2 := by
    change (unfinishedLine limits ++ [newline]).length = _
    rw [List.length_append, length_unfinishedLine, List.length_singleton]
  have keepsUp : KeepsUp limits (.still _ small')
      (limits.maxLagBytes + 1 - limits.maxChunkBytes) := by
    rw [KeepsUp, fileLen_eq]
    omega
  have rest : (unfinishedLine limits ++ [newline]).drop
      (limits.maxLagBytes + 1 - limits.maxChunkBytes) =
        List.replicate limits.maxChunkBytes 120 ++ [newline] := by
    rw [List.drop_append_of_le_length (by rw [length_unfinishedLine]; omega), unfinishedLine,
      List.drop_replicate]
    congr 2
    omega
  rw [readNewLines_of_keepsUp decode (by rw [fileLen_eq]; change _ - _ ≤ _; omega) keepsUp,
    if_neg (by rw [fileLen_eq]; change _ ≠ _ - _; omega)]
  refine ⟨_, _, rfl, ?_⟩
  change (readLines decode limits.maxChunkBytes 0 (splitInclusive newline
    ((unfinishedLine limits ++ [newline]).drop _))).lines = _
  rw [rest, readLines_line decode room (newline_not_mem_replicate _)]

/-- If a jump may be followed by a call that keeps up, the part of a line in which the jump
has ended is returned as a line. -/
theorem jump_into_line (room : 0 < limits.maxChunkBytes)
    (wider : limits.maxChunkBytes < limits.maxLagBytes) :
    ((FileWatcher.mk 0).readAll decode limits [.opened (.still (unfinishedLine limits) small),
        .opened (.still (unfinishedLine limits ++ [newline]) small')]).value.1.flatMap
      ReadOutcome.lines = [lineText decode (List.replicate limits.maxChunkBytes 120)] := by
  rcases jump_into_unfinishedLine decode small room wider with ⟨first, jumped, none_, offset_eq⟩
  rcases read_rest_of_line decode small' room wider with ⟨outcome, next, read, lines⟩
  rw [← offset_eq] at read
  rw [readAll_cons jumped, readAll_cons read, FileWatcher.readAll]
  simp [none_, lines]

end PartOfLine

/-- Both ways a jump goes wrong.  With a lag limit below the chunk, two unread bytes make
the count of left-out bytes underflow; without overflow checks a line before the offset is
returned again.  With a lag limit above the chunk, part of a line is returned. -/
theorem skipping_ahead_corrupts :
    let decode := List.map fun byte : UInt8 => Char.ofNat byte.toNat
    let backward := (FileWatcher.mk 4).readNewLines decode ⟨65536, 1⟩
      (.opened (.still [97, 10, 98, 10, 99, 10] (by decide)))
    let limits : ReadLimits := ⟨65536, 65537⟩
    let inside := (FileWatcher.mk 0).readAll decode limits
      [.opened (.still (unfinishedLine limits) (by rw [length_unfinishedLine]; decide)),
        .opened (.still (unfinishedLine limits ++ [newline])
          (by rw [List.length_append, length_unfinishedLine]; decide))]
    backward.overflowed = true ∧
      backward.value.1.toOption.map ReadOutcome.lines = some [['b'], ['c']] ∧
      inside.value.1.flatMap ReadOutcome.lines = [lineText decode (List.replicate 65536 120)] ∧
      ¬IsRecord (unfinishedLine limits ++ [newline]) (List.replicate 65536 120) := by
  intro decode backward limits inside
  refine ⟨by decide +kernel, by decide +kernel, ?_, ?_⟩
  · exact jump_into_line decode _ _ (by decide) (by decide)
  · intro record
    have same := congrArg List.length (isRecord_finishedLine record)
    rw [length_unfinishedLine, List.length_replicate] at same
    exact absurd same (by decide)

end HiveGuard.Sources
