import HiveGuard.Sources.FileDrain
import HiveGuard.Sources.FileLag

/-!
# Interrupting a file source

Shutdown and a closed sink stop the file source inside a batch, and the offset goes back to
where the batch was started.  A log can also be truncated and written anew; the reader notices
that only while the file is shorter than the offset.  This module follows which lines of the
current file have been handed on, and shows that reading on from the offset that was kept finds
all the others, as long as a rewritten file is noticed while it is short, the reader keeps up,
and no restart takes an offset of zero for none.
-/

namespace HiveGuard.Sources

open Library Library.Lines

/-! ## Where a call starts -/

section Start

variable (limits : ReadLimits) (content : List UInt8) (offset : Nat)

/-- The offset, or the start of a file that has become shorter. -/
def baseOf : Nat :=
  if content.length < offset then 0 else offset

/-- The reader has fallen too far behind. -/
def lags : Bool :=
  decide (0 < limits.maxLagBytes ∧ limits.maxLagBytes < content.length - baseOf content offset)

/-- Where such a reader goes to. -/
def targetOf : Nat :=
  content.length - max limits.maxChunkBytes 1

/-- The reader goes to another position than the one it is at. -/
def jumps : Bool :=
  lags limits content offset && decide (targetOf limits content ≠ baseOf content offset)

/-- The position behind the next newline, if there is one. -/
def behindNewline (position : Nat) : Nat :=
  if newline ∈ content.drop position then
    position + ((content.drop position).takeWhile (· ≠ newline)).length + 1
  else
    position

/-- The position of the first line that a call can return. -/
def startOf : Nat :=
  if jumps limits content offset then behindNewline content (targetOf limits content)
  else baseOf content offset

/-- Jumping back makes the count of left-out bytes underflow. -/
def underflows : Bool :=
  lags limits content offset && decide (targetOf limits content < baseOf content offset)

end Start

/-! ## One call -/

section Call

variable (decode : List UInt8 → List Char) (limits : ReadLimits)

/-- What a call on a file at rest has done: it has taken whole lines from its start on. -/
structure CallTakes (content : List UInt8) (offset : Nat) (outcome : ReadOutcome)
    (taken rest : List (List UInt8)) : Prop where
  split : splitInclusive newline (content.drop (startOf limits content offset)) = taken ++ rest
  areLines : ∀ piece ∈ taken, IsLine newline piece
  lines : outcome.lines = (taken.map List.dropLast).map (lineText decode)
  offset_eq : outcome.offset = startOf limits content offset + taken.flatten.length
  more : newline ∈ rest.flatten → 0 < limits.maxChunkBytes → taken ≠ []

variable {decode limits} {content : List UInt8} {addressable : content.length < 2 ^ 64}
  {offset : Nat}

theorem behindNewline_eq {position : Nat} {piece back : List UInt8} (isLine : IsLine newline piece)
    (split : content.drop position = piece ++ back) :
    behindNewline content position = position + piece.length := by
  obtain ⟨body, clean, rfl⟩ := isLine
  rw [behindNewline, split, if_pos (by simp)]
  have body_eq : ((body ++ [newline] ++ back).takeWhile (· ≠ newline)) = body := by
    rw [List.append_assoc, List.takeWhile_append_of_pos]
    · simp
    · intro byte member
      rw [decide_eq_true_eq]
      rintro rfl
      exact clean member
  rw [body_eq, List.length_append, List.length_singleton, Nat.add_assoc]

theorem jumps_eq_false_of_not_lags (keepsUp : lags limits content offset = false) :
    jumps limits content offset = false := by
  rw [jumps, keepsUp, Bool.false_and]

/-- Behind the new offset stands what was not taken. -/
theorem CallTakes.drop_offset {outcome : ReadOutcome} {taken rest : List (List UInt8)}
    (takes : CallTakes decode limits content offset outcome taken rest) :
    content.drop outcome.offset = rest.flatten := by
  have stream : content.drop (startOf limits content offset) = taken.flatten ++ rest.flatten := by
    rw [← flatten_splitInclusive newline (content.drop (startOf limits content offset)),
      takes.split, List.flatten_append]
  rw [takes.offset_eq, ← List.drop_drop, stream, List.drop_left]

theorem CallTakes.length_pos {outcome : ReadOutcome} {taken rest : List (List UInt8)}
    (takes : CallTakes decode limits content offset outcome taken rest)
    (more : newline ∈ rest.flatten) (room : 0 < limits.maxChunkBytes) :
    0 < taken.flatten.length := by
  obtain ⟨piece, member⟩ := List.exists_mem_of_ne_nil taken (takes.more more room)
  obtain ⟨body, -, rfl⟩ := takes.areLines piece member
  exact List.length_pos_of_mem (List.mem_flatten.mpr ⟨_, member, List.mem_append_right _
    (List.mem_singleton_self newline)⟩)

/-- Without a jump the loop starts at the base. -/
theorem loopOutcome_takes (rotated : Bool) (stays : jumps limits content offset = false) :
    ∃ taken rest, CallTakes decode limits content offset
      (loopOutcome decode (.still content addressable) limits rotated (baseOf content offset) 0 0
        (splitInclusive newline (content.drop (baseOf content offset)))) taken rest := by
  have start_eq : startOf limits content offset = baseOf content offset := by
    rw [startOf, stays, if_neg Bool.false_ne_true]
  have lines := isLines_splitInclusive newline (content.drop (baseOf content offset))
  obtain ⟨taken, rest, result⟩ := readLines_result decode limits.maxChunkBytes 0 lines
  have full : newline ∈ rest.flatten → limits.maxChunkBytes ≤ taken.flatten.length := by
    intro left
    have notStopped : (readLines decode limits.maxChunkBytes 0
        (splitInclusive newline (content.drop (baseOf content offset)))).stoppedAtLineBoundary =
          false :=
      Bool.eq_false_of_not_eq_true fun stopped => result.exhausted stopped left
    have filled := result.full notStopped
    rw [result.bytesRead] at filled
    omega
  refine ⟨taken, rest, ⟨?_, result.areLines, result.lines, ?_, ?_⟩⟩
  · rw [start_eq, result.split]
  · rw [start_eq, loopOutcome, result.bytesRead, Nat.zero_add]
  · rintro left room rfl
    have filled := full left
    rw [List.flatten_nil, List.length_nil] at filled
    omega

/-- A jump reads all whole lines behind the next newline. -/
theorem readFrom_takes {skipped : Nat} (rotated : Bool)
    (jumped : jumps limits content offset = true) (positive : 0 < skipped) :
    ∃ outcome taken rest, readFrom decode (.still content addressable) limits rotated
        (targetOf limits content) skipped = .ok outcome ∧
      CallTakes decode limits content offset outcome taken rest := by
  have start_eq : startOf limits content offset =
      behindNewline content (targetOf limits content) := by
    rw [startOf, jumped, if_pos rfl]
  by_cases present : newline ∈ content.drop (targetOf limits content)
  · obtain ⟨piece, pieces, dropped, isLine, lines, stream⟩ :=
      dropPartial_of_mem (.still content addressable) present
    obtain ⟨taken, rest, result⟩ := readLines_result decode limits.maxChunkBytes piece.length lines
    have behind := behindNewline_eq isLine stream
    have split : splitInclusive newline (content.drop (startOf limits content offset)) =
        taken ++ rest := by
      rw [start_eq, behind, ← result.split, ← List.drop_drop, stream, List.drop_left,
        lines.splitInclusive_flatten]
    have lengths := congrArg List.length stream
    rw [result.split, List.flatten_append, List.length_drop, List.length_append,
      List.length_append, targetOf] at lengths
    have pieceLength : 0 < piece.length := by
      obtain ⟨body, -, rfl⟩ := isLine
      simp
    have all : newline ∉ rest.flatten := by
      intro left
      have notStopped : (readLines decode limits.maxChunkBytes piece.length
          pieces).stoppedAtLineBoundary = false :=
        Bool.eq_false_of_not_eq_true fun stopped => result.exhausted stopped left
      have filled := result.full notStopped
      rw [result.bytesRead] at filled
      have remaining := List.length_pos_of_mem left
      omega
    refine ⟨loopOutcome decode (.still content addressable) limits rotated
      (targetOf limits content) skipped piece.length pieces, taken, rest, ?_,
      ⟨split, result.areLines, result.lines, ?_, ?_⟩⟩
    · rw [readFrom, if_pos positive]
      change (dropPartial _ (splitInclusive newline (content.drop _)) >>= _) = _
      rw [dropped]
      rfl
    · rw [start_eq, behind, loopOutcome, result.bytesRead, Nat.add_assoc]
    · exact fun left => absurd left all
  · have start_eq' : startOf limits content offset = targetOf limits content := by
      rw [start_eq, behindNewline, if_neg present]
    have none_left : newline ∉
        (splitInclusive newline (content.drop (targetOf limits content))).flatten := by
      rw [flatten_splitInclusive]
      exact present
    refine ⟨_, [], splitInclusive newline (content.drop (targetOf limits content)),
      readFrom_of_not_mem limits rotated positive present, ⟨?_, ?_, rfl, ?_, ?_⟩⟩
    · rw [start_eq']
      rfl
    · exact List.forall_mem_nil _
    · rw [start_eq']
      rfl
    · exact fun left => absurd left none_left

theorem baseOf_le (content : List UInt8) (offset : Nat) :
    baseOf content offset ≤ content.length := by
  rw [baseOf]
  split
  · exact Nat.zero_le _
  · omega

variable (limits content offset)

/-- Where the loop of a call starts, and how many bytes it believes to have left out. -/
def chosen : Nat × Nat :=
  if lags limits content offset then
    (targetOf limits content,
      (Machine.sub (2 ^ 64) (targetOf limits content) (baseOf content offset)).value)
  else
    (baseOf content offset, 0)

variable {limits content offset}

theorem chooseStart_eq : chooseStart limits content.length (baseOf content offset) =
    ⟨chosen limits content offset, underflows limits content offset⟩ := by
  cases isLagging : lags limits content offset with
  | false =>
    have keepsUp := of_decide_eq_false isLagging
    rw [chooseStart, if_neg keepsUp, chosen, underflows, isLagging]
    rfl
  | true =>
    have behind := of_decide_eq_true isLagging
    rw [chooseStart, if_pos behind, chosen, underflows, isLagging]
    exact congrArg _ (Bool.or_false _)

theorem chosen_of_stays (addressable : content.length < 2 ^ 64)
    (stays : jumps limits content offset = false) :
    chosen limits content offset = (baseOf content offset, 0) := by
  rw [chosen]
  split
  · rename_i isLagging
    rw [jumps, isLagging, Bool.true_and, decide_eq_false_iff_not, not_not] at stays
    rw [stays, Machine.val_sub_of_le (Nat.le_refl _)
      ((baseOf_le content offset).trans_lt addressable), Nat.sub_self]
  · rfl

/-- A jump leads to a position before the end, and the count of left-out bytes is not zero,
even where it has wrapped around. -/
theorem chosen_of_jumps (addressable : content.length < 2 ^ 64)
    (jumped : jumps limits content offset = true) :
    ∃ skipped, chosen limits content offset = (targetOf limits content, skipped) ∧ 0 < skipped ∧
      targetOf limits content < content.length := by
  rw [jumps, Bool.and_eq_true, decide_eq_true_eq] at jumped
  have behind := of_decide_eq_true jumped.1
  have before : targetOf limits content < content.length := by
    rw [targetOf]
    omega
  have within := baseOf_le content offset
  refine ⟨_, by rw [chosen, if_pos jumped.1], ?_, before⟩
  change 0 < (targetOf limits content + (2 ^ 64 - baseOf content offset)) % 2 ^ 64
  omega

/-- The spec of a call on a file at rest. -/
theorem readNewLines_takes (decode : List UInt8 → List Char) (limits : ReadLimits)
    (content : List UInt8) (addressable : content.length < 2 ^ 64) (offset : Nat) :
    ∃ outcome taken rest,
      (FileWatcher.mk offset).readNewLines decode limits (.opened (.still content addressable)) =
          ⟨(.ok outcome, ⟨outcome.offset⟩), underflows limits content offset⟩ ∧
        CallTakes decode limits content offset outcome taken rest := by
  let rotated := decide (content.length < offset)
  have unfolded : (FileWatcher.mk offset).readNewLines decode limits
      (.opened (.still content addressable)) =
        let result := if content.length = (chosen limits content offset).1 then
            .ok ⟨[], (chosen limits content offset).1, content.length, rotated,
              (chosen limits content offset).2, false⟩
          else readFrom decode (.still content addressable) limits rotated
            (chosen limits content offset).1 (chosen limits content offset).2
        ⟨(result, (FileWatcher.mk offset).settle result), underflows limits content offset⟩ := by
    have base_eq : (if decide (content.length < offset) = true then 0 else offset) =
        baseOf content offset := by
      rw [baseOf]
      simp only [decide_eq_true_eq]
    rw [FileWatcher.readNewLines, readNewLinesBlocking]
    change ((chooseStart limits content.length
      (if decide (content.length < offset) = true then 0 else offset) >>= _) >>= _) = _
    rw [base_eq, chooseStart_eq]
    simp only [bind, pure]
    by_cases atEnd : content.length = (chosen limits content offset).1
    · have atEnd' : (LogFile.still content addressable).fileLen =
          (chosen limits content offset).1 := atEnd
      simp only [if_pos atEnd, if_pos atEnd', Bool.or_false]
      rfl
    · have notAtEnd' : ¬(LogFile.still content addressable).fileLen =
          (chosen limits content offset).1 := atEnd
      simp only [if_neg atEnd, if_neg notAtEnd', Bool.or_false]
      rfl
  rw [unfolded]
  cases jumped : jumps limits content offset with
  | false =>
    rw [chosen_of_stays addressable jumped]
    by_cases atEnd : content.length = baseOf content offset
    · simp only [if_pos atEnd]
      have start_eq : startOf limits content offset = content.length := by
        rw [startOf, jumped, if_neg Bool.false_ne_true, atEnd]
      refine ⟨_, [], [], rfl, ⟨?_, ?_, rfl, ?_, ?_⟩⟩
      · rw [start_eq, List.drop_length]
        rfl
      · exact List.forall_mem_nil _
      · rw [start_eq]
        exact atEnd.symm
      · exact fun left => absurd left List.not_mem_nil
    · obtain ⟨taken, rest, takes⟩ := @loopOutcome_takes decode limits content addressable offset
        rotated jumped
      simp only [if_neg atEnd]
      exact ⟨_, taken, rest, rfl, takes⟩
  | true =>
    obtain ⟨skipped, chosen_eq, positive, before⟩ := chosen_of_jumps addressable jumped
    obtain ⟨outcome, taken, rest, read, takes⟩ :=
      @readFrom_takes decode limits content addressable offset skipped rotated jumped positive
    simp only [chosen_eq, if_neg before.ne', read]
    exact ⟨outcome, taken, rest, rfl, takes⟩

end Call

/-! ## Reading on -/

/-- A file that is tailed, the offset that is kept for it, and the positions of the lines of
the current file that were handed on. -/
structure TailState where
  content : List UInt8
  addressable : content.length < 2 ^ 64
  offset : Nat
  delivered : List Nat

namespace TailState

section ReadingOn

variable (decode : List UInt8 → List Char) (limits : ReadLimits) (state : TailState)

def call : Machine (Except ReadError ReadOutcome × FileWatcher) :=
  (FileWatcher.mk state.offset).readNewLines decode limits
    (.opened (.still state.content state.addressable))

/-- The texts that the call returns. -/
def lines : List (List Char) :=
  (state.call decode limits).value.1.toOption.elim [] ReadOutcome.lines

/-- The lines of the file that the call returns, with their positions. -/
def found : List (Nat × List UInt8) :=
  let start := startOf limits state.content state.offset
  (positioned List.length start (splitInclusive newline (state.content.drop start))).take
    (state.lines decode limits).length

/-- The state behind the call. -/
def next : TailState :=
  { state with offset := (state.call decode limits).value.2.offset }

/-- What so many further calls return. -/
def reading : Nat → TailState → List (Nat × List UInt8)
  | 0, _ => []
  | calls + 1, state => state.found decode limits ++ reading calls (state.next decode limits)

/-- None of the calls overflows. -/
def clean : Nat → TailState → Bool
  | 0, _ => true
  | calls + 1, state =>
    !(state.call decode limits).overflowed && clean calls (state.next decode limits)

/-- Reading on from the kept offset returns every complete line that was not handed on. -/
def Recovers (overflowChecks : Bool) (state : TailState) : Prop :=
  ∃ calls, (overflowChecks = true → state.clean decode limits calls = true) ∧
    ∀ line ∈ linesFrom newline state.content 0, line.1 ∉ state.delivered →
      line ∈ state.reading decode limits calls

variable {decode limits state} {content : List UInt8} {offset : Nat}

theorem call_takes (state : TailState) : ∃ outcome taken rest,
    state.call decode limits = ⟨(.ok outcome, ⟨outcome.offset⟩),
        underflows limits state.content state.offset⟩ ∧
      CallTakes decode limits state.content state.offset outcome taken rest ∧
      state.found decode limits =
        positioned List.length (startOf limits state.content state.offset) taken := by
  obtain ⟨outcome, taken, rest, called, takes⟩ :=
    readNewLines_takes decode limits state.content state.addressable state.offset
  change state.call decode limits = _ at called
  refine ⟨outcome, taken, rest, called, takes, ?_⟩
  have lines_eq : state.lines decode limits = outcome.lines := by
    rw [lines, called]
    rfl
  have sameLength : (state.lines decode limits).length =
      (positioned List.length (startOf limits state.content state.offset) taken).length := by
    rw [lines_eq, takes.lines, List.length_map, List.length_map,
      ← List.length_map (f := Prod.snd), map_snd_positioned]
  rw [found, takes.split, positioned_append, sameLength, List.take_left]

/-- The lines found are those whose texts the call returns. -/
theorem map_found (state : TailState) :
    (state.found decode limits).map (fun line => lineText decode line.2.dropLast) =
      state.lines decode limits := by
  obtain ⟨outcome, taken, rest, called, takes, found_eq⟩ := @call_takes decode limits state
  have texts : (positioned List.length (startOf limits state.content state.offset) taken).map
      (fun line => lineText decode line.2.dropLast) =
        (taken.map List.dropLast).map (lineText decode) := by
    rw [List.map_map, ← @map_snd_positioned _ List.length
      (startOf limits state.content state.offset) taken, List.map_map, map_snd_positioned]
    rfl
  rw [found_eq, texts, ← takes.lines, lines, called]
  rfl

theorem offset_next {outcome : ReadOutcome} {flag : Bool}
    (called : state.call decode limits = ⟨(.ok outcome, ⟨outcome.offset⟩), flag⟩) :
    (state.next decode limits).offset = outcome.offset := by
  rw [next, called]

theorem baseOf_of_le (inside : offset ≤ content.length) :
    baseOf content offset = offset := by
  rw [baseOf, if_neg (Nat.not_lt.mpr inside)]

theorem startOf_of_stays (stays : jumps limits content offset = false) :
    startOf limits content offset = baseOf content offset := by
  rw [startOf, stays, if_neg Bool.false_ne_true]

theorem startOf_le (limits : ReadLimits) (content : List UInt8) (offset : Nat) :
    startOf limits content offset ≤ content.length := by
  cases jumped : jumps limits content offset with
  | false =>
    rw [startOf_of_stays jumped]
    exact baseOf_le content offset
  | true =>
    rw [startOf, jumped, if_pos rfl]
    have target_le : targetOf limits content ≤ content.length := Nat.sub_le _ _
    by_cases present : newline ∈ content.drop (targetOf limits content)
    · obtain ⟨piece, pieces, -, isLine, -, stream⟩ := splitInclusive_eq_cons present
      have lengths := congrArg List.length stream
      rw [List.length_drop, List.length_append] at lengths
      rw [behindNewline_eq isLine stream]
      omega
    · rw [behindNewline, if_neg present]
      exact target_le

/-- The call leaves the offset behind its start and inside the file. -/
theorem offset_next_bounds (state : TailState) :
    startOf limits state.content state.offset ≤ (state.next decode limits).offset ∧
      (state.next decode limits).offset ≤ state.content.length := by
  obtain ⟨outcome, taken, rest, called, takes, -⟩ := @call_takes decode limits state
  have lengths := congrArg (fun pieces => pieces.flatten.length) takes.split
  simp only [flatten_splitInclusive, List.length_drop, List.flatten_append,
    List.length_append] at lengths
  have start_le := startOf_le limits state.content state.offset
  rw [offset_next called, takes.offset_eq]
  omega

/-- A reader that keeps up goes on from its offset and keeps up. -/
theorem next_of_keepsUp (keepsUp : lags limits state.content state.offset = false) :
    lags limits state.content (state.next decode limits).offset = false ∧
      startOf limits state.content (state.next decode limits).offset =
        (state.next decode limits).offset := by
  obtain ⟨behind, inside⟩ := @offset_next_bounds decode limits state
  have base_eq := baseOf_of_le inside
  have keepsUpNext : lags limits state.content (state.next decode limits).offset = false := by
    rw [startOf_of_stays (jumps_eq_false_of_not_lags keepsUp)] at behind
    rw [lags, decide_eq_false_iff_not] at keepsUp ⊢
    omega
  exact ⟨keepsUpNext, by rw [startOf_of_stays (jumps_eq_false_of_not_lags keepsUpNext), base_eq]⟩

/-- What it returns is not before its start. -/
theorem startOf_le_of_mem_reading {calls : Nat}
    (keepsUp : lags limits state.content state.offset = false) {line : Nat × List UInt8}
    (member : line ∈ state.reading decode limits calls) :
    startOf limits state.content state.offset ≤ line.1 := by
  induction calls generalizing state with
  | zero => exact absurd member List.not_mem_nil
  | succ calls ih =>
    rw [reading, List.mem_append] at member
    rcases member with now | later
    · obtain ⟨outcome, taken, rest, -, -, found_eq⟩ := @call_takes decode limits state
      rw [found_eq] at now
      obtain ⟨before, after, -, position_eq⟩ := mem_positioned_iff.mp now
      omega
    · obtain ⟨keepsUpNext, startNext⟩ := @next_of_keepsUp decode limits _ keepsUp
      refine (@offset_next_bounds decode limits state).1.trans ?_
      rw [← startNext]
      exact ih keepsUpNext later

/-- A reader that keeps up returns all lines behind its offset. -/
theorem reading_of_keepsUp (room : 0 < limits.maxChunkBytes)
    (keepsUp : lags limits state.content state.offset = false) :
    ∃ calls, state.clean decode limits calls = true ∧
      ∀ line ∈ linesFrom newline state.content (startOf limits state.content state.offset),
        line ∈ state.reading decode limits calls := by
  induction remaining : state.content.length - startOf limits state.content state.offset
    using Nat.strong_induction_on generalizing state with
  | _ left ih =>
    obtain ⟨outcome, taken, rest, called, takes, found_eq⟩ := @call_takes decode limits state
    obtain ⟨behind, inside⟩ := @offset_next_bounds decode limits state
    have noOverflow : (state.call decode limits).overflowed = false := by
      rw [called, underflows, keepsUp, Bool.false_and]
    have lines_eq := linesFrom_of_lines takes.split takes.areLines
    rw [← takes.offset_eq, ← offset_next called, ← found_eq] at lines_eq
    obtain ⟨keepsUpNext, startNext⟩ := @next_of_keepsUp decode limits _ keepsUp
    by_cases more : newline ∈ rest.flatten
    · have progress := takes.length_pos more room
      have fewer : state.content.length -
          startOf limits state.content (state.next decode limits).offset < left := by
        rw [startNext, ← remaining]
        rw [offset_next called, takes.offset_eq] at inside ⊢
        omega
      obtain ⟨calls, clean_, all⟩ := @ih _ fewer (state.next decode limits)
        keepsUpNext rfl
      refine ⟨calls + 1, ?_, ?_⟩
      · rw [clean, noOverflow, clean_]
        rfl
      · intro line member
        rw [lines_eq, List.mem_append] at member
        rw [reading, List.mem_append]
        refine member.imp_right fun later => all line ?_
        rw [← startNext] at later
        exact later
    · refine ⟨1, ?_, ?_⟩
      · rw [clean, noOverflow]
        rfl
      · intro line member
        rw [lines_eq, offset_next called, linesFrom_of_not_mem (takes.drop_offset ▸ more),
          List.append_nil] at member
        rw [reading]
        exact List.mem_append_left _ member

end ReadingOn

/-! ## Rounds, changes of the file, and restarts -/

section Run

variable {Event : Type} (decode : List UInt8 → List Char) (parser : List Char → Option Event)
  (limits : ReadLimits)

/-- Go through the lines of a batch, up to the first event that is not taken: how many lines
are done with, and what stopped the batch. -/
def handOver (delivery : Nat → Delivery) : Nat → List (List Char) → Nat × Delivery
  | _, [] => (0, .sent)
  | index, line :: lines =>
    match parser line with
    | none => (handOver delivery index lines).map (· + 1) id
    | some _ =>
      match delivery index with
      | .sent => (handOver delivery (index + 1) lines).map (· + 1) id
      | stopped => (0, stopped)

/-- One round of draining.  An interrupted batch is given up: the offset goes back to where
it was started. -/
def round (delivery : Nat → Delivery) (state : TailState) : TailState :=
  let batch := handOver parser delivery 0 (state.lines decode limits)
  { state with
    offset := if batch.2 = .sent then (state.next decode limits).offset else state.offset
    delivered := state.delivered ++ ((state.found decode limits).take batch.1).map Prod.fst }

variable {decode parser limits}

theorem sendEvents_filterMap (delivery : Nat → Delivery) (index : Nat) (lines : List (List Char)) :
    sendEvents delivery index (lines.filterMap parser) =
      ((lines.take (handOver parser delivery index lines).1).filterMap parser,
        (handOver parser delivery index lines).2) := by
  induction lines generalizing index with
  | nil => rfl
  | cons line lines ih =>
    cases parsed : parser line with
    | none =>
      rw [List.filterMap_cons_none parsed, ih, handOver, parsed]
      exact congrArg (·, _) (List.filterMap_cons_none parsed).symm
    | some event =>
      rw [List.filterMap_cons_some parsed, sendEvents, handOver, parsed]
      cases delivery index with
      | sent =>
        simp only [ih]
        exact congrArg (·, _) (List.filterMap_cons_some parsed).symm
      | shutdown => rfl
      | closed => rfl

/-- A drain is one round after the other: after each it has ended with the offset that the
round has left, or it goes on from there.  It has sent the events of the lines handed on. -/
theorem drainToEof_round (delivery : Nat → Delivery) (cancelled : Bool) (rounds : List DrainRound)
    (state : TailState) :
    let drained := (drainToEof decode parser limits ⟨state.offset⟩
      (⟨.opened (.still state.content state.addressable), delivery, cancelled⟩ :: rounds)).value
    let after := state.round decode parser limits delivery
    ∃ handed, handed <+: state.found decode limits ∧
      after.delivered = state.delivered ++ handed.map Prod.fst ∧
      let sent := handed.filterMap fun line => parser (lineText decode line.2.dropLast)
      (∃ result, drained = some ⟨result, ⟨after.offset⟩, sent⟩) ∨
        drained = (drainToEof decode parser limits ⟨after.offset⟩ rounds).value.map fun last =>
          { last with sent := sent ++ last.sent } := by
  intro drained after
  let batch := handOver parser delivery 0 (state.lines decode limits)
  refine ⟨(state.found decode limits).take batch.1, List.take_prefix _ _, rfl, ?_⟩
  obtain ⟨outcome, taken, rest, called, -, -⟩ := @call_takes decode limits state
  have lines_eq : outcome.lines = state.lines decode limits := by
    rw [lines, called]
    rfl
  have sent_eq : ((state.found decode limits).take batch.1).filterMap
      (fun line => parser (lineText decode line.2.dropLast)) =
        ((state.lines decode limits).take batch.1).filterMap parser := by
    rw [← map_found state, ← List.map_take, List.filterMap_map]
    rfl
  have offset_eq : after.offset = if batch.2 = .sent then outcome.offset else state.offset := by
    rw [← offset_next called]
    rfl
  have sends := @sendEvents_filterMap _ parser delivery 0 outcome.lines
  rw [lines_eq] at sends
  change sendEvents delivery 0 _ = (_, batch.2) at sends
  simp only [sent_eq, offset_eq]
  have drained_eq : drained = (drainToEof decode parser limits ⟨state.offset⟩
      (⟨.opened (.still state.content state.addressable), delivery, cancelled⟩ :: rounds)).value :=
    rfl
  rw [drainToEof] at drained_eq
  change drained = (state.call decode limits >>= _).value at drained_eq
  rw [called] at drained_eq
  simp only [bind, lines_eq, sends] at drained_eq
  cases stopped : batch.2 with
  | sent =>
    simp only [stopped] at drained_eq
    split at drained_eq
    · exact .inl ⟨_, drained_eq⟩
    · exact .inr drained_eq
  | shutdown =>
    simp only [stopped] at drained_eq
    exact .inl ⟨_, drained_eq⟩
  | closed =>
    simp only [stopped] at drained_eq
    exact .inl ⟨_, drained_eq⟩

/-- A file source that starts: a saved offset of zero counts as none. -/
def restart (seekToEnd : Bool) (state : TailState) : TailState :=
  { state with
    offset := if 0 < state.offset then state.offset
      else if seekToEnd then state.content.length else 0 }

/-- What can happen to a tailed file and to the source that tails it. -/
inductive Step where
  | grows (more : List UInt8)
  | rewritten (content : List UInt8) (addressable : content.length < 2 ^ 64)
  | round (delivery : Nat → Delivery)
  | restarted (seekToEnd : Bool)

variable (decode parser limits)

def step (state : TailState) : Step → TailState
  | .grows more =>
    if fits : (state.content ++ more).length < 2 ^ 64 then
      { state with content := state.content ++ more, addressable := fits }
    else
      state
  | .rewritten content addressable =>
    { state with content, addressable, delivered := [] }
  | .round delivery => state.round decode parser limits delivery
  | .restarted seekToEnd => state.restart seekToEnd

/-- The first start of a source.  If it is to begin at the end, the lines that are already
there are none of its business. -/
def started (content : List UInt8) (addressable : content.length < 2 ^ 64) (seekToEnd : Bool) :
    TailState where
  content := content
  addressable := addressable
  offset := if seekToEnd then content.length else 0
  delivered := if seekToEnd then (linesFrom newline content 0).map Prod.fst else []

/-- What keeps the reader on the track of the file: a file that is shorter than the offset is
read before it has grown beyond it, a rewritten file is shorter than the offset at first, the
reader keeps up in its rounds, and a restart with the offset zero does not seek to the end. -/
def Careful (limits : ReadLimits) (state : TailState) : Step → Prop
  | .grows more => state.content.length < state.offset →
      (state.content ++ more).length < state.offset
  | .rewritten content _ => content.length < state.offset ∨ state.offset = 0
  | .round _ => lags limits state.content state.offset = false
  | .restarted seekToEnd => seekToEnd = true → 0 < state.offset ∨ state.content = []

/-- Every step is careful in the state it meets, and the reader keeps up in the end. -/
def CarefulRun (state : TailState) : List Step → Prop
  | [] => lags limits state.content state.offset = false
  | next :: rest =>
    Careful limits state next ∧ CarefulRun (state.step decode parser limits next) rest

variable {decode parser limits}

/-- What stands before the position of the reader are whole lines, all of them handed on. -/
def HandedOn (state : TailState) : Prop :=
  ∃ pieces, state.content.take (baseOf state.content state.offset) = pieces.flatten ∧
    (∀ piece ∈ pieces, IsLine newline piece) ∧
    ∀ line ∈ positioned List.length 0 pieces, line.1 ∈ state.delivered

variable {state : TailState}

theorem handedOn_of_base_eq_zero (atStart : baseOf state.content state.offset = 0) :
    state.HandedOn :=
  ⟨[], by rw [atStart]; rfl, List.forall_mem_nil _, List.forall_mem_nil _⟩

theorem handedOn_started (content : List UInt8) (addressable : content.length < 2 ^ 64)
    (seekToEnd : Bool) (ends : seekToEnd = true → unfinished newline content = []) :
    (started content addressable seekToEnd).HandedOn := by
  cases seekToEnd with
  | false => exact handedOn_of_base_eq_zero rfl
  | true =>
    have whole := finished_append_unfinished newline content
    have split := splitInclusive_eq newline content
    rw [ends rfl, List.append_nil] at whole
    rw [ends rfl, if_pos rfl] at split
    have areLines : ∀ piece ∈ (finished newline content).map (· ++ [newline]),
        IsLine newline piece := by
      intro piece member
      obtain ⟨body, isFinished, rfl⟩ := List.mem_map.mp member
      exact ⟨body, not_mem_of_mem_finished isFinished, rfl⟩
    refine ⟨(finished newline content).map (· ++ [newline]), ?_, areLines, ?_⟩
    · change content.take (baseOf content content.length) = _
      rw [baseOf_of_le le_rfl, List.take_length]
      exact whole
    · intro line member
      change line.1 ∈ (linesFrom newline content 0).map Prod.fst
      rw [linesFrom_of_lines split areLines]
      exact List.mem_map_of_mem (List.mem_append_left _ member)

theorem handOver_of_sent {delivery : Nat → Delivery} {index : Nat} {lines : List (List Char)}
    (sent : (handOver parser delivery index lines).2 = .sent) :
    (handOver parser delivery index lines).1 = lines.length := by
  induction lines generalizing index with
  | nil => rfl
  | cons line lines ih =>
    rw [handOver] at sent ⊢
    cases parsed : parser line with
    | none =>
      rw [parsed] at sent
      exact congrArg Nat.succ (ih sent)
    | some event =>
      rw [parsed] at sent
      cases taken : delivery index with
      | sent =>
        simp only [taken] at sent ⊢
        exact congrArg Nat.succ (ih sent)
      | shutdown =>
        simp only [taken] at sent
        cases sent
      | closed =>
        simp only [taken] at sent
        cases sent

/-- A round that hands its whole batch on takes lines from where the reader stands. -/
theorem round_of_sent (keepsUp : lags limits state.content state.offset = false)
    {delivery : Nat → Delivery}
    (sent : (handOver parser delivery 0 (state.lines decode limits)).2 = .sent) :
    ∃ taken rest, (∀ piece ∈ taken, IsLine newline piece) ∧
      state.content.drop (baseOf state.content state.offset) = taken.flatten ++ rest ∧
      (state.round decode parser limits delivery).offset =
        baseOf state.content state.offset + taken.flatten.length ∧
      (state.round decode parser limits delivery).delivered = state.delivered ++
        (positioned List.length (baseOf state.content state.offset) taken).map Prod.fst := by
  obtain ⟨outcome, taken, rest, called, takes, found_eq⟩ := @call_takes decode limits state
  have start_eq := startOf_of_stays (jumps_eq_false_of_not_lags keepsUp)
  refine ⟨taken, rest.flatten, takes.areLines, ?_, ?_, ?_⟩
  · rw [← flatten_splitInclusive newline (state.content.drop _), ← start_eq, takes.split,
      List.flatten_append]
  · rw [← start_eq, ← takes.offset_eq, ← offset_next called]
    exact if_pos sent
  · rw [← start_eq, ← found_eq]
    change _ ++ ((state.found decode limits).take _).map _ = _
    rw [handOver_of_sent sent, found, List.take_take, Nat.min_self]

theorem HandedOn.round (handedOn : state.HandedOn)
    (keepsUp : lags limits state.content state.offset = false) (delivery : Nat → Delivery) :
    (state.round decode parser limits delivery).HandedOn := by
  obtain ⟨pieces, stream, areLines, handed⟩ := handedOn
  by_cases sent : (handOver parser delivery 0 (state.lines decode limits)).2 = .sent
  · obtain ⟨taken, rest, takenLines, behind, offset_eq, delivered_eq⟩ := round_of_sent keepsUp sent
    have lengths := congrArg List.length behind
    rw [List.length_drop, List.length_append] at lengths
    have before_length : pieces.flatten.length = baseOf state.content state.offset := by
      rw [← stream, List.length_take, Nat.min_eq_left (baseOf_le _ _)]
    have inside := baseOf_le state.content state.offset
    refine ⟨pieces ++ taken, ?_, List.forall_mem_append.mpr ⟨areLines, takenLines⟩, ?_⟩
    · change state.content.take (baseOf state.content _) = _
      rw [offset_eq, baseOf_of_le (by omega), List.take_add, stream, behind, List.take_left,
        List.flatten_append]
    · rw [positioned_append, Nat.zero_add, before_length, delivered_eq]
      intro line member
      rcases List.mem_append.mp member with old | new
      · exact List.mem_append_left _ (handed line old)
      · exact List.mem_append_right _ (List.mem_map_of_mem new)
  · have offset_eq : (state.round decode parser limits delivery).offset = state.offset :=
      if_neg sent
    refine ⟨pieces, ?_, areLines, fun line member => List.mem_append_left _ (handed line member)⟩
    rw [offset_eq]
    exact stream

theorem HandedOn.step (handedOn : state.HandedOn) {next : Step}
    (careful : Careful limits state next) :
    (state.step decode parser limits next).HandedOn := by
  cases next with
  | grows more =>
    rw [TailState.step]
    split
    · by_cases short : state.content.length < state.offset
      · exact handedOn_of_base_eq_zero (if_pos (careful short))
      · obtain ⟨pieces, stream, areLines, handed⟩ := handedOn
        refine ⟨pieces, ?_, areLines, handed⟩
        have inside := Nat.not_lt.mp short
        change (state.content ++ more).take (baseOf (state.content ++ more) state.offset) = _
        rw [baseOf_of_le (inside.trans (by simp)), List.take_append_of_le_length inside, ← stream,
          baseOf_of_le inside]
    · exact handedOn
  | rewritten content addressable =>
    refine handedOn_of_base_eq_zero ?_
    change baseOf content state.offset = 0
    rw [baseOf]
    split
    · rfl
    next long => exact careful.resolve_left long
  | round delivery => exact handedOn.round careful delivery
  | restarted seekToEnd =>
    by_cases positive : 0 < state.offset
    · rw [TailState.step, restart, if_pos positive]
      exact handedOn
    · refine handedOn_of_base_eq_zero ?_
      rw [TailState.step, restart, if_neg positive]
      split
      next seeks =>
        have empty : state.content = [] := (careful seeks).resolve_left positive
        change baseOf state.content state.content.length = 0
        rw [empty]
        rfl
      · exact if_neg (Nat.not_lt_zero _)

theorem HandedOn.recovers (handedOn : state.HandedOn) (room : 0 < limits.maxChunkBytes)
    (keepsUp : lags limits state.content state.offset = false) (overflowChecks : Bool) :
    state.Recovers decode limits overflowChecks := by
  obtain ⟨pieces, stream, areLines, handed⟩ := handedOn
  obtain ⟨calls, harmless, all⟩ := @reading_of_keepsUp decode limits state room keepsUp
  have before_length : pieces.flatten.length = startOf limits state.content state.offset := by
    rw [startOf_of_stays (jumps_eq_false_of_not_lags keepsUp), ← stream, List.length_take,
      Nat.min_eq_left (baseOf_le _ _)]
  have split : splitInclusive newline (state.content.drop 0) = pieces ++
      splitInclusive newline (state.content.drop (baseOf state.content state.offset)) := by
    rw [List.drop_zero, ← (isLines_of_forall areLines).splitInclusive_flatten,
      ← splitInclusive_append (endsLine_flatten areLines), ← stream, List.take_append_drop]
  refine ⟨calls, fun _ => harmless, fun line member undelivered => all line ?_⟩
  rw [linesFrom_of_lines split areLines, Nat.zero_add, before_length, List.mem_append] at member
  exact member.resolve_left fun old => undelivered (handed line old)

variable (decode parser limits)

/-- After rounds, changes of the file and restarts that are careful, reading on from the offset
that was kept recovers all lines of the current file that were not handed on. -/
theorem interruption_recovers (overflowChecks seekToEnd : Bool) (content : List UInt8)
    (addressable : content.length < 2 ^ 64) (steps : List Step)
    (room : 0 < limits.maxChunkBytes)
    (ends : seekToEnd = true → unfinished newline content = [])
    (careful : CarefulRun decode parser limits (started content addressable seekToEnd) steps) :
    (steps.foldl (step decode parser limits)
      (started content addressable seekToEnd)).Recovers decode limits overflowChecks := by
  have handedOn := handedOn_started content addressable seekToEnd ends
  generalize started content addressable seekToEnd = state at handedOn careful ⊢
  induction steps generalizing state with
  | nil => exact handedOn.recovers room careful overflowChecks
  | cons next rest ih => exact ih _ (handedOn.step careful.1) careful.2

end Run

/-- A batch of one line is interrupted, and the file has grown when the source is back. -/
theorem interruption_recovers_after_shutdown :
    let decode := List.map fun byte : UInt8 => Char.ofNat byte.toNat
    let limits : ReadLimits := ⟨65536, 0⟩
    let state := [Step.round fun _ => .sent, .grows [98, 10], .round fun _ => .shutdown,
      .restarted true, .grows [99, 10]].foldl (step decode some limits)
        (started [97, 10] (by decide) false)
    state.delivered = [0] ∧ state.Recovers decode limits true := by
  intro decode limits state
  refine ⟨by decide +kernel, interruption_recovers decode some limits true false [97, 10] _ _
    (by decide) (by decide) ?_⟩
  refine .intro rfl (.intro ?_ (.intro rfl (.intro ?_ (.intro ?_ rfl))))
  · exact fun short => absurd short (by decide +kernel)
  · exact fun _ => .inl (by decide +kernel)
  · exact fun short => absurd short (by decide +kernel)

theorem not_recovers_of_before {decode : List UInt8 → List Char} {limits : ReadLimits}
    {overflowChecks : Bool} {state : TailState}
    (keepsUp : lags limits state.content state.offset = false) {line : Nat × List UInt8}
    (member : line ∈ linesFrom newline state.content 0) (undelivered : line.1 ∉ state.delivered)
    (before : line.1 < startOf limits state.content state.offset) :
    ¬state.Recovers decode limits overflowChecks := by
  rintro ⟨calls, -, all⟩
  have isRead := all line member undelivered
  exact absurd (startOf_le_of_mem_reading keepsUp isRead) (Nat.not_le.mpr before)

/-- Two ways to lose lines.  A batch of a rewritten file is interrupted, the offset goes back
to one of the old file, and the new file grows beyond it.  The first batch of all is
interrupted, the offset goes back to zero, and the restart seeks to the end. -/
theorem interruption_loses_lines :
    let decode := List.map fun byte : UInt8 => Char.ofNat byte.toNat
    let limits : ReadLimits := ⟨65536, 0⟩
    let rewritten := [Step.round fun _ => .sent, .rewritten [99, 10, 100, 10] (by decide),
        .round fun _ => .shutdown, .restarted false, .grows [101, 10]].foldl
      (step decode some limits) (started [97, 97, 10, 98, 10] (by decide) false)
    let seeking := [Step.grows [97, 10], .round fun _ => .shutdown, .restarted true].foldl
      (step decode some limits) (started [] (by decide) true)
    ¬rewritten.Recovers decode limits true ∧ ¬seeking.Recovers decode limits true := by
  intro decode limits rewritten seeking
  constructor
  · exact @not_recovers_of_before _ _ _ rewritten rfl (0, [99, 10]) (by decide +kernel)
      (by decide +kernel) (by decide +kernel)
  · exact @not_recovers_of_before _ _ _ seeking rfl (0, [97, 10]) (by decide +kernel)
      (by decide +kernel) (by decide +kernel)

end TailState

end HiveGuard.Sources
