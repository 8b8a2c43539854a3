import HiveGuard.Library.Fitting
import HiveGuard.Library.Lines
import HiveGuard.Library.Machine
import HiveGuard.Library.Utf8

/-!
# The retry buffer of a SIEM exporter

Events that could not be delivered wait in a file, one JSON text in a line.  `push` appends
to it and drops the oldest lines when it has become too long, `drain` reads the events back
and removes the file.
-/

namespace HiveGuard.Daemon

open Library Library.Fitting Library.Lines Library.Text

/-- The JSON library: what it writes is an object on one line, control characters being
escaped, and is read back as what was written. -/
structure JsonCodec (Event : Type) where
  toString : Event → Option (List Char)
  fromStr : List Char → Option Event
  isObject : ∀ event line, toString event = some line →
    line.head? = some '\x7b' ∧ line.getLast? = some '\x7d'
  noControl : ∀ event line, toString event = some line → ∀ char ∈ line, 32 ≤ char.toNat
  fromStr_toString : ∀ event line, toString event = some line → fromStr line = some event

/-- What can go wrong while pushing.  A write or a flush that fails has appended some of
the bytes. -/
inductive PushFault where
  | directory
  | opening
  | writing (count : Nat)
  | measuring
  deriving DecidableEq

/-- What can go wrong while pruning.  A write that fails has replaced the file by some of
the bytes. -/
inductive PruneFault where
  | reading
  | writing (count : Nat)
  deriving DecidableEq

/-- A line without the newline, and the carriage return before it, that ended it. -/
def stripLineEnd (piece : List Char) : List Char :=
  if piece.getLast? = some '\n' then
    if piece.dropLast.getLast? = some '\r' then piece.dropLast.dropLast else piece.dropLast
  else piece

/-- `str::lines`. -/
def textLines (content : List Char) : List (List Char) :=
  (splitInclusive '\n' content).map stripLineEnd

namespace PersistentBuffer

/-- A subtraction of `u64` from the length of a text. -/
def shrink (current amount : Nat) : Machine Nat :=
  if amount ≤ current then pure (current - amount)
  else ⟨2 ^ 64 - (amount - current), true⟩

/-- The loop over the lines to drop; the result are the lines that are kept. -/
def pruneLoop (maxBytes : Nat) : Nat → List (List Char) → Machine (List (List Char))
  | _, [] => pure []
  | currentSize, line :: lines =>
    if currentSize ≤ maxBytes then pure (line :: lines)
    else do
      let currentSize ← shrink currentSize (byteLength line + 1)
      pruneLoop maxBytes currentSize lines

def write (fault : Option PruneFault) (bytes : List UInt8) : Option (List UInt8) :=
  match fault with
  | some (.writing count) => some (bytes.take count)
  | _ => some bytes

/-- Remove the oldest lines until the file is under the limit.  A file that cannot be read
as text is left as it is. -/
def pruneToLimit (maxBytes : Nat) (file : Option (List UInt8)) (fault : Option PruneFault) :
    Machine (Option (List UInt8)) :=
  match file with
  | none => pure none
  | some bytes =>
    match decode bytes with
    | none => pure file
    | some content =>
      if fault = some .reading then pure file
      else if textLines content = [] then pure file
      else do
        let kept ← pruneLoop maxBytes bytes.length (textLines content)
        if kept = [] then pure (write fault [])
        else pure (write fault (encode (['\n'].intercalate kept ++ ['\n'])))

section Push

variable {Event : Type} (json : JsonCodec Event) (maxBytes : Nat)

/-- The events as lines; those that cannot be serialised are left out. -/
def blob (events : List Event) : List Char :=
  (events.filterMap json.toString).flatMap (· ++ ['\n'])

def push (file : Option (List UInt8)) (events : List Event) (fault : Option PushFault)
    (pruneFault : Option PruneFault) : Machine (Option (List UInt8)) :=
  if events.isEmpty then pure file
  else
    let bytes := encode (blob json events)
    match fault with
    | some .directory => pure file
    | some .opening => pure file
    | some (.writing count) => pure (some (file.getD [] ++ bytes.take count))
    | some .measuring => pure (some (file.getD [] ++ bytes))
    | none =>
      let written := file.getD [] ++ bytes
      if maxBytes < written.length then pruneToLimit maxBytes (some written) pruneFault
      else pure (some written)

/-- The event of a line; malformed lines are skipped. -/
def parseLine (line : List Char) : Option Event :=
  if (trim line).isEmpty then none else json.fromStr (trim line)

def parseLines (content : List Char) : List Event :=
  (textLines content).filterMap (parseLine json)

/-- Read all events and remove the file.  The first two arguments say that it cannot be
read or not be removed. -/
def drain (unreadable unremovable : Bool) (file : Option (List UInt8)) :
    List Event × Option (List UInt8) :=
  match file with
  | none => ([], none)
  | some bytes =>
    match decode bytes with
    | none => ([], file)
    | some content =>
      if unreadable then ([], file)
      else (parseLines json content, if unremovable then file else none)

/-- Pushes one after the other, without faults. -/
def pushAll : Option (List UInt8) → List (List Event) → Machine (Option (List UInt8))
  | file, [] => pure file
  | file, events :: pushes => do
      let file ← push json maxBytes file events none none
      pushAll file pushes

end Push

/-! ## Lines of a file -/

def unlines (lines : List (List Char)) : List Char :=
  lines.flatMap (· ++ ['\n'])

/-- The bytes a line takes in the file. -/
def lineSize (line : List Char) : Nat :=
  byteLength line + 1

/-- A text without control characters. -/
def Plain (line : List Char) : Prop :=
  ∀ char ∈ line, 32 ≤ char.toNat

theorem unlines_append (front back : List (List Char)) :
    unlines (front ++ back) = unlines front ++ unlines back :=
  List.flatMap_append

theorem byteLength_unlines (lines : List (List Char)) :
    byteLength (unlines lines) = total lineSize lines := by
  induction lines with
  | nil => rfl
  | cons line lines ih =>
    rw [unlines, List.flatMap_cons, byteLength_append, byteLength_append,
      byteLength_singleton, total_cons]
    change _ + byteLength (unlines lines) = _
    rw [ih]
    rfl

variable {lines : List (List Char)}

theorem eq_nil_of_encode_unlines
    (nothing : encode (unlines lines) = []) : lines = [] := by
  have size := congrArg List.length nothing
  rw [length_encode, byteLength_unlines] at size
  cases lines with
  | nil => rfl
  | cons line lines =>
    rw [total_cons, lineSize] at size
    simp at size

theorem intercalate_eq_unlines (nonempty : lines ≠ []) :
    ['\n'].intercalate lines ++ ['\n'] = unlines lines := by
  induction lines with
  | nil => exact absurd rfl nonempty
  | cons line lines ih =>
    cases lines with
    | nil => simp [unlines]
    | cons next lines =>
      rw [List.intercalate_cons_cons, List.append_assoc, List.append_assoc,
        ih (List.cons_ne_nil _ _)]
      simp [unlines]

theorem Plain.stripLineEnd {line : List Char} (plain : Plain line) :
    stripLineEnd (line ++ ['\n']) = line := by
  have noReturn : line.getLast? ≠ some '\r' := by
    intro last
    have printable := plain '\r' (List.mem_of_getLast? last)
    exact absurd printable (by decide)
  rw [Daemon.stripLineEnd, if_pos List.getLast?_concat, List.dropLast_concat, if_neg noReturn]

theorem textLines_unlines (plain : ∀ line ∈ lines, Plain line) :
    textLines (unlines lines) = lines := by
  induction lines with
  | nil => rfl
  | cons line lines ih =>
    rw [List.forall_mem_cons] at plain
    have clean : '\n' ∉ line := by
      intro member
      exact absurd (plain.1 '\n' member) (by decide)
    have rest : textLines (unlines lines) = lines := ih plain.2
    rw [textLines, unlines, List.flatMap_cons,
      splitInclusive_append (endsLine_concat '\n' line), splitInclusive_line clean,
      List.map_append, List.map_singleton, plain.1.stripLineEnd]
    exact congrArg _ rest

/-- The loop keeps the longest suffix that fits. -/
theorem pruneLoop_eq (maxBytes : Nat) (lines : List (List Char)) :
    pruneLoop maxBytes (total lineSize lines) lines = pure (fitting lineSize maxBytes lines) := by
  induction lines with
  | nil => rfl
  | cons line lines ih =>
    rw [pruneLoop]
    split
    · rename_i fits
      rw [fitting_of_le fits]
    · rename_i exceeds
      have step : shrink (total lineSize (line :: lines)) (byteLength line + 1) =
          pure (total lineSize lines) := by
        rw [shrink, total_cons, lineSize, if_pos (Nat.le_add_right _ _),
          Nat.add_sub_cancel_left]
      rw [step, Machine.pure_bind, ih,
        fitting_cons_of_lt (Nat.lt_of_not_le exceeds)]

theorem pruneToLimit_unlines {maxBytes : Nat}
    (plain : ∀ line ∈ lines, Plain line) (nonempty : lines ≠ []) :
    pruneToLimit maxBytes (some (encode (unlines lines))) none =
      pure (some (encode (unlines (fitting lineSize maxBytes lines)))) := by
  rw [pruneToLimit, decode_encode]
  simp only [reduceCtorEq, if_false, textLines_unlines plain, if_neg nonempty, length_encode,
    byteLength_unlines, pruneLoop_eq, Machine.pure_bind]
  split
  · rename_i nothing
    rw [nothing]
    rfl
  · rename_i something
    rw [intercalate_eq_unlines something]
    rfl

/-! ## Sequences of pushes -/

section Keeps

variable {Event : Type} {json : JsonCodec Event} {maxBytes : Nat}

/-- The file holds the newest of the lines that fit. -/
def Holds (maxBytes : Nat) (file : Option (List UInt8)) (lines : List (List Char)) : Prop :=
  file.getD [] = encode (unlines (fitting lineSize maxBytes lines))

variable {events : List Event} {line : List Char}

theorem plain_of_mem_lines
    (member : line ∈ events.filterMap json.toString) : Plain line := by
  obtain ⟨event, _, written⟩ := List.mem_filterMap.mp member
  exact json.noControl event line written

variable {lines : List (List Char)}

/-- A push leaves the newest of all lines that fit. -/
theorem Holds.push {file : Option (List UInt8)}
    (holds : Holds maxBytes file lines) (plain : ∀ line ∈ lines, Plain line) (events : List Event) :
    ∃ next, PersistentBuffer.push json maxBytes file events none none = pure next ∧
      Holds maxBytes next (lines ++ events.filterMap json.toString) := by
  cases events with
  | nil => exact ⟨file, rfl, by rwa [List.filterMap_nil, List.append_nil]⟩
  | cons event events =>
    let all := fitting lineSize maxBytes lines ++ (event :: events).filterMap json.toString
    have written : file.getD [] ++ encode (blob json (event :: events)) =
        encode (unlines all) := by
      rw [holds, unlines_append, encode_append]
      rfl
    have same : fitting lineSize maxBytes all =
        fitting lineSize maxBytes (lines ++ (event :: events).filterMap json.toString) :=
      fitting_fitting_append _ _
    have plainAll : ∀ line ∈ all, Plain line := by
      intro line member
      rcases List.mem_append.mp member with old | new
      · exact plain line ((fitting_suffix lines).subset old)
      · exact plain_of_mem_lines new
    rw [PersistentBuffer.push, List.isEmpty_cons, if_neg Bool.false_ne_true]
    simp only [written, length_encode, byteLength_unlines]
    split
    · rename_i exceeds
      have nonempty : all ≠ [] := by
        intro nothing
        rw [nothing] at exceeds
        exact Nat.not_lt_zero _ exceeds
      refine ⟨_, pruneToLimit_unlines plainAll nonempty, ?_⟩
      rw [Holds, same]
      rfl
    · rename_i fits
      refine ⟨_, rfl, ?_⟩
      rw [Holds, ← same, fitting_of_le (Nat.le_of_not_lt fits)]
      rfl

theorem Holds.pushAll {file : Option (List UInt8)}
    (holds : Holds maxBytes file lines) (plain : ∀ line ∈ lines, Plain line)
    (pushes : List (List Event)) :
    ∃ last, PersistentBuffer.pushAll json maxBytes file pushes = pure last ∧
      Holds maxBytes last (lines ++ pushes.flatten.filterMap json.toString) := by
  induction pushes generalizing file lines with
  | nil => exact ⟨file, rfl, by rwa [List.flatten_nil, List.filterMap_nil, List.append_nil]⟩
  | cons events pushes ih =>
    obtain ⟨next, pushed, holdsNext⟩ := @Holds.push _ json _ _ _ holds plain events
    have plainNext : ∀ line ∈ lines ++ events.filterMap json.toString, Plain line := by
      intro line member
      rcases List.mem_append.mp member with old | new
      · exact plain line old
      · exact plain_of_mem_lines new
    obtain ⟨last, run, holdsLast⟩ := ih holdsNext plainNext
    refine ⟨last, ?_, ?_⟩
    · rw [PersistentBuffer.pushAll, pushed, Machine.pure_bind, run]
    · rwa [List.flatten_cons, List.filterMap_append, ← List.append_assoc]

theorem trim_of_isObject (starts : line.head? = some '\x7b')
    (ends : line.getLast? = some '\x7d') : trim line = line ∧ line.isEmpty = false := by
  obtain ⟨front, rfl⟩ := List.getLast?_eq_some_iff.mp ends
  refine ⟨trim_concat ?_ (by decide), by simp⟩
  intro char head
  cases front with
  | nil => cases head
  | cons first rest =>
    obtain rfl : first = char := Option.some.inj head
    obtain rfl : first = '\x7b' := Option.some.inj starts
    decide

theorem parseLine_of_toString {event : Event}
    (encoded : json.toString event = some line) : parseLine json line = some event := by
  obtain ⟨starts, ends⟩ := json.isObject event line encoded
  obtain ⟨trimmed, nonempty⟩ := trim_of_isObject starts ends
  rw [parseLine, trimmed, nonempty, if_neg Bool.false_ne_true,
    json.fromStr_toString event line encoded]

/-- The lines of the buffer are read back as the events that were written. -/
theorem parseLines_unlines
    (written : lines <:+ events.filterMap json.toString) :
    parseLines json (unlines lines) = lines.filterMap json.fromStr := by
  have plain : ∀ line ∈ lines, Plain line :=
    fun line member => plain_of_mem_lines (written.subset member)
  rw [parseLines, textLines_unlines plain]
  apply List.filterMap_congr
  intro line member
  obtain ⟨event, _, encoded⟩ := List.mem_filterMap.mp (written.subset member)
  rw [parseLine_of_toString encoded, json.fromStr_toString event line encoded]

/-- What can be serialised is read back. -/
theorem filterMap_fromStr (events : List Event) :
    (events.filterMap json.toString).filterMap json.fromStr =
      events.filter fun event => (json.toString event).isSome := by
  rw [List.filterMap_filterMap, ← List.filterMap_eq_filter]
  apply List.filterMap_congr
  intro event _
  cases encoded : json.toString event with
  | none => simp [Option.guard, encoded]
  | some line => simp [Option.guard, encoded, json.fromStr_toString event line encoded]

theorem filterMap_toString
    (written : lines <:+ events.filterMap json.toString) :
    (lines.filterMap json.fromStr).filterMap json.toString = lines := by
  rw [List.filterMap_filterMap]
  refine (List.filterMap_congr ?_).trans List.filterMap_some
  intro line member
  obtain ⟨event, _, encoded⟩ := List.mem_filterMap.mp (written.subset member)
  rw [json.fromStr_toString event line encoded]
  exact encoded

end Keeps

/-- The buffer keeps the newest events.  After any pushes the file is within the limit and
holds the longest suffix of the lines that fits, and draining returns their events in
order. -/
theorem pushes_keep_newest {Event : Type} (json : JsonCodec Event) (maxBytes : Nat)
    (pushes : List (List Event)) :
    let lines := pushes.flatten.filterMap json.toString
    ∃ file kept, pushAll json maxBytes none pushes = pure file ∧
      (file.getD []).length ≤ maxBytes ∧ file.getD [] = encode (unlines kept) ∧
      kept <:+ lines ∧
      (∀ other, other <:+ lines → (encode (unlines other)).length ≤ maxBytes →
        other <:+ kept) ∧
      ((drain json false false file).1.filterMap json.toString = kept ∧
        (drain json false false file).1 <:+
          pushes.flatten.filter fun event => (json.toString event).isSome) := by
  intro lines
  have start : Holds maxBytes none [] := rfl
  obtain ⟨file, run, holds⟩ := @Holds.pushAll _ json _ _ _ start (by simp) pushes
  rw [List.nil_append] at holds
  have suffix : fitting lineSize maxBytes lines <:+ lines := fitting_suffix lines
  have drained : (drain json false false file).1 =
      (fitting lineSize maxBytes lines).filterMap json.fromStr := by
    cases file with
    | none => rw [eq_nil_of_encode_unlines holds.symm, List.filterMap_nil, drain]
    | some bytes =>
      obtain rfl : bytes = encode (unlines (fitting lineSize maxBytes lines)) := holds
      rw [drain, decode_encode]
      exact parseLines_unlines suffix
  refine ⟨file, fitting lineSize maxBytes lines, run, ?_, holds, suffix, ?_, ?_⟩
  · rw [holds, length_encode, byteLength_unlines]
    exact total_fitting_le lines
  · intro other isSuffix fits
    rw [length_encode, byteLength_unlines] at fits
    exact suffix_fitting isSuffix fits
  · rw [drained]
    refine ⟨filterMap_toString suffix, ?_⟩
    rw [← filterMap_fromStr]
    exact suffix.filterMap json.fromStr

namespace Sample

def digitLine (digit : Fin 10) : List Char :=
  ['\x7b', '"', 'n', '"', ':', Nat.digitChar digit.val, '\x7d']

/-- Events with one digit. -/
def digitEvents : JsonCodec (Fin 10) where
  toString digit := some (digitLine digit)
  fromStr line := (List.finRange 10).find? fun digit => decide (digitLine digit = line)
  isObject := by
    rintro digit line ⟨⟩
    exact ⟨rfl, rfl⟩
  noControl := by
    have printable : ∀ digit, (digitLine digit).all fun char => decide (32 ≤ char.toNat) := by
      decide
    rintro digit line ⟨⟩ char member
    exact of_decide_eq_true (List.all_eq_true.mp (printable digit) char member)
  fromStr_toString := by
    rintro digit line ⟨⟩
    revert digit
    decide +kernel

end Sample

/-- The third line takes the place of the first. -/
theorem pushes_keep_newest_at_three :
    ∃ file, pushAll Sample.digitEvents 16 none [[1, 2], [3]] = pure file ∧
      (drain Sample.digitEvents false false file).1.filterMap Sample.digitEvents.toString =
        [Sample.digitLine 2, Sample.digitLine 3] := by
  obtain ⟨file, kept, run, within, bytes_eq, suffix, longest, drained, -⟩ :=
    pushes_keep_newest Sample.digitEvents 16 [[1, 2], [3]]
  refine ⟨file, run, drained.trans ?_⟩
  have atLeast : [Sample.digitLine 2, Sample.digitLine 3] <:+ kept :=
    longest _ (by decide +kernel) (by decide +kernel)
  rcases List.suffix_cons_iff.mp suffix with rfl | isSuffix
  · rw [bytes_eq] at within
    exact absurd within (by decide +kernel)
  · exact isSuffix.eq_of_length_le atLeast.length_le

end PersistentBuffer

end HiveGuard.Daemon
