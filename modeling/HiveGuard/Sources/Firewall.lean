import HiveGuard.Library.Utf8
import HiveGuard.Sources.LogFile

/-!
# Reading a firewall log

The firewall source and the ingest crate have a reader of their own.  It takes lines from
the buffered reader and advances the offset by the length of each line and one, as if
every line ended with a single newline.  This module has both copies and says for which
files the offset is right.
-/

namespace HiveGuard.Sources.Firewall

open Library.Lines Library.Text

/-! ## The reader -/

def stripLineEnd (text : List Char) : List Char :=
  if text.getLast? = some '\n' then
    if text.dropLast.getLast? = some '\r' then text.dropLast.dropLast else text.dropLast
  else
    text

/-- One item of `BufRead::lines`; bytes that are not UTF-8 are an error. -/
def readLine (piece : List UInt8) : Option (List Char) :=
  (decode piece).map stripLineEnd

structure ReadLoop where
  lines : List (List Char)
  bytesRead : Nat

/-- The loop over the lines, which stops at the first error. -/
def readLines : List (List UInt8) → ReadLoop
  | [] => ⟨[], 0⟩
  | piece :: pieces =>
    match readLine piece with
    | none => ⟨[], 0⟩
    | some line =>
      let rest := readLines pieces
      ⟨line :: rest.lines, byteLength line + 1 + rest.bytesRead⟩

/-- The pieces that can be read from an offset on; a fault takes the one it falls into. -/
def piecesFrom (file : LogFile) (startOffset : Nat) : List (List UInt8) :=
  let pieces := splitInclusive newline (file.readable.drop startOffset)
  if file.fault.isSome then pieces.filter (·.getLast? == some newline) else pieces

structure ReadOutcome where
  lines : List (List Char)
  offset : Nat
  fileLen : Nat
  rotated : Bool

def readNewLinesBlocking (access : FileAccess) (offset : Nat) : Except ReadError ReadOutcome :=
  match access with
  | .notFound => .error .access
  | .failed => .error .access
  | .opened file =>
    let rotated := decide (file.fileLen < offset)
    let startOffset := if rotated then 0 else offset
    if file.fileLen = startOffset then
      .ok ⟨[], startOffset, file.fileLen, rotated⟩
    else
      let loop := readLines (piecesFrom file startOffset)
      .ok ⟨loop.lines, startOffset + loop.bytesRead, file.fileLen, rotated⟩

structure FileWatcher where
  offset : Nat

/-- The reader of the firewall source. -/
def FileWatcher.readNewLines (watcher : FileWatcher) (access : FileAccess) :
    Except ReadError (List (List Char)) × FileWatcher :=
  match readNewLinesBlocking access watcher.offset with
  | .error error => (.error error, watcher)
  | .ok outcome => (.ok outcome.lines, ⟨outcome.offset⟩)

/-- The reader of the ingest crate, which keeps the offset in place. -/
def FileWatcher.ingestNewLines (watcher : FileWatcher) (access : FileAccess) :
    Except ReadError (List (List Char)) × FileWatcher :=
  match access with
  | .notFound => (.error .access, watcher)
  | .failed => (.error .access, watcher)
  | .opened file =>
    let watcher := if file.fileLen < watcher.offset then ⟨0⟩ else watcher
    if file.fileLen = watcher.offset then
      (.ok [], watcher)
    else
      let loop := readLines (piecesFrom file watcher.offset)
      (.ok loop.lines, ⟨watcher.offset + loop.bytesRead⟩)

/-- The two readers agree. -/
theorem ingestNewLines_eq (watcher : FileWatcher) (access : FileAccess) :
    watcher.ingestNewLines access = watcher.readNewLines access := by
  cases access with
  | notFound => rfl
  | failed => rfl
  | opened file =>
    simp only [FileWatcher.ingestNewLines, FileWatcher.readNewLines, readNewLinesBlocking,
      decide_eq_true_eq]
    by_cases rotated : file.fileLen < watcher.offset
    · simp only [if_pos rotated]
      split <;> rfl
    · simp only [if_neg rotated]
      split <;> rfl

/-! ## The text of a line -/

/-- The text of a finished line, if it is UTF-8. -/
def lineText (body : List UInt8) : Option (List Char) :=
  decode (stripCarriageReturn body)

theorem stripLineEnd_concat (text : List Char) :
    stripLineEnd (text ++ ['\n']) = if text.getLast? = some '\r' then text.dropLast else text := by
  rw [stripLineEnd, if_pos List.getLast?_concat, List.dropLast_concat]

theorem getLast?_of_decode {body : List UInt8} {text : List Char}
    (decoded : decode body = some text) (ends : text.getLast? = some '\r') :
    body.getLast? = some carriageReturn := by
  rcases List.getLast?_eq_some_iff.mp ends with ⟨front, rfl⟩
  rw [decode_eq_some_iff.mp decoded, encode_append]
  exact List.getLast?_concat

theorem readLine_line (body : List UInt8) : readLine (body ++ [newline]) = lineText body := by
  change (decode (body ++ [UInt8.ofNat '\n'.toNat])).map stripLineEnd = _
  rw [decode_concat (by decide), Option.map_map, lineText, stripCarriageReturn]
  split
  · rename_i ends
    rcases List.getLast?_eq_some_iff.mp ends with ⟨front, rfl⟩
    change (decode (front ++ [UInt8.ofNat '\r'.toNat])).map _ = _
    rw [decode_concat (by decide), Option.map_map, List.dropLast_concat]
    have stripped : ∀ text, stripLineEnd (text ++ ['\r'] ++ ['\n']) = text := by
      intro text
      rw [stripLineEnd_concat, if_pos List.getLast?_concat, List.dropLast_concat]
    cases decode front with
    | none => rfl
    | some text => exact congrArg some (stripped text)
  · rename_i plain
    cases decoded : decode body with
    | none => rfl
    | some text =>
      have noReturn : text.getLast? ≠ some '\r' :=
        fun ends => plain (getLast?_of_decode decoded ends)
      simp [stripLineEnd_concat, noReturn]

theorem isSome_lineText (body : List UInt8) :
    (lineText body).isSome = (decode body).isSome := by
  rw [← readLine_line]
  change ((decode (body ++ [UInt8.ofNat '\n'.toNat])).map stripLineEnd).isSome = _
  rw [decode_concat (by decide), Option.isSome_map, Option.isSome_map]

theorem byteLength_of_lineText {body : List UInt8} {text : List Char}
    (read : lineText body = some text) : byteLength text = (stripCarriageReturn body).length := by
  rw [decode_eq_some_iff.mp read, length_encode]

theorem length_stripCarriageReturn_le (body : List UInt8) :
    (stripCarriageReturn body).length ≤ body.length := by
  rw [stripCarriageReturn]
  split
  · rw [List.length_dropLast]
    omega
  · exact le_refl _

theorem length_stripCarriageReturn_eq_iff (body : List UInt8) :
    (stripCarriageReturn body).length = body.length ↔ body.getLast? ≠ some carriageReturn := by
  rw [stripCarriageReturn]
  split
  · rename_i ends
    have nonempty := List.length_pos_of_mem (List.mem_of_getLast? ends)
    rw [List.length_dropLast]
    refine iff_of_false (by omega) (not_not.mpr ends)
  · rename_i plain
    exact iff_of_true rfl plain

/-! ## The loop -/

/-- The bytes the reader accounts for. -/
def accounted (bodies : List (List UInt8)) : Nat :=
  (bodies.map fun body => (stripCarriageReturn body).length + 1).sum

/-- The bytes the lines have in the file. -/
def occupied (bodies : List (List UInt8)) : Nat :=
  (bodies.map fun body => body.length + 1).sum

theorem readLines_of_valid {bodies : List (List UInt8)}
    (valid : ∀ body ∈ bodies, (decode body).isSome = true) (rest : List (List UInt8)) :
    readLines (bodies.map (· ++ [newline]) ++ rest) =
      ⟨bodies.filterMap lineText ++ (readLines rest).lines,
        accounted bodies + (readLines rest).bytesRead⟩ := by
  induction bodies with
  | nil => simp [accounted]
  | cons body bodies ih =>
    rw [List.forall_mem_cons, ← isSome_lineText] at valid
    rcases Option.isSome_iff_exists.mp valid.1 with ⟨text, read⟩
    rw [List.map_cons, List.cons_append, readLines, readLine_line, read,
      ih valid.2, List.filterMap_cons_some read]
    simp only [accounted, List.map_cons, List.sum_cons, byteLength_of_lineText read,
      List.cons_append, Nat.add_assoc]

theorem readLines_of_invalid {body : List UInt8} (invalid : decode body = none)
    (rest : List (List UInt8)) : readLines ((body ++ [newline]) :: rest) = ⟨[], 0⟩ := by
  have unreadable : lineText body = none := by
    rw [← Option.not_isSome_iff_eq_none, isSome_lineText, invalid]
    simp
  rw [readLines, readLine_line, unreadable]

/-- Some lines, and the first that is not UTF-8. -/
theorem exists_first_invalid {bodies : List (List UInt8)}
    (invalid : ¬∀ body ∈ bodies, (decode body).isSome = true) :
    ∃ front bad back, bodies = front ++ bad :: back ∧
      (∀ body ∈ front, (decode body).isSome = true) ∧ decode bad = none := by
  induction bodies with
  | nil => exact absurd (List.forall_mem_nil _) invalid
  | cons body bodies ih =>
    by_cases valid : (decode body).isSome = true
    · rw [List.forall_mem_cons, not_and] at invalid
      rcases ih (invalid valid) with ⟨front, bad, back, rfl, earlier, first⟩
      exact ⟨body :: front, bad, back, rfl, List.forall_mem_cons.mpr ⟨valid, earlier⟩, first⟩
    · exact ⟨[], body, bodies, rfl, List.forall_mem_nil _, by simpa using valid⟩

theorem accounted_le_occupied (bodies : List (List UInt8)) :
    accounted bodies ≤ occupied bodies := by
  apply List.sum_le_sum
  intro body _
  exact Nat.add_le_add_right (length_stripCarriageReturn_le body) 1

theorem accounted_eq_occupied_iff (bodies : List (List UInt8)) :
    accounted bodies = occupied bodies ↔ ∀ body ∈ bodies, body.getLast? ≠ some carriageReturn := by
  induction bodies with
  | nil => simp [accounted, occupied]
  | cons body bodies ih =>
    have first := length_stripCarriageReturn_le body
    have later := accounted_le_occupied bodies
    rw [List.forall_mem_cons, ← ih, ← length_stripCarriageReturn_eq_iff]
    have accounted_cons : accounted (body :: bodies) =
        (stripCarriageReturn body).length + 1 + accounted bodies := rfl
    have occupied_cons : occupied (body :: bodies) = body.length + 1 + occupied bodies := rfl
    omega

/-- What is unread has only lines that are UTF-8 and end with a bare newline, and what
follows the last of them is empty or not UTF-8. -/
structure Deliverable (unread : List UInt8) : Prop where
  valid : ∀ body ∈ finished newline unread, (decode body).isSome = true
  bare : ∀ body ∈ finished newline unread, body.getLast? ≠ some carriageReturn
  rest : unfinished newline unread = [] ∨ decode (unfinished newline unread) = none

theorem readLines_rest_eq_nil_iff (rest : List UInt8) :
    (readLines (if rest = [] then [] else [rest])).lines = [] ↔ rest = [] ∨ decode rest = none := by
  by_cases nothing : rest = []
  · rw [if_pos nothing]
    exact iff_of_true rfl (.inl nothing)
  · rw [if_neg nothing, or_iff_right nothing, readLines, readLine]
    cases decode rest with
    | none => simp
    | some text => simp

theorem readLines_bytesRead_of_lines {pieces : List (List UInt8)}
    (nothing : (readLines pieces).lines = []) : (readLines pieces).bytesRead = 0 := by
  cases pieces with
  | nil => rfl
  | cons piece pieces =>
    rw [readLines] at nothing ⊢
    cases read : readLine piece with
    | none => rfl
    | some line =>
      rw [read] at nothing
      cases nothing

/-- The loop returns all finished lines and accounts for all their bytes exactly if what
is unread is deliverable. -/
theorem readLines_exact_iff (unread : List UInt8) :
    ((readLines (splitInclusive newline unread)).lines =
        (finished newline unread).filterMap lineText ∧
      (readLines (splitInclusive newline unread)).bytesRead = occupied (finished newline unread)) ↔
      Deliverable unread := by
  rw [splitInclusive_eq]
  by_cases valid : ∀ body ∈ finished newline unread, (decode body).isSome = true
  · have rest_iff := readLines_rest_eq_nil_iff (unfinished newline unread)
    rw [readLines_of_valid valid]
    simp only [List.append_right_eq_self]
    constructor
    · rintro ⟨nothing, bytes⟩
      rw [readLines_bytesRead_of_lines nothing, Nat.add_zero, accounted_eq_occupied_iff] at bytes
      exact ⟨valid, bytes, rest_iff.mp nothing⟩
    · intro deliverable
      have nothing := rest_iff.mpr deliverable.rest
      rw [readLines_bytesRead_of_lines nothing, Nat.add_zero, accounted_eq_occupied_iff]
      exact ⟨nothing, deliverable.bare⟩
  · refine iff_of_false ?_ fun deliverable => valid deliverable.valid
    rintro ⟨-, bytes⟩
    rcases exists_first_invalid valid with ⟨front, bad, back, split, earlier, invalid⟩
    have short := accounted_le_occupied front
    rw [split, List.map_append, List.append_assoc, readLines_of_valid earlier, List.map_cons,
      List.cons_append, readLines_of_invalid invalid] at bytes
    simp only [occupied, List.map_append, List.sum_append, List.map_cons, List.sum_cons]
      at bytes short
    omega

/-! ## One call -/

/-- A call has returned the finished lines behind the offset that are UTF-8, and has moved
the offset behind the last of them. -/
structure Exact (content : List UInt8) (offset : Nat)
    (result : Except ReadError (List (List Char)) × FileWatcher) : Prop where
  lines : result.1 = .ok ((finished newline (content.drop offset)).filterMap lineText)
  offset : result.2.offset + (unfinished newline (content.drop offset)).length = content.length

section Call

variable {content : List UInt8} (addressable : content.length < 2 ^ 64) {offset : Nat}

theorem readNewLines_still (inside : offset ≤ content.length) :
    let loop := readLines (splitInclusive newline (content.drop offset))
    (FileWatcher.mk offset).readNewLines (.opened (.still content addressable)) =
      (.ok loop.lines, ⟨offset + loop.bytesRead⟩) := by
  have notRotated : decide ((LogFile.still content addressable).fileLen < offset) = false :=
    decide_eq_false (Nat.not_lt.mpr inside)
  rw [FileWatcher.readNewLines, readNewLinesBlocking]
  simp only [notRotated, Bool.false_eq_true, if_false]
  by_cases atEnd : (LogFile.still content addressable).fileLen = offset
  · rw [if_pos atEnd, List.drop_eq_nil_of_le (le_of_eq atEnd)]
    rfl
  · rw [if_neg atEnd]
    rfl

theorem length_eq_occupied (unread : List UInt8) :
    unread.length = occupied (finished newline unread) + (unfinished newline unread).length := by
  conv_lhs => rw [finished_append_unfinished newline unread]
  rw [List.length_append, List.length_flatten, List.map_map, occupied]
  simp [Function.comp_def]

/-- A call is exact exactly if what is unread is deliverable. -/
theorem readNewLines_exact_iff (inside : offset ≤ content.length) :
    Exact content offset
        ((FileWatcher.mk offset).readNewLines (.opened (.still content addressable))) ↔
      Deliverable (content.drop offset) := by
  have length_eq := length_eq_occupied (content.drop offset)
  rw [List.length_drop] at length_eq
  rw [readNewLines_still addressable inside, ← readLines_exact_iff]
  constructor
  · rintro ⟨lines, offset_eq⟩
    refine ⟨Except.ok.inj lines, ?_⟩
    change offset + _ + _ = _ at offset_eq
    omega
  · rintro ⟨lines, bytes⟩
    refine ⟨congrArg Except.ok lines, ?_⟩
    change offset + _ + _ = _
    omega

end Call

/-! ## Consecutive calls -/

/-- Consecutive calls and their results. -/
def FileWatcher.readAll : FileWatcher → List FileAccess →
    List (Except ReadError (List (List Char))) × FileWatcher
  | watcher, [] => ([], watcher)
  | watcher, access :: accesses =>
    let result := watcher.readNewLines access
    let rest := readAll result.2 accesses
    (result.1 :: rest.1, rest.2)

/-- All lines that were returned. -/
def delivered (results : List (Except ReadError (List (List Char)))) : List (List Char) :=
  results.flatMap fun result => result.toOption.getD []

/-- Before every call of a run, what is unread is deliverable. -/
def RunDeliverable : FileWatcher → List LogFile → Prop
  | _, [] => True
  | watcher, file :: files =>
    Deliverable (file.content.drop watcher.offset) ∧
      RunDeliverable (watcher.readNewLines (.opened file)).2 files

/-- Every call of a run is exact. -/
def RunExact : FileWatcher → List LogFile → Prop
  | _, [] => True
  | watcher, file :: files =>
    Exact file.content watcher.offset (watcher.readNewLines (.opened file)) ∧
      RunExact (watcher.readNewLines (.opened file)).2 files

theorem exact_iff_of_isStill {watcher : FileWatcher} {file : LogFile} (isStill : file.IsStill)
    (inside : watcher.offset ≤ file.content.length) :
    Exact file.content watcher.offset (watcher.readNewLines (.opened file)) ↔
      Deliverable (file.content.drop watcher.offset) := by
  rcases isStill.eq_still with ⟨addressable, file_eq⟩
  rw [file_eq]
  exact readNewLines_exact_iff addressable inside

section Run

variable {watcher : FileWatcher} {first last : LogFile} {files : List LogFile}

/-- After an exact call, the next one starts at a line start. -/
theorem Exact.lineStart {later : LogFile}
    (exact_ : Exact first.content watcher.offset (watcher.readNewLines (.opened first)))
    (starts : LineStart newline first.content watcher.offset) (follows : first.Follows later) :
    LineStart newline later.content (watcher.readNewLines (.opened first)).2.offset :=
  (starts.behind_finished exact_.offset).2.1.extend follows.1

theorem runExact_iff (areStill : ∀ file ∈ first :: files, file.IsStill)
    (grows : (first :: files).Pairwise LogFile.Follows)
    (starts : LineStart newline first.content watcher.offset) :
    RunExact watcher (first :: files) ↔ RunDeliverable watcher (first :: files) := by
  induction files generalizing watcher first with
  | nil => exact and_congr_left' (exact_iff_of_isStill (areStill first List.mem_cons_self) starts.1)
  | cons second files ih =>
    rcases List.pairwise_cons.mp grows with ⟨follow, grows⟩
    rcases List.forall_mem_cons.mp areStill with ⟨isStill, areStill⟩
    rw [RunExact, RunDeliverable, ← exact_iff_of_isStill isStill starts.1]
    apply and_congr_right
    intro exact_
    exact ih areStill grows
      (exact_.lineStart starts (follow second List.mem_cons_self))

/-- Exact calls together return the finished lines of the file, each once and in order. -/
theorem delivered_of_runExact (grows : (first :: files).Pairwise LogFile.Follows)
    (starts : LineStart newline first.content watcher.offset)
    (exact_ : RunExact watcher (first :: files)) (isLast : last ∈ (first :: files).getLast?) :
    delivered (watcher.readAll ((first :: files).map .opened)).1 =
      (finished newline (last.content.drop watcher.offset)).filterMap lineText := by
  induction files generalizing watcher first with
  | nil =>
    cases isLast
    rw [List.map_cons, FileWatcher.readAll, delivered, List.flatMap_cons, exact_.1.lines]
    exact List.append_nil _
  | cons second files ih =>
    rw [List.getLast?_cons_cons] at isLast
    rcases List.pairwise_cons.mp grows with ⟨follow, grows⟩
    rcases starts.behind_finished exact_.1.offset with ⟨later, starts', lines⟩
    have follows := follow last (List.mem_of_getLast? isLast)
    have starts'' := exact_.1.lineStart starts follows
    have rest := ih grows
      (exact_.1.lineStart starts (follow second List.mem_cons_self)) exact_.2 isLast
    rw [List.map_cons, FileWatcher.readAll, delivered, List.flatMap_cons, ← delivered, rest,
      exact_.1.lines, ← between_length last.content watcher.offset,
      starts''.finished_between later starts''.1, List.filterMap_append,
      between_extend follows.1 starts'.1, lines, between_length]
    rfl

/-- In a run on a growing file, every call is exact exactly if what is unread is always
deliverable; then every finished line is returned once and in order.  The copy of the
ingest crate reads the same. -/
theorem runExact_iff_runDeliverable (areStill : ∀ file ∈ first :: files, file.IsStill)
    (grows : (first :: files).Pairwise LogFile.Follows) (isLast : last ∈ (first :: files).getLast?)
    (starts : LineStart newline first.content watcher.offset) :
    (RunExact watcher (first :: files) ↔ RunDeliverable watcher (first :: files)) ∧
    (RunDeliverable watcher (first :: files) →
      delivered (watcher.readAll ((first :: files).map .opened)).1 =
        (finished newline (last.content.drop watcher.offset)).filterMap lineText) ∧
    ∀ (watcher : FileWatcher) (access : FileAccess),
      watcher.ingestNewLines access = watcher.readNewLines access := by
  have exact_iff := runExact_iff areStill grows starts
  constructor
  · exact exact_iff
  · constructor
    · intro deliverable
      exact delivered_of_runExact grows starts (exact_iff.mpr deliverable) isLast
    · exact ingestNewLines_eq

end Run

/-- Two lines that are written one after the other. -/
theorem runExact_at_two_lines :
    let first := LogFile.still [97, 10] (by decide)
    let second := LogFile.still [97, 10, 98, 10] (by decide)
    RunExact ⟨0⟩ [first, second] ∧
      delivered ((FileWatcher.mk 0).readAll [.opened first, .opened second]).1 =
        [['a'], ['b']] := by
  intro first second
  have areStill : ∀ file ∈ [first, second], file.IsStill := by
    simp [first, second, LogFile.IsStill, LogFile.still]
  have grows : [first, second].Pairwise LogFile.Follows := by
    simp [first, second, LogFile.Follows, LogFile.still]
  have one : Deliverable [97, 10] := (readLines_exact_iff _).mp (by decide +kernel)
  have two : Deliverable [98, 10] := (readLines_exact_iff _).mp (by decide +kernel)
  have starts : LineStart newline first.content (FileWatcher.mk 0).offset := lineStart_zero _ _
  rcases runExact_iff_runDeliverable areStill grows rfl starts with ⟨exact_iff, delivers, -⟩
  exact ⟨exact_iff.mpr ⟨one, two, trivial⟩,
    (delivers ⟨one, two, trivial⟩).trans (by decide +kernel)⟩

/-- Three files that are not delivered exactly: a line that ends with a carriage return is
followed by an empty one, an unfinished line is returned in two parts, and a line that is
not UTF-8 hides the lines behind it. -/
theorem readNewLines_not_exact :
    delivered ((FileWatcher.mk 0).readAll [.opened (.still [97, 13, 10] (by decide)),
        .opened (.still [97, 13, 10, 98, 10] (by decide))]).1 = [['a'], [], ['b']] ∧
    delivered ((FileWatcher.mk 0).readAll [.opened (.still [97, 98] (by decide)),
        .opened (.still [97, 98, 99, 10] (by decide))]).1 = [['a', 'b'], []] ∧
    delivered ((FileWatcher.mk 0).readAll [.opened (.still [255, 10, 97, 10] (by decide)),
        .opened (.still [255, 10, 97, 10] (by decide))]).1 = [] := by
  decide +kernel

end HiveGuard.Sources.Firewall
