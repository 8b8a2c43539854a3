import HiveGuard.Library.Lines
import HiveGuard.Library.Run
import HiveGuard.Library.Utf8

/-!
# Frames on a syslog stream

Messages come over a stream either with the count of their octets before them or with a
newline behind them; the first byte says which.  The reader gets the stream in buffer fills
of any size.  Every point at which it waits for the next fill is a state of the machine
below, with what it has gathered so far.
-/

namespace HiveGuard.Sources

open Library.Lines Library.Run Library.Text
open StateTransition

/-! ## Buffer fills -/

/-- What filling the buffer gives; no bytes would be the end of the stream. -/
inductive Fill where
  | bytes (first : UInt8) (rest : List UInt8)
  | failed

/-- The fills that are still to come, the first of them possibly used in part. -/
abbrev Reader := List Fill

namespace Reader

/-- The buffer; it is empty at the end of the stream. -/
def fillBuf : Reader → Option (List UInt8)
  | [] => some []
  | .bytes first rest :: _ => some (first :: rest)
  | .failed :: _ => none

def consume (count : Nat) : Reader → Reader
  | [] => []
  | .bytes first rest :: fills =>
    match (first :: rest).drop count with
    | [] => fills
    | next :: more => .bytes next more :: fills
  | .failed :: fills => .failed :: fills

/-- The bytes that are still to come, if no fill fails. -/
def stream : Reader → Option (List UInt8)
  | [] => some []
  | .bytes first rest :: fills => (stream fills).map (first :: rest ++ ·)
  | .failed :: _ => none

def size : Reader → Nat
  | [] => 0
  | .bytes _ rest :: fills => rest.length + 1 + size fills
  | .failed :: fills => size fills

end Reader

/-! ## One frame -/

def maxUdpDatagram : Nat :=
  65535

inductive FrameError where
  | io
  | unexpectedEof
  | invalidData (message : String)
  deriving DecidableEq

inductive FrameState where
  | started
  | line (line : List UInt8)
  | counting (countStr : List Char)
  | filling (buf : List UInt8) (missing : Nat)
  | finished (result : Except FrameError (Option (List Char)))

def isAsciiDigit (byte : UInt8) : Bool :=
  onByte Char.isDigit byte

def newlineByte : UInt8 :=
  10

def spaceByte : UInt8 :=
  32

section Frame

-- What the lossy decoder makes of bytes that are not UTF-8.
variable (replaced : List UInt8 → List Char)

def fromUtf8Lossy (bytes : List UInt8) : List Char :=
  (decode bytes).getD (replaced bytes)

/-- The end of a line. -/
def finishLine (line : List UInt8) : FrameState :=
  match decode line with
  | some text => .finished (.ok (some text))
  | none => .finished (.error (.invalidData "syslog message is not UTF-8"))

/-- The end of the count: make room for the message. -/
def finishCount (countStr : List Char) : FrameState :=
  match parseUnsigned (2 ^ 64) countStr with
  | none => .finished (.error (.invalidData "invalid syslog octet count"))
  | some count =>
    if maxUdpDatagram < count then
      .finished (.error (.invalidData "syslog message exceeds maximum allowed size"))
    else
      .filling [] count

/-- Wait for the next fill; an empty one is the end of the stream. -/
def withFill (reader : Reader) (atEnd : FrameState)
    (next : UInt8 → List UInt8 → FrameState × Reader) : FrameState × Reader :=
  match reader.fillBuf with
  | none => (.finished (.error .io), reader.tail)
  | some [] => (atEnd, reader)
  | some (first :: rest) => next first rest

/-- How much of a fill belongs to the line. -/
def lineTake (buf : List UInt8) : Nat :=
  (buf.findIdx? (· == newlineByte)).elim buf.length (· + 1)

/-- The next part of a line. -/
def lineStep (line buf : List UInt8) (reader : Reader) : FrameState × Reader :=
  if maxUdpDatagram < line.length + lineTake buf then
    (.finished (.error (.invalidData "syslog message exceeds maximum allowed size")), reader)
  else
    let line := line ++ buf.take (lineTake buf)
    (if (buf.findIdx? (· == newlineByte)).isSome then finishLine line else .line line,
      reader.consume (lineTake buf))

def countStep (countStr : List Char) (byte : UInt8) : FrameState :=
  if byte = spaceByte then
    finishCount countStr
  else if isAsciiDigit byte then
    .counting (countStr ++ [Char.ofNat byte.toNat])
  else
    .finished (.error (.invalidData "invalid character in syslog octet count"))

/-- The next part of a message whose length is known. -/
def fillStep (gathered : List UInt8) (missing : Nat) (buf : List UInt8) (reader : Reader) :
    FrameState × Reader :=
  let take := min missing buf.length
  (.filling (gathered ++ buf.take take) (missing - take), reader.consume take)

/-- Go on to the next point at which the reader waits.  The length of the count is looked at
after a digit was added to it. -/
def frameStep : FrameState × Reader → Option (FrameState × Reader)
  | (.started, reader) =>
    some (withFill reader (.finished (.ok none)) fun first _ =>
      (if isAsciiDigit first then .counting [] else .line [], reader))
  | (.line line, reader) =>
    some (withFill reader (finishLine line) fun first rest =>
      lineStep line (first :: rest) reader)
  | (.counting countStr, reader) =>
    some (if 10 < countStr.length then
      (.finished (.error (.invalidData "syslog octet count field too long")), reader)
    else
      withFill reader (.finished (.ok none)) fun first _ =>
        (countStep countStr first, reader.consume 1))
  | (.filling gathered missing, reader) =>
    some (if missing = 0 then
      (.finished (.ok (some (fromUtf8Lossy replaced gathered))), reader)
    else
      withFill reader (.finished (.error .unexpectedEof)) fun first rest =>
        fillStep gathered missing (first :: rest) reader)
  | (.finished _, _) => none

/-- The result, once there is one. -/
def FrameState.result : FrameState → Option (Except FrameError (Option (List Char)))
  | .finished result => some result
  | _ => none

def readSyslogFrame (reader : Reader) :
    Option (Except FrameError (Option (List Char)) × Reader) :=
  let last := runFor (frameStep replaced) (reader.size + 2) (.started, reader)
  last.1.result.map (·, last.2)

/-- Repeated reading. -/
def readFrames : Nat → Reader → Option (List (Except FrameError (Option (List Char))))
  | 0, _ => some []
  | count + 1, reader => do
      let (result, reader) ← readSyslogFrame replaced reader
      let results ← readFrames count reader
      pure (result :: results)

end Frame

/-! ## Every reading ends -/

namespace Reader

variable {reader : Reader} {first : UInt8} {rest : List UInt8}

theorem eq_cons_of_fillBuf (filled : reader.fillBuf = some (first :: rest)) :
    ∃ fills, reader = .bytes first rest :: fills := by
  cases reader with
  | nil => cases filled
  | cons fill fills =>
    cases fill with
    | bytes first' rest' =>
      cases filled
      exact ⟨fills, rfl⟩
    | failed => cases filled

theorem size_consume_lt (filled : reader.fillBuf = some (first :: rest)) {count : Nat}
    (positive : 0 < count) : (reader.consume count).size < reader.size := by
  obtain ⟨fills, rfl⟩ := eq_cons_of_fillBuf filled
  have shorter := List.length_drop (i := count) (l := first :: rest)
  rw [List.length_cons] at shorter
  rw [consume]
  split
  · rw [size]
    omega
  · rename_i next more dropped
    rw [dropped, List.length_cons] at shorter
    rw [size, size]
    omega

theorem size_tail_le (reader : Reader) : size reader.tail ≤ reader.size := by
  cases reader with
  | nil => exact Nat.le_refl _
  | cons fill fills =>
    cases fill with
    | bytes first rest => exact Nat.le_add_left _ _
    | failed => exact Nat.le_refl _

theorem stream_cons {fills : Reader} {bytes : List UInt8}
    (streams : stream (.bytes first rest :: fills) = some bytes) :
    ∃ behind, fills.stream = some behind ∧ first :: rest ++ behind = bytes :=
  Option.map_eq_some_iff.mp streams

theorem consume_all (first : UInt8) (rest : List UInt8) (fills : Reader) :
    consume (first :: rest).length (.bytes first rest :: fills) = fills := by
  rw [consume, List.drop_length]

/-- Behind what was consumed of a fill comes the rest of the stream. -/
theorem stream_consume {fills : Reader} {behind taken left : List UInt8}
    (streams : fills.stream = some behind) (split : first :: rest = taken ++ left) :
    stream (consume taken.length (.bytes first rest :: fills)) = some (left ++ behind) := by
  rw [consume, split, List.drop_left]
  cases left with
  | nil => exact streams
  | cons next more =>
    rw [stream, streams]
    rfl

theorem eq_nil_of_stream (streams : reader.stream = some []) : reader = [] := by
  cases reader with
  | nil => rfl
  | cons fill fills =>
    cases fill with
    | failed => cases streams
    | bytes first chunk =>
      obtain ⟨behind, -, split⟩ := stream_cons streams
      cases split

/-- The next byte of the stream is the first of the buffer. -/
theorem exists_of_stream {byte : UInt8} {more : List UInt8}
    (streams : reader.stream = some (byte :: more)) :
    ∃ rest, reader.fillBuf = some (byte :: rest) ∧ (reader.consume 1).stream = some more := by
  cases reader with
  | nil => cases streams
  | cons fill fills =>
    cases fill with
    | failed => cases streams
    | bytes first chunk =>
      obtain ⟨behind, later, split⟩ := stream_cons streams
      obtain ⟨rfl, rfl⟩ := List.cons.inj split
      exact ⟨chunk, rfl, @stream_consume first chunk fills behind [first] chunk later rfl⟩

end Reader

def FrameState.rank : FrameState → Nat
  | .started => 2
  | .finished _ => 0
  | _ => 1

def frameWeight (config : FrameState × Reader) : Nat :=
  config.2.size + config.1.rank

theorem finishLine_finished (line : List UInt8) : ∃ result, finishLine line = .finished result := by
  rw [finishLine]
  split
  · exact ⟨_, rfl⟩
  · exact ⟨_, rfl⟩

theorem lineTake_pos (first : UInt8) (rest : List UInt8) : 0 < lineTake (first :: rest) := by
  rw [lineTake]
  cases (first :: rest).findIdx? (· == newlineByte) with
  | none => exact Nat.succ_pos _
  | some index => exact Nat.succ_pos _

/-- What a step can do. -/
inductive FrameMoves (reader : Reader) : FrameState → FrameState × Reader → Prop
  | stops {state : FrameState} (unfinished : 0 < state.rank)
      {result : Except FrameError (Option (List Char))} {after : Reader}
      (shorter : after.size ≤ reader.size) : FrameMoves reader state (.finished result, after)
  | begins {state : FrameState} (opening : state = .line [] ∨ state = .counting []) :
      FrameMoves reader .started (state, reader)
  | gathers {line part : List UInt8} (fits : (line ++ part).length ≤ maxUdpDatagram)
      {after : Reader} (shorter : after.size < reader.size) :
      FrameMoves reader (.line line) (.line (line ++ part), after)
  | counts {countStr : List Char} (short : countStr.length ≤ 10) (digit : Char)
      {after : Reader} (shorter : after.size < reader.size) :
      FrameMoves reader (.counting countStr) (.counting (countStr ++ [digit]), after)
  | allots {countStr : List Char} {count : Nat} (fits : count ≤ maxUdpDatagram)
      {after : Reader} (shorter : after.size < reader.size) :
      FrameMoves reader (.counting countStr) (.filling [] count, after)
  | fills {gathered part : List UInt8} {missing left : Nat} (fits : part.length + left = missing)
      {after : Reader} (shorter : after.size < reader.size) :
      FrameMoves reader (.filling gathered missing) (.filling (gathered ++ part) left, after)

variable {reader : Reader} {first : UInt8} {rest : List UInt8}

theorem withFill_moves {state atEnd : FrameState}
    {next : UInt8 → List UInt8 → FrameState × Reader} (unfinished : 0 < state.rank)
    (ends : ∃ result, atEnd = .finished result)
    (filled : ∀ first rest, reader.fillBuf = some (first :: rest) →
      FrameMoves reader state (next first rest)) :
    FrameMoves reader state (withFill reader atEnd next) := by
  rw [withFill]
  split
  · exact .stops unfinished (Reader.size_tail_le reader)
  · obtain ⟨result, rfl⟩ := ends
    exact .stops unfinished (Nat.le_refl _)
  · rename_i first rest isFilled
    exact filled first rest isFilled

theorem lineStep_moves (line : List UInt8) (filled : reader.fillBuf = some (first :: rest)) :
    FrameMoves reader (.line line) (lineStep line (first :: rest) reader) := by
  have shorter := Reader.size_consume_lt filled (lineTake_pos first rest)
  rw [lineStep]
  split
  · refine .stops ?_ (Nat.le_refl _)
    exact Nat.one_pos
  · rename_i fits
    split
    · obtain ⟨result, finished⟩ :=
        finishLine_finished (line ++ (first :: rest).take (lineTake (first :: rest)))
      simp only [finished]
      refine .stops ?_ shorter.le
      exact Nat.one_pos
    · refine .gathers ?_ shorter
      rw [List.length_append, List.length_take]
      omega

theorem countStep_moves {countStr : List Char} (short : countStr.length ≤ 10)
    (filled : reader.fillBuf = some (first :: rest)) :
    FrameMoves reader (.counting countStr) (countStep countStr first, reader.consume 1) := by
  have shorter := Reader.size_consume_lt filled Nat.one_pos
  rw [countStep]
  split
  · rw [finishCount]
    split
    · refine .stops ?_ shorter.le
      exact Nat.one_pos
    · split
      · refine .stops ?_ shorter.le
        exact Nat.one_pos
      · rename_i fits
        exact .allots (Nat.le_of_not_lt fits) shorter
  · split
    · exact .counts short _ shorter
    · refine .stops ?_ shorter.le
      exact Nat.one_pos

theorem fillStep_moves (gathered : List UInt8) {missing : Nat} (positive : missing ≠ 0)
    (filled : reader.fillBuf = some (first :: rest)) :
    FrameMoves reader (.filling gathered missing)
      (fillStep gathered missing (first :: rest) reader) := by
  have taken : 0 < min missing (first :: rest).length :=
    Nat.lt_min.mpr ⟨Nat.pos_of_ne_zero positive, Nat.succ_pos _⟩
  have length_eq : ((first :: rest).take (min missing (first :: rest).length)).length =
      min missing (first :: rest).length := by
    rw [List.length_take, Nat.min_eq_left (Nat.min_le_right _ _)]
  refine .fills ?_ (Reader.size_consume_lt filled taken)
  rw [length_eq]
  omega

section Steps

variable {replaced : List UInt8 → List Char}

theorem frameStep_moves {state : FrameState} {after : FrameState × Reader}
    (stepped : frameStep replaced (state, reader) = some after) :
    FrameMoves reader state after := by
  cases state with
  | finished result => cases stepped
  | started =>
    cases stepped
    refine withFill_moves Nat.two_pos ⟨_, rfl⟩ fun first rest _ => .begins ?_
    split
    · exact .inr rfl
    · exact .inl rfl
  | line line =>
    cases stepped
    exact withFill_moves Nat.one_pos (finishLine_finished line)
      fun first rest => lineStep_moves line
  | counting countStr =>
    cases stepped
    split
    · refine .stops ?_ (Nat.le_refl _)
      exact Nat.one_pos
    · rename_i short
      exact withFill_moves Nat.one_pos ⟨_, rfl⟩
        fun first rest => countStep_moves (Nat.le_of_not_lt short)
  | filling gathered missing =>
    cases stepped
    split
    · refine .stops ?_ (Nat.le_refl _)
      exact Nat.one_pos
    · rename_i positive
      exact withFill_moves Nat.one_pos ⟨_, rfl⟩ fun first rest => fillStep_moves gathered positive

theorem frameWeight_falls (before after : FrameState × Reader)
    (stepped : frameStep replaced before = some after) :
    frameWeight after < frameWeight before := by
  obtain ⟨state, reader⟩ := before
  cases frameStep_moves stepped with
  | stops unfinished shorter => exact Nat.add_lt_add_of_le_of_lt shorter unfinished
  | begins opening => rcases opening with rfl | rfl <;> exact Nat.lt_succ_self _
  | gathers fits shorter => exact Nat.add_lt_add_right shorter _
  | counts short digit shorter => exact Nat.add_lt_add_right shorter _
  | allots fits shorter => exact Nat.add_lt_add_right shorter _
  | fills fits shorter => exact Nat.add_lt_add_right shorter _

/-- The bytes of a message and the digits of a count that are held in a state. -/
def FrameState.Bounded : FrameState → Prop
  | .line gathered => gathered.length ≤ maxUdpDatagram
  | .counting countStr => countStr.length ≤ 11
  | .filling gathered missing => gathered.length + missing ≤ maxUdpDatagram
  | .started => True
  | .finished _ => True

theorem bounded_kept (before after : FrameState × Reader)
    (stepped : frameStep replaced before = some after) (bounded : before.1.Bounded) :
    after.1.Bounded := by
  obtain ⟨state, reader⟩ := before
  cases frameStep_moves stepped with
  | stops unfinished shorter => trivial
  | begins opening => rcases opening with rfl | rfl <;> exact Nat.zero_le _
  | gathers fits shorter => exact fits
  | counts short digit shorter =>
    change (_ ++ [digit]).length ≤ 11
    rw [List.length_append, List.length_singleton]
    omega
  | allots fits shorter =>
    change [].length + _ ≤ maxUdpDatagram
    rw [List.length_nil, Nat.zero_add]
    exact fits
  | @fills gathered part missing left fits _ shorter =>
    change gathered.length + missing ≤ maxUdpDatagram at bounded
    change (gathered ++ part).length + left ≤ maxUdpDatagram
    rw [List.length_append]
    omega

/-! ## Frames are read as they were sent -/

theorem lineTake_of_not_mem {buf : List UInt8} (clean : newlineByte ∉ buf) :
    buf.findIdx? (· == newlineByte) = none ∧ lineTake buf = buf.length := by
  have none_found : buf.findIdx? (· == newlineByte) = none := by
    rw [List.findIdx?_eq_none_iff]
    intro byte member
    rw [beq_eq_false_iff_ne]
    rintro rfl
    exact clean member
  exact ⟨none_found, by rw [lineTake, none_found]; rfl⟩

theorem lineTake_of_line {body : List UInt8} (clean : newlineByte ∉ body) (more : List UInt8) :
    (body ++ newlineByte :: more).findIdx? (· == newlineByte) = some body.length ∧
      lineTake (body ++ newlineByte :: more) = (body ++ [newlineByte]).length := by
  have found : (body ++ newlineByte :: more).findIdx? (· == newlineByte) = some body.length := by
    rw [List.findIdx?_append, (lineTake_of_not_mem clean).1, List.findIdx?_cons]
    simp
  refine ⟨found, ?_⟩
  rw [lineTake, found]
  change body.length + 1 = _
  rw [List.length_append, List.length_singleton]

/-- A fill without a newline is added to the line. -/
theorem frameStep_line_open {chunk line : List UInt8}
    (clean : newlineByte ∉ first :: chunk) (fills : Reader)
    (fits : line.length + (first :: chunk).length ≤ maxUdpDatagram) :
    frameStep replaced (.line line, .bytes first chunk :: fills) =
      some (.line (line ++ first :: chunk), fills) := by
  obtain ⟨none_found, take_eq⟩ := lineTake_of_not_mem clean
  change some (lineStep line (first :: chunk) _) = _
  rw [lineStep, take_eq, if_neg (Nat.not_lt.mpr fits), none_found, List.take_length,
    Reader.consume_all]
  rfl

/-- A fill with a newline ends the line. -/
theorem frameStep_line_end {chunk line body more : List UInt8}
    (clean : newlineByte ∉ body) (split : first :: chunk = body ++ newlineByte :: more)
    (fills : Reader) (fits : line.length + (body ++ [newlineByte]).length ≤ maxUdpDatagram) :
    frameStep replaced (.line line, .bytes first chunk :: fills) =
      some (finishLine (line ++ (body ++ [newlineByte])),
        Reader.consume (body ++ [newlineByte]).length (.bytes first chunk :: fills)) := by
  obtain ⟨found, take_eq⟩ := lineTake_of_line clean more
  have taken : (first :: chunk).take (body ++ [newlineByte]).length = body ++ [newlineByte] := by
    rw [split, List.append_cons body newlineByte more, List.take_left]
  rw [← split] at found take_eq
  change some (lineStep line (first :: chunk) _) = _
  rw [lineStep, take_eq, if_neg (Nat.not_lt.mpr fits), found, taken]
  rfl

theorem reaches_line {body : List UInt8} (clean : newlineByte ∉ body) {line : List UInt8}
    (streams : reader.stream = some (body ++ newlineByte :: rest))
    (fits : line.length + (body ++ [newlineByte]).length ≤ maxUdpDatagram) :
    ∃ after, Reaches (frameStep replaced) (.line line, reader)
        (finishLine (line ++ (body ++ [newlineByte])), after) ∧ after.stream = some rest := by
  induction reader generalizing line body with
  | nil => simp [Reader.stream] at streams
  | cons fill fills ih =>
    cases fill with
    | failed => cases streams
    | bytes first chunk =>
      obtain ⟨behind, later, split⟩ := Reader.stream_cons streams
      by_cases present : newlineByte ∈ first :: chunk
      · obtain ⟨body', more, chunk_eq, clean'⟩ := List.eq_append_cons_of_mem present
        rw [chunk_eq, List.append_assoc] at split
        obtain ⟨rfl, rest_eq⟩ := (append_separator_inj clean' clean).mp split
        refine ⟨_, Reaches.head (frameStep_line_end clean chunk_eq fills fits) .refl, ?_⟩
        rw [List.append_cons] at chunk_eq
        rw [Reader.stream_consume later chunk_eq]
        exact congrArg some rest_eq
      · -- The newline comes with a later fill.
        have inBehind : newlineByte ∈ behind := by
          have member : newlineByte ∈ first :: chunk ++ behind := by
            rw [split]
            exact List.mem_append_right _ List.mem_cons_self
          exact (List.mem_append.mp member).resolve_left present
        obtain ⟨middle, rest', behind_eq, clean'⟩ := List.eq_append_cons_of_mem inBehind
        rw [behind_eq, ← List.append_assoc] at split
        have clean'' : newlineByte ∉ first :: chunk ++ middle :=
          fun member => (List.mem_append.mp member).elim present clean'
        obtain ⟨rfl, rfl⟩ := (append_separator_inj clean'' clean).mp split
        rw [List.append_assoc, List.length_append] at fits
        have stepped := @frameStep_line_open first replaced chunk line present fills (by omega)
        obtain ⟨after, reaches, streamed⟩ := @ih middle clean'
          (line ++ first :: chunk) (later.trans (congrArg some behind_eq))
          (by rw [List.length_append]; omega)
        refine ⟨after, Reaches.head stepped ?_, streamed⟩
        rw [List.append_assoc (first :: chunk), ← List.append_assoc line]
        exact reaches

theorem frameStep_counting {countStr : List Char} (short : countStr.length ≤ 10) {byte : UInt8}
    (filled : reader.fillBuf = some (byte :: rest)) :
    frameStep replaced (.counting countStr, reader) =
      some (countStep countStr byte, reader.consume 1) := by
  rw [frameStep, if_neg (Nat.not_lt.mpr short), withFill, filled]

/-- The digits of a count up to the space behind them. -/
theorem reaches_counting {digits : List Char} (areDigits : ∀ digit ∈ digits, digit.isDigit = true)
    {countStr : List Char} (short : countStr.length + digits.length ≤ 10)
    (streams : reader.stream = some (encode digits ++ spaceByte :: rest)) :
    ∃ after, Reaches (frameStep replaced) (.counting countStr, reader)
        (finishCount (countStr ++ digits), after) ∧ after.stream = some rest := by
  induction digits generalizing countStr reader with
  | nil =>
    obtain ⟨chunk, filled, later⟩ := Reader.exists_of_stream streams
    have stepped := @frameStep_counting _ _ replaced countStr short _ filled
    rw [countStep, if_pos rfl] at stepped
    rw [List.append_nil]
    exact ⟨_, Reaches.head stepped .refl, later⟩
  | cons digit digits ih =>
    rw [List.forall_mem_cons] at areDigits
    have small := (isDigit_iff digit).mp areDigits.1
    have ascii : digit.toNat < 128 := by omega
    rw [encode_cons, utf8EncodeChar_of_ascii ascii] at streams
    obtain ⟨chunk, filled, later⟩ := Reader.exists_of_stream streams
    rw [List.length_cons] at short
    have stepped := @frameStep_counting _ _ replaced countStr (by omega) _ filled
    have counted : countStep countStr (UInt8.ofNat digit.toNat) =
        .counting (countStr ++ [digit]) := by
      have byte_eq : (UInt8.ofNat digit.toNat).toNat = digit.toNat :=
        UInt8.toNat_ofNat_of_lt' (by rw [UInt8.size]; omega)
      have notSpace : UInt8.ofNat digit.toNat ≠ spaceByte := by
        intro same
        rw [same] at byte_eq
        change 32 = digit.toNat at byte_eq
        omega
      rw [countStep, if_neg notSpace, isAsciiDigit, onByte, byte_eq, Char.ofNat_toNat,
        areDigits.1, if_pos rfl]
    rw [counted] at stepped
    obtain ⟨after, reaches, streamed⟩ := @ih _ areDigits.2 (countStr ++ [digit])
      (by rw [List.length_append, List.length_singleton]; omega) later
    refine ⟨after, Reaches.head stepped ?_, streamed⟩
    rw [List.append_cons countStr digit digits]
    exact reaches

theorem frameStep_filling_zero (gathered : List UInt8) (reader : Reader) :
    frameStep replaced (.filling gathered 0, reader) =
      some (.finished (.ok (some (fromUtf8Lossy replaced gathered))), reader) :=
  rfl

/-- As much of a fill as is missing is added to the message. -/
theorem frameStep_filling (gathered : List UInt8) {missing : Nat} (positive : missing ≠ 0)
    (first : UInt8) (chunk : List UInt8) (fills : Reader) :
    frameStep replaced (.filling gathered missing, .bytes first chunk :: fills) =
      some (fillStep gathered missing (first :: chunk) (.bytes first chunk :: fills)) := by
  rw [frameStep, if_neg positive]
  rfl

/-- A message of a known length. -/
theorem reaches_filling {gathered message : List UInt8}
    (streams : reader.stream = some (message ++ rest)) :
    ∃ after, Reaches (frameStep replaced) (.filling gathered message.length, reader)
        (.finished (.ok (some (fromUtf8Lossy replaced (gathered ++ message)))), after) ∧
      after.stream = some rest := by
  induction reader generalizing gathered message with
  | nil =>
    obtain ⟨rfl, rfl⟩ := List.append_eq_nil_iff.mp (Option.some.inj streams).symm
    rw [List.append_nil]
    exact ⟨_, Reaches.head (frameStep_filling_zero gathered _) .refl, rfl⟩
  | cons fill fills ih =>
    by_cases nothing : message = []
    · subst nothing
      rw [List.append_nil]
      exact ⟨_, Reaches.head (frameStep_filling_zero gathered _) .refl, streams⟩
    · have positive : message.length ≠ 0 := fun zero => nothing (List.length_eq_zero_iff.mp zero)
      cases fill with
      | failed => cases streams
      | bytes first chunk =>
        obtain ⟨behind, later, split⟩ := Reader.stream_cons streams
        have stepped := @frameStep_filling replaced gathered _ positive first chunk fills
        rw [fillStep] at stepped
        rcases List.append_eq_append_iff.mp split with
          ⟨middle, rfl, behind_eq⟩ | ⟨middle, chunk_eq, rest_eq⟩
        · -- The fill is used up.
          rw [List.length_append, Nat.min_eq_right (Nat.le_add_right _ _), List.take_length,
            Nat.add_sub_cancel_left, Reader.consume_all] at stepped
          obtain ⟨after, reaches, streamed⟩ := @ih
            (gathered ++ first :: chunk) middle (later.trans (congrArg some behind_eq))
          refine ⟨after, ?_, streamed⟩
          rw [List.length_append, ← List.append_assoc]
          exact Reaches.head stepped reaches
        · -- The message ends in the fill.
          have enough : message.length ≤ (first :: chunk).length := by
            rw [chunk_eq, List.length_append]
            omega
          have streamed := Reader.stream_consume later chunk_eq
          rw [Nat.min_eq_left enough, Nat.sub_self] at stepped
          have taken : (first :: chunk).take message.length = message := by
            rw [chunk_eq, List.take_left]
          rw [taken] at stepped
          exact ⟨_, Reaches.head stepped (Reaches.head (frameStep_filling_zero _ _) .refl),
            streamed.trans (congrArg some rest_eq.symm)⟩

end Steps

/-- A message as it is sent, with a count before it or a newline behind it. -/
inductive Frame where
  | counted (text : List Char)
  | line (text : List Char)

namespace Frame

def bytes : Frame → List UInt8
  | .counted text => encode (Nat.toDigits 10 (byteLength text)) ++ spaceByte :: encode text
  | .line text => encode (text ++ ['\n'])

/-- What is read of it; the newline stays. -/
def message : Frame → List Char
  | .counted text => text
  | .line text => text ++ ['\n']

def Allowed : Frame → Prop
  | .counted text => byteLength text ≤ maxUdpDatagram
  | .line text => byteLength (text ++ ['\n']) ≤ maxUdpDatagram ∧ '\n' ∉ text ∧
      ∀ first ∈ text.head?, first.isDigit = false

end Frame

section Exact

variable {replaced : List UInt8 → List Char}

theorem frameStep_started {byte : UInt8} {more : List UInt8}
    (streams : reader.stream = some (byte :: more)) :
    frameStep replaced (.started, reader) =
      some (if isAsciiDigit byte then .counting [] else .line [], reader) := by
  obtain ⟨chunk, filled, -⟩ := Reader.exists_of_stream streams
  rw [frameStep, withFill, filled]

theorem reaches_counted {text : List Char} (fits : byteLength text ≤ maxUdpDatagram)
    (streams : reader.stream = some (Frame.bytes (.counted text) ++ rest)) :
    ∃ after, Reaches (frameStep replaced) (.started, reader)
        (.finished (.ok (some text)), after) ∧ after.stream = some rest := by
  have numeral := numeral_toDigits (byteLength text)
  have areDigits : ∀ digit ∈ Nat.toDigits 10 (byteLength text), digit.isDigit = true :=
    fun digit member => Nat.isDigit_of_mem_toDigits (by decide) (by decide) member
  have short : ([] : List Char).length + (Nat.toDigits 10 (byteLength text)).length ≤ 10 := by
    rw [List.length_nil, Nat.zero_add, Nat.length_toDigits_le_iff (by decide) (by decide)]
    exact fits.trans_lt (by decide)
  have counted : finishCount (Nat.toDigits 10 (byteLength text)) =
      .filling [] (encode text).length := by
    have below : byteLength text < 2 ^ 64 := fits.trans_lt (by decide)
    rw [finishCount, (parseUnsigned_eq_some_iff (by decide)).mpr ⟨numeral, below⟩, length_encode]
    exact if_neg (Nat.not_lt.mpr fits)
  rw [Frame.bytes, List.append_assoc, List.cons_append] at streams
  obtain ⟨counting, reachesCount, streamed⟩ :=
    @reaches_counting _ _ replaced _ areDigits [] short streams
  rw [List.nil_append, counted] at reachesCount
  obtain ⟨after, reachesEnd, streamed'⟩ := @reaches_filling _ _ replaced [] _ streamed
  rw [List.nil_append, fromUtf8Lossy, decode_encode, Option.getD_some] at reachesEnd
  refine ⟨after, ?_, streamed'⟩
  have begins : frameStep replaced (.started, reader) = some (.counting [], reader) := by
    obtain ⟨digit, digits, digits_eq⟩ := List.exists_cons_of_ne_nil
      (Nat.toDigits_ne_nil : Nat.toDigits 10 (byteLength text) ≠ [])
    rw [digits_eq] at streams areDigits
    have isDigit := areDigits digit List.mem_cons_self
    have small := (isDigit_iff digit).mp isDigit
    have ascii : digit.toNat < 128 := by omega
    rw [encode_cons, utf8EncodeChar_of_ascii ascii] at streams
    rw [frameStep_started streams, isAsciiDigit, onByte,
      UInt8.toNat_ofNat_of_lt' (by rw [UInt8.size]; omega), Char.ofNat_toNat, isDigit, if_pos rfl]
  exact Reaches.head begins (Relation.ReflTransGen.trans reachesCount reachesEnd)

theorem encode_newline : encode ['\n'] = [newlineByte] := by
  decide

theorem newlineByte_not_mem_encode {text : List Char} (clean : '\n' ∉ text) :
    newlineByte ∉ encode text :=
  fun member => clean ((@mem_encode_iff '\n' text (by decide)).mp member)

theorem reaches_newline {text : List Char} (allowed : (Frame.line text).Allowed)
    (streams : reader.stream = some (Frame.bytes (.line text) ++ rest)) :
    ∃ after, Reaches (frameStep replaced) (.started, reader)
        (.finished (.ok (some (text ++ ['\n']))), after) ∧ after.stream = some rest := by
  obtain ⟨fits, clean, noDigit⟩ := allowed
  rw [Frame.bytes, encode_append, encode_newline, List.append_assoc,
    List.singleton_append] at streams
  rw [← length_encode, encode_append, encode_newline] at fits
  obtain ⟨after, reaches, streamed⟩ := @reaches_line _ _ replaced _
    (newlineByte_not_mem_encode clean) [] streams
    (by rw [List.length_nil, Nat.zero_add]; exact fits)
  have finished : finishLine (encode text ++ [newlineByte]) =
      .finished (.ok (some (text ++ ['\n']))) := by
    rw [← encode_newline, ← encode_append, finishLine, decode_encode]
  rw [List.nil_append, finished] at reaches
  refine ⟨after, Reaches.head ?_ reaches, streamed⟩
  have firstByte : ∃ byte more, encode text ++ newlineByte :: rest = byte :: more ∧
      isAsciiDigit byte = false := by
    cases text with
    | nil => exact ⟨newlineByte, rest, rfl, by decide⟩
    | cons char text =>
      cases bytes : String.utf8EncodeChar char with
      | nil => exact absurd bytes String.utf8EncodeChar_ne_nil
      | cons byte more =>
        have member : byte ∈ String.utf8EncodeChar char := bytes ▸ List.mem_cons_self
        refine ⟨byte, _, by rw [encode_cons, bytes]; rfl, ?_⟩
        rw [isAsciiDigit, onByte_of_mem asciiTest_isDigit member]
        exact noDigit char rfl
  obtain ⟨byte, more, bytes_eq, notDigit⟩ := firstByte
  rw [bytes_eq] at streams
  rw [frameStep_started streams, notDigit, if_neg Bool.false_ne_true]

theorem reaches_frame {frame : Frame} (allowed : frame.Allowed)
    (streams : reader.stream = some (frame.bytes ++ rest)) :
    ∃ after, Reaches (frameStep replaced) (.started, reader)
        (.finished (.ok (some frame.message)), after) ∧ after.stream = some rest := by
  cases frame with
  | counted text => exact reaches_counted allowed streams
  | line text => exact reaches_newline allowed streams

/-- A state in which the machine stops is what reading a frame returns. -/
theorem readSyslogFrame_of_reaches {after : Reader}
    {result : Except FrameError (Option (List Char))}
    (reaches : Reaches (frameStep replaced) (.started, reader) (.finished result, after)) :
    readSyslogFrame replaced reader = some (result, after) := by
  have enough : frameWeight (.started, reader) ≤ reader.size + 2 := Nat.le_refl _
  rw [readSyslogFrame, runFor_eq_of_reaches frameWeight_falls enough reaches rfl]
  rfl

/-- Reading a frame always comes to a result. -/
theorem readSyslogFrame_returns (replaced : List UInt8 → List Char) (reader : Reader) :
    ∃ result, readSyslogFrame replaced reader = some result := by
  have enough : frameWeight (.started, reader) ≤ reader.size + 2 := Nat.le_refl _
  obtain ⟨reaches, halts⟩ := reaches_runFor (@frameWeight_falls replaced) enough
  cases last : runFor (frameStep replaced) (reader.size + 2) (.started, reader) with
  | mk state after =>
    rw [last] at reaches halts
    cases state with
    | finished result => exact ⟨_, readSyslogFrame_of_reaches reaches⟩
    | started => cases halts
    | line line => cases halts
    | counting countStr => cases halts
    | filling gathered missing => cases halts

theorem readFrames_exact {frames : List Frame} (allowed : ∀ frame ∈ frames, frame.Allowed)
    (streams : reader.stream = some (frames.flatMap Frame.bytes)) :
    readFrames replaced (frames.length + 1) reader =
      some (frames.map (fun frame => .ok (some frame.message)) ++ [.ok none]) := by
  induction frames generalizing reader with
  | nil =>
    obtain rfl := Reader.eq_nil_of_stream streams
    have ends : frameStep replaced (.started, []) = some (.finished (.ok none), []) := rfl
    rw [List.length_nil, readFrames, readSyslogFrame_of_reaches (Reaches.head ends .refl)]
    rfl
  | cons frame frames ih =>
    rw [List.forall_mem_cons] at allowed
    rw [List.flatMap_cons] at streams
    obtain ⟨after, reaches, streamed⟩ := reaches_frame allowed.1 streams
    rw [readFrames, readSyslogFrame_of_reaches reaches]
    change (readFrames replaced (frames.length + 1) after >>= _) = _
    rw [ih allowed.2 streamed]
    rfl

/-- Framing is exact.  However the stream is cut into fills, all frames are read in order, and
then its end.  Whatever the stream is, reading a frame comes to a result, and no more than a
message of the maximal size or a count of eleven digits is ever gathered. -/
theorem framing_is_exact (replaced : List UInt8 → List Char) :
    (∀ (frames : List Frame) (reader : Reader), (∀ frame ∈ frames, frame.Allowed) →
      reader.stream = some (frames.flatMap Frame.bytes) →
      readFrames replaced (frames.length + 1) reader =
        some (frames.map (fun frame => .ok (some frame.message)) ++ [.ok none])) ∧
    (∀ reader : Reader, (∃ result, readSyslogFrame replaced reader = some result) ∧
      ∀ config, Reaches (frameStep replaced) (.started, reader) config → config.1.Bounded) := by
  constructor
  · intro frames reader allowed streams
    exact readFrames_exact allowed streams
  · intro reader
    refine ⟨readSyslogFrame_returns replaced reader, ?_⟩
    intro config reaches
    exact @Reaches.keeps _ _ _ _ (fun config => config.1.Bounded) bounded_kept reaches trivial

end Exact

/-- A counted message and a line, cut inside the count and inside a character. -/
theorem framing_is_exact_at_two_frames :
    readFrames (fun _ => []) 3
        [.bytes 49 [], .bytes 49 [32, 60, 51, 52, 62, 195], .bytes 169 [97, 98, 99, 100, 101],
          .bytes 60 [51], .bytes 53 [62, 98, 10]] =
      some [.ok (some ['<', '3', '4', '>', 'é', 'a', 'b', 'c', 'd', 'e']),
        .ok (some ['<', '3', '5', '>', 'b', '\n']), .ok none] := by
  refine (framing_is_exact fun _ => []).1
    [.counted ['<', '3', '4', '>', 'é', 'a', 'b', 'c', 'd', 'e'], .line ['<', '3', '5', '>', 'b']]
    _ ?_ (by decide +kernel)
  intro frame member
  rcases List.mem_pair.mp member with rfl | rfl
  · exact Nat.le_of_ble_eq_true rfl
  · exact ⟨Nat.le_of_ble_eq_true rfl, by simp, by simp⟩

end HiveGuard.Sources
