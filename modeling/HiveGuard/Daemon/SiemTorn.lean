import HiveGuard.Daemon.SiemBuffer

/-!
# Interrupted pushes to the retry buffer

A push that fails may have appended a part of its lines.  What a later push appends then
stands behind a torn line, in the same line of the file, and a part that ends inside a
character makes the whole file unreadable.
-/

namespace HiveGuard.Daemon.PersistentBuffer

open Library Library.Fitting Library.Lines Library.Text

/-- A push, and how many bytes it appended if it was interrupted. -/
structure Attempt (Event : Type) where
  events : List Event
  stopped : Option Nat

def newlineByte : UInt8 :=
  UInt8.ofNat '\n'.toNat

section Attempts

variable {Event : Type} (json : JsonCodec Event) (maxBytes : Nat)

/-- The bytes an attempt appends. -/
def Attempt.written (attempt : Attempt Event) : List UInt8 :=
  match attempt.stopped with
  | none => encode (blob json attempt.events)
  | some count => (encode (blob json attempt.events)).take count

def written (attempts : List (Attempt Event)) : List UInt8 :=
  attempts.flatMap (Attempt.written json)

def pushAttempts :
    Option (List UInt8) → List (Attempt Event) → Machine (Option (List UInt8))
  | file, [] => pure file
  | file, attempt :: attempts => do
      let file ← push json maxBytes file attempt.events (attempt.stopped.map .writing) none
      pushAttempts file attempts

/-- The events of a text with the positions of their lines. -/
def positionedEvents (content : List Char) : List (Nat × Event) :=
  (positioned byteLength 0 (splitInclusive '\n' content)).filterMap fun entry =>
    (parseLine json (stripLineEnd entry.2)).map fun event => (entry.1, event)

/-- What draining a file returns, with the positions in the file. -/
def drainPositions (file : Option (List UInt8)) : List (Nat × Event) :=
  ((file.bind decode).map (positionedEvents json)).getD []

theorem map_snd_positionedEvents (content : List Char) :
    (positionedEvents json content).map Prod.snd = parseLines json content := by
  have pieces := @map_snd_positioned _ byteLength 0 (splitInclusive '\n' content)
  rw [parseLines, textLines, ← pieces, positionedEvents, List.map_filterMap, List.map_map,
    List.filterMap_map]
  apply List.filterMap_congr
  rintro ⟨position, piece⟩ _
  cases parsed : parseLine json (stripLineEnd piece) <;> simp [parsed]

/-- Draining returns the events of the positions. -/
theorem drain_eq (file : Option (List UInt8)) :
    (drain json false false file).1 = (drainPositions json file).map Prod.snd := by
  cases file with
  | none => rfl
  | some bytes =>
    rw [drain, drainPositions, Option.bind_some]
    cases decode bytes with
    | none => rfl
    | some content => exact (map_snd_positionedEvents json content).symm

/-! ## Where an event is read from -/

variable {json maxBytes}

variable {content line : List Char} {event : Event} {file : Option (List UInt8)}
  {attempts : List (Attempt Event)}

theorem sum_byteLength (pieces : List (List Char)) :
    (pieces.map byteLength).sum = byteLength pieces.flatten := by
  induction pieces with
  | nil => rfl
  | cons piece pieces ih =>
    rw [List.map_cons, List.sum_cons, ih, List.flatten_cons,
      byteLength_append]

/-- An event that is returned stands in a line of its own. -/
theorem endsLine_of_mem_positionedEvents {position : Nat}
    (returned : (position, event) ∈ positionedEvents json content) :
    ∃ before after, content = before ++ after ∧ byteLength before = position ∧
      EndsLine '\n' before := by
  obtain ⟨⟨start, piece⟩, member, parsed⟩ := List.mem_filterMap.mp returned
  obtain ⟨_, _, same⟩ := Option.map_eq_some_iff.mp parsed
  cases same
  obtain ⟨before, after, split, position_eq⟩ := mem_positioned_iff.mp member
  have lines := isLines_splitInclusive '\n' content
  rw [split] at lines
  refine ⟨before.flatten, (piece :: after).flatten, ?_, ?_, endsLine_flatten lines.isLine_of_mem⟩
  · rw [← List.flatten_append, ← split, flatten_splitInclusive]
  · rw [position_eq, sum_byteLength, Nat.zero_add]

/-- An event in a line of its own is returned. -/
theorem mem_positionedEvents {before after : List Char}
    (starts : EndsLine '\n' before) (encoded : json.toString event = some line) :
    (byteLength before, event) ∈ positionedEvents json (before ++ ((line ++ ['\n']) ++ after)) := by
  have plain : Plain line := json.noControl event line encoded
  have clean : '\n' ∉ line := fun member => absurd (plain '\n' member) (by decide)
  have split : splitInclusive '\n' (before ++ ((line ++ ['\n']) ++ after)) =
      splitInclusive '\n' before ++ (line ++ ['\n']) :: splitInclusive '\n' after := by
    rw [splitInclusive_append starts, splitInclusive_append (endsLine_concat '\n' line),
      splitInclusive_line clean, List.singleton_append]
  rw [positionedEvents, List.mem_filterMap]
  refine ⟨(byteLength before, line ++ ['\n']), ?_, ?_⟩
  · rw [split, mem_positioned_iff]
    refine ⟨_, _, rfl, ?_⟩
    rw [sum_byteLength, flatten_splitInclusive, Nat.zero_add]
  · dsimp only
    rw [plain.stripLineEnd, parseLine_of_toString encoded]
    rfl

/-! ## Lines and bytes -/

theorem endsLine_encode {text : List Char} (ends : EndsLine '\n' text) :
    EndsLine newlineByte (encode text) := by
  rcases List.eq_nil_or_concat' text with rfl | ⟨front, last, rfl⟩
  · exact endsLine_nil _
  · obtain rfl : last = '\n' := ends last List.getLast?_concat
    rw [encode_append]
    exact endsLine_concat newlineByte (encode front)

/-- A text can be cut where its bytes have the end of a line. -/
theorem exists_text_of_endsLine {text : List Char} {front back : List UInt8}
    (ends : EndsLine newlineByte front) (same : encode text = front ++ back) :
    ∃ before after, text = before ++ after ∧ encode before = front ∧ encode after = back ∧
      EndsLine '\n' before := by
  rcases List.eq_nil_or_concat' front with rfl | ⟨body, last, rfl⟩
  · exact ⟨[], text, rfl, rfl, same, endsLine_nil _⟩
  · obtain rfl : last = newlineByte := ends last List.getLast?_concat
    rw [List.append_assoc, List.singleton_append] at same
    obtain ⟨before, after, rfl, rfl, rfl⟩ :=
      @eq_append_of_encode_eq '\n' _ (by decide) _ _ same
    refine ⟨before ++ ['\n'], after, by simp, ?_, rfl, endsLine_concat _ _⟩
    rw [encode_append]
    rfl

/-! ## Completed pushes -/

theorem blob_append (front back : List Event) :
    blob json (front ++ back) = blob json front ++ blob json back := by
  rw [blob, List.filterMap_append, List.flatMap_append]
  rfl

theorem blob_cons (encoded : json.toString event = some line)
    (events : List Event) : blob json (event :: events) = (line ++ ['\n']) ++ blob json events := by
  rw [blob, List.filterMap_cons_some encoded, List.flatMap_cons]
  rfl

theorem endsLine_blob (events : List Event) : EndsLine '\n' (blob json events) := by
  induction events with
  | nil => exact endsLine_nil '\n'
  | cons event events ih =>
    cases encoded : json.toString event with
    | none =>
      rw [blob, List.filterMap_cons_none encoded]
      exact ih
    | some line =>
      rw [blob_cons encoded]
      exact (endsLine_concat '\n' line).append ih

/-- A file that does not exist is drained like an empty one. -/
theorem drainPositions_eq (file : Option (List UInt8)) :
    drainPositions json file = ((decode (file.getD [])).map (positionedEvents json)).getD [] := by
  cases file with
  | none =>
    have empty : decode [] = some [] := decode_encode []
    rw [Option.getD_none, empty]
    rfl
  | some bytes => rfl

/-- The event of a line is returned exactly when the line starts behind the end of one. -/
theorem mem_drainPositions_iff {front back : List UInt8} (encoded : json.toString event = some line)
    (content : file.getD [] = front ++ (encode (line ++ ['\n']) ++ back)) :
    (front.length, event) ∈ drainPositions json file ↔
      (decode (file.getD [])).isSome ∧ EndsLine newlineByte front := by
  rw [drainPositions_eq]
  cases decoded : decode (file.getD []) with
  | none => simp
  | some text =>
    rw [decode_eq_some_iff] at decoded
    rw [decoded] at content
    rw [Option.map_some, Option.getD_some]
    constructor
    · intro returned
      refine ⟨rfl, ?_⟩
      obtain ⟨before, after, rfl, position, ends⟩ := endsLine_of_mem_positionedEvents returned
      rw [encode_append] at content
      have sizes : (encode before).length = front.length := by rw [length_encode, position]
      obtain ⟨rfl, -⟩ := List.append_inj content sizes
      exact endsLine_encode ends
    · rintro ⟨-, ends⟩
      obtain ⟨before, rest, rfl, rfl, same, beforeEnds⟩ := exists_text_of_endsLine ends content
      rw [encode_append, List.append_assoc] at same
      obtain ⟨found, after, rfl, sameLine, -⟩ :=
        @eq_append_of_encode_eq '\n' _ (by decide) _ back same
      obtain rfl : line = found := (encode_injective sameLine).symm
      have line_eq : line ++ '\n' :: after = (line ++ ['\n']) ++ after :=
        List.append_cons line '\n' after
      rw [length_encode, line_eq]
      exact mem_positionedEvents beforeEnds encoded

/-- Every event of every completed push is returned, at the place where the push wrote it. -/
def ReturnsCompleted (json : JsonCodec Event) (attempts : List (Attempt Event))
    (file : Option (List UInt8)) : Prop :=
  ∀ front attempt back, attempts = front ++ attempt :: back → attempt.stopped = none →
    ∀ before event after, attempt.events = before ++ event :: after →
      (json.toString event).isSome →
        ((written json front ++ encode (blob json before)).length, event) ∈
          drainPositions json file

/-- No push is completed behind a torn line, or with a torn character in the file. -/
def NotTorn (json : JsonCodec Event) (attempts : List (Attempt Event)) : Prop :=
  ∀ front attempt back, attempts = front ++ attempt :: back → attempt.stopped = none →
    blob json attempt.events ≠ [] →
      (decode (written json attempts)).isSome ∧ EndsLine newlineByte (written json front)

theorem written_append_cons {attempt : Attempt Event} (completed : attempt.stopped = none)
    (front back : List (Attempt Event)) :
    written json (front ++ attempt :: back) =
      written json front ++ (encode (blob json attempt.events) ++ written json back) := by
  rw [written, List.flatMap_append, List.flatMap_cons, Attempt.written, completed]
  rfl

/-- A push that writes something has a first event that it writes. -/
theorem exists_first_of_blob {events : List Event} (something : blob json events ≠ []) :
    ∃ before event after, events = before ++ event :: after ∧ (json.toString event).isSome ∧
      blob json before = [] := by
  induction events with
  | nil => exact absurd rfl something
  | cons event events ih =>
    cases encoded : json.toString event with
    | some line => exact ⟨[], event, events, rfl, by rw [encoded]; rfl, rfl⟩
    | none =>
      have skip : ∀ others, blob json (event :: others) = blob json others := by
        intro others
        rw [blob, List.filterMap_cons_none encoded]
        rfl
      rw [skip] at something
      obtain ⟨before, other, after, rfl, isSome, nothing⟩ := ih something
      exact ⟨event :: before, other, after, rfl, isSome, by rw [skip, nothing]⟩

theorem returnsCompleted_iff (content : file.getD [] = written json attempts) :
    ReturnsCompleted json attempts file ↔ NotTorn json attempts := by
  -- The place of an event in the file, for both directions.
  have place : ∀ {front attempt back before event after},
      attempts = front ++ attempt :: back → attempt.stopped = none →
      attempt.events = before ++ event :: after → (json.toString event).isSome →
      (((written json front ++ encode (blob json before)).length, event) ∈
          drainPositions json file ↔
        (decode (written json attempts)).isSome ∧
          EndsLine newlineByte (written json front ++ encode (blob json before))) := by
    intro front attempt back before event after split completed events isSome
    obtain ⟨line, encoded⟩ := Option.isSome_iff_exists.mp isSome
    rw [← content]
    apply mem_drainPositions_iff encoded
    · rw [content, split, written_append_cons completed, events, blob_append,
        blob_cons encoded, encode_append, encode_append (line ++ ['\n'])]
      simp only [List.append_assoc]
      rfl
  constructor
  · intro returns front attempt back split completed something
    obtain ⟨before, event, after, events, isSome, nothing⟩ := exists_first_of_blob something
    have stands := (place split completed events isSome).mp
      (returns front attempt back split completed before event after events isSome)
    rwa [nothing, encode_nil, List.append_nil] at stands
  · intro notTorn front attempt back split completed before event after events isSome
    have something : blob json attempt.events ≠ [] := by
      obtain ⟨line, encoded⟩ := Option.isSome_iff_exists.mp isSome
      rw [events, blob_append, blob_cons encoded]
      simp
    obtain ⟨readable, ends⟩ := notTorn front attempt back split completed something
    rw [place split completed events isSome]
    exact ⟨readable, ends.append (endsLine_encode (endsLine_blob before))⟩

theorem push_of_le {attempt : Attempt Event}
    (within : (file.getD [] ++ attempt.written json).length ≤ maxBytes) :
    ∃ next, push json maxBytes file attempt.events (attempt.stopped.map .writing) none =
        pure next ∧ next.getD [] = file.getD [] ++ attempt.written json := by
  rcases attempt with ⟨events, stopped⟩
  cases events with
  | nil =>
    refine ⟨file, rfl, ?_⟩
    cases stopped with
    | none => exact (List.append_nil _).symm
    | some count => simp [Attempt.written, blob]
  | cons event events =>
    cases stopped with
    | none =>
      refine ⟨some (file.getD [] ++ encode (blob json (event :: events))), ?_, rfl⟩
      rw [push, List.isEmpty_cons, if_neg Bool.false_ne_true]
      exact if_neg (Nat.not_lt_of_le within)
    | some count => exact ⟨_, rfl, rfl⟩

/-- Within the limit nothing is pruned. -/
theorem pushAttempts_of_le (within : (file.getD [] ++ written json attempts).length ≤ maxBytes) :
    ∃ last, pushAttempts json maxBytes file attempts = pure last ∧
      last.getD [] = file.getD [] ++ written json attempts := by
  induction attempts generalizing file with
  | nil => exact ⟨file, rfl, (List.append_nil _).symm⟩
  | cons attempt attempts ih =>
    have whole : written json (attempt :: attempts) =
        attempt.written json ++ written json attempts := rfl
    rw [whole, ← List.append_assoc] at within ⊢
    have first : (file.getD [] ++ attempt.written json).length ≤ maxBytes := by
      rw [List.length_append] at within
      exact (Nat.le_add_right _ _).trans within
    obtain ⟨next, run, content⟩ := push_of_le first
    rw [← content] at within ⊢
    obtain ⟨last, rest, lastContent⟩ := ih within
    exact ⟨last, by rw [pushAttempts, run, Machine.pure_bind, rest], lastContent⟩

/-! ## Pruning a torn file -/

def returnByte : UInt8 :=
  UInt8.ofNat '\r'.toNat

theorem pruneLoop_value_suffix (currentSize : Nat) (lines : List (List Char)) :
    (pruneLoop maxBytes currentSize lines).value <:+ lines := by
  induction lines generalizing currentSize with
  | nil => exact List.suffix_rfl
  | cons line lines ih =>
    rw [pruneLoop]
    split
    · exact List.suffix_rfl
    · rw [Machine.value_bind]
      exact (ih _).trans (List.suffix_cons line lines)

/-- The size counter underflows when a line without an end is dropped. -/
theorem pruneLoop_overflowed (lines : List (List Char)) (tail : List Char) :
    (pruneLoop maxBytes (total lineSize lines + byteLength tail) (lines ++ [tail])).overflowed =
      decide (maxBytes < byteLength tail) := by
  induction lines with
  | nil =>
    rw [List.nil_append, pruneLoop]
    split
    · rename_i fits
      rw [total, List.map_nil, List.sum_nil, Nat.zero_add] at fits
      rw [Machine.overflowed_pure, decide_eq_false (Nat.not_lt_of_le fits)]
    · rename_i exceeds
      rw [total, List.map_nil, List.sum_nil, Nat.zero_add] at exceeds ⊢
      have underflows : (shrink (byteLength tail) (byteLength tail + 1)).overflowed = true := by
        rw [shrink, if_neg (Nat.not_succ_le_self _)]
      rw [Machine.overflowed_bind, underflows, decide_eq_true (Nat.lt_of_not_le exceeds)]
      rfl
  | cons line lines ih =>
    rw [List.cons_append, pruneLoop]
    split
    · rename_i fits
      have tailFits : ¬ maxBytes < byteLength tail := by omega
      rw [Machine.overflowed_pure, decide_eq_false tailFits]
    · have step : shrink (total lineSize (line :: lines) + byteLength tail)
          (byteLength line + 1) = pure (total lineSize lines + byteLength tail) := by
        rw [shrink, total_cons, lineSize, if_pos (by omega), Nat.add_assoc,
          Nat.add_sub_cancel_left]
      rw [step, Machine.pure_bind, ih]

theorem pruneToLimit_overflowed {bytes : List UInt8} (decoded : decode bytes = some content) :
    (pruneToLimit maxBytes (some bytes) none).overflowed =
      (pruneLoop maxBytes bytes.length (textLines content)).overflowed := by
  simp only [pruneToLimit, decoded, reduceCtorEq, if_false]
  split
  · rename_i nothing
    rw [nothing]
    rfl
  · rw [Machine.overflowed_bind]
    split
    · exact Bool.or_false _
    · exact Bool.or_false _

theorem stripLineEnd_subset (piece : List Char) : stripLineEnd piece ⊆ piece := by
  rw [stripLineEnd]
  split
  · split
    · exact List.Subset.trans (List.dropLast_subset _) (List.dropLast_subset _)
    · exact List.dropLast_subset _
  · exact List.Subset.refl _

theorem mem_of_mem_textLines {char : Char}
    (isLine : line ∈ textLines content) (member : char ∈ line) : char ∈ content := by
  obtain ⟨piece, isPiece, rfl⟩ := List.mem_map.mp isLine
  rw [← flatten_splitInclusive '\n' content]
  exact List.mem_flatten.mpr ⟨piece, isPiece, stripLineEnd_subset piece member⟩

theorem textLines_eq (noReturn : '\r' ∉ content) :
    textLines content = finished '\n' content ++
      if unfinished '\n' content = [] then [] else [unfinished '\n' content] := by
  have stripped : ∀ line, '\r' ∉ line → stripLineEnd (line ++ ['\n']) = line := by
    intro line clean
    rw [stripLineEnd, if_pos List.getLast?_concat, List.dropLast_concat,
      if_neg fun last => clean (List.mem_of_getLast? last)]
  have lines : ((finished '\n' content).map (· ++ ['\n'])).map stripLineEnd =
      finished '\n' content := by
    rw [List.map_map]
    refine (List.map_congr_left ?_).trans (List.map_id _)
    intro line member
    obtain ⟨before, after, split, -, -⟩ := mem_finished member
    exact stripped line fun inside => noReturn (by rw [split]; simp [inside])
  have tail : stripLineEnd (unfinished '\n' content) = unfinished '\n' content := by
    rw [stripLineEnd, if_neg fun last =>
      not_mem_unfinished '\n' content (List.mem_of_getLast? last)]
  rw [textLines, splitInclusive_eq, List.map_append, lines]
  split
  · rfl
  · rw [List.map_singleton, tail]

theorem byteLength_eq (content : List Char) :
    byteLength content =
      total lineSize (finished '\n' content) + byteLength (unfinished '\n' content) := by
  conv_lhs => rw [finished_append_unfinished '\n' content, byteLength_append]
  rw [← byteLength_unlines, unlines, List.flatMap_def]

/-- Pruning underflows exactly on a text whose torn line is longer than the limit. -/
theorem pruneToLimit_overflowed_iff (noReturn : returnByte ∉ file.getD []) :
    (pruneToLimit maxBytes file none).overflowed = false ↔
      ∀ content, decode (file.getD []) = some content →
        byteLength (unfinished '\n' content) ≤ maxBytes := by
  cases file with
  | none =>
    have empty : decode [] = some [] := decode_encode []
    simp [pruneToLimit, empty, unfinished, splitInclusive, byteLength]
  | some bytes =>
    rw [Option.getD_some] at noReturn ⊢
    cases decoded : decode bytes with
    | none => simp [pruneToLimit, decoded]
    | some content =>
      have bytes_eq := decode_eq_some_iff.mp decoded
      have clean : '\r' ∉ content := by
        intro member
        rw [bytes_eq] at noReturn
        exact noReturn ((mem_encode_iff (by decide)).mpr member)
      have size : bytes.length = total lineSize (finished '\n' content) +
          byteLength (unfinished '\n' content) := by
        rw [bytes_eq, length_encode, byteLength_eq]
      simp only [Option.some.injEq, forall_eq']
      rw [pruneToLimit_overflowed decoded, textLines_eq clean, size]
      by_cases whole : unfinished '\n' content = []
      · rw [if_pos whole, whole, List.append_nil, byteLength_nil, Nat.add_zero, pruneLoop_eq]
        exact iff_of_true rfl (Nat.zero_le _)
      · rw [if_neg whole, pruneLoop_overflowed, decide_eq_false_iff_not, Nat.not_lt]

theorem return_not_mem_unlines {lines : List (List Char)} (clean : ∀ line ∈ lines, '\r' ∉ line) :
    '\r' ∉ unlines lines := by
  intro member
  obtain ⟨line, isLine, inside⟩ := List.mem_flatMap.mp member
  rcases List.mem_append.mp inside with inLine | isNewline
  · exact clean line isLine inLine
  · exact absurd (List.mem_singleton.mp isNewline) (by decide)

theorem returnByte_not_mem_pruneToLimit (noReturn : returnByte ∉ file.getD []) :
    returnByte ∉ (pruneToLimit maxBytes file none).value.getD [] := by
  cases file with
  | none => exact noReturn
  | some bytes =>
    rw [Option.getD_some] at noReturn
    cases decoded : decode bytes with
    | none => simpa [pruneToLimit, decoded] using noReturn
    | some content =>
      have cleanText : '\r' ∉ content := by
        intro member
        rw [decode_eq_some_iff.mp decoded] at noReturn
        exact noReturn ((mem_encode_iff (by decide)).mpr member)
      have kept := @pruneLoop_value_suffix maxBytes bytes.length (textLines content)
      have clean : '\r' ∉ unlines
          (pruneLoop maxBytes bytes.length (textLines content)).value :=
        return_not_mem_unlines fun line isLine inside =>
          cleanText (mem_of_mem_textLines (kept.subset isLine) inside)
      simp only [pruneToLimit, decoded, reduceCtorEq, if_false]
      split
      · exact noReturn
      · rw [Machine.value_bind]
        split
        · exact List.not_mem_nil
        · rename_i something
          rw [intercalate_eq_unlines something]
          exact fun member => clean ((mem_encode_iff (by decide)).mp member)

theorem returnByte_not_mem_push (noReturn : returnByte ∉ file.getD []) (attempt : Attempt Event) :
    returnByte ∉ (push json maxBytes file attempt.events (attempt.stopped.map .writing)
      none).value.getD [] := by
  have clean : returnByte ∉ encode (blob json attempt.events) := by
    rw [returnByte, mem_encode_iff (by decide)]
    refine return_not_mem_unlines fun line isLine inside => ?_
    exact absurd (plain_of_mem_lines isLine '\r' inside) (by decide)
  rcases attempt with ⟨events, stopped⟩
  rw [push]
  split
  · exact noReturn
  · cases stopped with
    | none =>
      have appended : returnByte ∉ file.getD [] ++ encode (blob json events) :=
        List.not_mem_append noReturn clean
      dsimp only [Option.map_none]
      split
      · exact returnByte_not_mem_pruneToLimit appended
      · exact appended
    | some count =>
      exact List.not_mem_append noReturn fun member => clean (List.mem_of_mem_take member)

/-- No carriage return gets into the file. -/
theorem returnByte_not_mem_pushAttempts
    (noReturn : returnByte ∉ file.getD []) (attempts : List (Attempt Event)) :
    returnByte ∉ (pushAttempts json maxBytes file attempts).value.getD [] := by
  induction attempts generalizing file with
  | nil => exact noReturn
  | cons attempt attempts ih =>
    rw [pushAttempts, Machine.value_bind]
    exact ih (returnByte_not_mem_push noReturn attempt)

end Attempts

/-- What a torn write costs.  After pushes of which some stopped within their bytes, the file
being within the limit, draining returns every event of every completed push exactly when no
push was completed behind a torn line or in a file with a torn character.  Pruning the file
does not underflow exactly when the torn line at its end is not longer than the limit. -/
theorem torn_pushes_iff {Event : Type} (json : JsonCodec Event) (maxBytes : Nat)
    (attempts : List (Attempt Event)) :
    (let file := (pushAttempts json maxBytes none attempts).value
    ((written json attempts).length ≤ maxBytes → ReturnsCompleted json attempts file) ∧
      (pruneToLimit maxBytes file none).overflowed = false) ↔
    (((written json attempts).length ≤ maxBytes → NotTorn json attempts) ∧
      ∀ content, decode ((pushAttempts json maxBytes none attempts).value.getD []) = some content →
        byteLength (unfinished '\n' content) ≤ maxBytes) := by
  have noReturn : returnByte ∉
      (pushAttempts json maxBytes none attempts).value.getD [] :=
    returnByte_not_mem_pushAttempts List.not_mem_nil attempts
  refine and_congr (imp_congr_right ?_) (pruneToLimit_overflowed_iff noReturn)
  intro within
  obtain ⟨last, run, content⟩ := @pushAttempts_of_le _ json maxBytes none attempts within
  rw [run]
  exact returnsCompleted_iff content

/-- Events without content. -/
def emptyObjects : JsonCodec Unit where
  toString _ := some ['\x7b', '\x7d']
  fromStr line := if line = ['\x7b', '\x7d'] then some () else none
  isObject := by
    rintro - line ⟨⟩
    exact ⟨rfl, rfl⟩
  noControl := by
    rintro - line ⟨⟩ char member
    rcases List.mem_pair.mp member with rfl | rfl
    · decide
    · decide
  fromStr_toString := by
    rintro - line ⟨⟩
    rfl

/-- A push that stopped after one byte costs the event of the next one, which completed, and
one that stopped before the end of the line makes pruning underflow. -/
theorem torn_pushes_lose_and_underflow :
    ((written emptyObjects [⟨[()], some 1⟩, ⟨[()], none⟩]).length ≤ 100 ∧
      (drain emptyObjects false false
        (pushAttempts emptyObjects 100 none [⟨[()], some 1⟩, ⟨[()], none⟩]).value).1 = []) ∧
    (pruneToLimit 1 (pushAttempts emptyObjects 1 none [⟨[()], some 2⟩]).value
      none).overflowed = true := by
  decide +kernel

end HiveGuard.Daemon.PersistentBuffer
