import Mathlib

/-!
# Scanning a stream of self-delimiting records

A scanner reads one record after the other and stops at the first position
where no record can be read.  It reports the values it read and how much of the
stream they take up.  Only two properties of the one-record reader matter: it
makes progress, and what it reads depends on the record's own bytes alone.

Cutting a stream where the scan stopped and continuing it with anything else
therefore keeps the values read so far, and a stream of whole records that was
cut anywhere yields exactly the records that lie before the cut.
-/

namespace HiveGuard.Library.RecordScan

universe u v

variable {α : Type u} {β : Type v}

/-- Read records until one cannot be read, at most `fuel` of them. -/
def scan (head : List β → Option (α × Nat)) : Nat → List β → List α × Nat
  | 0, _ => ([], 0)
  | fuel + 1, stream =>
    match head stream with
    | none => ([], 0)
    | some (value, size) =>
      let rest := scan head fuel (stream.drop size)
      (value :: rest.1, size + rest.2)

/-- A reader that makes progress within the stream and looks at its own record
only. -/
structure Delimited (head : List β → Option (α × Nat)) : Prop where
  size_pos : ∀ {stream value size}, head stream = some (value, size) → 0 < size
  size_le : ∀ {stream value size}, head stream = some (value, size) → size ≤ stream.length
  isolated : ∀ {stream value size}, head stream = some (value, size) →
    ∀ rest, head (stream.take size ++ rest) = some (value, size)

/-- The scan of a whole stream: no stream holds more records than elements. -/
def parse (head : List β → Option (α × Nat)) (stream : List β) : List α × Nat :=
  scan head stream.length stream

theorem parse_of_head_none {head : List β → Option (α × Nat)} {stream : List β}
    (stopped : head stream = none) : parse head stream = ([], 0) := by
  cases stream with
  | nil => rfl
  | cons element stream => simp [parse, scan, stopped]

section Delimited

variable {head : List β → Option (α × Nat)} (delimited : Delimited head)

include delimited

theorem head_nil : head [] = none := by
  cases read : head [] with
  | none => rfl
  | some record =>
    obtain ⟨value, size⟩ := record
    have positive := delimited.size_pos read
    have bounded := delimited.size_le read
    simp at bounded
    omega

/-- More fuel than elements changes nothing. -/
theorem scan_eq_of_length_le {fuel : Nat} {stream : List β}
    (enough : stream.length ≤ fuel) : scan head fuel stream = parse head stream := by
  suffices same : ∀ first second (stream : List β), stream.length ≤ first →
      stream.length ≤ second → scan head first stream = scan head second stream from
    same fuel stream.length stream enough (Nat.le_refl _)
  intro first
  induction first with
  | zero =>
    intro second stream firstEnough _
    have empty : stream = [] := List.eq_nil_of_length_eq_zero (Nat.le_zero.mp firstEnough)
    subst stream
    cases second with
    | zero => rfl
    | succ second => simp [scan, head_nil delimited]
  | succ first ih =>
    intro second stream firstEnough secondEnough
    cases second with
    | zero =>
      have empty : stream = [] :=
        List.eq_nil_of_length_eq_zero (Nat.le_zero.mp secondEnough)
      subst stream
      simp [scan, head_nil delimited]
    | succ second =>
      simp only [scan]
      cases read : head stream with
      | none => rfl
      | some record =>
        obtain ⟨value, size⟩ := record
        have positive := delimited.size_pos read
        have shorter : (stream.drop size).length ≤ stream.length - 1 := by
          rw [List.length_drop]
          omega
        simp only
        rw [ih second (stream.drop size) (by omega) (by omega)]

theorem parse_of_head_some {stream : List β} {value : α} {size : Nat}
    (read : head stream = some (value, size)) :
    parse head stream = (value :: (parse head (stream.drop size)).1,
        size + (parse head (stream.drop size)).2) := by
  have positive := delimited.size_pos read
  have bounded := delimited.size_le read
  obtain ⟨fuel, length_eq⟩ := Nat.exists_eq_succ_of_ne_zero
    (Nat.ne_of_gt (Nat.lt_of_lt_of_le positive bounded))
  have enough : (stream.drop size).length ≤ fuel := by
    rw [List.length_drop]
    omega
  rw [parse, length_eq, scan, read]
  simp only [scan_eq_of_length_le delimited enough]

/-- A whole record at the front is read first. -/
theorem parse_append_of_head {frame : List β} {value : α}
    (read : head frame = some (value, frame.length)) (rest : List β) :
    parse head (frame ++ rest) =
      (value :: (parse head rest).1, frame.length + (parse head rest).2) := by
  have readFront : head (frame ++ rest) = some (value, frame.length) := by
    simpa using delimited.isolated read rest
  rw [parse_of_head_some delimited readFront, List.drop_left]

/-- Induction along a scan: a property of the streams on which it stops that holds
of a stream whenever it holds behind its first record. -/
@[elab_as_elim]
theorem scan_induction {holds : List β → Prop}
    (stopped : ∀ stream, head stream = none → holds stream)
    (record : ∀ stream value size, head stream = some (value, size) →
      holds (stream.drop size) → holds stream) (stream : List β) : holds stream := by
  induction length : stream.length using Nat.strongRecOn generalizing stream with
  | _ total ih =>
    cases read : head stream with
    | none => exact stopped stream read
    | some found =>
      obtain ⟨value, size⟩ := found
      have positive := delimited.size_pos read
      have bounded := delimited.size_le read
      refine record stream value size read (ih _ ?_ _ rfl)
      rw [List.length_drop]
      omega

theorem parse_consumed_le (stream : List β) : (parse head stream).2 ≤ stream.length := by
  induction stream using scan_induction delimited with
  | stopped stream read => simp [parse_of_head_none read]
  | record stream value size read ih =>
    have bounded := delimited.size_le read
    rw [parse_of_head_some delimited read]
    rw [List.length_drop] at ih
    simp only
    omega

/-- Where a scan stopped is a record boundary: whatever follows is scanned as if
it stood alone. -/
theorem parse_take_append (stream rest : List β) :
    parse head (stream.take (parse head stream).2 ++ rest) =
      ((parse head stream).1 ++ (parse head rest).1,
        (parse head stream).2 + (parse head rest).2) := by
  induction stream using scan_induction delimited with
  | stopped stream read => simp [parse_of_head_none read]
  | record stream value size read ih =>
    have frameLength : (stream.take size).length = size :=
      List.length_take_of_le (delimited.size_le read)
    have frameRead : head (stream.take size) = some (value, (stream.take size).length) := by
      simpa [frameLength] using delimited.isolated read []
    rw [parse_of_head_some delimited read]
    simp only
    rw [List.take_add, List.append_assoc, parse_append_of_head delimited frameRead,
      ih, frameLength]
    simp [Nat.add_assoc]

end Delimited

/-! ## Streams of whole records -/

/-- `frame` is the record of `value`: it is read whole in front of anything, and
no proper part of it from the front is a record. -/
structure IsFrame (head : List β → Option (α × Nat)) (value : α) (frame : List β) :
    Prop where
  read : head frame = some (value, frame.length)
  torn : ∀ cut, cut < frame.length → head (frame.take cut) = none

/-- Scanning a concatenation of records, cut after `cut` elements, returns the
records that end at or before the cut. -/
theorem parse_flatten_take {head : List β → Option (α × Nat)} (delimited : Delimited head)
    {frame : α → List β} {values : List α}
    (framed : ∀ value ∈ values, IsFrame head value (frame value)) (cut : Nat) :
    ∃ kept, kept ≤ values.length ∧
      (parse head ((values.map frame).flatten.take cut)).1 = values.take kept ∧
      ∀ i, i < values.length →
        (i < kept ↔ ((values.take (i + 1)).map frame).flatten.length ≤ cut) := by
  induction values generalizing cut with
  | nil => exact ⟨0, Nat.le_refl _, by simp [parse, scan], by simp⟩
  | cons value values ih =>
    have first := framed value List.mem_cons_self
    by_cases whole : (frame value).length ≤ cut
    · obtain ⟨kept, kept_le, kept_eq, kept_iff⟩ := ih
        (fun later member => framed later (List.mem_cons_of_mem value member))
        (cut - (frame value).length)
      refine ⟨kept + 1, Nat.succ_le_succ kept_le, ?_, ?_⟩
      · rw [List.map_cons, List.flatten_cons, List.take_append,
          List.take_of_length_le whole, parse_append_of_head delimited first.read]
        simp [kept_eq]
      · intro i bound
        cases i with
        | zero => simp [whole]
        | succ i =>
          have later := kept_iff i (Nat.lt_of_succ_lt_succ bound)
          simp only [List.take_succ_cons, List.map_cons, List.flatten_cons,
            List.length_append]
          omega
    · refine ⟨0, Nat.zero_le _, ?_, ?_⟩
      · have cutInside : cut < (frame value).length := Nat.lt_of_not_le whole
        rw [List.map_cons, List.flatten_cons, List.take_append,
          Nat.sub_eq_zero_of_le (Nat.le_of_lt cutInside), List.take_zero, List.append_nil,
          parse_of_head_none (first.torn cut cutInside)]
        rfl
      · intro i bound
        simp only [List.take_succ_cons, List.map_cons, List.flatten_cons,
          List.length_append]
        omega

end HiveGuard.Library.RecordScan
