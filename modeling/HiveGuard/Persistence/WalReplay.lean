import HiveGuard.Library.RecordScan
import HiveGuard.Persistence.Wal

/-!
# What replay returns

The replay loop is the scan of a record stream.  A record is read from its own
bytes alone, so the offset the reader reports is a record boundary; a record
that lost bytes at its end is not read at all.
-/

namespace HiveGuard.Persistence

open Library.Encoding Library.RecordScan

namespace WalReader

variable (env : Externals)

/-- The one-record reader of the log: the entry and the bytes it takes up. -/
def recordHead (file : Bytes) : Option (WalEntry × Nat) :=
  (readRecord env file).map fun read => (read.1, 4 + read.2 + 4)

theorem readExact_append {front : Bytes} (rest : Bytes) {count : Nat}
    (length_eq : front.length = count) :
    readExact count (front ++ rest) = some (front, rest) := by
  subst count
  simp [readExact]

variable {file bytes : Bytes}

theorem readExact_eq_some {count : Nat} {front rest : Bytes}
    (read : readExact count file = some (front, rest)) :
    file = front ++ rest ∧ front.length = count := by
  simp only [readExact] at read
  split at read
  · rename_i enough
    cases read
    exact ⟨(List.take_append_drop count file).symm, List.length_take_of_le enough⟩
  · contradiction

variable {entry : WalEntry}

/-- A record is read exactly when the file starts with a length within bounds,
a payload of that length that decodes completely, and its checksum. -/
theorem readRecord_eq_some_iff {length : Nat} :
    readRecord env file = some (entry, length) ↔ ∃ lenBuf payload crcBuf rest : Bytes,
        file = lenBuf ++ (payload ++ (crcBuf ++ rest)) ∧
          lenBuf.length = 4 ∧ fromLeBytes lenBuf = length ∧ length ≤ walMaxRecordSize ∧
          payload.length = length ∧ crcBuf.length = 4 ∧
          fromLeBytes crcBuf = (env.crc32 payload).val ∧
          env.wal.decode payload = .ok (entry, []) := by
  constructor
  · intro read
    simp only [readRecord, Option.bind_eq_bind, Option.bind_eq_some_iff] at read
    obtain ⟨⟨lenBuf, afterLen⟩, lenRead, read⟩ := read
    obtain ⟨file_eq, lenLength⟩ := readExact_eq_some lenRead
    split at read
    · simp at read
    · rename_i bounded
      simp only [Option.bind_eq_some_iff] at read
      obtain ⟨⟨payload, afterPayload⟩, payloadRead, ⟨crcBuf, rest⟩, crcRead, read⟩ := read
      obtain ⟨afterLen_eq, payloadLength⟩ := readExact_eq_some payloadRead
      obtain ⟨rfl, crcLength⟩ : afterPayload = crcBuf ++ rest ∧ crcBuf.length = 4 :=
        readExact_eq_some crcRead
      split at read
      · simp at read
      · rename_i checksum
        split at read
        · rename_i decoded
          simp only [Option.some.injEq, Prod.mk.injEq] at read
          obtain ⟨rfl, rfl⟩ := read
          exact ⟨lenBuf, payload, crcBuf, rest,
            by rw [file_eq, afterLen_eq], lenLength, rfl,
            Nat.le_of_not_lt bounded, payloadLength, crcLength,
            Decidable.not_not.mp checksum, decoded⟩
        · contradiction
  · rintro ⟨lenBuf, payload, crcBuf, rest, rfl, lenLength, rfl, bounded, payloadLength,
      crcLength, checksum, decoded⟩
    simp [readRecord, readExact_append _ lenLength, readExact_append _ payloadLength,
      readExact_append _ crcLength, Nat.not_lt.mpr bounded, checksum, decoded]

theorem recordHead_eq_some_iff {size : Nat} :
    recordHead env file = some (entry, size) ↔
      ∃ length, readRecord env file = some (entry, length) ∧ size = 4 + length + 4 := by
  simp only [recordHead, Option.map_eq_some_iff, Prod.mk.injEq, Prod.exists]
  constructor
  · rintro ⟨read, length, found, rfl, rfl⟩
    exact ⟨length, found, rfl⟩
  · rintro ⟨length, found, rfl⟩
    exact ⟨entry, length, found, rfl, rfl⟩

theorem recordHead_delimited : Delimited (recordHead env) where
  size_pos := by
    intro file entry size read
    obtain ⟨length, -, rfl⟩ := (recordHead_eq_some_iff env).mp read
    omega
  size_le := by
    intro file entry size read
    obtain ⟨length, found, rfl⟩ := (recordHead_eq_some_iff env).mp read
    obtain ⟨lenBuf, payload, crcBuf, rest, rfl, lenLength, -, -, payloadLength, crcLength,
      -, -⟩ := (readRecord_eq_some_iff env).mp found
    simp only [List.length_append]
    omega
  isolated := by
    intro file entry size read rest
    obtain ⟨length, found, rfl⟩ := (recordHead_eq_some_iff env).mp read
    obtain ⟨lenBuf, payload, crcBuf, tail, rfl, lenLength, lenValue, bounded,
      payloadLength, crcLength, checksum, decoded⟩ := (readRecord_eq_some_iff env).mp found
    have size_eq : (lenBuf ++ (payload ++ crcBuf)).length = 4 + length + 4 := by
      simp only [List.length_append]
      omega
    have taken : (lenBuf ++ (payload ++ (crcBuf ++ tail))).take (4 + length + 4) =
        lenBuf ++ (payload ++ crcBuf) := by
      rw [← List.append_assoc payload, ← List.append_assoc lenBuf (payload ++ crcBuf)]
      exact List.take_left' size_eq
    rw [taken]
    apply (recordHead_eq_some_iff env).mpr
    refine ⟨length, (readRecord_eq_some_iff env).mpr ?_, rfl⟩
    exact ⟨lenBuf, payload, crcBuf, rest, by simp, lenLength, lenValue, bounded,
      payloadLength, crcLength, checksum, decoded⟩

/-- The loop with accumulators is the scan of the remaining file. -/
theorem replayLoop_eq (rounds : Nat) (file : Bytes) (entries : List WalEntry) (validEnd : Nat) :
    replayLoop env rounds file entries validEnd = (entries ++ (scan (recordHead env) rounds file).1,
        validEnd + (scan (recordHead env) rounds file).2) := by
  induction rounds generalizing file entries validEnd with
  | zero => simp [replayLoop, scan]
  | succ rounds ih =>
    simp only [replayLoop, scan, recordHead]
    cases read : readRecord env file with
    | none => simp
    | some found =>
      obtain ⟨entry, length⟩ := found
      simp only [Option.map_some]
      rw [ih]
      simp [Nat.add_assoc]

theorem replayWithOffset_some (file : Bytes) :
    replayWithOffset env (some file) = parse (recordHead env) file := by
  simp [replayWithOffset, replayLoop_eq, parse]

/-- Whether the file is missing or empty makes no difference to replay. -/
theorem replayWithOffset_getD (file : Option Bytes) :
    replayWithOffset env (some (file.getD [])) = replayWithOffset env file := by
  cases file with
  | none => rfl
  | some bytes => rfl

/-- The file consists of whole records only. -/
def Clean (file : Bytes) : Prop :=
  (replayWithOffset env (some file)).2 = file.length

theorem clean_nil : Clean env [] :=
  rfl

/-- Everything the reader accepted, and nothing else. -/
theorem clean_take (file : Bytes) :
    Clean env (file.take (replayWithOffset env (some file)).2) := by
  have bounded := parse_consumed_le (recordHead_delimited env) file
  have kept := parse_take_append (recordHead_delimited env) file []
  rw [List.append_nil] at kept
  rw [Clean, replayWithOffset_some, replayWithOffset_some, kept,
    List.length_take_of_le bounded]
  simp [parse, scan]

/-- Behind whole records the reader starts afresh. -/
theorem replayWithOffset_append (clean : Clean env file) (rest : Bytes) :
    replayWithOffset env (some (file ++ rest)) = (replay env (some file) ++ replay env (some rest),
        file.length + (replayWithOffset env (some rest)).2) := by
  have kept := parse_take_append (recordHead_delimited env) file rest
  simp only [← replayWithOffset_some] at kept
  rw [Clean] at clean
  rw [clean, List.take_length] at kept
  exact kept

theorem replay_take (file : Bytes) :
    replay env (some (file.take (replayWithOffset env (some file)).2)) =
      replay env (some file) := by
  have kept := parse_take_append (recordHead_delimited env) file []
  rw [List.append_nil, ← replayWithOffset_some, ← replayWithOffset_some] at kept
  rw [replay, kept]
  simp [replay, parse, scan, replayWithOffset_some]

/-! ## Records written by the writer -/

/-- The bytes `append` writes for an entry. -/
structure IsRecord (entry : WalEntry) (bytes : Bytes) : Prop where
  exists_payload : ∃ payload, env.wal.encode entry = .ok payload ∧
    payload.length ≤ walMaxRecordSize ∧ bytes = WalWriter.record env payload

theorem length_record (payload : Bytes) :
    (WalWriter.record env payload).length = 4 + payload.length + 4 := by
  simp [WalWriter.record, Nat.add_assoc]

variable {env}

section Record

variable (isRecord : IsRecord env entry bytes)

include isRecord

theorem IsRecord.recordHead_eq : recordHead env bytes = some (entry, bytes.length) := by
  obtain ⟨payload, encoded, bounded, rfl⟩ := isRecord.exists_payload
  have fits : payload.length < 2 ^ 32 :=
    Nat.lt_of_le_of_lt bounded (by decide)
  refine (recordHead_eq_some_iff env).mpr ⟨payload.length, ?_, length_record env payload⟩
  refine (readRecord_eq_some_iff env).mpr
    ⟨toLeBytes payload.length, payload, toLeBytes (env.crc32 payload).val, [], ?_, rfl,
      fromLeBytes_toLeBytes fits, bounded, rfl, rfl,
      fromLeBytes_toLeBytes (env.crc32 payload).isLt,
      env.wal.decode_encode entry payload encoded⟩
  simp [WalWriter.record]

/-- A record that lost bytes at its end is not read: the length field or the
length it states reaches beyond what is left. -/
theorem IsRecord.recordHead_take {cut : Nat} (torn : cut < bytes.length) :
    recordHead env (bytes.take cut) = none := by
  cases read : recordHead env (bytes.take cut) with
  | none => rfl
  | some found =>
    obtain ⟨other, size⟩ := found
    have size_le := (recordHead_delimited env).size_le read
    have whole := (recordHead_delimited env).isolated read (bytes.drop size)
    rw [List.take_take, Nat.min_eq_left (size_le.trans (List.length_take_le _ _)),
      List.take_append_drop, isRecord.recordHead_eq] at whole
    simp only [Option.some.injEq, Prod.mk.injEq] at whole
    rw [List.length_take_of_le (Nat.le_of_lt torn)] at size_le
    omega

theorem IsRecord.isFrame : IsFrame (recordHead env) entry bytes where
  read := isRecord.recordHead_eq
  torn := fun _ torn => isRecord.recordHead_take torn

theorem IsRecord.replayWithOffset :
    replayWithOffset env (some bytes) = ([entry], bytes.length) := by
  have alone := parse_append_of_head (recordHead_delimited env) isRecord.recordHead_eq []
  rw [List.append_nil] at alone
  rw [replayWithOffset_some, alone]
  simp [parse, scan]

theorem IsRecord.replay_torn {cut : Nat} (torn : cut < bytes.length) :
    WalReader.replayWithOffset env (some (bytes.take cut)) = ([], 0) := by
  rw [replayWithOffset_some]
  exact parse_of_head_none (isRecord.recordHead_take torn)

end Record

/-- Whole records followed by one more record. -/
theorem Clean.append_record (clean : Clean env file)
    (isRecord : IsRecord env entry bytes) : Clean env (file ++ bytes) := by
  rw [Clean, replayWithOffset_append env clean, isRecord.replayWithOffset,
    List.length_append]

theorem Clean.replay_append_record (clean : Clean env file) (isRecord : IsRecord env entry bytes) :
    replay env (some (file ++ bytes)) = replay env (some file) ++ [entry] := by
  rw [replay, replayWithOffset_append env clean, replay, replay,
    isRecord.replayWithOffset]

/-- Behind whole records a part of a record is read exactly when it is the whole
record. -/
theorem Clean.replay_append_part (clean : Clean env file)
    {part : Bytes} (isRecord : IsRecord env entry bytes) (isPart : part <+: bytes) :
    replay env (some (file ++ part)) =
      replay env (some file) ++ if part = bytes then [entry] else [] := by
  split
  · rename_i whole
    rw [whole, clean.replay_append_record isRecord]
  · rename_i incomplete
    obtain ⟨rest, bytes_eq⟩ := isPart
    have shorter : part.length < bytes.length := by
      rw [← bytes_eq, List.length_append, Nat.lt_add_right_iff_pos, List.length_pos_iff]
      rintro rfl
      exact incomplete (by simpa using bytes_eq)
    have part_eq : part = bytes.take part.length := by simp [← bytes_eq]
    rw [replay, replayWithOffset_append env clean, part_eq, replay, replay,
      isRecord.replay_torn shorter]

end WalReader

end HiveGuard.Persistence
