import HiveGuard.Persistence.WalWrite
import HiveGuard.Persistence.Wire

/-!
# Correctness of the write-ahead log

A log that was opened and appended to replays what it held before and the
entries appended since, whatever the file looked like.  When writes fail, the
entries that were acknowledged stay readable and at most the one whose write
failed follows them.
-/

namespace HiveGuard.Persistence.WalWriter

open HiveGuard.Core Library.Effect Library.Encoding Library.RecordScan
open WalState WalReader

variable (env : Externals)

/-! ## Appending without failures -/

variable {env} in
theorem Ready.replayStrict {state : WalState} {file : Bytes} (ready : Ready env state file) :
    replayStrict env state.disk.wal = .ok (replay env state.disk.wal) := by
  have clean : (replayWithOffset env (some file)).2 = file.length := ready.clean
  simp [ready.atEnd.wal, WalReader.replayStrict, replay, clean]

variable {env} in
/-- Successful appends extend the replayed entries by exactly the new ones. -/
theorem Ready.forM_append {state final : WalState} {file : Bytes} {entries : List WalEntry}
    (ready : Ready env state file) (run : (forM entries (append env)).run state = .ok () final) :
    ∃ log, Ready env final log ∧ replay env (some log) = replay env (some file) ++ entries := by
  induction entries generalizing state file with
  | nil =>
    cases run
    exact ⟨file, ready, (List.append_nil _).symm⟩
  | cons entry entries ih =>
    rw [List.forM_cons] at run
    obtain ⟨_, next, appendRun, run⟩ := bind_eq_ok_iff.mp run
    have appended := append_appended env ready.atEnd entry
    rw [appendRun] at appended
    cases appended with
    | stored accepting isRecord wrote =>
      obtain ⟨log, logReady, replay_eq⟩ :=
        ih (ready.wrote isRecord wrote) run
      refine ⟨log, logReady, ?_⟩
      rw [replay_eq, ready.clean.replay_append_record isRecord, List.append_assoc,
        List.singleton_append]

/-- The record of an entry, when it has an encoding. -/
def recordOf (entry : WalEntry) : Bytes :=
  match env.wal.encode entry with
  | .ok payload => record env payload
  | .error _ => []

/-- The entry has an encoding within the record size limit. -/
def Fits (entry : WalEntry) : Prop :=
  ∃ payload, env.wal.encode entry = .ok payload ∧ payload.length ≤ walMaxRecordSize

theorem recordOf_isRecord {entry : WalEntry} (fits : Fits env entry) :
    IsRecord env entry (recordOf env entry) := by
  obtain ⟨payload, encoded, bounded⟩ := fits
  exact ⟨payload, encoded, bounded, by simp [recordOf, encoded]⟩

/-- Opening a log repairs any file: entries appended afterwards are replayed
behind the ones that were readable before, and the strict reader accepts the
file.  Of a log of whole records that was cut at some byte, replay returns the
entries whose records end at or before the cut. -/
theorem replay_reopened_and_cut :
    (∀ (syncMode : WalSyncMode) (disk : Disk) (io : List Outcome) (file : Bytes)
        (writer : WalWriter) (opened : Device) (entries : List WalEntry) (final : WalState),
        (WalWriter.open env syncMode).run ⟨{ disk with wal := some file }, io⟩ =
          .ok writer opened →
        (forM entries (append env)).run ⟨opened, writer⟩ = .ok () final →
        replay env final.disk.wal = replay env (some file) ++ entries ∧
          replayStrict env final.disk.wal = .ok (replay env (some file) ++ entries)) ∧
      ∀ (entries : List WalEntry), (∀ entry ∈ entries, Fits env entry) → ∀ cut : Nat,
        ∃ kept, kept ≤ entries.length ∧
          replay env (some ((entries.map (recordOf env)).flatten.take cut)) =
            entries.take kept ∧
          ∀ i, i < entries.length →
            (i < kept ↔ ((entries.take (i + 1)).map (recordOf env)).flatten.length ≤ cut) := by
  constructor
  · intro syncMode disk io file writer opened entries final opens appends
    obtain ⟨start, ready, start_eq⟩ := open_ready opens
    obtain ⟨log, logReady, log_eq⟩ := ready.forM_append appends
    have replay_eq : replay env final.disk.wal = replay env (some file) ++ entries := by
      rw [logReady.atEnd.wal, log_eq, start_eq]
    exact ⟨replay_eq, by rw [logReady.replayStrict, replay_eq]⟩
  · intro entries fits cut
    have framed : ∀ entry ∈ entries, IsFrame (recordHead env) entry (recordOf env entry) :=
      fun entry member => (recordOf_isRecord env (fits entry member)).isFrame
    simp only [replay, replayWithOffset_some]
    exact parse_flatten_take (recordHead_delimited env) framed cut

/-- `198.51.100.0/24`. -/
def sampleNet : IpNet :=
  .ofV4 0xC6336400#32 24

/-- Two entries appended to a file of three stray bytes, and the same two records
cut before their last byte. -/
theorem replay_reopened_and_cut_stray :
    let entries := [WalEntry.addWhitelist sampleNet, .removeBan sampleNet]
    (∃ final, (forM entries (append Wire.externals)).run
          ⟨⟨⟨some [], none, none⟩, []⟩, ⟨none, .sync, false⟩⟩ = .ok () final ∧
        replay Wire.externals final.disk.wal = entries ∧
        replayStrict Wire.externals final.disk.wal = .ok entries) ∧
      ∃ kept, replay Wire.externals
          (some ((entries.map (recordOf Wire.externals)).flatten.take 29)) =
        entries.take kept ∧ kept = 1 := by
  intro entries
  have theorems := replay_reopened_and_cut Wire.externals
  constructor
  · obtain ⟨_, final, appends⟩ := exists_of_succeeded
      ((forM entries (append Wire.externals)).run
        ⟨⟨⟨some [], none, none⟩, []⟩, ⟨none, .sync, false⟩⟩) (by decide +kernel)
    exact ⟨final, appends,
      theorems.1 .sync Disk.empty [] [7, 0, 0] _ _ entries final rfl appends⟩
  · have fits : ∀ entry ∈ entries, Fits Wire.externals entry := by
      simp only [entries, List.mem_cons, List.not_mem_nil, or_false]
      rintro entry (rfl | rfl)
      · exact ⟨Wire.writeEntry (.addWhitelist sampleNet), by decide +kernel, by decide +kernel⟩
      · exact ⟨Wire.writeEntry (.removeBan sampleNet), by decide +kernel, by decide +kernel⟩
    obtain ⟨kept, -, kept_eq, kept_iff⟩ := theorems.2 entries fits 29
    have first : 0 < kept := (kept_iff 0 (by decide)).mpr (by decide +kernel)
    have second : ¬1 < kept := fun later => absurd ((kept_iff 1 (by decide)).mp later)
      (by decide +kernel)
    exact ⟨kept, kept_eq, by omega⟩

/-! ## Appending with failures -/

/-- The appends one after another, whatever each of them returns. -/
def appendEach : List WalEntry → WalState → List (Except HiveGuardError Unit) × WalState
  | [], state => ([], state)
  | entry :: entries, state =>
    match (append env entry).run state with
    | .ok _ next => ((.ok () :: (appendEach entries next).1), (appendEach entries next).2)
    | .error error next =>
      ((.error error :: (appendEach entries next).1), (appendEach entries next).2)

/-- The entries whose append returned `Ok`. -/
def acknowledged (entries : List WalEntry) (results : List (Except HiveGuardError Unit)) :
    List WalEntry :=
  ((entries.zip results).filter fun call => call.2.isOk).map Prod.fst

/-- What `append` returns after a failed write. -/
def unavailable : HiveGuardError :=
  .storage "WAL unavailable after a failed write; recovery is required"

theorem append_latched {state : WalState} (latched : state.writer.writeFailed = true)
    (entry : WalEntry) : (append env entry).run state = .error unavailable state := by
  simp only [append, EStateM.run_bind, EStateM.run_get, latched, if_true]
  rfl

theorem appendEach_latched (state : WalState) (latched : state.writer.writeFailed = true)
    (entries : List WalEntry) :
    appendEach env entries state = (List.replicate entries.length (.error unavailable), state) := by
  induction entries with
  | nil => rfl
  | cons entry entries ih =>
    simp only [appendEach, append_latched env latched entry, ih]
    rfl

theorem acknowledged_unavailable (entries : List WalEntry) :
    acknowledged entries (List.replicate entries.length (.error unavailable)) = [] := by
  induction entries with
  | nil => rfl
  | cons entry entries ih => exact ih

/-- The results and the log after calls of which none failed to write. -/
structure Intact (entries : List WalEntry) (file : Bytes)
    (outcome : List (Except HiveGuardError Unit) × WalState) (log : Bytes) : Prop where
  results : .error .io ∉ outcome.1
  ready : Ready env outcome.2 log
  replay_eq : replay env (some log) =
    replay env (some file) ++ acknowledged entries outcome.1

/-- The results and the log after calls of which one failed to write: all later
ones were refused, and the file holds a part of the failed record behind the
acknowledged ones. -/
structure Torn (entries : List WalEntry) (file : Bytes)
    (outcome : List (Except HiveGuardError Unit) × WalState)
    (failed : WalEntry) (bytes part log : Bytes) : Prop where
  results : ∃ before after earlier, entries = before ++ failed :: after ∧
    earlier.length = before.length ∧ .error .io ∉ earlier ∧
    outcome.1 = earlier ++ .error .io :: List.replicate after.length (.error unavailable)
  isRecord : IsRecord env failed bytes
  isPart : part <+: bytes
  wal : outcome.2.disk.wal = some (log ++ part)
  clean : Clean env log
  replay_eq : replay env (some log) =
    replay env (some file) ++ acknowledged entries outcome.1

variable {env}

variable {entry failed : WalEntry} {entries : List WalEntry} {file next bytes part log : Bytes}
  {result : Except HiveGuardError Unit} {outcome : List (Except HiveGuardError Unit) × WalState}

theorem replays_stored (clean : Clean env file) (isRecord : IsRecord env entry bytes)
    (results : List (Except HiveGuardError Unit)) :
    replay env (some (file ++ bytes)) ++ acknowledged entries results =
      replay env (some file) ++ acknowledged (entry :: entries) (.ok () :: results) := by
  rw [clean.replay_append_record isRecord, List.append_assoc]
  rfl

/-- A call before the others that did not fail to write. -/
theorem Intact.cons (notIo : result ≠ .error .io)
    (replays : replay env (some next) ++ acknowledged entries outcome.1 =
      replay env (some file) ++ acknowledged (entry :: entries) (result :: outcome.1))
    (intact : Intact env entries next outcome log) :
    Intact env (entry :: entries) file (result :: outcome.1, outcome.2) log where
  results := by
    rw [List.mem_cons, not_or]
    exact ⟨notIo.symm, intact.results⟩
  ready := intact.ready
  replay_eq := intact.replay_eq.trans replays

theorem Torn.cons (notIo : result ≠ .error .io)
    (replays : replay env (some next) ++ acknowledged entries outcome.1 =
      replay env (some file) ++ acknowledged (entry :: entries) (result :: outcome.1))
    (torn : Torn env entries next outcome failed bytes part log) :
    Torn env (entry :: entries) file (result :: outcome.1, outcome.2) failed bytes part log where
  results := by
    obtain ⟨before, after, earlier, rfl, length_eq, noFailure, results_eq⟩ := torn.results
    exact ⟨entry :: before, after, result :: earlier, rfl, by simp [length_eq],
      by simp [notIo.symm, noFailure], by simp [results_eq]⟩
  isRecord := torn.isRecord
  isPart := torn.isPart
  wal := torn.wal
  clean := torn.clean
  replay_eq := torn.replay_eq.trans replays

/-- A sequence of appends from a ready writer ends intact or torn. -/
theorem Ready.appendEach_cases {state : WalState} (ready : Ready env state file)
    (entries : List WalEntry) :
    (∃ log, Intact env entries file (appendEach env entries state) log) ∨ ∃ failed bytes part log,
        Torn env entries file (appendEach env entries state) failed bytes part log := by
  induction entries generalizing state file with
  | nil =>
    exact .inl ⟨file, by simp [appendEach], ready, (List.append_nil _).symm⟩
  | cons entry entries ih =>
    have appended := append_appended env ready.atEnd entry
    simp only [appendEach]
    cases appendRun : (append env entry).run state with
    | ok value next =>
      rw [appendRun] at appended
      cases appended with
      | stored accepting isRecord wrote =>
        rcases ih (ready.wrote isRecord wrote) with
          ⟨log, intact⟩ | ⟨failed, bytes, part, log, torn⟩
        · exact .inl ⟨log, intact.cons nofun (replays_stored ready.clean isRecord _)⟩
        · exact .inr ⟨failed, bytes, part, log,
            torn.cons nofun (replays_stored ready.clean isRecord _)⟩
    | error error next =>
      rw [appendRun] at appended
      cases appended with
      | refused reason =>
        rcases ih ready with
          ⟨log, intact⟩ | ⟨failed, bytes, part, log, torn⟩
        · exact .inl ⟨log, intact.cons nofun rfl⟩
        · exact .inr ⟨failed, bytes, part, log, torn.cons nofun rfl⟩
      | @torn bytes part target accepting isRecord isPart wrote faults =>
        simp only [appendEach_latched env
          { target with writer := { target.writer with writeFailed := true } } rfl]
        refine .inr ⟨entry, bytes, part, file,
          ⟨[], entries, [], rfl, rfl, by simp, rfl⟩, isRecord, isPart,
          (wrote.atEnd ready.atEnd).wal, ready.clean, ?_⟩
        have none_acknowledged : acknowledged (entry :: entries)
            (.error .io :: List.replicate entries.length (.error unavailable)) = [] :=
          acknowledged_unavailable entries
        rw [none_acknowledged, List.append_nil]

theorem Torn.replay
    (torn : Torn env entries file outcome failed bytes part log) :
    WalReader.replay env outcome.2.disk.wal =
      WalReader.replay env (some file) ++ acknowledged entries outcome.1 ++
        if part = bytes then [failed] else [] := by
  rw [torn.wal, ← torn.replay_eq, torn.clean.replay_append_part torn.isRecord torn.isPart]

variable (env) in
/-- No acknowledged entry is lost to a failed write.  From the moment the log is
opened or truncated, any sequence of appends, each of which may fail after any
part of its bytes, leaves a file that replays the acknowledged entries; the entry
whose write failed follows exactly when all of its bytes were written, and every
call after it is refused. -/
theorem appendEach_loses_nothing {start : WalState}
    (started : (∃ syncMode device,
        (WalWriter.open env syncMode).run device = .ok start.writer start.toDevice) ∨
      ∃ before, truncate.run before = .ok () start)
    (entries : List WalEntry) :
    let outcome := appendEach env entries start
    (.error .io ∉ outcome.1 ∧
        replay env outcome.2.disk.wal =
          replay env start.disk.wal ++ acknowledged entries outcome.1) ∨
      ∃ failed bytes part log,
        Torn env entries (start.disk.wal.getD []) outcome failed bytes part log ∧
          replay env outcome.2.disk.wal =
            replay env start.disk.wal ++ acknowledged entries outcome.1 ++
              if part = bytes then [failed] else [] := by
  have startsReady : ∃ file, Ready env start file := by
    rcases started with ⟨syncMode, device, run⟩ | ⟨before, run⟩
    · obtain ⟨file, ready, -⟩ := open_ready run
      exact ⟨file, ready⟩
    · exact ⟨[], truncate_ready env run⟩
  obtain ⟨file, ready⟩ := startsReady
  rw [ready.atEnd.wal, Option.getD_some]
  rcases ready.appendEach_cases entries with ⟨log, intact⟩ | ⟨failed, bytes, part, log, torn⟩
  · refine .inl ⟨intact.results, ?_⟩
    rw [intact.ready.atEnd.wal, intact.replay_eq]
  · exact .inr ⟨failed, bytes, part, log, torn, torn.replay⟩

/-- The third of three appends to a new log is refused because the payload of
the second was cut short. -/
theorem appendEach_loses_nothing_short_write :
    let entries := [WalEntry.addWhitelist sampleNet, .removeBan sampleNet, .addWhitelist sampleNet]
    let start : WalState :=
      ⟨⟨⟨some [], none, none⟩, [.done, .done, .done, .done, .done, .failed 3]⟩,
        ⟨none, .fdatasync, false⟩⟩
    ∃ failed bytes part log,
      Torn Wire.externals entries [] (appendEach Wire.externals entries start) failed bytes part
          log ∧
        replay Wire.externals (appendEach Wire.externals entries start).2.disk.wal =
          replay Wire.externals (some []) ++
              acknowledged entries (appendEach Wire.externals entries start).1 ++
            if part = bytes then [failed] else [] := by
  intro entries start
  have opened : (WalWriter.open Wire.externals .fdatasync).run
      ⟨Disk.empty, .done :: start.io⟩ = .ok start.writer start.toDevice := rfl
  have failedWrite : .error .io ∈ (appendEach Wire.externals entries start).1 := by
    decide +kernel
  exact (appendEach_loses_nothing Wire.externals (.inl ⟨_, _, opened⟩) entries).resolve_left
    fun intact => intact.1 failedWrite

end HiveGuard.Persistence.WalWriter
