import HiveGuard.Persistence.WalReplay

/-!
# What the writer does to the log

Whether a handle appends or writes at its own cursor, it stands at the end of
the log between any two calls.  One call of `append` therefore writes a whole
record behind the log, writes a part of one and latches the failure, or refuses
the entry and changes nothing.
-/

namespace HiveGuard.Persistence

open HiveGuard.Core Library.Effect Library.Encoding

namespace WalState

/-- The log file holds `file` and the writer's handle stands at its end. -/
structure AtEnd (state : WalState) (file : Bytes) : Prop where
  wal : state.disk.wal = some file
  cursor : ∀ position ∈ state.writer.cursor, position = file.length

/-- `target` differs from `source` by bytes written behind the log.  A device
without faults stays one. -/
structure Wrote (data : Bytes) (source target : WalState) : Prop where
  disk : target.disk = { source.disk with wal := some (source.disk.wal.getD [] ++ data) }
  cursor : target.writer.cursor = source.writer.cursor.map (· + data.length)
  syncMode : target.writer.syncMode = source.writer.syncMode
  writeFailed : target.writer.writeFailed = source.writer.writeFailed
  faultless : source.io = [] → target.io = []

variable {data file : Bytes}

theorem Wrote.atEnd {source target : WalState} (wrote : Wrote data source target)
    (atEnd : AtEnd source file) : AtEnd target (file ++ data) where
  wal := by simp [wrote.disk, atEnd.wal]
  cursor := by
    intro position found
    rw [wrote.cursor, Option.mem_def, Option.map_eq_some_iff] at found
    obtain ⟨previous, previousFound, rfl⟩ := found
    rw [atEnd.cursor previous previousFound, List.length_append]

theorem Wrote.trans {first second : Bytes} {source middle target : WalState}
    (firstWrote : Wrote first source middle) (secondWrote : Wrote second middle target) :
    Wrote (first ++ second) source target where
  disk := by simp [secondWrote.disk, firstWrote.disk]
  cursor := by
    rw [secondWrote.cursor, firstWrote.cursor, Option.map_map, List.length_append]
    congr 1
    funext position
    exact Nat.add_assoc position first.length second.length
  syncMode := secondWrote.syncMode.trans firstWrote.syncMode
  writeFailed := secondWrote.writeFailed.trans firstWrote.writeFailed
  faultless := fun quiet => secondWrote.faultless (firstWrote.faultless quiet)

theorem overwrite_length (file data : Bytes) :
    overwrite file file.length data = file ++ data := by
  simp [overwrite]

theorem write_wrote {state : WalState} (atEnd : AtEnd state file) (data : Bytes) :
    Wrote data state (write data state) := by
  cases handle : state.writer.cursor with
  | none => constructor <;> simp [write, handle]
  | some position =>
    have position_eq : position = file.length := atEnd.cursor position handle
    subst position
    constructor <;> simp [write, handle, atEnd.wal, overwrite_length]

/-- An action that, with the handle at the end of the log, writes `data` behind it
or a part of `data` from the front and reports the failure. -/
def Writes (action : EStateM HiveGuardError WalState Unit) (data : Bytes) : Prop :=
  ∀ ⦃state : WalState⦄ ⦃file : Bytes⦄, AtEnd state file →
    (∃ target, action.run state = .ok () target ∧ Wrote data state target) ∨
      ∃ part target, action.run state = .error .io target ∧ part <+: data ∧
        Wrote part state target ∧ state.io ≠ []

theorem writes_writeAll (data : Bytes) : Writes (writeAll data) data := by
  intro state file atEnd
  obtain ⟨⟨disk, io⟩, writer⟩ := state
  cases io with
  | nil => exact .inl ⟨_, rfl, write_wrote atEnd data⟩
  | cons outcome io =>
    have used : AtEnd ⟨⟨disk, io⟩, writer⟩ file := ⟨atEnd.wal, atEnd.cursor⟩
    cases outcome with
    | done =>
      have wrote := write_wrote used data
      exact .inl ⟨_, rfl, wrote.disk, wrote.cursor, wrote.syncMode, wrote.writeFailed,
        by simp⟩
    | failed written =>
      have wrote := write_wrote used (data.take written)
      exact .inr ⟨data.take written, _, rfl, List.take_prefix written data,
        ⟨wrote.disk, wrote.cursor, wrote.syncMode, wrote.writeFailed, by simp⟩, by simp⟩

theorem wrote_nil {disk : Disk} {io : List Outcome} {writer : WalWriter}
    (atEnd : AtEnd ⟨⟨disk, io⟩, writer⟩ file) {later : List Outcome}
    (faultless : io = [] → later = []) :
    Wrote [] ⟨⟨disk, io⟩, writer⟩ ⟨⟨disk, later⟩, writer⟩ where
  disk := by
    have wal_eq : disk.wal = some file := atEnd.wal
    simp only [wal_eq, Option.getD_some, List.append_nil]
    rw [← wal_eq]
  cursor := by simp
  syncMode := rfl
  writeFailed := rfl
  faultless := faultless

theorem writes_pure : Writes (pure ()) [] :=
  fun _ _ atEnd => .inl ⟨_, rfl, wrote_nil atEnd id⟩

/-- Flushing writes nothing. -/
theorem writes_syncData : Writes (onDevice syncData) [] := by
  intro state file atEnd
  obtain ⟨⟨disk, io⟩, writer⟩ := state
  cases io with
  | nil => exact .inl ⟨_, rfl, wrote_nil atEnd id⟩
  | cons outcome io =>
    cases outcome with
    | done => exact .inl ⟨_, rfl, wrote_nil atEnd (by simp)⟩
    | failed written =>
      exact .inr ⟨[], _, rfl, List.nil_prefix, wrote_nil atEnd (by simp), by simp⟩

/-- Two writes one after the other: a failure of the second leaves all of the
first. -/
theorem Writes.seq {first second : EStateM HiveGuardError WalState Unit} {rest : Bytes}
    (firstWrites : Writes first data) (secondWrites : Writes second rest) :
    Writes (first >>= fun _ => second) (data ++ rest) := by
  intro state file atEnd
  rw [EStateM.run_bind]
  rcases firstWrites atEnd with ⟨middle, run, wrote⟩ | ⟨part, target, run, isPart, wrote, faults⟩
  · simp only [run]
    rcases secondWrites (wrote.atEnd atEnd) with
      ⟨target, run, wroteRest⟩ | ⟨part, target, run, isPart, wrotePart, faults⟩
    · exact .inl ⟨target, run, wrote.trans wroteRest⟩
    · exact .inr ⟨data ++ part, target, run, (List.prefix_append_right_inj data).mpr isPart,
        wrote.trans wrotePart, mt wrote.faultless faults⟩
  · simp only [run]
    exact .inr ⟨part, target, rfl, isPart.trans (List.prefix_append data rest), wrote, faults⟩

/-- A choice made by reading the state. -/
theorem Writes.get_ite {condition : WalState → Prop} [DecidablePred condition]
    {first second : EStateM HiveGuardError WalState Unit}
    (firstWrites : Writes first data) (secondWrites : Writes second data) :
    Writes (do if condition (← get) then first else second) data := by
  intro state file atEnd
  rw [EStateM.run_bind, EStateM.run_get]
  dsimp only
  split
  · exact firstWrites atEnd
  · exact secondWrites atEnd

end WalState

namespace WalWriter

open WalState WalReader

variable (env : Externals)

theorem writes_writeRecord (payload : Bytes) :
    Writes (writeRecord env payload) (record env payload) := by
  have flushes : Writes (do if (← get).writer.syncMode ≠ .none then onDevice syncData) [] :=
    .get_ite writes_syncData writes_pure
  have writes := (writes_writeAll (toLeBytes payload.length)).seq ((writes_writeAll payload).seq
    ((writes_writeAll (toLeBytes (env.crc32 payload).val)).seq flushes))
  rwa [List.append_nil, ← List.append_assoc] at writes

/-- Everything one call of `append` can do. -/
inductive Appended (entry : WalEntry) (source : WalState) :
    EStateM.Result HiveGuardError WalState Unit → Prop
  | stored {bytes : Bytes} {target : WalState} (accepting : source.writer.writeFailed = false)
      (isRecord : IsRecord env entry bytes) (wrote : Wrote bytes source target) :
      Appended entry source (.ok () target)
  | refused {message : String}
      (reason : source.writer.writeFailed = true ∨ ∀ bytes, ¬IsRecord env entry bytes) :
      Appended entry source (.error (.storage message) source)
  | torn {bytes part : Bytes} {target : WalState}
      (accepting : source.writer.writeFailed = false) (isRecord : IsRecord env entry bytes)
      (isPart : part <+: bytes) (wrote : Wrote part source target) (faults : source.io ≠ []) :
      Appended entry source
        (.error .io { target with writer := { target.writer with writeFailed := true } })

variable {state target : WalState} {file : Bytes}

theorem append_appended (atEnd : AtEnd state file)
    (entry : WalEntry) : Appended env entry state ((append env entry).run state) := by
  simp only [append, EStateM.run_bind, EStateM.run_get]
  cases latch : state.writer.writeFailed with
  | true => exact .refused (.inl latch)
  | false =>
    simp only [Bool.false_eq_true, if_false]
    cases encoded : env.wal.encode entry with
    | error message =>
      refine .refused (.inr ?_)
      rintro bytes ⟨payload, encodedOk, -, -⟩
      rw [encoded] at encodedOk
      contradiction
    | ok payload =>
      simp only
      split
      · rename_i oversized
        refine .refused (.inr ?_)
        rintro bytes ⟨other, encodedOk, bounded, -⟩
        rw [encoded] at encodedOk
        cases encodedOk
        omega
      · rename_i bounded
        have isRecord : IsRecord env entry (record env payload) :=
          ⟨payload, encoded, Nat.le_of_not_lt bounded, rfl⟩
        rcases writes_writeRecord env payload atEnd with
          ⟨target, run, wrote⟩ | ⟨part, target, run, isPart, wrote, faults⟩
        · rw [run_tryCatch, run]
          exact .stored latch isRecord wrote
        · rw [run_tryCatch, run]
          exact .torn latch isRecord isPart wrote faults

/-- The writer accepts entries and only whole records are before it. -/
structure Ready (state : WalState) (file : Bytes) : Prop where
  atEnd : AtEnd state file
  clean : Clean env file
  accepting : state.writer.writeFailed = false

variable {env}

variable {entry : WalEntry}

theorem Ready.wrote {source : WalState} {bytes : Bytes}
    (ready : Ready env source file) (isRecord : IsRecord env entry bytes)
    (wrote : Wrote bytes source target) : Ready env target (file ++ bytes) where
  atEnd := wrote.atEnd ready.atEnd
  clean := ready.clean.append_record isRecord
  accepting := wrote.writeFailed.trans ready.accepting

variable {syncMode : WalSyncMode} {device opened : Device} {writer : WalWriter}

/-- Opening cuts the log where replay stops, and does nothing else. -/
theorem open_ok
    (run : (WalWriter.open env syncMode).run device = .ok writer opened) :
    writer = ⟨none, syncMode, false⟩ ∧
      opened.disk = { device.disk with
        wal := some ((device.disk.wal.getD []).take
          (replayWithOffset env device.disk.wal).2) } ∧
      (device.io = [] → opened.io = []) := by
  rw [WalWriter.open] at run
  obtain ⟨_, created, createRun, run⟩ := bind_eq_ok_iff.mp run
  obtain ⟨createdDisk, createdIo⟩ := perform_ok createRun
  obtain ⟨_, _, getRun, run⟩ := bind_eq_ok_iff.mp run
  cases getRun
  have wal_eq : created.disk.wal = some (device.disk.wal.getD []) := by rw [createdDisk]
  simp only [wal_eq, Option.getD_some, replayWithOffset_getD] at run
  split at run
  · obtain ⟨_, cut, cutRun, run⟩ := bind_eq_ok_iff.mp run
    obtain ⟨cutDisk, cutIo⟩ := perform_ok cutRun
    obtain ⟨_, flushed, flushRun, run⟩ := bind_eq_ok_iff.mp run
    obtain ⟨flushedDisk, flushedIo⟩ := perform_ok flushRun
    cases run
    refine ⟨rfl, ?_, fun quiet => flushedIo (cutIo (createdIo quiet))⟩
    simp [flushedDisk, cutDisk, createdDisk]
  · rename_i whole
    cases run
    refine ⟨rfl, ?_, createdIo⟩
    rw [createdDisk, ← Decidable.not_not.mp whole, List.take_length]

variable (env) in
theorem open_faultless (syncMode : WalSyncMode) (disk : Disk) :
    ∃ writer opened, (WalWriter.open env syncMode).run ⟨disk, []⟩ = .ok writer opened := by
  simp only [WalWriter.open, EStateM.run_bind, perform_faultless, EStateM.run_get]
  split
  · exact ⟨_, _, rfl⟩
  · exact ⟨_, _, rfl⟩

theorem open_ready
    (run : (WalWriter.open env syncMode).run device = .ok writer opened) :
    ∃ file, Ready env ⟨opened, writer⟩ file ∧
      replay env (some file) = replay env device.disk.wal := by
  obtain ⟨rfl, disk_eq, -⟩ := open_ok run
  refine ⟨(device.disk.wal.getD []).take (replayWithOffset env device.disk.wal).2,
    ⟨⟨by rw [disk_eq], by simp⟩, ?_, rfl⟩, ?_⟩
  · rw [← replayWithOffset_getD]
    exact clean_take env _
  · rw [← replayWithOffset_getD, replay_take, replay, replayWithOffset_getD, replay]

variable (env) in
/-- Opening, also when it fails, changes neither the snapshot nor what can be read
of the log. -/
theorem open_kept (syncMode : WalSyncMode) (device : Device) :
    (finalState ((WalWriter.open env syncMode).run device)).disk.snapshot = device.disk.snapshot ∧
      replay env (finalState ((WalWriter.open env syncMode).run device)).disk.wal =
        replay env device.disk.wal := by
  have created : replay env (some (device.disk.wal.getD [])) = replay env device.disk.wal := by
    rw [replay, replayWithOffset_getD, replay]
  rw [WalWriter.open]
  rcases perform_bind_cases _ _ _ device with ⟨io, run, -⟩ | ⟨written, io, run, -⟩
  · rw [run, EStateM.run_bind, EStateM.run_get]
    dsimp only
    split
    · rcases perform_bind_cases _ _ _ _ with ⟨io, run, -⟩ | ⟨written, io, run, -⟩
      · rw [run]
        rcases perform_bind_cases _ _ _ _ with ⟨io, run, -⟩ | ⟨written, io, run, -⟩
        · rw [syncData, run]
          exact ⟨rfl, (replay_take env _).trans created⟩
        · rw [syncData, run]
          exact ⟨rfl, (replay_take env _).trans created⟩
      · rw [run]
        exact ⟨rfl, created⟩
    · exact ⟨rfl, created⟩
  · rw [run]
    exact ⟨rfl, rfl⟩

/-! ## Truncating -/

/-- The state with an empty log behind a fresh handle. -/
def emptied (io : List Outcome) (writeFailed : Bool) (state : WalState) : WalState :=
  ⟨⟨{ state.disk with wal := some [] }, io⟩, ⟨some 0, state.writer.syncMode, writeFailed⟩⟩

/-- Everything `truncate` can do: a failure comes before the log is emptied, or
after that and before the latch is released. -/
inductive Truncated (source : WalState) : EStateM.Result HiveGuardError WalState Unit → Prop
  | done (io : List Outcome) (faultless : source.io = [] → io = []) :
      Truncated source (.ok () (emptied io false source))
  | notOpened (io : List Outcome) (faults : source.io ≠ []) :
      Truncated source (.error .io ⟨⟨source.disk, io⟩, source.writer⟩)
  | notFlushed (io : List Outcome) (faults : source.io ≠ []) :
      Truncated source (.error .io (emptied io source.writer.writeFailed source))

theorem truncate_truncated (state : WalState) : Truncated state (truncate.run state) := by
  obtain ⟨⟨disk, io⟩, writer⟩ := state
  match io with
  | [] => exact .done [] fun _ => rfl
  | .failed _ :: rest => exact .notOpened rest (by simp)
  | [.done] => exact .done [] (by simp)
  | .done :: .done :: rest => exact .done rest (by simp)
  | .done :: .failed _ :: rest => exact .notFlushed rest (by simp)

theorem atEnd_emptied (io : List Outcome) (writeFailed : Bool) (state : WalState) :
    AtEnd (emptied io writeFailed state) [] where
  wal := rfl
  cursor := by simp [emptied]

variable (env) in
theorem ready_emptied (io : List Outcome) (state : WalState) :
    Ready env (emptied io false state) [] :=
  ⟨atEnd_emptied io false state, clean_nil env, rfl⟩

variable (env) in
theorem truncate_ready {before : WalState} (run : truncate.run before = .ok () state) :
    Ready env state [] := by
  have truncated := truncate_truncated before
  rw [run] at truncated
  cases truncated
  exact ready_emptied env _ before

/-! ## The entries a log holds -/

variable (env) in
/-- The log replays these entries, and only a writer that refuses everything has
more than whole records before it. -/
structure Holds (state : WalState) (entries : List WalEntry) : Prop where
  exists_file : ∃ file, AtEnd state file ∧
    (state.writer.writeFailed = false → Clean env file) ∧ replay env (some file) = entries

variable {entries : List WalEntry}

theorem Holds.replay_eq
    (holds : Holds env state entries) : replay env state.disk.wal = entries := by
  obtain ⟨file, atEnd, -, replay_eq⟩ := holds.exists_file
  rw [atEnd.wal, replay_eq]

theorem Ready.holds (ready : Ready env state file) :
    Holds env state (replay env (some file)) :=
  ⟨file, ready.atEnd, fun _ => ready.clean, rfl⟩

/-- A successful append adds its entry and touches nothing but the log. -/
theorem Holds.append_ok
    {value : Unit} (holds : Holds env state entries)
    (run : (append env entry).run state = .ok value target) :
    Holds env target (entries ++ [entry]) ∧ target.disk.snapshot = state.disk.snapshot := by
  obtain ⟨file, atEnd, clean, rfl⟩ := holds.exists_file
  have appended := append_appended env atEnd entry
  rw [run] at appended
  cases appended with
  | stored accepting isRecord wrote =>
    refine ⟨⟨_, wrote.atEnd atEnd, fun _ => (clean accepting).append_record isRecord,
      (clean accepting).replay_append_record isRecord⟩, by rw [wrote.disk]⟩

/-- A failed append leaves the log as it was or with its entry added. -/
theorem Holds.append_error {error : HiveGuardError} (holds : Holds env state entries)
    (run : (append env entry).run state = .error error target) :
    (Holds env target entries ∨ Holds env target (entries ++ [entry])) ∧
      target.disk.snapshot = state.disk.snapshot := by
  obtain ⟨file, atEnd, clean, rfl⟩ := holds.exists_file
  have appended := append_appended env atEnd entry
  rw [run] at appended
  cases appended with
  | refused reason => exact ⟨.inl holds, rfl⟩
  | @torn bytes part middle accepting isRecord isPart wrote faults =>
    have replay_eq := (clean accepting).replay_append_part isRecord isPart
    have atEnd := wrote.atEnd atEnd
    refine ⟨?_, by rw [wrote.disk]⟩
    by_cases whole : part = bytes
    · rw [if_pos whole] at replay_eq
      exact .inr ⟨_, ⟨atEnd.wal, atEnd.cursor⟩, by simp, replay_eq⟩
    · rw [if_neg whole, List.append_nil] at replay_eq
      exact .inl ⟨_, ⟨atEnd.wal, atEnd.cursor⟩, by simp, replay_eq⟩

/-- A failed append changed nothing, or it latched the failure and added its entry at
most. -/
theorem Holds.append_error_cases {error : HiveGuardError} (holds : Holds env state entries)
    (run : (append env entry).run state = .error error target) :
    target = state ∨ target.writer.writeFailed = true ∧
      ∃ logged, logged.length ≤ 1 ∧ Holds env target (entries ++ logged) := by
  rcases holds.exists_file with ⟨file, atEnd, -, -⟩
  have appended := append_appended env atEnd entry
  rw [run] at appended
  cases appended with
  | refused reason => exact .inl rfl
  | torn accepting isRecord isPart wrote faults =>
    refine .inr ⟨rfl, ?_⟩
    rcases (holds.append_error run).1 with unchanged | extended
    · exact ⟨[], Nat.zero_le 1, by rwa [List.append_nil]⟩
    · exact ⟨[entry], le_refl 1, extended⟩

theorem open_holds
    (run : (WalWriter.open env syncMode).run device = .ok writer opened) :
    Holds env ⟨opened, writer⟩ (replay env device.disk.wal) := by
  obtain ⟨file, ready, replay_eq⟩ := open_ready run
  rw [← replay_eq]
  exact ready.holds

variable (env) in
/-- An emptied log holds nothing, whether or not its writer accepts entries. -/
theorem holds_nil (wal : state.disk.wal = some [])
    (cursor : state.writer.cursor = some 0) : Holds env state [] :=
  ⟨[], ⟨wal, by simp [cursor]⟩, fun _ => clean_nil env, rfl⟩

/-- Only the log file and the writer matter. -/
theorem Holds.congr {first second : WalState}
    (holds : Holds env first entries) (wal_eq : second.disk.wal = first.disk.wal)
    (writer_eq : second.writer = first.writer) : Holds env second entries := by
  obtain ⟨file, atEnd, clean, replay_eq⟩ := holds.exists_file
  refine ⟨file, ⟨wal_eq.trans atEnd.wal, ?_⟩, ?_, replay_eq⟩
  · rw [writer_eq]
    exact atEnd.cursor
  · rw [writer_eq]
    exact clean

theorem flush_kept (state : WalState) :
    ∃ io, finalState (flush.run state) = ⟨⟨state.disk, io⟩, state.writer⟩ := by
  simp only [flush, EStateM.run_bind, EStateM.run_get]
  split
  · rw [WalState.onDevice, finalState_zoom, syncData]
    rcases perform_cases id (fun _ => id) state.toDevice with
      ⟨io, run, -⟩ | ⟨written, io, run, -⟩
    · exact ⟨io, by rw [run]; rfl⟩
    · exact ⟨io, by rw [run]; rfl⟩
  · exact ⟨state.io, rfl⟩

end WalWriter

end HiveGuard.Persistence
