import HiveGuard.Sources.FileTailExact

/-!
# Draining a log file

The file source reads chunk after chunk, sends the events of each to the sink, and stops
when the reader has caught up with the file.  Shutdown and a closed sink can stop it
inside a chunk; the offset then goes back to the start of the chunk.
-/

namespace HiveGuard.Sources

open Library Library.Lines

/-- What becomes of an event that is handed to the sink. -/
inductive Delivery where
  | sent
  | shutdown
  | closed
  deriving DecidableEq

/-- What one round of the loop meets: the file, the sink for each event of the chunk, and
whether shutdown was requested after it. -/
structure DrainRound where
  access : FileAccess
  delivery : Nat → Delivery
  cancelled : Bool

/-- Why draining failed; a closed sink is reported as `event sink closed`. -/
inductive DrainError where
  | read (error : ReadError)
  | eventSinkClosed
  deriving DecidableEq

structure DrainResult (Event : Type) where
  result : Except DrainError Unit
  watcher : FileWatcher
  sent : List Event

section Drain

variable {Event : Type} (decode : List UInt8 → List Char) (parser : List Char → Option Event)

/-- Send the events of a chunk, up to the first that is not taken. -/
def sendEvents (delivery : Nat → Delivery) : Nat → List Event → List Event × Delivery
  | _, [] => ([], .sent)
  | index, event :: events =>
    match delivery index with
    | .sent =>
      let later := sendEvents delivery (index + 1) events
      (event :: later.1, later.2)
    | .shutdown => ([], .shutdown)
    | .closed => ([], .closed)

/-- Drain the file, one round after the other; there is no result as long as the rounds
do not end it. -/
def drainToEof (limits : ReadLimits) :
    FileWatcher → List DrainRound → Machine (Option (DrainResult Event))
  | _, [] => pure none
  | watcher, round :: rounds => do
      let batchStart := watcher.offset
      let (result, watcher) ← watcher.readNewLines decode limits round.access
      match result with
      | .error error => pure (some ⟨.error (.read error), watcher, []⟩)
      | .ok outcome =>
        let batch := sendEvents round.delivery 0 (outcome.lines.filterMap parser)
        match batch.2 with
        | .shutdown => pure (some ⟨.ok (), ⟨batchStart⟩, batch.1⟩)
        | .closed => pure (some ⟨.error .eventSinkClosed, ⟨batchStart⟩, batch.1⟩)
        | .sent =>
          if !outcome.more || round.cancelled then
            pure (some ⟨.ok (), watcher, batch.1⟩)
          else do
            let later ← drainToEof limits watcher rounds
            pure (later.map fun last => { last with sent := batch.1 ++ last.sent })

theorem sendEvents_of_sent {delivery : Nat → Delivery} (sent : ∀ index, delivery index = .sent)
    (index : Nat) (events : List Event) : sendEvents delivery index events = (events, .sent) := by
  induction events generalizing index with
  | nil => rfl
  | cons event events ih =>
    rw [sendEvents, sent index, ih]

variable {limits : ReadLimits} {content : List UInt8} {addressable : content.length < 2 ^ 64}

/-- The lines a call returns and those that are left. -/
theorem ReadsOn.finished_drop {start : Nat} {outcome : ReadOutcome}
    (reads : ReadsOn decode (.still content addressable) start outcome) :
    (finished newline (content.drop start)).map (lineText decode) =
      outcome.lines ++ (finished newline (content.drop outcome.offset)).map (lineText decode) := by
  have starts : LineStart newline content outcome.offset := reads.lineStart
  rw [← between_length, ← between_length, starts.finished_between reads.le starts.1,
    List.map_append, reads.lines]
  rfl

theorem ReadsOn.finished_of_caughtUp {start : Nat} {outcome : ReadOutcome}
    (reads : ReadsOn decode (.still content addressable) start outcome)
    (noMore : outcome.more = false) :
    (finished newline (content.drop start)).map (lineText decode) = outcome.lines := by
  have absent := reads.caughtUp noMore rfl
  change newline ∉ between content outcome.offset content.length at absent
  rw [between_length] at absent
  rw [reads.finished_drop, finished_of_not_mem absent, List.map_nil, List.append_nil]

/-- No event was refused, and shutdown was not requested. -/
def Undisturbed (rounds : List DrainRound) : Prop :=
  ∀ round ∈ rounds, round.cancelled = false ∧ ∀ index, round.delivery index = .sent

/-- A file that has stopped growing is drained in fewer rounds than it has bytes left. -/
theorem drainToEof_returns (room : 0 < limits.maxChunkBytes) {watcher : FileWatcher}
    (starts : LineStart newline content watcher.offset)
    (keepsUp : limits.maxLagBytes = 0 ∨ content.length - watcher.offset ≤ limits.maxLagBytes)
    {rounds : List DrainRound}
    (same : ∀ round ∈ rounds, round.access = .opened (.still content addressable))
    (enough : content.length - watcher.offset < rounds.length) :
    ∃ result, drainToEof decode parser limits watcher rounds = pure (some result) ∧
      (Undisturbed rounds → result.result = .ok () ∧ result.sent =
        ((finished newline (content.drop watcher.offset)).map (lineText decode)).filterMap
          parser) := by
  induction rounds generalizing watcher with
  | nil => exact absurd enough (Nat.not_lt_zero _)
  | cons round rounds ih =>
    rw [List.forall_mem_cons] at same
    have starts' : LineStart newline (LogFile.still content addressable).content watcher.offset :=
      starts
    rcases readNewLines_readsOn decode room starts' starts.1 keepsUp with
      ⟨outcome, read, reads, advances⟩
    rw [drainToEof, same.1, read, Machine.pure_bind]
    simp only
    split
    · rename_i stopped
      refine ⟨_, rfl, ?_⟩
      intro undisturbed
      rw [sendEvents_of_sent (undisturbed round List.mem_cons_self).2] at stopped
      cases stopped
    · rename_i stopped
      refine ⟨_, rfl, ?_⟩
      intro undisturbed
      rw [sendEvents_of_sent (undisturbed round List.mem_cons_self).2] at stopped
      cases stopped
    · split
      · rename_i ended
        refine ⟨_, rfl, ?_⟩
        intro undisturbed
        have calm := undisturbed round List.mem_cons_self
        rw [calm.1, Bool.or_false, Bool.not_eq_true'] at ended
        rw [reads.finished_of_caughtUp decode ended, sendEvents_of_sent calm.2]
        exact ⟨rfl, rfl⟩
      · rename_i continues
        rw [Bool.not_eq_true, Bool.or_eq_false_iff, Bool.not_eq_false'] at continues
        have moved := advances continues.1
        rw [List.length_cons] at enough
        have fewer : content.length - outcome.offset < content.length - watcher.offset := by
          have := reads.lineStart.1
          change outcome.offset ≤ content.length at this
          omega
        rcases @ih ⟨outcome.offset⟩ reads.lineStart
          (keepsUp.imp_right fewer.le.trans) same.2 (fewer.trans_le (Nat.le_of_lt_succ enough))
          with ⟨result, drained, complete⟩
        rw [drained, Machine.pure_bind]
        refine ⟨_, rfl, ?_⟩
        intro undisturbed
        have calm := undisturbed round List.mem_cons_self
        rcases complete fun other member => undisturbed other (List.mem_cons_of_mem _ member)
          with ⟨ok, sent⟩
        rw [reads.finished_drop, List.filterMap_append, sendEvents_of_sent calm.2]
        exact ⟨ok, congrArg _ sent⟩

/-- Tailing is exact.  Consecutive calls on a growing file return its finished lines one
after the other, the last call all that are left unless it asks for another one, and
every line that was finished at the start once there were more calls than bytes.
Draining a file that has stopped growing ends and sends the events of all its lines. -/
theorem tailing_is_exact (chunk : 65536 ≤ limits.maxChunkBytes) (watcher : FileWatcher) :
    (∀ (first last : LogFile) (files : List LogFile),
      (first :: files).Pairwise LogFile.Follows → last ∈ (first :: files).getLast? →
      LineStart newline first.content watcher.offset → watcher.offset ≤ first.fileLen →
      RunKeepsUp decode limits watcher (first :: files) →
      let run := watcher.readAll decode limits ((first :: files).map .opened)
      run.overflowed = false ∧
        RunReads decode last watcher.offset run.value.1 run.value.2.offset ∧
        ((∀ file ∈ first :: files, file.fault = none) →
          first.content.length < (first :: files).length →
          newline ∉ between first.content run.value.2.offset first.fileLen)) ∧
    (∀ (content : List UInt8) (addressable : content.length < 2 ^ 64) (rounds : List DrainRound),
      LineStart newline content watcher.offset →
      KeepsUp limits (.still content addressable) watcher.offset →
      (∀ round ∈ rounds, round.access = .opened (.still content addressable)) →
      content.length < rounds.length →
      ∃ result, drainToEof decode parser limits watcher rounds = pure (some result) ∧
        (Undisturbed rounds → result.result = .ok () ∧ result.sent =
          ((finished newline (content.drop watcher.offset)).map (lineText decode)).filterMap
            parser)) := by
  have room : 0 < limits.maxChunkBytes := by omega
  constructor
  · intro first last files grows isLast starts inside keepsUp run
    rcases readAll_runReads room grows starts inside keepsUp isLast with ⟨clean, -, reads⟩
    refine ⟨clean, reads, ?_⟩
    intro whole many left
    have moved := readAll_advances room grows starts inside keepsUp whole left
    have inFile : run.value.2.offset < first.content.length := by
      by_contra beyond
      rw [between_of_le _ (first.grown.trans (Nat.le_of_not_lt beyond))] at left
      exact List.not_mem_nil left
    change watcher.offset + _ ≤ run.value.2.offset at moved
    omega
  · intro content addressable rounds starts keepsUp same enough
    exact drainToEof_returns decode parser room starts keepsUp same
      ((Nat.sub_le _ _).trans_lt enough)

end Drain

/-- A file with an unfinished line that is finished before the second call. -/
theorem tailing_is_exact_at_two_lines :
    let decode := List.map fun byte : UInt8 => Char.ofNat byte.toNat
    let limits : ReadLimits := ⟨65536, 0⟩
    let first := LogFile.still [97, 13, 10, 98] (by decide)
    let second := LogFile.still [97, 13, 10, 98, 10] (by decide)
    let run := (FileWatcher.mk 0).readAll decode limits ([first, second].map .opened)
    RunReads decode second 0 run.value.1 run.value.2.offset ∧
      run.value.1.flatMap ReadOutcome.lines = [['a'], ['b']] ∧
      ∃ result, drainToEof decode some limits ⟨0⟩
        (List.replicate 6 ⟨.opened second, fun _ => .sent, false⟩) = pure (some result) ∧
          result.sent = [['a'], ['b']] := by
  intro decode limits first second run
  have exact_ := tailing_is_exact decode some (show 65536 ≤ limits.maxChunkBytes from le_refl _) ⟨0⟩
  have grows : [first, second].Pairwise LogFile.Follows := by
    simp [first, second, LogFile.Follows, LogFile.still]
  have reads := (exact_.1 first second [second] grows rfl (lineStart_zero _ _) (Nat.zero_le _)
    ⟨.inl rfl, .inl rfl, trivial⟩).2.1
  rcases exact_.2 second.content (by decide)
    (List.replicate 6 ⟨.opened second, fun _ => .sent, false⟩) (lineStart_zero _ _) (.inl rfl)
    (fun round member => by rw [List.eq_of_mem_replicate member]; rfl) (by decide) with
    ⟨result, drained, complete⟩
  have sent := (complete fun round member => by
    rw [List.eq_of_mem_replicate member]
    exact ⟨rfl, fun _ => rfl⟩).2
  refine ⟨reads, by decide +kernel, result, drained, sent.trans ?_⟩
  decide +kernel

end HiveGuard.Sources
