import HiveGuard.Persistence.Admission
import HiveGuard.Persistence.WalCorrectness

/-!
# A burst of bans on one network

Many signals about one network arrive as many calls of `admitBan` whose records end at
about the same time.  At most one of them stores a ban and reaches the log: from then on
the stored ban outlasts every later record.  A call that fails to write latches the log,
so no later call stores anything either.
-/

namespace HiveGuard.Persistence

open HiveGuard.Core Library.Effect
open WalWriter

namespace StateManager

/-- A call of `admitBan` and what it returned. -/
structure Attempt where
  record : BanRecord
  now : DateTime
  outcome : Except HiveGuardError BanAdmission
  deriving DecidableEq

/-- What a run returned, without the state. -/
def outcomeOf {α : Type} : EStateM.Result HiveGuardError World α → Except HiveGuardError α
  | .ok value _ => .ok value
  | .error error _ => .error error

variable (env : Externals)

/-- The calls one after another, whatever each of them returns. -/
def attempts : List (BanRecord × DateTime) → World → List Attempt
  | [], _ => []
  | call :: calls, world =>
    let result := (admitBan env call.1 call.2).run world
    ⟨call.1, call.2, outcomeOf result⟩ :: attempts calls (finalState result)

def afterCalls : List (BanRecord × DateTime) → World → World
  | [], world => world
  | call :: calls, world =>
    afterCalls calls (finalState ((admitBan env call.1 call.2).run world))

namespace Attempt

/-- The call stored a ban. -/
def Stores (attempt : Attempt) : Prop :=
  attempt.outcome = .ok .added ∨ ∃ previous, attempt.outcome = .ok (.extended previous)

/-- The call found the record covered. -/
def Covered (attempt : Attempt) : Prop :=
  ∃ coveredBy expiresAt, attempt.outcome = .ok (.alreadyCovered coveredBy expiresAt)

/-- The end of the ban that is in force after a call that returned. -/
def inForce (attempt : Attempt) : Option (Option DateTime) :=
  match attempt.outcome with
  | .ok (.alreadyCovered _ expiresAt) => some expiresAt
  | .ok _ => some attempt.record.expiresAt
  | .error _ => none

end Attempt

/-- The end is later than `now`. -/
def Active (now : DateTime) : Option DateTime → Prop
  | none => True
  | some expiry => now < expiry

/-- Two ends are at most the smallest extension apart. -/
def Near : Option DateTime → Option DateTime → Prop
  | none, none => True
  | some first, some second =>
    first ≤ second + minBanExtension ∧ second ≤ first + minBanExtension
  | _, _ => False

/-- Calls about one network, each made while the bans that earlier calls left in force are
active, and with ends near that of the first record whose call returned. -/
structure IsBurst (subject : IpNet) (made : List Attempt) : Prop where
  subject_eq : ∀ attempt ∈ made, attempt.record.subject.trunc = subject
  steady : made.Pairwise fun earlier later =>
    ∀ expiry, earlier.inForce = some expiry → Active later.now expiry
  near : ∀ first, made.find? (fun attempt => attempt.outcome.isOk) = some first →
    ∀ attempt ∈ made, Near first.record.expiresAt attempt.record.expiresAt

/-! ## One call -/

/-- Everything a call of `admitBan` can do. -/
inductive Admitted (record : BanRecord) (now : DateTime) (source : World) :
    EStateM.Result HiveGuardError World BanAdmission → Prop
  | covered {ban : BanRecord}
      (member : ban ∈ source.manager.banStore.coveringBans record.subject)
      (active : InMemoryBanStore.unexpired now ban = true)
      (longer : outlasts ban.expiresAt record.expiresAt = true) :
      Admitted record now source (.ok (.alreadyCovered ban.subject ban.expiresAt) source)
  | stored {admission : BanAdmission} {createdAt : DateTime} {target : World}
      (uncovered : Uncovered source.manager.banStore record now)
      (answer : admission = .added ∨ ∃ ban,
        source.manager.banStore.bans.lookup record.subject.trunc = some ban ∧
          admission = .extended ban.expiresAt)
      (run : (addBan env { record with createdAt }).run source = .ok () target) :
      Admitted record now source (.ok admission target)
  | failed {error : HiveGuardError} {createdAt : DateTime} {target : World}
      (uncovered : Uncovered source.manager.banStore record now)
      (run : (addBan env { record with createdAt }).run source = .error error target) :
      Admitted record now source (.error error target)

variable {source : World}

theorem admitted_addBan {record : BanRecord} {now createdAt : DateTime}
    {admission : BanAdmission} (uncovered : Uncovered source.manager.banStore record now)
    (answer : admission = .added ∨ ∃ ban,
      source.manager.banStore.bans.lookup record.subject.trunc = some ban ∧
        admission = .extended ban.expiresAt) :
    Admitted env record now source
      ((do addBan env { record with createdAt }
           pure admission : EStateM HiveGuardError World BanAdmission).run source) := by
  rw [EStateM.run_bind]
  cases run : (addBan env { record with createdAt }).run source with
  | ok value target => exact .stored uncovered answer run
  | error error target => exact .failed uncovered run

theorem admitBan_admitted (record : BanRecord) (now : DateTime) (source : World) :
    Admitted env record now source ((admitBan env record now).run source) := by
  by_cases uncovered : Uncovered source.manager.banStore record now
  · rw [admitBan_of_uncovered env uncovered]
    split
    · rename_i ban found
      refine admitted_addBan env uncovered (.inr ⟨ban, ?_, rfl⟩)
      have member := List.mem_of_find?_eq_some found
      have accepted := List.find?_some found
      rw [Bool.and_eq_true, decide_eq_true_eq] at accepted
      rw [← accepted.1, InMemoryBanStore.trunc_of_mem_coveringBans member]
      exact (InMemoryBanStore.within_of_mem_coveringBans member).1
    · exact admitted_addBan env uncovered (.inl rfl)
  · rcases exists_covering_of_covered uncovered with ⟨ban, found⟩
    have accepted := List.find?_some found
    rw [Bool.and_eq_true] at accepted
    have run : (admitBan env record now).run source =
        .ok (.alreadyCovered ban.subject ban.expiresAt) source := by
      rw [admitBan, EStateM.run_bind, EStateM.run_get]
      simp only [found]
      rfl
    rw [run]
    exact .covered (List.mem_of_find?_eq_some found) accepted.1 accepted.2

/-! ## Ends -/

variable {ban : BanRecord}

theorem unexpired_eq_true_iff {now : DateTime} :
    InMemoryBanStore.unexpired now ban = true ↔ Active now ban.expiresAt := by
  rw [InMemoryBanStore.unexpired]
  cases ban.expiresAt with
  | none => exact iff_of_true rfl trivial
  | some expiry => exact decide_eq_true_iff

theorem outlasts_of_near {first later : Option DateTime} (near : Near first later) :
    outlasts first later = true := by
  cases first with
  | none => rfl
  | some first =>
    cases later with
    | none => contradiction
    | some later => exact decide_eq_true near.2

/-- What had to be stored although a ban outlasted the reference outlasts all that is near
the reference. -/
theorem outlasts_of_near_of_outlasts {existing reference stored later : Option DateTime}
    (longer : outlasts existing reference = true) (shorter : outlasts existing stored = false)
    (near : Near reference later) : outlasts stored later = true := by
  cases stored with
  | none => rfl
  | some stored =>
    cases existing with
    | none => contradiction
    | some existing =>
      cases reference with
      | none => contradiction
      | some reference =>
        cases later with
        | none => contradiction
        | some later =>
          simp only [outlasts, decide_eq_true_eq, decide_eq_false_iff_not, not_le]
            at longer shorter ⊢
          have reference_le : reference ≤ stored := longer.trans shorter.le
          exact near.2.trans (Int.add_le_add_right reference_le minBanExtension)

/-! ## Phases of a burst -/

variable {subject : IpNet} {calls : List (BanRecord × DateTime)}

/-- While a stored ban outlasts all records, nothing changes. -/
theorem attempts_of_stored (counted : source.manager.banStore.Counted)
    (found : source.manager.banStore.bans.lookup subject = some ban)
    (fits : ∀ attempt ∈ attempts env calls source, attempt.record.subject.trunc = subject ∧
      outlasts ban.expiresAt attempt.record.expiresAt = true ∧ Active attempt.now ban.expiresAt) :
    afterCalls env calls source = source ∧
      ∀ attempt ∈ attempts env calls source, attempt.Covered := by
  induction calls with
  | nil => exact ⟨rfl, by simp [attempts]⟩
  | cons call calls ih =>
    rw [attempts, List.forall_mem_cons] at fits
    rcases fits with ⟨⟨subject_eq, longer, active⟩, fits⟩
    have member : ban ∈ source.manager.banStore.coveringBans call.1.subject := by
      apply InMemoryBanStore.mem_coveringBans_of_lookup counted
      rwa [subject_eq]
    have admitted := admitBan_admitted env call.1 call.2 source
    rw [attempts, afterCalls, List.forall_mem_cons]
    cases run : (admitBan env call.1 call.2).run source with
    | ok admission target =>
      rw [run] at admitted fits
      cases admitted with
      | covered _ _ _ =>
        rcases ih fits with ⟨after_eq, covered⟩
        exact ⟨after_eq, ⟨_, _, rfl⟩, covered⟩
      | stored uncovered _ _ =>
        have shorter := uncovered ban member (unexpired_eq_true_iff.mpr active)
        rw [longer] at shorter
        contradiction
    | error error target =>
      rw [run] at admitted
      cases admitted with
      | failed uncovered _ =>
        have shorter := uncovered ban member (unexpired_eq_true_iff.mpr active)
        rw [longer] at shorter
        contradiction

theorem run_addBan_of_latched {record : BanRecord}
    (latched : source.manager.walWriter.writeFailed = true) :
    ∃ error, (addBan env record).run source = .error error source := by
  rw [addBan_eq, EStateM.run_bind, EStateM.run_get]
  dsimp only
  split
  · exact ⟨_, rfl⟩
  · have walLatched : source.walState.writer.writeFailed = true := latched
    exact ⟨_, (logEntry_error_iff env).mpr ⟨_, append_latched env walLatched _, rfl⟩⟩

/-- Once a write has failed, nothing changes either. -/
theorem attempts_of_latched (latched : source.manager.walWriter.writeFailed = true)
    (calls : List (BanRecord × DateTime)) :
    afterCalls env calls source = source ∧
      ∀ attempt ∈ attempts env calls source, ¬attempt.Stores := by
  induction calls with
  | nil => exact ⟨rfl, by simp [attempts]⟩
  | cons call calls ih =>
    have admitted := admitBan_admitted env call.1 call.2 source
    rw [attempts, afterCalls, List.forall_mem_cons]
    cases run : (admitBan env call.1 call.2).run source with
    | ok admission target =>
      rw [run] at admitted
      cases admitted with
      | covered _ _ _ => exact ⟨ih.1, by simp [Attempt.Stores, outcomeOf],
          ih.2⟩
      | stored _ _ stored =>
        rcases run_addBan_of_latched env latched with ⟨error, refused⟩
        rw [refused] at stored
        contradiction
    | error error target =>
      rw [run] at admitted
      cases admitted with
      | failed _ failed =>
        rcases run_addBan_of_latched env latched with ⟨other, refused⟩
        rw [refused] at failed
        cases failed
        exact ⟨ih.1, by simp [Attempt.Stores, outcomeOf],
          ih.2⟩

variable {entries : List WalEntry}

/-- What storing a ban does to the log: one entry more when it returns; otherwise nothing
has changed, or the failure is latched with one entry more at most. -/
theorem addBan_ends_log (record : BanRecord)
    (holds : Holds env source.walState entries) :
    Ends (addBan env record) source
      (fun _ target => ∃ entry, Holds env target.walState (entries ++ [entry]))
      fun _ target => target = source ∨ target.manager.walWriter.writeFailed = true ∧
        ∃ logged, logged.length ≤ 1 ∧ Holds env target.walState (entries ++ logged) := by
  rw [addBan_eq]
  apply Ends.get_bind
  by_cases overlap : source.manager.whitelist.overlaps record.subject.trunc = true
  · rw [if_pos overlap]
    exact .inl rfl
  · rw [if_neg overlap, Ends]
    cases run : (logEntry env (.addBan { record with subject := record.subject.trunc })).run
        source with
    | ok value target =>
      rcases (logEntry_ok_iff env).mp run with ⟨state, appendRun, rfl⟩
      exact ⟨_, (holds.append_ok appendRun).1⟩
    | error error target =>
      rcases (logEntry_error_iff env).mp run with ⟨state, appendRun, rfl⟩
      rcases holds.append_error_cases appendRun with rfl | latched
      · exact .inl rfl
      · exact .inr latched

/-- The calls store at most one ban: the log has one entry more at most, whatever follows a
stored ban is covered, and a ban is only extended if it was there before. -/
structure StoresOnce (subject : IpNet) (entries : List WalEntry) (source : World)
    (calls : List (BanRecord × DateTime)) : Prop where
  log : ∃ logged, logged.length ≤ 1 ∧
    WalReader.replay env (afterCalls env calls source).disk.wal = entries ++ logged
  covered : (attempts env calls source).Pairwise fun earlier later =>
    earlier.Stores → later.Covered
  extended : ∀ attempt ∈ attempts env calls source, ∀ previous,
    attempt.outcome = .ok (.extended previous) →
      ∃ ban, source.manager.banStore.bans.lookup subject = some ban ∧ ban.expiresAt = previous

variable {env}

section Cons

variable {subject : IpNet} {entries : List WalEntry} {source : World}
  {call : BanRecord × DateTime} {calls : List (BanRecord × DateTime)}

theorem not_stores_of_error {record : BanRecord} {now : DateTime} {error : HiveGuardError} :
    ¬Attempt.Stores ⟨record, now, .error error⟩ := by
  rintro (stores | ⟨previous, stores⟩)
  · cases stores
  · cases stores

theorem not_stores_of_alreadyCovered {record : BanRecord} {now : DateTime} {coveredBy : IpNet}
    {expiresAt : Option DateTime} :
    ¬Attempt.Stores ⟨record, now, .ok (.alreadyCovered coveredBy expiresAt)⟩ := by
  rintro (stores | ⟨previous, stores⟩)
  · cases stores
  · cases stores

/-- A call in front that stored nothing and left the state alone. -/
theorem StoresOnce.cons_unchanged {result : EStateM.Result HiveGuardError World BanAdmission}
    (run : (admitBan env call.1 call.2).run source = result)
    (idle : ¬Attempt.Stores ⟨call.1, call.2, outcomeOf result⟩)
    (unchanged : finalState result = source) (rest : StoresOnce env subject entries source calls) :
    StoresOnce env subject entries source (call :: calls) where
  log := by
    rw [afterCalls, run, unchanged]
    exact rest.log
  covered := by
    rw [attempts, run, unchanged]
    exact List.Pairwise.cons (fun _ _ stores => absurd stores idle) rest.covered
  extended := by
    rw [attempts, run, unchanged, List.forall_mem_cons]
    exact ⟨fun previous extended => absurd (.inr ⟨previous, extended⟩) idle, rest.extended⟩

/-- A call in front whose failure was latched. -/
theorem StoresOnce.cons_latched {error : HiveGuardError} {target : World} {logged : List WalEntry}
    (run : (admitBan env call.1 call.2).run source = .error error target)
    (latched : target.manager.walWriter.writeFailed = true) (short : logged.length ≤ 1)
    (holds : Holds env target.walState (entries ++ logged)) :
    StoresOnce env subject entries source (call :: calls) := by
  rcases attempts_of_latched env latched calls with ⟨after_eq, noStores⟩
  constructor
  · rw [afterCalls, run, finalState_error, after_eq]
    exact ⟨logged, short, holds.replay_eq⟩
  · rw [attempts, run]
    refine List.Pairwise.cons (fun _ _ stores => absurd stores not_stores_of_error) ?_
    rw [List.pairwise_iff_forall_sublist]
    intro earlier later both stores
    exact absurd stores (noStores earlier (both.subset (by simp)))
  · rw [attempts, run, List.forall_mem_cons]
    constructor
    · intro previous extended
      cases extended
    · intro attempt member previous extended
      exact absurd (.inr ⟨previous, extended⟩) (noStores attempt member)

/-- A call in front that stored a ban which outlasts all later records. -/
theorem StoresOnce.cons_stored {admission : BanAdmission} {createdAt : DateTime}
    {target : World} (holds : Holds env source.walState entries)
    (counted : target.manager.banStore.Counted)
    (subject_eq : call.1.subject.trunc = subject)
    (run : (admitBan env call.1 call.2).run source = .ok admission target)
    (answer : admission = .added ∨ ∃ ban,
      source.manager.banStore.bans.lookup call.1.subject.trunc = some ban ∧
        admission = .extended ban.expiresAt)
    (stored : (addBan env { call.1 with createdAt }).run source = .ok () target)
    (settled : ∀ attempt ∈ attempts env calls target,
      attempt.record.subject.trunc = subject ∧
        outlasts call.1.expiresAt attempt.record.expiresAt = true ∧
        Active attempt.now call.1.expiresAt) :
    StoresOnce env subject entries source (call :: calls) := by
  have found : target.manager.banStore.bans.lookup subject =
      some { call.1 with createdAt, subject := call.1.subject.trunc } := by
    rw [banStore_of_addBan_ok env stored, ← subject_eq]
    exact AList.lookup_insert _
  rcases attempts_of_stored env counted found settled with ⟨after_eq, covered⟩
  have ends := addBan_ends_log env { call.1 with createdAt } holds
  rw [Ends, stored] at ends
  rcases ends with ⟨entry, logged⟩
  constructor
  · rw [afterCalls, run, finalState_ok, after_eq]
    exact ⟨[entry], le_refl 1, logged.replay_eq⟩
  · rw [attempts, run]
    refine List.Pairwise.cons (fun attempt member _ => covered attempt member) ?_
    rw [List.pairwise_iff_forall_sublist]
    intro earlier later both _
    exact covered later (both.subset (by simp))
  · rw [attempts, run, List.forall_mem_cons]
    constructor
    · intro previous extended
      rcases answer with rfl | ⟨ban, before, rfl⟩
      · cases extended
      · cases extended
        rw [subject_eq] at before
        exact ⟨ban, before, rfl⟩
    · intro attempt member previous extended
      rcases covered attempt member with ⟨coveredBy, expiresAt, outcome_eq⟩
      rw [outcome_eq] at extended
      cases extended

/-- One more call in front: it leaves the state alone, or it stores a ban that outlasts
all later records, or it latches a failure. -/
theorem StoresOnce.cons (holds : Holds env source.walState entries)
    (counted : source.manager.banStore.Counted)
    (room : ∀ record, (source.manager.banStore.addBan record).Fits)
    (subject_eq : call.1.subject.trunc = subject)
    (unchanged : ∀ result, (admitBan env call.1 call.2).run source = result →
      ¬Attempt.Stores ⟨call.1, call.2, outcomeOf result⟩ → finalState result = source →
      StoresOnce env subject entries source calls) (settled : ∀ admission target,
      (admitBan env call.1 call.2).run source = .ok admission target →
      Uncovered source.manager.banStore call.1 call.2 →
      Attempt.inForce ⟨call.1, call.2, .ok admission⟩ = some call.1.expiresAt →
      ∀ attempt ∈ attempts env calls target, attempt.record.subject.trunc = subject ∧
        outlasts call.1.expiresAt attempt.record.expiresAt = true ∧
        Active attempt.now call.1.expiresAt) :
    StoresOnce env subject entries source (call :: calls) := by
  have admitted := admitBan_admitted env call.1 call.2 source
  cases run : (admitBan env call.1 call.2).run source with
  | ok admission target =>
    rw [run] at admitted
    cases admitted with
    | covered _ _ _ =>
      exact .cons_unchanged run not_stores_of_alreadyCovered rfl
        (unchanged _ run not_stores_of_alreadyCovered rfl)
    | stored uncovered answer stored =>
      have countedTarget : target.manager.banStore.Counted := by
        rw [banStore_of_addBan_ok env stored]
        exact InMemoryBanStore.counted_addBan counted (room _)
      refine .cons_stored holds countedTarget subject_eq run answer stored
        (settled admission target run uncovered ?_)
      rcases answer with rfl | ⟨ban, -, rfl⟩
      · rfl
      · rfl
  | error error target =>
    rw [run] at admitted
    cases admitted with
    | @failed _ createdAt _ uncovered failed =>
      have ends := addBan_ends_log env { call.1 with createdAt } holds
      rw [Ends, failed] at ends
      rcases ends with rfl | ⟨latched, logged, short, targetHolds⟩
      · exact .cons_unchanged run not_stores_of_error rfl
          (unchanged _ run not_stores_of_error rfl)
      · exact .cons_latched run latched short targetHolds

end Cons

/-- No call yet: the log holds what it held. -/
theorem StoresOnce.nil
    (holds : Holds env source.walState entries) : StoresOnce env subject entries source [] where
  log := ⟨[], Nat.zero_le 1, by rw [List.append_nil]; exact holds.replay_eq⟩
  covered := List.Pairwise.nil
  extended := by simp [attempts]

/-- A ban covers the subject and outlasts the record all others are near to. -/
theorem storesOnce_of_covering {reference : Option DateTime}
    (holds : Holds env source.walState entries) (counted : source.manager.banStore.Counted)
    (room : ∀ record, (source.manager.banStore.addBan record).Fits)
    (member : ban ∈ source.manager.banStore.coveringBans subject)
    (longer : outlasts ban.expiresAt reference = true)
    (subject_eq : ∀ attempt ∈ attempts env calls source, attempt.record.subject.trunc = subject)
    (steady : (attempts env calls source).Pairwise fun earlier later =>
      ∀ expiry, earlier.inForce = some expiry → Active later.now expiry)
    (near : ∀ attempt ∈ attempts env calls source,
      Near reference attempt.record.expiresAt ∧ Active attempt.now ban.expiresAt) :
    StoresOnce env subject entries source calls := by
  induction calls with
  | nil => exact .nil holds
  | cons call calls ih =>
    rw [attempts, List.forall_mem_cons] at subject_eq near
    rw [attempts, List.pairwise_cons] at steady
    apply StoresOnce.cons holds counted room subject_eq.1
    · intro result run _ unchanged
      rw [run, unchanged] at subject_eq steady near
      exact ih subject_eq.2 steady.2 near.2
    · intro admission target run uncovered inForce attempt attempted
      rw [run] at subject_eq steady near
      have active := unexpired_eq_true_iff.mpr near.1.2
      have coveringCall : ban ∈ source.manager.banStore.coveringBans call.1.subject := by
        rwa [← InMemoryBanStore.coveringBans_trunc, subject_eq.1]
      have shorter := uncovered ban coveringCall active
      exact ⟨subject_eq.2 attempt attempted,
        outlasts_of_near_of_outlasts longer shorter (near.2 attempt attempted).1,
        steady.1 attempt attempted _ inForce⟩

/-- In a burst at most one ban is stored. -/
theorem storesOnce_of_isBurst (holds : Holds env source.walState entries)
    (counted : source.manager.banStore.Counted)
    (room : ∀ record, (source.manager.banStore.addBan record).Fits)
    (burst : IsBurst subject (attempts env calls source)) :
    StoresOnce env subject entries source calls := by
  induction calls with
  | nil => exact .nil holds
  | cons call calls ih =>
    rcases burst with ⟨subject_eq, steady, near⟩
    rw [attempts, List.forall_mem_cons] at subject_eq
    rw [attempts, List.pairwise_cons] at steady
    rw [attempts] at near
    have admitted := admitBan_admitted env call.1 call.2 source
    apply StoresOnce.cons holds counted room subject_eq.1
    · intro result run idle unchanged
      rw [run] at admitted subject_eq steady near
      rw [unchanged] at subject_eq steady near
      cases admitted with
      | @covered ban member active longer =>
        -- The first call that returned: all ends are near that of its record.
        have nearHead := near _ rfl
        rw [List.forall_mem_cons] at nearHead
        refine storesOnce_of_covering holds counted room ?_ longer subject_eq.2 steady.2 ?_
        · rwa [← subject_eq.1, InMemoryBanStore.coveringBans_trunc]
        · intro attempt attempted
          exact ⟨nearHead.2 attempt attempted, steady.1 attempt attempted _ rfl⟩
      | stored uncovered answer stored =>
        exact absurd (answer.imp (congrArg Except.ok)
          fun ⟨ban, _, extended⟩ => ⟨ban.expiresAt, congrArg Except.ok extended⟩) idle
      | failed uncovered failed =>
        refine ih ⟨subject_eq.2, steady.2, ?_⟩
        intro first found attempt attempted
        exact near first found attempt (List.mem_cons_of_mem _ attempted)
    · intro admission target run uncovered inForce attempt attempted
      rw [run] at subject_eq steady near
      have nearHead := near _ rfl
      rw [List.forall_mem_cons] at nearHead
      exact ⟨subject_eq.2 attempt attempted, outlasts_of_near (nearHead.2 attempt attempted),
        steady.1 attempt attempted _ inForce⟩

variable (env) in
/-- In every reachable state whose counters are right and have room for one ban more, a burst
of calls about one network stores one ban at most and adds one entry at most to the log.
What comes after the stored ban is covered, and the one call that stores extends a ban only
if that was there before the burst. -/
theorem burst_stores_once {dataDir : String} {syncMode : WalSyncMode} {io : List Outcome}
    {admissible : Call → Prop} {start world : World}
    (fresh : (StateManager.new env dataDir syncMode).run ⟨.empty, io⟩ =
      .ok start.manager start.toDevice) (history : World.History env dataDir admissible start world)
    (counted : world.manager.banStore.Counted)
    (room : ∀ record, (world.manager.banStore.addBan record).Fits)
    {subject : IpNet} {calls : List (BanRecord × DateTime)}
    (burst : IsBurst subject (attempts env calls world)) :
    StoresOnce env subject (WalReader.replay env world.disk.wal) world calls := by
  rcases World.exists_persisted fresh history with ⟨base, entries, persisted⟩
  rw [persisted.replay_eq]
  exact storesOnce_of_isBurst persisted.holds counted room burst

/-! ## Two signals -/

/-- A ban of `8.8.8.0/24` made at some second, up to a given end. -/
def signalAt (second : Int) (expiresAt : DateTime) : BanRecord × DateTime :=
  ({ World.sampleBan with
      subject := World.sampleBan.subject.trunc
      createdAt := 1700000000000000000 + Duration.seconds second
      expiresAt := some expiresAt },
    1700000000000000000 + Duration.seconds second)

/-- A second signal for another second. -/
def twoSignals : List (BanRecord × DateTime) :=
  [signalAt 0 1700086400000000000, signalAt 1 1700086401000000000]

/-- The second signal is covered by the ban of the first. -/
def twoAttempts : List Attempt :=
  [⟨(signalAt 0 1700086400000000000).1, 1700000000000000000, .ok .added⟩,
    ⟨(signalAt 1 1700086401000000000).1, 1700000001000000000,
      .ok (.alreadyCovered World.sampleBan.subject.trunc (some 1700086400000000000))⟩]

theorem attempts_twoSignals :
    attempts Wire.externals twoSignals World.sampleStart = twoAttempts := by
  decide +kernel

theorem isBurst_twoAttempts : IsBurst World.sampleBan.subject.trunc twoAttempts where
  subject_eq := by
    intro attempt member
    simp only [twoAttempts, List.mem_cons, List.not_mem_nil, or_false] at member
    rcases member with rfl | rfl
    · rfl
    · rfl
  steady := by
    simp only [twoAttempts, List.pairwise_cons, List.mem_singleton, forall_eq,
      List.not_mem_nil, false_implies, implies_true, List.Pairwise.nil, and_true]
    intro expiry inForce
    cases inForce
    exact show (1700000001000000000 : Int) < 1700086400000000000 by decide
  near := by
    intro first found attempt member
    cases found
    simp only [twoAttempts, List.mem_cons, List.not_mem_nil, or_false] at member
    rcases member with rfl | rfl
    · exact ⟨le_add_minBanExtension _, le_add_minBanExtension _⟩
    · exact show (1700086400000000000 : Int) ≤ 1700086401000000000 + 300000000000 ∧
        (1700086401000000000 : Int) ≤ 1700086400000000000 + 300000000000 by decide

theorem burst_stores_once_at_two_signals :
    ∃ logged, logged.length ≤ 1 ∧ WalReader.replay Wire.externals
        (afterCalls Wire.externals twoSignals World.sampleStart).disk.wal =
          WalReader.replay Wire.externals World.sampleStart.disk.wal ++ logged := by
  have history : World.History Wire.externals "/var/lib/hiveguard" (fun _ => True)
      World.sampleStart World.sampleStart := .refl
  have burst : IsBurst World.sampleBan.subject.trunc
      (attempts Wire.externals twoSignals World.sampleStart) := by
    rw [attempts_twoSignals]
    exact isBurst_twoAttempts
  have room : ∀ record, (World.sampleStart.manager.banStore.addBan record).Fits :=
    fun record => InMemoryBanStore.fits_of_length (show 1 < 2 ^ 32 by decide)
  exact (burst_stores_once Wire.externals World.sampleStart_fresh history
    InMemoryBanStore.counted_new room burst).log

/-- Behind a ban of an hour, the first of two equal signals for a day extends it.  Behind a
wider ban that ends five minutes before the first signal, the first is covered, and the
second, which ends five minutes after it, is the one that stores. -/
theorem burst_not_only_first_added :
    ((attempts Wire.externals [signalAt 0 1700086400000000000, signalAt 1 1700086400000000000]
        (finalState ((addBan Wire.externals (signalAt 0 1700003600000000000).1).run
          World.sampleStart))).map Attempt.outcome =
      [.ok (.extended (some 1700003600000000000)),
        .ok (.alreadyCovered World.sampleBan.subject.trunc (some 1700086400000000000))]) ∧
    (attempts Wire.externals [signalAt 0 1700086700000000000, signalAt 1 1700087000000000000]
        (finalState ((addBan Wire.externals
          { (signalAt 0 1700086400000000000).1 with subject := .ofV4 0x08080000#32 16 }).run
            World.sampleStart))).map Attempt.outcome =
      [.ok (.alreadyCovered (.ofV4 0x08080000#32 16) (some 1700086400000000000)),
        .ok .added] := by
  constructor
  · decide +kernel
  · decide +kernel

end StateManager

end HiveGuard.Persistence
