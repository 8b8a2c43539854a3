import HiveGuard.Core.BanLookup
import HiveGuard.Persistence.Recovery

/-!
# Admission never weakens protection

`admitBan` stores a ban only if no active ban on a containing network lasts about as
long.  The ban it may overwrite is itself such a network, so what it stores outlasts
what it replaces, unless the counter of its prefix length has wrapped around and hides it.
-/

namespace HiveGuard.Persistence

open HiveGuard.Core Library.Dictionary Library.Effect

namespace StateManager

variable {env : Externals}

theorem le_add_minBanExtension (expiry : DateTime) : expiry ≤ expiry + minBanExtension :=
  Int.le_add_of_nonneg_right (by decide)

variable {record : BanRecord} {now : DateTime} {source : World}

/-- An hour's ban of `8.8.8.8/24`. -/
def hourBan : BanRecord :=
  { World.sampleBan with expiresAt := some 1700003600000000000 }

/-- A manager that holds it. -/
def hourWorld : World :=
  finalState ((addBan Wire.externals hourBan).run World.sampleStart)

theorem hourWorld_run : (addBan Wire.externals hourBan).run World.sampleStart = .ok () hourWorld :=
  eq_ok_of_succeeded (by decide +kernel)

theorem counted_hourWorld : hourWorld.manager.banStore.Counted := by
  rw [banStore_of_addBan_ok Wire.externals hourWorld_run]
  exact InMemoryBanStore.counted_addBan InMemoryBanStore.counted_new
    (InMemoryBanStore.fits_of_length (by decide))

/-- No active covering ban lasts about as long as the record. -/
def Uncovered (store : InMemoryBanStore) (record : BanRecord) (now : DateTime) : Prop :=
  ∀ ban ∈ store.coveringBans record.subject, InMemoryBanStore.unexpired now ban = true →
    outlasts ban.expiresAt record.expiresAt = false

/-- The subject has no host bits, or a covering ban lasts about as long as the record, or
the subject's own network has no active ban. -/
def HostBitsIdle (store : InMemoryBanStore) (record : BanRecord) (now : DateTime) : Prop :=
  record.subject.trunc = record.subject ∨ ¬Uncovered store record now ∨
    ∀ ban, store.bans.lookup record.subject.trunc = some ban →
      InMemoryBanStore.unexpired now ban = false

/-- The active ban that a record extends: one with the record's very subject. -/
def extendedBan (store : InMemoryBanStore) (record : BanRecord) (now : DateTime) :
    Option BanRecord :=
  (store.coveringBans record.subject).find? fun ban =>
    decide (ban.subject = record.subject) && InMemoryBanStore.unexpired now ban

variable (env) in
/-- What happens to a record that no covering ban outlasts. -/
theorem admitBan_of_uncovered
    (uncovered : Uncovered source.manager.banStore record now) :
    (admitBan env record now).run source =
      (match extendedBan source.manager.banStore record now with
        | some ban => do
            addBan env { record with createdAt := ban.createdAt }
            pure (.extended ban.expiresAt)
        | none => do
            addBan env record
            pure .added : EStateM HiveGuardError World BanAdmission).run source := by
  have missing : ((source.manager.banStore.coveringBans record.subject).find? fun ban =>
      InMemoryBanStore.unexpired now ban && outlasts ban.expiresAt record.expiresAt) = none := by
    rw [List.find?_eq_none]
    intro ban member accepted
    rw [Bool.and_eq_true] at accepted
    exact absurd accepted.2 (Bool.eq_false_iff.mp (uncovered ban member accepted.1))
  rw [admitBan, EStateM.run_bind, EStateM.run_get]
  simp only [missing]
  rfl

variable {store : InMemoryBanStore}

/-- A subject with host bits is never that of a stored ban. -/
theorem extendedBan_eq_none
    (hostBits : record.subject.trunc ≠ record.subject) : extendedBan store record now = none := by
  rw [extendedBan, List.find?_eq_none]
  intro ban member accepted
  rw [Bool.and_eq_true, decide_eq_true_eq] at accepted
  apply hostBits
  rw [← accepted.1]
  exact InMemoryBanStore.trunc_of_mem_coveringBans member

/-- Without host bits the extended ban is the active one of the subject. -/
theorem extendedBan_eq_some_iff {ban : BanRecord} (counted : store.Counted)
    (canonical : record.subject.trunc = record.subject) :
    extendedBan store record now = some ban ↔ store.bans.lookup record.subject = some ban ∧
        InMemoryBanStore.unexpired now ban = true := by
  have sound : ∀ {other}, extendedBan store record now = some other →
      store.bans.lookup record.subject = some other ∧
        InMemoryBanStore.unexpired now other = true := by
    intro other found
    have accepted := List.find?_some found
    rw [Bool.and_eq_true, decide_eq_true_eq] at accepted
    have stored := InMemoryBanStore.within_of_mem_coveringBans (List.mem_of_find?_eq_some found)
    rw [accepted.1] at stored
    exact ⟨stored.1, accepted.2⟩
  constructor
  · exact sound
  · rintro ⟨stored, active⟩
    have member : ban ∈ store.coveringBans record.subject := by
      apply InMemoryBanStore.mem_coveringBans_of_lookup counted
      rwa [canonical]
    have subject_eq := store.subject_eq record.subject ban stored
    have exists_found : (extendedBan store record now).isSome = true := by
      rw [extendedBan, List.find?_isSome]
      exact ⟨ban, member, by rw [subject_eq, active]; simp⟩
    rcases Option.isSome_iff_exists.mp exists_found with ⟨other, found⟩
    have same := (sound found).1.symm.trans stored
    rw [found]
    exact same

theorem uncovered_trunc_iff :
    Uncovered store { record with subject := record.subject.trunc } now ↔
      Uncovered store record now := by
  rw [Uncovered, Uncovered, InMemoryBanStore.coveringBans_trunc]

variable (env) in
theorem addBan_trunc (record : BanRecord) :
    addBan env { record with subject := record.subject.trunc } = addBan env record := by
  rw [addBan_eq, addBan_eq]
  simp only [IpNet.trunc_trunc]

/-- The covering ban that the answer names. -/
theorem exists_covering_of_covered (covered : ¬Uncovered store record now) :
    ∃ ban, ((store.coveringBans record.subject).find? fun ban =>
      InMemoryBanStore.unexpired now ban &&
        outlasts ban.expiresAt record.expiresAt) = some ban := by
  simp only [Uncovered, not_forall, Bool.not_eq_false] at covered
  rcases covered with ⟨ban, member, active, longer⟩
  rw [← Option.isSome_iff_exists, List.find?_isSome]
  exact ⟨ban, member, by rw [active, longer]; rfl⟩

variable (env) in
/-- A record that is covered is answered the same way with and without its host bits. -/
theorem admitBan_trunc_of_covered
    (covered : ¬Uncovered source.manager.banStore record now) :
    (admitBan env { record with subject := record.subject.trunc } now).run source =
      (admitBan env record now).run source := by
  rcases exists_covering_of_covered covered with ⟨ban, found⟩
  simp only [admitBan, EStateM.run_bind, EStateM.run_get,
    InMemoryBanStore.coveringBans_trunc, found]

variable (env) in
/-- While the counters are the numbers of bans, host bits are ignored exactly where they are
idle: then both calls run alike, and otherwise, if both return, one extends the active ban
of the network and the other one stores a new ban in its place. -/
theorem admitBan_ignores_hostBits_iff (record : BanRecord) (now : DateTime) (source : World)
    (counted : source.manager.banStore.Counted) :
    (HostBitsIdle source.manager.banStore record now →
      (admitBan env { record with subject := record.subject.trunc } now).run source =
        (admitBan env record now).run source) ∧
    ∀ first second firstEnd secondEnd,
      (admitBan env record now).run source = .ok first firstEnd →
      (admitBan env { record with subject := record.subject.trunc } now).run source =
        .ok second secondEnd →
      ((first = second ∧ firstEnd = secondEnd) ↔
        HostBitsIdle source.manager.banStore record now) := by
  have alike : HostBitsIdle source.manager.banStore record now →
      (admitBan env { record with subject := record.subject.trunc } now).run source =
        (admitBan env record now).run source := by
    intro idle
    by_cases canonical : record.subject.trunc = record.subject
    · rw [canonical]
    · by_cases uncovered : Uncovered source.manager.banStore record now
      · have noneActive := (idle.resolve_left canonical).resolve_left (not_not_intro uncovered)
        have noneExtended : extendedBan source.manager.banStore
            { record with subject := record.subject.trunc } now = none := by
          rw [Option.eq_none_iff_forall_ne_some]
          intro ban found
          rcases (extendedBan_eq_some_iff counted record.subject.trunc_trunc).mp found with
            ⟨stored, active⟩
          rw [noneActive ban stored] at active
          contradiction
        rw [admitBan_of_uncovered env uncovered,
          admitBan_of_uncovered env (uncovered_trunc_iff.mpr uncovered), noneExtended,
          extendedBan_eq_none canonical]
        simp only [addBan_trunc]
      · exact admitBan_trunc_of_covered env uncovered
  refine ⟨alike, ?_⟩
  intro first second firstEnd secondEnd firstRun secondRun
  constructor
  · rintro ⟨rfl, -⟩
    by_contra busy
    simp only [HostBitsIdle, not_or, not_not, not_forall, Bool.not_eq_false] at busy
    rcases busy with ⟨hostBits, uncovered, ban, stored, active⟩
    have extended : extendedBan source.manager.banStore
        { record with subject := record.subject.trunc } now = some ban :=
      (extendedBan_eq_some_iff counted record.subject.trunc_trunc).mpr ⟨stored, active⟩
    rw [admitBan_of_uncovered env uncovered, extendedBan_eq_none hostBits] at firstRun
    rw [admitBan_of_uncovered env (uncovered_trunc_iff.mpr uncovered), extended] at secondRun
    rcases bind_eq_ok_iff.mp firstRun with ⟨_, _, _, firstAnswer⟩
    rcases bind_eq_ok_iff.mp secondRun with ⟨_, _, _, secondAnswer⟩
    cases firstAnswer
    cases secondAnswer
  · intro idle
    rw [alike idle, firstRun] at secondRun
    cases secondRun
    exact ⟨rfl, rfl⟩

/-- A permanent ban of `8.8.8.8/24`, ten minutes later. -/
def laterBan : BanRecord :=
  { World.sampleBan with createdAt := 1700000600000000000 }

/-- After an hour's ban of `8.8.8.0/24`, a permanent one of `8.8.8.8/24` counts as new and
starts afresh; written `8.8.8.0/24`, it extends the first and keeps its start. -/
theorem admitBan_sees_hostBits :
    let canonical : BanRecord := { laterBan with subject := laterBan.subject.trunc }
    let first := (admitBan Wire.externals laterBan laterBan.createdAt).run hourWorld
    let second := (admitBan Wire.externals canonical laterBan.createdAt).run hourWorld
    (addBan Wire.externals hourBan).run World.sampleStart = .ok () hourWorld ∧
      returned first = some .added ∧ returned second = some (.extended hourBan.expiresAt) ∧
      ((finalState first).manager.banStore.bans.lookup laterBan.subject.trunc).map
        BanRecord.createdAt = some laterBan.createdAt ∧
      ((finalState second).manager.banStore.bans.lookup laterBan.subject.trunc).map
        BanRecord.createdAt = some hourBan.createdAt :=
  ⟨hourWorld_run, by decide +kernel⟩

/-- A ban with host bits that ends before the hour does is answered like the one without. -/
theorem admitBan_ignores_hostBits_at_hour :
    let record := { laterBan with expiresAt := some 1700001800000000000 }
    (admitBan Wire.externals { record with subject := record.subject.trunc }
        record.createdAt).run hourWorld =
      (admitBan Wire.externals record record.createdAt).run hourWorld := by
  intro record
  have idle : HostBitsIdle hourWorld.manager.banStore record record.createdAt := by
    refine .inr (.inl ?_)
    unfold Uncovered
    decide +kernel
  exact (admitBan_ignores_hostBits_iff Wire.externals record _ hourWorld counted_hourWorld).1 idle

/-! ## A counter that has wrapped around -/

/-- A manager that has started afresh, but for its bans. -/
def worldWith (store : InMemoryBanStore) : World :=
  { World.sampleStart with manager := { World.sampleStart.manager with banStore := store } }

/-- Whether a ban can be stored does not depend on the other bans. -/
theorem exists_addBan (store : InMemoryBanStore) (record : BanRecord)
    (free : World.sampleStart.manager.whitelist.overlaps record.subject.trunc = false)
    (appends : succeeded ((WalWriter.append Wire.externals
      (.addBan { record with subject := record.subject.trunc })).run
        World.sampleStart.walState) = true) :
    ∃ target, (addBan Wire.externals record).run (worldWith store) = .ok () target := by
  have appended : (WalWriter.append Wire.externals _).run (worldWith store).walState = .ok () _ :=
    eq_ok_of_succeeded appends
  refine ⟨_, Eq.trans ?_ ((logEntry_ok_iff Wire.externals).mpr ⟨_, appended, rfl⟩)⟩
  have allowed : (worldWith store).manager.whitelist.overlaps record.subject.trunc = false := free
  rw [addBan_eq, EStateM.run_bind, EStateM.run_get]
  simp only [allowed]
  rfl

end StateManager

end HiveGuard.Persistence
