import HiveGuard.Daemon.Announce

/-!
# When announcing a ban returns

The configured maximum for bans of peers is any positive `i64`.  As a duration of the time
library it has to be a thousand times smaller, and the dates computed with it have to stay
in the range of the library.
-/

namespace HiveGuard.Daemon

open HiveGuard.Core

/-- The part of the validation that concerns the limits on bans from peers. -/
def TrustConfig.validate (self : TrustConfig) : Except String Unit :=
  if 32 < self.remoteMinPrefixV4.val ∨ 128 < self.remoteMinPrefixV6.val then
    .error "remote minimum prefix exceeds address width"
  else if self.remoteMaxTtlSecs.val = 0 ∨ 2 ^ 63 - 1 < self.remoteMaxTtlSecs.val then
    .error "remote maximum TTL must be positive and representable"
  else
    .ok ()

/-- Longest lifetime a peer accepts. -/
def announceMaxSecs (policy : TrustConfig) : Int :=
  if policy.remoteMaxTtlSecs.val < 2 ^ 63 then policy.remoteMaxTtlSecs.val else 2 ^ 63 - 1

/-- The check of a ban from a peer with the addition that may leave the range of dates.
The conditions are evaluated in order, so the addition is reached only after the prefix
was found long enough. -/
def tryRemotePolicyAllows (policy : TrustConfig) (record : BanRecord) (now : DateTime) :
    Option Bool :=
  match record.expiresAt with
  | none => some false
  | some expiry =>
    if policy.remoteMaxTtlSecs.val < 2 ^ 63 then
      if (remoteMinPrefix policy record.subject).val ≤ record.subject.prefixLen then
        (DateTime.checkedAddSigned now (Duration.minutes 5)).map fun latest =>
          decide (record.createdAt ≤ latest) &&
            decide (now < expiry) && decide (record.createdAt < expiry) &&
            decide (Duration.numSeconds (expiry - record.createdAt) ≤
              policy.remoteMaxTtlSecs.val) &&
            decide (Duration.numSeconds (expiry - now) ≤ policy.remoteMaxTtlSecs.val)
      else
        some false
    else
      some false

/-- A date of the time library. -/
def DateTime.Valid (time : DateTime) : Prop :=
  DateTime.minUtc ≤ time ∧ time ≤ DateTime.maxUtc

/-- The dates of a record are dates of the time library. -/
def DatesValid (record : BanRecord) : Prop :=
  DateTime.Valid record.createdAt ∧ ∀ expiry ∈ record.expiresAt, DateTime.Valid expiry

section Policy

variable {policy : TrustConfig} {record : BanRecord} {expiry now : DateTime}

theorem TrustConfig.validate_eq_ok (accepted : policy.validate = .ok ()) :
    0 < policy.remoteMaxTtlSecs.val ∧ policy.remoteMaxTtlSecs.val < 2 ^ 63 := by
  rw [TrustConfig.validate] at accepted
  split at accepted
  · cases accepted
  · split at accepted
    · cases accepted
    · omega

theorem remotePolicyAllows_of_expires (ends : record.expiresAt = some expiry)
    (small : policy.remoteMaxTtlSecs.val < 2 ^ 63) :
    remotePolicyAllows policy record now =
      (decide ((remoteMinPrefix policy record.subject).val ≤ record.subject.prefixLen) &&
        decide (record.createdAt ≤ now + Duration.minutes 5) &&
        decide (now < expiry) && decide (record.createdAt < expiry) &&
        decide (Duration.numSeconds (expiry - record.createdAt) ≤ policy.remoteMaxTtlSecs.val) &&
        decide (Duration.numSeconds (expiry - now) ≤ policy.remoteMaxTtlSecs.val)) := by
  rw [remotePolicyAllows, ends]
  simp only [if_pos small]
  rfl

/-- Where the check returns, it is the check without the range. -/
theorem remotePolicyAllows_of_try {allowed : Bool}
    (returned : tryRemotePolicyAllows policy record now = some allowed) :
    remotePolicyAllows policy record now = allowed := by
  rw [tryRemotePolicyAllows] at returned
  cases ends : record.expiresAt with
  | none =>
    rw [ends] at returned
    rw [remotePolicyAllows, ends]
    exact Option.some.inj returned
  | some expiry =>
    simp only [ends] at returned
    split at returned
    · rename_i small
      rw [remotePolicyAllows_of_expires ends small]
      split at returned
      · rename_i long
        rcases Option.map_eq_some_iff.mp returned with ⟨latest, added, rfl⟩
        rw [DateTime.checkedAddSigned_eq_some_iff] at added
        rw [← added.2, decide_eq_true long, Bool.true_and]
      · rename_i short
        rw [decide_eq_false short, ← Option.some.inj returned]
        rfl
    · rename_i large
      rw [remotePolicyAllows, ends]
      simp only [if_neg large]
      exact Option.some.inj returned

theorem tryRemotePolicyAllows_ne_none_iff (ends : record.expiresAt = some expiry)
    (small : policy.remoteMaxTtlSecs.val < 2 ^ 63) (valid : DateTime.Valid now) :
    tryRemotePolicyAllows policy record now ≠ none ↔
      ((remoteMinPrefix policy record.subject).val ≤ record.subject.prefixLen →
        now + Duration.minutes 5 ≤ DateTime.maxUtc) := by
  rw [tryRemotePolicyAllows, ends]
  simp only [if_pos small]
  split
  · rename_i long
    have lower : DateTime.minUtc ≤ now + Duration.minutes 5 := by
      have : 0 < Duration.minutes 5 := by decide
      have := valid.1
      linarith
    rw [Ne, Option.map_eq_none_iff, DateTime.checkedAddSigned]
    simp [long, lower]
  · rename_i short
    exact iff_of_true (Option.some_ne_none false) fun long => absurd long short

end Policy

section Returns

variable {policy : TrustConfig} {record : BanRecord} {expiry now : DateTime} {maxSecs : Int}

/-- Before a ban starts, it is announced as at its start. -/
theorem announcedForm_of_le (ends : record.expiresAt = some expiry)
    (early : now ≤ record.createdAt) (nonempty : record.createdAt < expiry) :
    announcedForm record maxSecs now = announcedForm record maxSecs record.createdAt := by
  have seconds_nonpos : Duration.numSeconds (now - record.createdAt) ≤ 0 := by
    have reversed : 0 ≤ (-(now - record.createdAt)).tdiv 1000000000 :=
      Int.tdiv_nonneg (by linarith) (by decide)
    rw [Int.neg_tdiv] at reversed
    rw [Duration.numSeconds]
    linarith
  have seconds_zero : Duration.numSeconds (record.createdAt - record.createdAt) = 0 := by
    rw [sub_self]
    rfl
  have offered_iff : (expiry ≤ now ∨ expiry ≤ record.createdAt ∨ maxSecs ≤ 0) ↔
      (expiry ≤ record.createdAt ∨ expiry ≤ record.createdAt ∨ maxSecs ≤ 0) := by
    have running : ¬expiry ≤ now := not_le.mpr (early.trans_lt nonempty)
    have unended : ¬expiry ≤ record.createdAt := not_le.mpr nonempty
    tauto
  simp only [announcedForm, ends, offered_iff, max_eq_right seconds_nonpos, seconds_zero,
    max_self]

/-- The end of the slice around an instant is the first multiple of the length behind it,
so it is a date if any later multiple is. -/
theorem sliceEnd_le_iff {origin max limit : Int} (positive : 0 < max) (started : origin ≤ now) :
    sliceStart origin max now + max ≤ limit ↔
      ∃ count : Nat, now < origin + count * max ∧ origin + count * max ≤ limit := by
  have quotient_nonneg : 0 ≤ (now - origin) / max := Int.ediv_nonneg (by linarith) positive.le
  constructor
  · intro fits
    refine ⟨((now - origin) / max).toNat + 1, ?_, ?_⟩
    · have behind : now < sliceStart origin max now + max := lt_sliceStart_add positive
      rw [sliceStart] at behind
      push_cast
      rw [Int.toNat_of_nonneg quotient_nonneg]
      linarith
    · rw [sliceStart] at fits
      push_cast
      rw [Int.toNat_of_nonneg quotient_nonneg]
      linarith
  · rintro ⟨count, behind, fits⟩
    have quotient_lt : (now - origin) / max < count :=
      (Int.ediv_lt_iff_lt_mul positive).mpr (by linarith)
    have scaled : ((now - origin) / max + 1) * max ≤ count * max :=
      Int.mul_le_mul_of_nonneg_right quotient_lt positive.le
    rw [sliceStart]
    linarith

/-- The length is a duration, and a long ban has a multiple of the length behind `now`
that is still a date. -/
def Sliceable (record : BanRecord) (expiry : DateTime) (maxSecs : Int) (now : DateTime) : Prop :=
  Duration.seconds maxSecs ≤ Duration.max ∧
    (Duration.seconds maxSecs < expiry - record.createdAt →
      ∃ count : Nat,
        max now record.createdAt < record.createdAt + count * Duration.seconds maxSecs ∧
          record.createdAt + count * Duration.seconds maxSecs ≤ DateTime.maxUtc)

theorem announcedForm_ne_none_iff (ends : record.expiresAt = some expiry)
    (valid : DatesValid record) (positive : 0 < maxSecs) :
    announcedForm record maxSecs now ≠ none ↔
      (now < expiry → record.createdAt < expiry → Sliceable record expiry maxSecs now) := by
  by_cases running : now < expiry
  · by_cases nonempty : record.createdAt < expiry
    · have finite : FiniteBan record expiry :=
        ⟨ends, valid.1.1, (valid.2 expiry (Option.mem_def.mpr ends)).2⟩
      have inForce : max now record.createdAt ∈ lifetime record :=
        finite.mem_lifetime_iff.mpr ⟨le_max_right _ _, max_lt running nonempty⟩
      have same : announcedForm record maxSecs now =
          announcedForm record maxSecs (max now record.createdAt) := by
        rcases le_total now record.createdAt with early | late
        · rw [max_eq_right early, announcedForm_of_le ends early nonempty]
        · rw [max_eq_left late]
      have returns : ∀ announced, announcedForm record maxSecs (max now record.createdAt) =
          some announced ↔ WindowFits record expiry maxSecs (max now record.createdAt) ∧
            some (windowAt record expiry (Duration.seconds maxSecs)
              (max now record.createdAt)) = announced :=
        fun _ => announcedForm_eq_some_iff finite positive inForce
      have fits_iff : WindowFits record expiry maxSecs (max now record.createdAt) ↔
          Sliceable record expiry maxSecs now := by
        rw [WindowFits, Sliceable, sliceEnd_le_iff (seconds_pos positive) (le_max_right _ _)]
      rw [same, Option.ne_none_iff_exists', ← fits_iff]
      constructor
      · rintro ⟨announced, returned⟩ - -
        exact ((returns announced).mp returned).1
      · intro fits
        exact ⟨_, (returns _).mpr ⟨fits running nonempty, rfl⟩⟩
    · refine iff_of_true ?_ fun _ nonempty' => absurd nonempty' nonempty
      rw [announcedForm, ends]
      simp [not_lt.mp nonempty]
  · refine iff_of_true ?_ fun running' => absurd running' running
    rw [announcedForm, ends]
    simp [not_lt.mp running]

end Returns

theorem threeDayBan_datesValid : DatesValid threeDayBan := by
  refine ⟨⟨by decide +kernel, by decide +kernel⟩, ?_⟩
  rintro expiry ⟨⟩
  exact ⟨by decide +kernel, by decide +kernel⟩

/-- All values that come up can be represented: for a ban that is still to run, the limit as
a duration and the next multiple of it as a date, and five minutes from now for a ban that
is checked. -/
def Representable (policy : TrustConfig) (record : BanRecord) (now : DateTime) : Prop :=
  ∀ expiry ∈ record.expiresAt,
    (now < expiry → record.createdAt < expiry →
      Sliceable record expiry policy.remoteMaxTtlSecs.val now) ∧
    ((remoteMinPrefix policy record.subject).val ≤ record.subject.prefixLen →
      now + Duration.minutes 5 ≤ DateTime.maxUtc)

/-- With an accepted configuration, announcing a ban and checking it return exactly if all
values can be represented. -/
theorem announcing_returns_iff (policy : TrustConfig) (accepted : policy.validate = .ok ())
    (record : BanRecord) (valid : DatesValid record) (now : DateTime)
    (validNow : DateTime.Valid now) :
    (announcedForm record (announceMaxSecs policy) now ≠ none ∧
        tryRemotePolicyAllows policy record now ≠ none) ↔ Representable policy record now := by
  rcases TrustConfig.validate_eq_ok accepted with ⟨positive, small⟩
  rw [announceMaxSecs, if_pos small, Representable]
  cases ends : record.expiresAt with
  | none =>
    rw [announcedForm, tryRemotePolicyAllows, ends]
    refine iff_of_true ⟨Option.some_ne_none none, Option.some_ne_none false⟩ ?_
    exact fun expiry member => absurd member (Option.not_mem_none expiry)
  | some expiry =>
    rw [announcedForm_ne_none_iff ends valid (by exact_mod_cast positive),
      tryRemotePolicyAllows_ne_none_iff ends small validNow]
    simp

theorem announcing_returns_at_default :
    announcedForm threeDayBan (announceMaxSecs ⟨24, 48, 86400⟩) 1700086400500000000 ≠ none := by
  refine ((announcing_returns_iff ⟨24, 48, 86400⟩ (by decide +kernel) threeDayBan
    threeDayBan_datesValid 1700086400500000000 ⟨by decide +kernel, by decide +kernel⟩).mpr ?_).1
  rintro expiry ⟨⟩
  exact ⟨fun _ _ => ⟨by decide +kernel, fun _ => ⟨2, by decide +kernel, by decide +kernel⟩⟩,
    fun _ => by decide +kernel⟩

/-- A limit accepted by the configuration that is no duration of the time library. -/
def longPolicy : TrustConfig :=
  ⟨24, 48, ⟨9223372036854776, by decide⟩⟩

theorem longPolicy_panics :
    longPolicy.validate = .ok () ∧ DatesValid threeDayBan ∧ DateTime.Valid 1700086400500000000 ∧
        announcedForm threeDayBan (announceMaxSecs longPolicy) 1700086400500000000 = none :=
  ⟨by decide +kernel, threeDayBan_datesValid, ⟨by decide +kernel, by decide +kernel⟩,
    by decide +kernel⟩

end HiveGuard.Daemon
