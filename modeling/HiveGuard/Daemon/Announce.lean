import HiveGuard.Core.Chrono
import HiveGuard.Daemon.Cluster
import Mathlib.Data.Set.Pairwise.Basic

/-!
# Bans as they are offered to peers

Peers accept only bans with a short lifetime.  A longer local ban is offered as a
window: its lifetime is cut into slices of the maximal length, starting at its
creation, and the slice around the present instant is announced.
-/

namespace HiveGuard.Daemon

open HiveGuard.Core

/-- `i64::checked_mul`. -/
def checkedMul (first second : Int) : Option Int :=
  if -2 ^ 63 ≤ first * second ∧ first * second < 2 ^ 63 then some (first * second) else none

/-- The form in which a local ban is offered to peers, if it is offered at all.  The
outer `none` is a panic: a duration or a date beyond its range. -/
def announcedForm (record : BanRecord) (maxSecs : Int) (now : DateTime) :
    Option (Option BanRecord) :=
  match record.expiresAt with
  | none => some none
  | some expiry =>
    if expiry ≤ now ∨ expiry ≤ record.createdAt ∨ maxSecs ≤ 0 then
      some none
    else
      (Duration.trySeconds maxSecs).bind fun max =>
        if expiry - record.createdAt ≤ max then
          some (some record)
        else
          let elapsed := Max.max (Duration.numSeconds (now - record.createdAt)) 0
          let slice := elapsed.tdiv maxSecs
          match checkedMul slice maxSecs with
          | none => some none
          | some offset =>
            (Duration.trySeconds offset).bind fun offset =>
              (DateTime.checkedAddSigned record.createdAt offset).bind fun createdAt =>
                (DateTime.checkedAddSigned createdAt max).map fun sliceEnd =>
                  some { record with
                    createdAt := createdAt
                    expiresAt := some (Min.min expiry sliceEnd) }

/-! ## The slice around an instant -/

/-- The start of the slice of length `max` around `now`, counted from `origin`. -/
def sliceStart (origin max now : Int) : Int :=
  origin + (now - origin) / max * max

section Slice

variable {origin max now instant : Int}

theorem sliceStart_le (positive : 0 < max) : sliceStart origin max now ≤ now := by
  have := Int.ediv_mul_le (now - origin) positive.ne'
  rw [sliceStart]
  omega

theorem lt_sliceStart_add (positive : 0 < max) : now < sliceStart origin max now + max := by
  have := Int.lt_ediv_add_one_mul_self (now - origin) positive
  rw [add_one_mul] at this
  rw [sliceStart]
  omega

theorem le_sliceStart (positive : 0 < max) (started : origin ≤ now) :
    origin ≤ sliceStart origin max now := by
  have quotient_nonneg : 0 ≤ (now - origin) / max :=
    Int.ediv_nonneg (by omega) positive.le
  have := Int.mul_nonneg quotient_nonneg positive.le
  rw [sliceStart]
  omega

/-- Every instant of a slice has this slice around it. -/
theorem sliceStart_eq (positive : 0 < max) (lower : sliceStart origin max now ≤ instant)
    (upper : instant < sliceStart origin max now + max) :
    sliceStart origin max instant = sliceStart origin max now := by
  rw [sliceStart] at lower upper
  have quotient_eq : (instant - origin) / max = (now - origin) / max := by
    apply (Int.ediv_eq_iff_of_pos positive).mpr
    constructor <;> linarith
  rw [sliceStart, sliceStart, quotient_eq]

/-- Counting whole seconds first does not move the slice. -/
theorem sliceStart_seconds (maxSecs : Int) (started : origin ≤ now) :
    origin + Duration.seconds
        ((Max.max (Duration.numSeconds (now - origin)) 0).tdiv maxSecs * maxSecs) =
      sliceStart origin (Duration.seconds maxSecs) now := by
  have elapsed_nonneg : 0 ≤ now - origin := by omega
  have seconds_eq : Duration.numSeconds (now - origin) = (now - origin) / 1000000000 :=
    Int.tdiv_eq_ediv_of_nonneg elapsed_nonneg
  have seconds_nonneg : 0 ≤ (now - origin) / 1000000000 :=
    Int.ediv_nonneg elapsed_nonneg (by decide)
  rw [seconds_eq, max_eq_left seconds_nonneg, Int.tdiv_eq_ediv_of_nonneg seconds_nonneg,
    Int.ediv_ediv_of_nonneg (by decide), sliceStart, Duration.seconds, Duration.seconds,
    mul_comm maxSecs, mul_assoc, mul_comm maxSecs]

end Slice

/-! ## The announced window -/

/-- The window of a ban around `now`: the whole lifetime of a short ban, otherwise the
slice around `now`, cut off at the end of the ban. -/
def windowAt (record : BanRecord) (expiry : DateTime) (max : Duration) (now : DateTime) :
    BanRecord :=
  if expiry - record.createdAt ≤ max then record
  else
    { record with
      createdAt := sliceStart record.createdAt max now
      expiresAt := some (Min.min expiry (sliceStart record.createdAt max now + max)) }

/-- The instants at which a ban is in force. -/
def lifetime (record : BanRecord) : Set DateTime :=
  { instant | record.createdAt ≤ instant ∧ ∀ expiry ∈ record.expiresAt, instant < expiry }

/-- A ban that ends, with dates in the range of the time library. -/
structure FiniteBan (record : BanRecord) (expiry : DateTime) : Prop where
  expires : record.expiresAt = some expiry
  created_valid : DateTime.minUtc ≤ record.createdAt
  expiry_valid : expiry ≤ DateTime.maxUtc

section Window

variable {record : BanRecord} {expiry now instant : DateTime} {max : Duration} {maxSecs : Int}

theorem FiniteBan.mem_lifetime_iff (finite : FiniteBan record expiry) :
    instant ∈ lifetime record ↔ record.createdAt ≤ instant ∧ instant < expiry := by
  simp [lifetime, finite.expires]

theorem mem_lifetime_windowAt_iff (finite : FiniteBan record expiry) :
    instant ∈ lifetime (windowAt record expiry max now) ↔
      (windowAt record expiry max now).createdAt ≤ instant ∧ instant < expiry ∧
        (max < expiry - record.createdAt →
          instant < sliceStart record.createdAt max now + max) := by
  rw [windowAt]
  split
  · rename_i short
    rw [finite.mem_lifetime_iff]
    have := not_lt.mpr short
    tauto
  · rename_i long
    simp [lifetime, not_le.mp long]

/-- An instant of the ban lies in its own window. -/
theorem mem_lifetime_windowAt (finite : FiniteBan record expiry) (positive : 0 < max)
    (running : now ∈ lifetime record) :
    now ∈ lifetime (windowAt record expiry max now) := by
  rw [finite.mem_lifetime_iff] at running
  rw [mem_lifetime_windowAt_iff finite]
  refine ⟨?_, running.2, fun _ => lt_sliceStart_add positive⟩
  rw [windowAt]
  split
  · exact running.1
  · exact sliceStart_le positive

/-- A window stays inside the ban. -/
theorem createdAt_le_windowAt (positive : 0 < max) (started : record.createdAt ≤ now) :
    record.createdAt ≤ (windowAt record expiry max now).createdAt := by
  rw [windowAt]
  split
  · exact le_rfl
  · exact le_sliceStart positive started

/-- Every instant of a window has this window around it. -/
theorem windowAt_eq (finite : FiniteBan record expiry) (positive : 0 < max)
    (inside : instant ∈ lifetime (windowAt record expiry max now)) :
    windowAt record expiry max instant = windowAt record expiry max now := by
  rw [mem_lifetime_windowAt_iff finite] at inside
  by_cases short : expiry - record.createdAt ≤ max
  · simp only [windowAt, if_pos short]
  · have lower : sliceStart record.createdAt max now ≤ instant := by
      simpa only [windowAt, if_neg short] using inside.1
    have start_eq := sliceStart_eq positive lower (inside.2.2 (not_le.mp short))
    simp only [windowAt, if_neg short, start_eq]

end Window

/-! ## The function computes the window -/

/-- The maximal length is a duration, and the slice around `now` ends at a date. -/
def WindowFits (record : BanRecord) (expiry : DateTime) (maxSecs : Int) (now : DateTime) : Prop :=
  Duration.seconds maxSecs ≤ Duration.max ∧
    (Duration.seconds maxSecs < expiry - record.createdAt →
      sliceStart record.createdAt (Duration.seconds maxSecs) now + Duration.seconds maxSecs ≤
        DateTime.maxUtc)

theorem checkedMul_eq_some {first second : Int} (nonneg : 0 ≤ first * second)
    (small : first * second < 2 ^ 63) : checkedMul first second = some (first * second) := by
  rw [checkedMul, if_pos ⟨by omega, small⟩]

theorem trySeconds_of_nonneg {count : Int} (nonneg : 0 ≤ count)
    (small : Duration.seconds count ≤ Duration.max) :
    Duration.trySeconds count = some (Duration.seconds count) := by
  have seconds_nonneg : 0 ≤ Duration.seconds count := Int.mul_nonneg nonneg (by decide)
  have max_nonneg : 0 ≤ Duration.max := by decide
  rw [Duration.trySeconds_eq_some_iff]
  exact ⟨⟨by linarith, small⟩, rfl⟩

theorem seconds_pos {count : Int} (positive : 0 < count) : 0 < Duration.seconds count :=
  Int.mul_pos positive (by decide)

section Announced

variable {record : BanRecord} {expiry now : DateTime} {maxSecs : Int}

/-- The offset of the slice passes every check: it lies between the dates of the ban. -/
theorem slice_offset (finite : FiniteBan record expiry) (positive : 0 < maxSecs)
    (running : now ∈ lifetime record) :
    ∃ offset, checkedMul ((Max.max (Duration.numSeconds (now - record.createdAt)) 0).tdiv maxSecs)
        maxSecs = some offset ∧ Duration.trySeconds offset = some (Duration.seconds offset) ∧
      DateTime.checkedAddSigned record.createdAt (Duration.seconds offset) =
        some (sliceStart record.createdAt (Duration.seconds maxSecs) now) := by
  have inside := finite.mem_lifetime_iff.mp running
  have start_eq := sliceStart_seconds maxSecs inside.1
  have start_le : sliceStart record.createdAt (Duration.seconds maxSecs) now ≤ now :=
    sliceStart_le (seconds_pos positive)
  have le_start := le_sliceStart (seconds_pos positive) inside.1
  generalize (Max.max (Duration.numSeconds (now - record.createdAt)) 0).tdiv maxSecs = slice
    at start_eq ⊢
  generalize sliceStart record.createdAt (Duration.seconds maxSecs) now = start at *
  have created_valid := finite.created_valid
  have expiry_valid := finite.expiry_valid
  rw [DateTime.minUtc] at created_valid
  rw [DateTime.maxUtc] at expiry_valid
  have offset_eq : Duration.seconds (slice * maxSecs) = start - record.createdAt := by linarith
  rw [Duration.seconds] at offset_eq
  have offset_nonneg : 0 ≤ slice * maxSecs := by linarith
  have offset_small : slice * maxSecs < 2 ^ 63 := by linarith
  refine ⟨slice * maxSecs, checkedMul_eq_some offset_nonneg offset_small,
    trySeconds_of_nonneg offset_nonneg ?_, ?_⟩
  · rw [Duration.seconds, Duration.max]
    linarith
  · rw [DateTime.checkedAddSigned_eq_some_iff, start_eq, DateTime.minUtc, DateTime.maxUtc]
    exact ⟨⟨by linarith, by linarith⟩, rfl⟩

/-- The function announces the window around the present instant, and panics only where
the maximal length or the end of the slice cannot be represented. -/
theorem announcedForm_eq_some_iff (finite : FiniteBan record expiry) (positive : 0 < maxSecs)
    (running : now ∈ lifetime record) {announced : Option BanRecord} :
    announcedForm record maxSecs now = some announced ↔ WindowFits record expiry maxSecs now ∧
        some (windowAt record expiry (Duration.seconds maxSecs) now) = announced := by
  have inside := finite.mem_lifetime_iff.mp running
  have offered : ¬(expiry ≤ now ∨ expiry ≤ record.createdAt ∨ maxSecs ≤ 0) := by
    rintro (ended | empty | nonpositive)
    · exact absurd inside.2 (not_lt.mpr ended)
    · exact absurd (inside.1.trans_lt inside.2) (not_lt.mpr empty)
    · exact absurd positive (not_lt.mpr nonpositive)
  rw [announcedForm, finite.expires]
  simp only [if_neg offered, WindowFits]
  by_cases representable : Duration.seconds maxSecs ≤ Duration.max
  · rw [trySeconds_of_nonneg positive.le representable, Option.bind_some, windowAt]
    split
    · rename_i short
      simp [representable, not_lt.mpr short]
    · rename_i long
      rcases slice_offset finite positive running with ⟨offset, product, span, start⟩
      simp only [product, span, start, Option.bind_some, Option.map_eq_some_iff,
        DateTime.checkedAddSigned_eq_some_iff]
      have lower : DateTime.minUtc ≤ sliceStart record.createdAt (Duration.seconds maxSecs) now +
          Duration.seconds maxSecs := by
        have le_start := le_sliceStart (seconds_pos positive) inside.1
        have span_pos := seconds_pos positive
        linarith [finite.created_valid]
      simp [representable, not_le.mp long, lower]
  · have overflow : Duration.trySeconds maxSecs = none := by
      rw [Duration.trySeconds, if_neg (fun range => representable range.2)]
    simp [overflow, representable]

/-- Where one instant of a window can be computed with, all can. -/
theorem windowFits_of_mem (finite : FiniteBan record expiry) (positive : 0 < maxSecs)
    (fits : WindowFits record expiry maxSecs now) {instant : DateTime}
    (inside : instant ∈ lifetime (windowAt record expiry (Duration.seconds maxSecs) now)) :
    WindowFits record expiry maxSecs instant := by
  refine ⟨fits.1, fun long => ?_⟩
  rw [mem_lifetime_windowAt_iff finite] at inside
  have lower : sliceStart record.createdAt (Duration.seconds maxSecs) now ≤ instant := by
    simpa only [windowAt, if_neg (not_le.mpr long)] using inside.1
  rw [sliceStart_eq (seconds_pos positive) lower (inside.2.2 long)]
  exact fits.2 long

end Announced

/-! ## What peers see -/

/-- The shortest prefix a peer's ban on this subject may have. -/
def remoteMinPrefix (policy : TrustConfig) (subject : IpNet) : Fin 256 :=
  match subject with
  | .v4 _ => policy.remoteMinPrefixV4
  | .v6 _ => policy.remoteMinPrefixV6

/-- The windows that are announced while a ban is in force. -/
def announcedWindows (record : BanRecord) (maxSecs : Int) : Set BanRecord :=
  { window | ∃ now ∈ lifetime record, announcedForm record maxSecs now = some (some window) }

theorem numSeconds_le {span : Duration} {maxSecs : Int} (positive : 0 < span)
    (short : span ≤ Duration.seconds maxSecs) : Duration.numSeconds span ≤ maxSecs := by
  rw [Duration.numSeconds, Int.tdiv_eq_ediv_of_nonneg positive.le]
  exact Int.ediv_le_of_le_mul (by decide) short

section Peers

variable {record : BanRecord} {expiry now : DateTime} {maxSecs : Int}

theorem windowAt_expiresAt (finite : FiniteBan record expiry) (maxSecs : Int) (now : DateTime) :
    ∃ windowEnd,
      (windowAt record expiry (Duration.seconds maxSecs) now).expiresAt = some windowEnd ∧
      windowEnd ≤ expiry ∧
      windowEnd - (windowAt record expiry (Duration.seconds maxSecs) now).createdAt ≤
        Duration.seconds maxSecs := by
  rw [windowAt]
  split
  · rename_i short
    exact ⟨expiry, finite.expires, le_rfl, short⟩
  · refine ⟨_, rfl, min_le_left _ _, ?_⟩
    rw [sub_le_iff_le_add']
    exact min_le_right _ _

/-- A window passes the policy of a peer with the same limit, up to the prefix. -/
theorem remotePolicyAllows_windowAt (finite : FiniteBan record expiry) (positive : 0 < maxSecs)
    (running : now ∈ lifetime record) (fits : WindowFits record expiry maxSecs now)
    {policy : TrustConfig} (limit : (policy.remoteMaxTtlSecs.val : Int) = maxSecs) :
    remotePolicyAllows policy (windowAt record expiry (Duration.seconds maxSecs) now) now = true ↔
      (remoteMinPrefix policy record.subject).val ≤ record.subject.prefixLen := by
  rcases windowAt_expiresAt finite maxSecs now with ⟨windowEnd, ends, -, short⟩
  have inside := mem_lifetime_windowAt finite (seconds_pos positive) running
  have subject_eq : (windowAt record expiry (Duration.seconds maxSecs) now).subject =
      record.subject := by
    rw [windowAt]
    split <;> rfl
  generalize windowAt record expiry (Duration.seconds maxSecs) now = window at *
  simp only [lifetime, ends, Option.mem_def, Option.some.injEq, forall_eq', Set.mem_ofPred_eq]
    at inside
  have limit_small : policy.remoteMaxTtlSecs.val < 2 ^ 63 := by
    have representable : maxSecs * 1000000000 ≤ 9223372036854775807 * 1000000 := fits.1
    omega
  have created_soon : window.createdAt ≤ now + Duration.minutes 5 := by
    have : 0 < Duration.minutes 5 := by decide
    linarith
  have lifetime_short : Duration.numSeconds (windowEnd - window.createdAt) ≤ maxSecs :=
    numSeconds_le (by linarith) short
  have remaining_short : Duration.numSeconds (windowEnd - now) ≤ maxSecs :=
    numSeconds_le (by linarith) (by linarith)
  have nonempty : window.createdAt < windowEnd := inside.1.trans_lt inside.2
  simp only [remotePolicyAllows, ends, if_pos limit_small, limit, subject_eq]
  simp only [created_soon, inside.2, nonempty, lifetime_short, remaining_short, decide_true,
    Bool.and_true, decide_eq_true_eq]
  rfl

/-- The windows of a ban cover its lifetime and do not overlap. -/
theorem announcedWindows_tile (finite : FiniteBan record expiry) (positive : 0 < maxSecs)
    (fits : ∀ instant ∈ lifetime record, announcedForm record maxSecs instant ≠ none) :
    (⋃ window ∈ announcedWindows record maxSecs, lifetime window) = lifetime record ∧
      (announcedWindows record maxSecs).PairwiseDisjoint lifetime := by
  have windows_eq : ∀ {window}, window ∈ announcedWindows record maxSecs ↔
      ∃ instant ∈ lifetime record,
        windowAt record expiry (Duration.seconds maxSecs) instant = window := by
    intro window
    apply exists_congr
    intro instant
    apply and_congr_right
    intro running
    rcases Option.ne_none_iff_exists'.mp (fits instant running) with ⟨announced, returned⟩
    have fits := ((announcedForm_eq_some_iff finite positive running).mp returned).1
    rw [announcedForm_eq_some_iff finite positive running, and_iff_right fits,
      Option.some.injEq]
  constructor
  · ext instant
    simp only [Set.mem_iUnion, exists_prop, windows_eq]
    constructor
    · rintro ⟨window, ⟨origin, running, rfl⟩, inside⟩
      rw [mem_lifetime_windowAt_iff finite] at inside
      rw [finite.mem_lifetime_iff] at running ⊢
      exact ⟨(createdAt_le_windowAt (seconds_pos positive) running.1).trans inside.1, inside.2.1⟩
    · intro running
      exact ⟨_, ⟨instant, running, rfl⟩,
        mem_lifetime_windowAt finite (seconds_pos positive) running⟩
  · intro first first_mem second second_mem different
    rw [windows_eq] at first_mem second_mem
    rcases first_mem with ⟨firstInstant, -, rfl⟩
    rcases second_mem with ⟨secondInstant, -, rfl⟩
    apply Set.disjoint_left.mpr
    intro instant inFirst inSecond
    -- An instant in both windows has both of them around it.
    apply different
    rw [← windowAt_eq finite (seconds_pos positive) inFirst,
      ← windowAt_eq finite (seconds_pos positive) inSecond]

/-- A ban in force is announced as a window around the present instant that lies within
the ban and passes the policy of every peer with the same limit, except for the prefix.
The window stays the same as long as it lasts, and the windows tile the ban. -/
theorem announcedForm_acceptable_and_seamless (finite : FiniteBan record expiry)
    (started : record.createdAt ≤ now) (running : now < expiry) (positive : 0 < maxSecs)
    (noOverflow : announcedForm record maxSecs now ≠ none) :
    ∃ window windowEnd, announcedForm record maxSecs now = some (some window) ∧
      window.expiresAt = some windowEnd ∧
      record.createdAt ≤ window.createdAt ∧ window.createdAt ≤ now ∧
      now < windowEnd ∧ windowEnd ≤ expiry ∧
      (∀ policy : TrustConfig, (policy.remoteMaxTtlSecs.val : Int) = maxSecs →
        (remotePolicyAllows policy window now = true ↔
          (remoteMinPrefix policy record.subject).val ≤ record.subject.prefixLen)) ∧
      (∀ instant, window.createdAt ≤ instant → instant < windowEnd →
        announcedForm record maxSecs instant = some (some window)) ∧
      ((∀ instant ∈ lifetime record, announcedForm record maxSecs instant ≠ none) →
        (⋃ window ∈ announcedWindows record maxSecs, lifetime window) = lifetime record ∧
          (announcedWindows record maxSecs).PairwiseDisjoint lifetime) := by
  have inForce : now ∈ lifetime record := finite.mem_lifetime_iff.mpr ⟨started, running⟩
  rcases Option.ne_none_iff_exists'.mp noOverflow with ⟨announced, returned⟩
  have announces := (announcedForm_eq_some_iff finite positive inForce).mp returned
  rcases windowAt_expiresAt finite maxSecs now with ⟨windowEnd, ends, end_le, -⟩
  have window_mem : ∀ {instant},
      instant ∈ lifetime (windowAt record expiry (Duration.seconds maxSecs) now) ↔
        (windowAt record expiry (Duration.seconds maxSecs) now).createdAt ≤ instant ∧
          instant < windowEnd := by
    simp [lifetime, ends]
  have around := window_mem.mp (mem_lifetime_windowAt finite (seconds_pos positive) inForce)
  have start_le : record.createdAt ≤
      (windowAt record expiry (Duration.seconds maxSecs) now).createdAt :=
    createdAt_le_windowAt (seconds_pos positive) started
  refine ⟨_, windowEnd, returned.trans (congrArg some announces.2.symm), ends, start_le, around.1,
    around.2, end_le, fun policy limit =>
      remotePolicyAllows_windowAt finite positive inForce announces.1 limit,
    fun instant lower upper => ?_, announcedWindows_tile finite positive⟩
  have same := windowAt_eq finite (seconds_pos positive) (window_mem.mpr ⟨lower, upper⟩)
  have inForceThen : instant ∈ lifetime record :=
    finite.mem_lifetime_iff.mpr ⟨start_le.trans lower, upper.trans_le end_le⟩
  rw [announcedForm_eq_some_iff finite positive inForceThen, same]
  exact ⟨windowFits_of_mem finite positive announces.1 (window_mem.mpr ⟨lower, upper⟩), rfl⟩

end Peers

/-- A ban of one address for three days. -/
def threeDayBan : BanRecord where
  subject := .ofV4 0x08080808#32 32
  createdAt := 1700000000000000000
  expiresAt := some 1700259200000000000
  severity := 1
  reason := "scanner"
  evidenceHash := Vector.replicate 32 0
  source := .localDetector "scanner"
  geoInfo := none

/-- Half a second into the second day, the second day is announced. -/
theorem threeDayBan_announced :
    ∃ window windowEnd, announcedForm threeDayBan 86400 1700086400500000000 = some (some window) ∧
      window.expiresAt = some windowEnd ∧
      window.createdAt ≤ 1700086400500000000 ∧ 1700086400500000000 < windowEnd := by
  have finite : FiniteBan threeDayBan 1700259200000000000 :=
    ⟨rfl, by decide +kernel, by decide +kernel⟩
  have noOverflow : announcedForm threeDayBan 86400 1700086400500000000 ≠ none := by
    decide +kernel
  rcases announcedForm_acceptable_and_seamless finite (by decide +kernel) (by decide +kernel)
    (by decide) noOverflow with ⟨window, windowEnd, returned, ends, -, started, running, -⟩
  exact ⟨window, windowEnd, returned, ends, started, running⟩

end HiveGuard.Daemon
