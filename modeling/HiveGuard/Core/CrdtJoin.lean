import HiveGuard.Core.Crdt

/-!
# The join behind `merge`

A record absorbs another one when merging the other in can no longer move any
of its ordered fields.  `merge` yields the least record that absorbs both of
its arguments.  Reason, evidence and the tombstone flag lie outside this order:
the first two follow the later modification, with ties going to the left
argument, and the flag is recomputed from the votes.

The algebraic laws of the complete record are therefore conditional.  Merging
is always associative, it commutes exactly when a tie in `lastModified` is
harmless, and it is idempotent exactly on records whose flag states their
quorum.
-/

namespace HiveGuard.Core

namespace CrdtBanRecord

/-- The flag says what the votes say. -/
def FlagConsistent (record : CrdtBanRecord) : Prop :=
  record.tombstone = record.quorumReached

theorem flagConsistent_iff (record : CrdtBanRecord) :
    record.FlagConsistent ↔
      (record.tombstone = true ↔ tombstoneQuorum ≤ record.tombstoneReporters.card) := by
  rw [FlagConsistent, quorumReached, Bool.eq_iff_iff, decide_eq_true_iff]

/-- Merging `part` into `whole` moves no ordered field of `whole`. -/
structure Absorbs (whole part : CrdtBanRecord) : Prop where
  subject_eq : whole.subject = part.subject
  firstSeen_le : whole.firstSeen ≤ part.firstSeen
  banUntil_le : part.banUntil ≤ whole.banUntil
  severity_le : part.severity ≤ whole.severity
  reporters_subset : part.reporters ⊆ whole.reporters
  tombstoneReporters_subset : part.tombstoneReporters ⊆ whole.tombstoneReporters
  lastModified_le : part.lastModified ≤ whole.lastModified

theorem Absorbs.refl (record : CrdtBanRecord) : record.Absorbs record :=
  ⟨rfl, le_rfl, le_rfl, le_rfl, Finset.Subset.refl _, Finset.Subset.refl _, le_rfl⟩

variable {first second self other : CrdtBanRecord}

theorem Absorbs.trans {third : CrdtBanRecord}
    (left : first.Absorbs second) (right : second.Absorbs third) : first.Absorbs third where
  subject_eq := left.subject_eq.trans right.subject_eq
  firstSeen_le := left.firstSeen_le.trans right.firstSeen_le
  banUntil_le := right.banUntil_le.trans left.banUntil_le
  severity_le := right.severity_le.trans left.severity_le
  reporters_subset := right.reporters_subset.trans left.reporters_subset
  tombstoneReporters_subset :=
    right.tombstoneReporters_subset.trans left.tombstoneReporters_subset
  lastModified_le := right.lastModified_le.trans left.lastModified_le

/-- The flag is not among the fields that absorption compares. -/
theorem Absorbs.withFlag {whole part : CrdtBanRecord} (absorbs : whole.Absorbs part)
    (flag : Bool) : Absorbs { whole with tombstone := flag } part :=
  ⟨absorbs.subject_eq, absorbs.firstSeen_le, absorbs.banUntil_le, absorbs.severity_le,
    absorbs.reporters_subset, absorbs.tombstoneReporters_subset, absorbs.lastModified_le⟩

/-- Mutual absorption leaves only reason, evidence and flag to compare. -/
theorem Absorbs.antisymm
    (left : first.Absorbs second) (right : second.Absorbs first)
    (reason_eq : first.reason = second.reason)
    (evidence_eq : first.evidenceHash = second.evidenceHash)
    (flag_eq : first.tombstone = second.tombstone) : first = second := by
  cases first
  cases second
  simp only [mk.injEq]
  exact ⟨left.subject_eq, le_antisymm left.firstSeen_le right.firstSeen_le,
    le_antisymm right.banUntil_le left.banUntil_le,
    le_antisymm right.severity_le left.severity_le,
    Finset.Subset.antisymm right.reporters_subset left.reporters_subset,
    evidence_eq, reason_eq,
    Finset.Subset.antisymm right.tombstoneReporters_subset
      left.tombstoneReporters_subset,
    flag_eq, le_antisymm right.lastModified_le left.lastModified_le⟩

theorem merge_eq_some_mergeFields
    (same : self.subject = other.subject) :
    self.merge other = some (self.mergeFields other) :=
  if_neg (not_not_intro same)

@[simp]
theorem mergeFields_subject (self other : CrdtBanRecord) :
    (self.mergeFields other).subject = self.subject :=
  rfl

/-- Whatever the arguments' flags were, the merged flag states the quorum. -/
theorem mergeFields_flagConsistent (self other : CrdtBanRecord) :
    (self.mergeFields other).FlagConsistent :=
  rfl

theorem mergeFields_absorbs_left (self other : CrdtBanRecord) :
    (self.mergeFields other).Absorbs self where
  subject_eq := rfl
  firstSeen_le := min_le_left _ _
  banUntil_le := le_max_left _ _
  severity_le := le_max_left _ _
  reporters_subset := Finset.subset_union_left
  tombstoneReporters_subset := Finset.subset_union_left
  lastModified_le := le_max_left _ _

theorem mergeFields_absorbs_right
    (same : self.subject = other.subject) : (self.mergeFields other).Absorbs other where
  subject_eq := same
  firstSeen_le := min_le_right _ _
  banUntil_le := le_max_right _ _
  severity_le := le_max_right _ _
  reporters_subset := Finset.subset_union_right
  tombstoneReporters_subset := Finset.subset_union_right
  lastModified_le := le_max_right _ _

/-- The merged record is the least one that absorbs both arguments. -/
theorem Absorbs.mergeFields {bound : CrdtBanRecord}
    (left : bound.Absorbs self) (right : bound.Absorbs other) :
    bound.Absorbs (self.mergeFields other) where
  subject_eq := left.subject_eq
  firstSeen_le := le_min left.firstSeen_le right.firstSeen_le
  banUntil_le := max_le left.banUntil_le right.banUntil_le
  severity_le := max_le left.severity_le right.severity_le
  reporters_subset := Finset.union_subset left.reporters_subset right.reporters_subset
  tombstoneReporters_subset :=
    Finset.union_subset left.tombstoneReporters_subset right.tombstoneReporters_subset
  lastModified_le := max_le left.lastModified_le right.lastModified_le

/-- Merging an absorbed record changes nothing but the flag, which is brought
in line with the votes. -/
theorem Absorbs.mergeFields_eq (absorbs : self.Absorbs other) :
    self.mergeFields other = { self with tombstone := self.quorumReached } := by
  have notLater : ¬ self.lastModified < other.lastModified :=
    not_lt.mpr absorbs.lastModified_le
  have votes : self.tombstoneReporters ∪ other.tombstoneReporters =
      self.tombstoneReporters :=
    Finset.union_eq_left.mpr absorbs.tombstoneReporters_subset
  simp [CrdtBanRecord.mergeFields, quorumReached, notLater, votes,
    min_eq_left absorbs.firstSeen_le, max_eq_left absorbs.banUntil_le,
    max_eq_left absorbs.severity_le, max_eq_left absorbs.lastModified_le,
    Finset.union_eq_left.mpr absorbs.reporters_subset]

/-- Reason and evidence of a merged record come from one of its arguments,
together with the modification time. -/
theorem mergeFields_attribution (self other : CrdtBanRecord) :
    ∃ author ∈ [self, other], (self.mergeFields other).lastModified = author.lastModified ∧
        (self.mergeFields other).reason = author.reason ∧
        (self.mergeFields other).evidenceHash = author.evidenceHash := by
  by_cases later : self.lastModified < other.lastModified
  · exact ⟨other, by simp, max_eq_right later.le, if_pos later, if_pos later⟩
  · exact ⟨self, by simp, max_eq_left (not_lt.mp later), if_neg later, if_neg later⟩

/-! ## The laws of the complete record -/

/-- Choosing the later of two values, ties to the left, is associative. -/
theorem choose_later_assoc {α : Type} (a b c : HlcTimestamp) (x y z : α) :
    (if max a b < c then z else if a < b then y else x) =
      if a < max b c then if b < c then z else y else x := by
  rcases lt_trichotomy b c with lt | eq | gt
  · rw [max_eq_right lt.le, if_pos lt]
    by_cases before : a < c
    · rw [if_pos before, if_pos (max_lt before lt)]
    · have notBoth : ¬ max a b < c :=
        fun both => before (lt_of_le_of_lt (le_max_left _ _) both)
      have notSecond : ¬ a < b := fun earlier => before (earlier.trans lt)
      rw [if_neg before, if_neg notBoth, if_neg notSecond]
  · subst c
    rw [if_neg (not_lt.mpr (le_max_right a b)), max_self, if_neg (lt_irrefl b)]
  · have notBoth : ¬ max a b < c := not_lt.mpr (gt.le.trans (le_max_right _ _))
    rw [if_neg notBoth, max_eq_left gt.le, if_neg (not_lt.mpr gt.le)]

theorem mergeFields_assoc (first second third : CrdtBanRecord) :
    (first.mergeFields second).mergeFields third =
      first.mergeFields (second.mergeFields third) := by
  have stamps := max_assoc first.lastModified second.lastModified third.lastModified
  have votes := Finset.union_assoc first.tombstoneReporters second.tombstoneReporters
    third.tombstoneReporters
  apply Absorbs.antisymm
  · exact ⟨rfl, (min_assoc _ _ _).le, (max_assoc _ _ _).ge, (max_assoc _ _ _).ge,
      (Finset.union_assoc _ _ _).ge, votes.ge, stamps.ge⟩
  · exact ⟨rfl, (min_assoc _ _ _).ge, (max_assoc _ _ _).le, (max_assoc _ _ _).le,
      (Finset.union_assoc _ _ _).le, votes.le, stamps.le⟩
  · exact choose_later_assoc first.lastModified second.lastModified third.lastModified _ _ _
  · exact choose_later_assoc first.lastModified second.lastModified third.lastModified _ _ _
  · exact congrArg (fun set : Finset String => decide (tombstoneQuorum ≤ set.card)) votes

/-- Commutation fails exactly on a harmful tie. -/
theorem mergeFields_comm_iff
    (same : first.subject = second.subject) :
    first.mergeFields second = second.mergeFields first ↔
      (first.lastModified = second.lastModified →
        first.reason = second.reason ∧ first.evidenceHash = second.evidenceHash) := by
  constructor
  · intro commutes tie
    have reason_eq := congrArg reason commutes
    have evidence_eq := congrArg evidenceHash commutes
    simp only [mergeFields, tie, lt_irrefl, if_false] at reason_eq evidence_eq
    exact ⟨reason_eq, evidence_eq⟩
  · intro harmless
    apply Absorbs.antisymm
    · exact (mergeFields_absorbs_right same).mergeFields (mergeFields_absorbs_left _ _)
    · exact (mergeFields_absorbs_right same.symm).mergeFields (mergeFields_absorbs_left _ _)
    · rcases lt_trichotomy first.lastModified second.lastModified with lt | eq | gt
      · simp [mergeFields, lt, lt.not_gt]
      · simp [mergeFields, eq, (harmless eq).1]
      · simp [mergeFields, gt, gt.not_gt]
    · rcases lt_trichotomy first.lastModified second.lastModified with lt | eq | gt
      · simp [mergeFields, lt, lt.not_gt]
      · simp [mergeFields, eq, (harmless eq).2]
      · simp [mergeFields, gt, gt.not_gt]
    · simp [mergeFields, Finset.union_comm]

/-- Idempotence is consistency of the flag. -/
theorem mergeFields_self_iff (record : CrdtBanRecord) :
    record.mergeFields record = record ↔ record.FlagConsistent := by
  rw [(Absorbs.refl record).mergeFields_eq]
  constructor
  · intro unchanged
    exact (congrArg tombstone unchanged).symm
  · intro consistent
    rw [← consistent]

/-- On records of one subject `merge` is commutative, associative and
idempotent exactly when a tie of `a` and `b` in `lastModified` carries the same
reason and evidence and the flag of `a` states its quorum. -/
theorem merge_laws_iff (a b c : CrdtBanRecord)
    (sameAB : a.subject = b.subject) (sameBC : b.subject = c.subject) :
    (a.merge b = b.merge a ∧ (a.merge b).bind (fun merged => merged.merge c) =
          (b.merge c).bind (fun merged => a.merge merged) ∧ a.merge a = some a) ↔
      ((a.lastModified = b.lastModified → a.reason = b.reason ∧ a.evidenceHash = b.evidenceHash) ∧
        a.tombstone = decide (tombstoneQuorum ≤ a.tombstoneReporters.card)) := by
  have associative : (a.merge b).bind (fun merged => merged.merge c) =
      (b.merge c).bind (fun merged => a.merge merged) := by
    rw [merge_eq_some_mergeFields sameAB, merge_eq_some_mergeFields sameBC,
      Option.bind_some, Option.bind_some]
    have sameLeft : (a.mergeFields b).subject = c.subject := sameAB.trans sameBC
    have sameRight : a.subject = (b.mergeFields c).subject := sameAB
    rw [merge_eq_some_mergeFields sameLeft, merge_eq_some_mergeFields sameRight,
      mergeFields_assoc]
  rw [merge_eq_some_mergeFields sameAB, merge_eq_some_mergeFields sameAB.symm,
    merge_eq_some_mergeFields (rfl : a.subject = a.subject), Option.some.injEq,
    Option.some.injEq, mergeFields_comm_iff sameAB, mergeFields_self_iff]
  exact ⟨fun laws => ⟨laws.1, laws.2.2⟩, fun condition =>
    ⟨condition.1, by rwa [merge_eq_some_mergeFields sameAB] at associative, condition.2⟩⟩

/-- A record of `8.8.8.8/32` modified at one fixed time. -/
def reported (reason : String) (tombstone : Bool) : CrdtBanRecord where
  subject := .v4 ⟨0x08080808, 32, le_rfl⟩
  firstSeen := ⟨1000, 0, 7⟩
  banUntil := ⟨90000, 0, 7⟩
  severity := 100
  reporters := ∅
  evidenceHash := Vector.replicate 32 0
  reason := reason
  tombstoneReporters := ∅
  tombstone := tombstone
  lastModified := ⟨1000, 0, 7⟩

/-- Two records that tie on `lastModified` keep the reason of whichever is on
the left, and a flag without votes does not survive a merge with itself. -/
theorem merge_reported_laws_fail :
    (reported "scan" false).merge (reported "flood" false) ≠
        (reported "flood" false).merge (reported "scan" false) ∧
      (reported "scan" true).merge (reported "scan" true) ≠ some (reported "scan" true) := by
  decide

theorem merge_reported_laws :
    (reported "scan" false).merge (reported "scan" true) =
        (reported "scan" true).merge (reported "scan" false) ∧
      ((reported "scan" false).merge (reported "scan" true)).bind
          (fun merged => merged.merge (reported "flood" false)) =
        ((reported "scan" true).merge (reported "flood" false)).bind
          (fun merged => (reported "scan" false).merge merged) ∧
      (reported "scan" false).merge (reported "scan" false) = some (reported "scan" false) :=
  (merge_laws_iff _ _ _ rfl rfl).mpr ⟨fun _ => ⟨rfl, rfl⟩, by decide⟩

end CrdtBanRecord

end HiveGuard.Core
