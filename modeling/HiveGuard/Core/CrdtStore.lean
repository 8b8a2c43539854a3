import HiveGuard.Core.CrdtJoin
import HiveGuard.Library.Dictionary

/-!
# The store of replicated records

Replicated records are filed under their subject, which is part of the store's
type.  A record of a known subject is merged into the stored one.
-/

namespace HiveGuard.Core

open Library.Dictionary

/-- Replicated ban records by subject. -/
structure CrdtStore where
  records : Dict IpNet CrdtBanRecord
  subject_eq : ∀ subject record, records.lookup subject = some record →
    record.subject = subject

namespace CrdtStore

def new : CrdtStore where
  records := ∅
  subject_eq := by simp

/-- File a record under its subject. -/
def insert (self : CrdtStore) (record : CrdtBanRecord) : CrdtStore where
  records := self.records.insert record.subject record
  subject_eq := by
    intro subject stored found
    rw [lookup_insert] at found
    split at found
    · rename_i same
      cases found
      exact same.symm
    · exact self.subject_eq subject stored found

/-- Merge a record into the stored one of its subject; the first record of a
subject is stored as it is. -/
def addCrdtBan (self : CrdtStore) (record : CrdtBanRecord) : CrdtStore :=
  match self.records.lookup record.subject with
  | some existing =>
    match existing.merge record with
    | some merged => self.insert merged
    | none => self
  | none => self.insert record

/-- Set the tombstone flag of a stored record; reports whether there is one. -/
def tombstoneCrdtBan (self : CrdtStore) (subject : IpNet) : Bool × CrdtStore :=
  match self.records.lookup subject with
  | some existing => (true, self.insert { existing with tombstone := true })
  | none => (false, self)

/-- What becomes of a stored record, if any, when another one arrives. -/
def received (stored : Option CrdtBanRecord) (record : CrdtBanRecord) : CrdtBanRecord :=
  match stored with
  | some existing => existing.mergeFields record
  | none => record

theorem records_addCrdtBan (self : CrdtStore) (record : CrdtBanRecord) :
    (self.addCrdtBan record).records = self.records.insert record.subject
        (received (self.records.lookup record.subject) record) := by
  rw [addCrdtBan]
  cases found : self.records.lookup record.subject with
  | none => rfl
  | some existing =>
    have same := self.subject_eq record.subject existing found
    simp only [CrdtBanRecord.merge_eq_some_mergeFields same, insert, received,
      CrdtBanRecord.mergeFields_subject, same]

theorem records_tombstoneCrdtBan (self : CrdtStore) (subject : IpNet) :
    (self.tombstoneCrdtBan subject).2.records =
      match self.records.lookup subject with
      | some existing => self.records.insert subject { existing with tombstone := true }
      | none => self.records := by
  rw [tombstoneCrdtBan]
  cases found : self.records.lookup subject with
  | none => rfl
  | some existing => simp only [insert, self.subject_eq subject existing found]

/-! ## Delivery in any order -/

theorem lookup_addCrdtBan (self : CrdtStore) (record : CrdtBanRecord) (subject : IpNet) :
    (self.addCrdtBan record).records.lookup subject = if subject = record.subject then
        some (received (self.records.lookup subject) record) else self.records.lookup subject := by
  rw [records_addCrdtBan, lookup_insert]
  split
  · rename_i same
    rw [same]
  · rfl

theorem lookup_foldl_addCrdtBan_concat (store : CrdtStore) (delivered : List CrdtBanRecord)
    (record : CrdtBanRecord) (subject : IpNet) :
    ((delivered ++ [record]).foldl addCrdtBan store).records.lookup subject =
      if subject = record.subject then
        some (received ((delivered.foldl addCrdtBan store).records.lookup subject) record)
      else (delivered.foldl addCrdtBan store).records.lookup subject := by
  rw [List.foldl_concat, lookup_addCrdtBan]

/-- The record is what the deliveries of its subject amount to: the least one
that absorbs them all, with the reason and evidence of a latest one. -/
structure Gathered (subject : IpNet) (delivered : List CrdtBanRecord)
    (record : CrdtBanRecord) : Prop where
  absorbs : ∀ part ∈ delivered, subject = part.subject → record.Absorbs part
  least : ∀ bound : CrdtBanRecord,
    (∀ part ∈ delivered, subject = part.subject → bound.Absorbs part) → bound.Absorbs record
  attribution : ∃ author ∈ delivered, subject = author.subject ∧
    record.lastModified = author.lastModified ∧ record.reason = author.reason ∧
    record.evidenceHash = author.evidenceHash
  consistent : record.FlagConsistent

variable {subject : IpNet} {delivered : List CrdtBanRecord} {record : CrdtBanRecord}

theorem Gathered.first (same : subject = record.subject)
    (fresh : ∀ part ∈ delivered, subject ≠ part.subject) (consistent : record.FlagConsistent) :
    Gathered subject (delivered ++ [record]) record where
  absorbs := by
    intro part member partSame
    rcases List.mem_append.mp member with before | last
    · exact absurd partSame (fresh part before)
    · cases List.mem_singleton.mp last
      exact .refl record
  least := fun bound absorbs => absorbs record (by simp) same
  attribution := ⟨record, by simp, same, rfl, rfl, rfl⟩
  consistent := consistent

theorem Gathered.merged
    {stored : CrdtBanRecord} (gathered : Gathered subject delivered stored)
    (same : subject = record.subject) (storedSame : stored.subject = subject) :
    Gathered subject (delivered ++ [record]) (stored.mergeFields record) where
  absorbs := by
    intro part member partSame
    rcases List.mem_append.mp member with before | last
    · exact (stored.mergeFields_absorbs_left record).trans (gathered.absorbs part before partSame)
    · cases List.mem_singleton.mp last
      exact CrdtBanRecord.mergeFields_absorbs_right (storedSame.trans same)
  least := by
    intro bound absorbs
    refine CrdtBanRecord.Absorbs.mergeFields ?_ (absorbs record (by simp) same)
    exact gathered.least bound fun part member => absorbs part (List.mem_append_left _ member)
  attribution := by
    obtain ⟨source, choice, modified_eq, reason_eq, evidence_eq⟩ :=
      stored.mergeFields_attribution record
    obtain ⟨author, member, authorSame, authorModified, authorReason, authorEvidence⟩ :=
      gathered.attribution
    rcases List.mem_pair.mp choice with rfl | rfl
    · exact ⟨author, List.mem_append_left _ member, authorSame,
        modified_eq.trans authorModified, reason_eq.trans authorReason,
        evidence_eq.trans authorEvidence⟩
    · exact ⟨source, by simp, same, modified_eq, reason_eq, evidence_eq⟩
  consistent := CrdtBanRecord.mergeFields_flagConsistent stored record

theorem Gathered.elsewhere
    {stored : CrdtBanRecord} (gathered : Gathered subject delivered stored)
    (different : subject ≠ record.subject) :
    Gathered subject (delivered ++ [record]) stored where
  absorbs := by
    intro part member partSame
    rcases List.mem_append.mp member with before | last
    · exact gathered.absorbs part before partSame
    · cases List.mem_singleton.mp last
      exact absurd partSame different
  least := fun bound absorbs =>
    gathered.least bound fun part member => absorbs part (List.mem_append_left _ member)
  attribution := by
    obtain ⟨author, member, rest⟩ := gathered.attribution
    exact ⟨author, List.mem_append_left _ member, rest⟩
  consistent := gathered.consistent

/-- What a store that received records holds for a subject. -/
theorem lookup_foldl_addCrdtBan {store : CrdtStore}
    (absent : store.records.lookup subject = none)
    (consistent : ∀ record ∈ delivered, record.FlagConsistent) :
    ((delivered.foldl addCrdtBan store).records.lookup subject = none ∧
        ∀ part ∈ delivered, subject ≠ part.subject) ∨
      ∃ record, (delivered.foldl addCrdtBan store).records.lookup subject = some record ∧
        Gathered subject delivered record := by
  induction delivered using List.reverseRecOn with
  | nil => exact .inl ⟨absent, by simp⟩
  | append_singleton delivered record ih =>
    replace ih := ih
      fun earlier member => consistent earlier (List.mem_append_left _ member)
    rw [lookup_foldl_addCrdtBan_concat]
    rcases ih with ⟨nothing, fresh⟩ | ⟨stored, found, gathered⟩
    · by_cases same : subject = record.subject
      · rw [if_pos same, nothing]
        exact .inr ⟨record, rfl, .first same fresh (consistent record (by simp))⟩
      · rw [if_neg same]
        refine .inl ⟨nothing, ?_⟩
        intro part member
        rcases List.mem_append.mp member with before | last
        · exact fresh part before
        · rwa [List.mem_singleton.mp last]
    · by_cases same : subject = record.subject
      · rw [if_pos same, found]
        exact .inr ⟨_, rfl, gathered.merged same (subject_eq _ subject stored found)⟩
      · rw [if_neg same]
        exact .inr ⟨stored, found, gathered.elsewhere same⟩

/-- Deliveries of the same records amount to the same record. -/
theorem Gathered.unique {first second : List CrdtBanRecord}
    {left right : CrdtBanRecord} (leftGathered : Gathered subject first left)
    (rightGathered : Gathered subject second right)
    (sameRecords : ∀ record, record ∈ first ↔ record ∈ second)
    (harmless : ∀ a ∈ first, ∀ b ∈ first, a.subject = b.subject →
      a.lastModified = b.lastModified → a.reason = b.reason ∧ a.evidenceHash = b.evidenceHash) :
    left = right := by
  have leftAbsorbs : left.Absorbs right := rightGathered.least left
    fun part member => leftGathered.absorbs part ((sameRecords part).mpr member)
  have rightAbsorbs : right.Absorbs left := leftGathered.least right
    fun part member => rightGathered.absorbs part ((sameRecords part).mp member)
  obtain ⟨a, aMember, aSame, aModified, aReason, aEvidence⟩ := leftGathered.attribution
  obtain ⟨b, bMember, bSame, bModified, bReason, bEvidence⟩ := rightGathered.attribution
  have modified_eq : left.lastModified = right.lastModified :=
    le_antisymm rightAbsorbs.lastModified_le leftAbsorbs.lastModified_le
  obtain ⟨reason_eq, evidence_eq⟩ := harmless a aMember b ((sameRecords b).mpr bMember)
    (aSame.symm.trans bSame) (by rw [← aModified, modified_eq, bModified])
  have votes_eq : left.tombstoneReporters = right.tombstoneReporters :=
    Finset.Subset.antisymm rightAbsorbs.tombstoneReporters_subset
      leftAbsorbs.tombstoneReporters_subset
  refine leftAbsorbs.antisymm rightAbsorbs ?_ ?_ ?_
  · rw [aReason, reason_eq, bReason]
  · rw [aEvidence, evidence_eq, bEvidence]
  · rw [leftGathered.consistent, rightGathered.consistent, CrdtBanRecord.quorumReached,
      CrdtBanRecord.quorumReached, votes_eq]

end CrdtStore

end HiveGuard.Core
