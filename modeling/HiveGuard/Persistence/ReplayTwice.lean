import HiveGuard.Library.Overwrite
import HiveGuard.Persistence.View

/-!
# Replaying a log over its own result

Bans, whitelist entries and revocations are overwritten, so the last entry of a
key decides.  Replicated records are merged: a record that was merged once is
absorbed and changes nothing but the tombstone flag, which the last entry of the
subject decides again.  A log whose replicated records state their quorum can
therefore be replayed over the view it produced without any effect.
-/

namespace HiveGuard.Persistence

open HiveGuard.Core Library.Dictionary Library.Overwrite

namespace View

/-! ## Overwritten parts -/

/-- What an entry writes to the ban of a subject. -/
def banWrite (subject : IpNet) : WalEntry → Option (Option BanRecord)
  | .addBan record => if subject = record.subject then some (some record) else none
  | .removeBan removed => if subject = removed then some none else none
  | .revokeBan removed _ => if subject = removed then some none else none
  | _ => none

/-- What an entry writes to the whitelist entry of a network. -/
def whitelistWrite (net : IpNet) : WalEntry → Option (Option Unit)
  | .addWhitelist added => if net = added then some (some ()) else none
  | .removeWhitelist removed => if net = removed then some none else none
  | _ => none

/-- What an entry writes to the cutoff of a subject. -/
def revocationWrite (subject : IpNet) : WalEntry → Option (Option DateTime)
  | .revokeBan revoked cutoff => if subject = revoked then some (some cutoff) else none
  | _ => none

theorem lookup_bans_apply (subject : IpNet) (view : View) (entry : WalEntry) :
    (view.apply entry).bans.lookup subject =
      (banWrite subject entry).getD (view.bans.lookup subject) := by
  cases entry with
  | addBan record =>
    simp only [apply, banWrite, map_lookup_insert]
    split <;> rfl
  | removeBan removed =>
    simp only [apply, banWrite, map_lookup_erase]
    split <;> rfl
  | revokeBan removed cutoff =>
    simp only [apply, banWrite, map_lookup_erase]
    split <;> rfl
  | tombstoneCrdtBan target =>
    simp only [apply, banWrite]
    split <;> rfl
  | addWhitelist _ | removeWhitelist _ | addCrdtBan _ => rfl

theorem lookup_whitelist_apply (net : IpNet) (view : View) (entry : WalEntry) :
    (view.apply entry).whitelist.lookup net =
      (whitelistWrite net entry).getD (view.whitelist.lookup net) := by
  cases entry with
  | addWhitelist added =>
    simp only [apply, whitelistWrite, map_lookup_insert]
    split <;> rfl
  | removeWhitelist removed =>
    simp only [apply, whitelistWrite, map_lookup_erase]
    split <;> rfl
  | tombstoneCrdtBan target =>
    simp only [apply, whitelistWrite]
    split <;> rfl
  | addBan _ | removeBan _ | revokeBan _ _ | addCrdtBan _ => rfl

theorem lookup_revocations_apply (subject : IpNet) (view : View) (entry : WalEntry) :
    (view.apply entry).revocations.lookup subject =
      (revocationWrite subject entry).getD (view.revocations.lookup subject) := by
  cases entry with
  | revokeBan revoked cutoff =>
    simp only [apply, revocationWrite, map_lookup_insert]
    split <;> rfl
  | tombstoneCrdtBan target =>
    simp only [apply, revocationWrite]
    split <;> rfl
  | addBan _ | removeBan _ | addWhitelist _ | removeWhitelist _ | addCrdtBan _ => rfl

theorem lookup_revocations_applyAll (subject : IpNet) (view : View) (entries : List WalEntry) :
    (view.applyAll entries).revocations.lookup subject =
      settle (revocationWrite subject) (view.revocations.lookup subject) entries :=
  read_foldl _ (fun view => view.revocations.lookup subject) apply
    (lookup_revocations_apply subject) view entries

/-! ## Replicated records -/

/-- What an entry makes of the replicated record of a subject. -/
def crdtCell (subject : IpNet) (stored : Option CrdtBanRecord) :
    WalEntry → Option CrdtBanRecord
  | .addCrdtBan record =>
    if subject = record.subject then some (CrdtStore.received stored record) else stored
  | .tombstoneCrdtBan target =>
    if subject = target then stored.map fun record => { record with tombstone := true }
    else stored
  | _ => stored

theorem lookup_crdt_apply (subject : IpNet) (view : View) (entry : WalEntry) :
    (view.apply entry).crdt.lookup subject = crdtCell subject (view.crdt.lookup subject) entry := by
  cases entry with
  | addCrdtBan record =>
    simp only [apply, crdtCell, map_lookup_insert]
    split
    · rename_i same
      rw [same]
    · rfl
  | tombstoneCrdtBan target =>
    simp only [apply, crdtCell]
    by_cases same : subject = target
    · subst target
      cases found : view.crdt.lookup subject <;> simp [found]
    · cases view.crdt.lookup target with
      | none => simp [same]
      | some existing => simp [same]
  | addBan _ | removeBan _ | addWhitelist _ | removeWhitelist _ | revokeBan _ _ => rfl

theorem lookup_crdt_applyAll (subject : IpNet) (view : View) (entries : List WalEntry) :
    (view.applyAll entries).crdt.lookup subject =
      entries.foldl (crdtCell subject) (view.crdt.lookup subject) := by
  induction entries generalizing view with
  | nil => rfl
  | cons entry entries ih =>
    rw [applyAll_cons, ih, lookup_crdt_apply, List.foldl_cons]

/-- What an entry writes to the tombstone flag of a record that absorbs it and
whose votes reach the quorum or not. -/
def flagWrite (subject : IpNet) (quorum : Bool) : WalEntry → Option Bool
  | .addCrdtBan record => if subject = record.subject then some quorum else none
  | .tombstoneCrdtBan target => if subject = target then some true else none
  | _ => none

/-- The record absorbs everything the log merges into it. -/
def AbsorbsLog (subject : IpNet) (record : CrdtBanRecord) (entries : List WalEntry) : Prop :=
  ∀ part, .addCrdtBan part ∈ entries → subject = part.subject → record.Absorbs part

variable {subject : IpNet} {record : CrdtBanRecord} {entries : List WalEntry}

theorem AbsorbsLog.withFlag
    (absorbs : AbsorbsLog subject record entries) (flag : Bool) :
    AbsorbsLog subject { record with tombstone := flag } entries :=
  fun part member same => (absorbs part member same).withFlag flag

variable {entry : WalEntry}

/-- An entry that was absorbed only moves the flag. -/
theorem crdtCell_of_absorbs
    (absorbs : ∀ part, entry = .addCrdtBan part → subject = part.subject →
      record.Absorbs part) :
    crdtCell subject (some record) entry =
      some { record with
        tombstone := (flagWrite subject record.quorumReached entry).getD record.tombstone } := by
  cases entry with
  | addCrdtBan part =>
    simp only [crdtCell, flagWrite]
    split
    · rename_i same
      simp [CrdtStore.received, (absorbs part rfl same).mergeFields_eq]
    · rfl
  | tombstoneCrdtBan target =>
    simp only [crdtCell, flagWrite]
    split <;> rfl
  | addBan _ | removeBan _ | addWhitelist _ | removeWhitelist _ | revokeBan _ _ => rfl

/-- A log that was absorbed only moves the flag. -/
theorem foldl_crdtCell_of_absorbsLog (absorbs : AbsorbsLog subject record entries) :
    entries.foldl (crdtCell subject) (some record) =
      some { record with
        tombstone :=
          settle (flagWrite subject record.quorumReached) record.tombstone entries } := by
  induction entries generalizing record with
  | nil => rfl
  | cons entry entries ih =>
    have later : AbsorbsLog subject record entries :=
      fun part member => absorbs part (List.mem_cons_of_mem _ member)
    rw [List.foldl_cons, crdtCell_of_absorbs, ih (later.withFlag _)]
    · rfl
    · rintro part rfl
      exact absorbs part List.mem_cons_self

/-- The replicated records of a log state their quorum. -/
def FlagsConsistent (entries : List WalEntry) : Prop :=
  ∀ record, .addCrdtBan record ∈ entries → record.FlagConsistent

/-- The record absorbs what the log merged into it, and its flag is the one the
log settles. -/
structure Settled (subject : IpNet) (record : CrdtBanRecord) (entries : List WalEntry) :
    Prop where
  subject_eq : record.subject = subject
  absorbs : AbsorbsLog subject record entries
  flag : ∃ flag, record.tombstone =
    settle (flagWrite subject record.quorumReached) flag entries

theorem Settled.merged {part : CrdtBanRecord} (settled : Settled subject record entries)
    (same : subject = part.subject) :
    Settled subject (record.mergeFields part) (entries ++ [.addCrdtBan part]) where
  subject_eq := settled.subject_eq
  absorbs := by
    intro earlier member earlierSame
    rcases List.mem_append.mp member with before | last
    · exact (record.mergeFields_absorbs_left part).trans
        (settled.absorbs earlier before earlierSame)
    · cases List.mem_singleton.mp last
      exact CrdtBanRecord.mergeFields_absorbs_right (settled.subject_eq.trans same)
  flag := by
    refine ⟨record.tombstone, ?_⟩
    rw [settle_append, settle_cons, flagWrite, if_pos same]
    exact CrdtBanRecord.mergeFields_flagConsistent record part

theorem Settled.first {part : CrdtBanRecord}
    (fresh : ∀ earlier, .addCrdtBan earlier ∈ entries → subject ≠ earlier.subject)
    (consistent : part.FlagConsistent) (same : subject = part.subject) :
    Settled subject part (entries ++ [.addCrdtBan part]) where
  subject_eq := same.symm
  absorbs := by
    intro earlier member earlierSame
    rcases List.mem_append.mp member with before | last
    · exact absurd earlierSame (fresh earlier before)
    · cases List.mem_singleton.mp last
      exact .refl part
  flag := by
    refine ⟨part.tombstone, ?_⟩
    rw [settle_append, settle_cons, flagWrite, if_pos same]
    exact consistent

theorem Settled.tombstoned (settled : Settled subject record entries) :
    Settled subject { record with tombstone := true }
      (entries ++ [.tombstoneCrdtBan subject]) where
  subject_eq := settled.subject_eq
  absorbs := by
    intro earlier member earlierSame
    have before : .addCrdtBan earlier ∈ entries := by simpa using member
    exact (settled.absorbs earlier before earlierSame).withFlag true
  flag := by
    refine ⟨record.tombstone, ?_⟩
    rw [settle_append, settle_cons, flagWrite, if_pos rfl]
    rfl

/-- An entry that does not concern the subject. -/
theorem Settled.untouched (settled : Settled subject record entries)
    (elsewhere : flagWrite subject record.quorumReached entry = none) :
    Settled subject record (entries ++ [entry]) where
  subject_eq := settled.subject_eq
  absorbs := by
    intro earlier member earlierSame
    rcases List.mem_append.mp member with before | last
    · exact settled.absorbs earlier before earlierSame
    · cases List.mem_singleton.mp last
      rw [flagWrite, if_pos earlierSame] at elsewhere
      contradiction
  flag := by
    obtain ⟨flag, flag_eq⟩ := settled.flag
    refine ⟨flag, ?_⟩
    rw [settle_append, settle_cons, elsewhere]
    exact flag_eq

theorem Settled.step
    (settled : Settled subject record entries) (entry : WalEntry) :
    ∃ next, crdtCell subject (some record) entry = some next ∧
      Settled subject next (entries ++ [entry]) := by
  cases entry with
  | addCrdtBan part =>
    by_cases same : subject = part.subject
    · exact ⟨record.mergeFields part, if_pos same, settled.merged same⟩
    · exact ⟨record, if_neg same, settled.untouched (if_neg same)⟩
  | tombstoneCrdtBan target =>
    by_cases same : subject = target
    · subst target
      exact ⟨_, if_pos rfl, settled.tombstoned⟩
    · exact ⟨record, if_neg same, settled.untouched (if_neg same)⟩
  | addBan _ | removeBan _ | addWhitelist _ | removeWhitelist _ | revokeBan _ _ =>
    exact ⟨record, rfl, settled.untouched rfl⟩

/-- Only a replicated record of the subject creates one. -/
theorem crdtCell_none
    (elsewhere : ∀ part, entry = .addCrdtBan part → subject ≠ part.subject) :
    crdtCell subject none entry = none := by
  cases entry with
  | addCrdtBan part => exact if_neg (elsewhere part rfl)
  | tombstoneCrdtBan target => simp [crdtCell]
  | addBan _ | removeBan _ | addWhitelist _ | removeWhitelist _ | revokeBan _ _ => rfl

/-- A log leaves a settled record, or there never was one. -/
theorem foldl_crdtCell_cases
    (consistent : FlagsConsistent entries) {stored : Option CrdtBanRecord}
    (keyed : ∀ record ∈ stored, record.subject = subject) :
    (entries.foldl (crdtCell subject) stored = none ∧ stored = none ∧
        ∀ part, .addCrdtBan part ∈ entries → subject ≠ part.subject) ∨
      ∃ record, entries.foldl (crdtCell subject) stored = some record ∧
        Settled subject record entries := by
  induction entries using List.reverseRecOn with
  | nil =>
    cases stored with
    | none => exact .inl ⟨rfl, rfl, by simp⟩
    | some record =>
      exact .inr ⟨record, rfl, keyed record rfl, by simp [AbsorbsLog], record.tombstone, rfl⟩
  | append_singleton entries entry ih =>
    replace ih := ih
      fun record member => consistent record (List.mem_append_left _ member)
    rw [List.foldl_append, List.foldl_cons, List.foldl_nil]
    rcases ih with ⟨nothing, absent, fresh⟩ | ⟨record, found, settled⟩
    · rw [nothing]
      by_cases merges : ∃ part, entry = .addCrdtBan part ∧ subject = part.subject
      · obtain ⟨part, rfl, same⟩ := merges
        refine .inr ⟨part, by simp [crdtCell, same, CrdtStore.received], .first fresh ?_ same⟩
        exact consistent part (by simp)
      · refine .inl ⟨crdtCell_none fun part added same => merges ⟨part, added, same⟩, absent, ?_⟩
        intro part member same
        rcases List.mem_append.mp member with before | last
        · exact fresh part before same
        · exact merges ⟨part, (List.mem_singleton.mp last).symm, same⟩
    · rw [found]
      exact .inr (settled.step entry)

theorem foldl_crdtCell_twice
    (consistent : FlagsConsistent entries) {stored : Option CrdtBanRecord}
    (keyed : ∀ record ∈ stored, record.subject = subject) :
    entries.foldl (crdtCell subject) (entries.foldl (crdtCell subject) stored) =
      entries.foldl (crdtCell subject) stored := by
  rcases foldl_crdtCell_cases consistent keyed with
    ⟨nothing, absent, -⟩ | ⟨record, found, settled⟩
  · rw [nothing, ← absent, nothing, absent]
  · rw [found, foldl_crdtCell_of_absorbsLog settled.absorbs]
    obtain ⟨flag, flag_eq⟩ := settled.flag
    have unchanged : settle (flagWrite subject record.quorumReached) record.tombstone entries =
        record.tombstone := by
      rw [flag_eq, settle_settle]
    rw [unchanged]

/-- Replicated records are filed under their subjects. -/
def Keyed (view : View) : Prop :=
  ∀ subject record, view.crdt.lookup subject = some record → record.subject = subject

/-- Replaying a log over its own result changes nothing. -/
theorem applyAll_twice {base : View} (keyed : base.Keyed)
    (consistent : FlagsConsistent entries) :
    (base.applyAll entries).applyAll entries = base.applyAll entries := by
  ext1
  · apply Finmap.ext_lookup
    intro subject
    simp only [applyAll, read_foldl _ (fun view => view.bans.lookup subject) apply
      (lookup_bans_apply subject), settle_settle]
  · apply Finmap.ext_lookup
    intro net
    simp only [applyAll, read_foldl _ (fun view => view.whitelist.lookup net) apply
      (lookup_whitelist_apply net), settle_settle]
  · apply Finmap.ext_lookup
    intro subject
    simp only [lookup_crdt_applyAll]
    exact foldl_crdtCell_twice consistent (keyed subject)
  · apply Finmap.ext_lookup
    intro subject
    simp only [lookup_revocations_applyAll, settle_settle]

end View

theorem Stores.view_keyed (stores : Stores) : stores.view.Keyed := by
  intro subject record found
  rw [Stores.view, lookup_toMap] at found
  exact stores.crdtStore.subject_eq subject record found

end HiveGuard.Persistence
