import HiveGuard.Persistence.Recovery
import HiveGuard.Persistence.ReplayTwice

/-!
# Tombstones

Peers cancel a ban by voting for its tombstone.  A merge counts the votes again,
but the first record of a subject is stored with the flag it came with, and
`tombstoneCrdtBan` sets the flag without a vote.  Both leave a flag that no quorum
stands behind: the first one cancels a ban on the word of a single node, the
second one is lost as soon as any record of the subject is merged again.
-/

namespace HiveGuard.Core.CrdtStore

open Library.Dictionary

/-! ## Flags of received records -/

/-- The records among these that concern the subject. -/
def about (subject : IpNet) (delivered : List CrdtBanRecord) : List CrdtBanRecord :=
  delivered.filter fun record => decide (record.subject = subject)

/-- What is stored after these records of one subject: nothing, the only one as it
came, or a merged one whose flag was counted. -/
def Leaves : List CrdtBanRecord → Option CrdtBanRecord → Prop
  | [], stored => stored = none
  | [record], stored => stored = some record
  | _ :: _ :: _, stored => ∃ merged, stored = some merged ∧ merged.FlagConsistent

theorem Leaves.received {records : List CrdtBanRecord} {stored : Option CrdtBanRecord}
    (leaves : Leaves records stored) (record : CrdtBanRecord) :
    Leaves (records ++ [record]) (some (received stored record)) := by
  match records with
  | [] =>
    rw [show stored = none from leaves]
    rfl
  | [first] =>
    rw [show stored = some first from leaves]
    exact ⟨_, rfl, first.mergeFields_flagConsistent record⟩
  | _ :: _ :: _ =>
    obtain ⟨merged, rfl, -⟩ := leaves
    exact ⟨_, rfl, merged.mergeFields_flagConsistent record⟩

variable {store : CrdtStore}

theorem leaves_foldl_addCrdtBan {subject : IpNet}
    (absent : store.records.lookup subject = none) (delivered : List CrdtBanRecord) :
    Leaves (about subject delivered)
      ((delivered.foldl addCrdtBan store).records.lookup subject) := by
  induction delivered using List.reverseRecOn with
  | nil => exact absent
  | append_singleton delivered record ih =>
    rw [lookup_foldl_addCrdtBan_concat, about, List.filter_append, ← about]
    by_cases same : record.subject = subject
    · rw [if_pos same.symm, List.filter_cons_of_pos (by simpa using same), List.filter_nil]
      exact ih.received record
    · rw [if_neg (Ne.symm same), List.filter_cons_of_neg (by simpa using same), List.filter_nil,
        List.append_nil]
      exact ih

/-- The stored flags state the quorum exactly if those that were never counted did. -/
theorem flags_foldl_addCrdtBan_iff (empty : store.records = ∅)
    (delivered : List CrdtBanRecord) :
    (∀ subject record, (delivered.foldl addCrdtBan store).records.lookup subject = some record →
        record.FlagConsistent) ↔ ∀ record ∈ delivered, about record.subject delivered = [record] →
        record.FlagConsistent := by
  have leaves : ∀ subject, Leaves (about subject delivered)
      ((delivered.foldl addCrdtBan store).records.lookup subject) := by
    intro subject
    apply leaves_foldl_addCrdtBan
    rw [empty, AList.lookup_empty]
  constructor
  · intro consistent record _ alone
    have stored := leaves record.subject
    rw [alone] at stored
    exact consistent record.subject record stored
  · intro consistent subject record found
    have stored := leaves subject
    rw [found] at stored
    match received : about subject delivered with
    | [] =>
      rw [received] at stored
      contradiction
    | [only] =>
      rw [received] at stored
      obtain rfl := Option.some.inj stored
      have member : record ∈ about subject delivered := by simp [received]
      obtain ⟨delivery, same⟩ := List.mem_filter.mp member
      obtain rfl : record.subject = subject := by simpa using same
      exact consistent record delivery received
    | _ :: _ :: _ =>
      rw [received] at stored
      obtain ⟨merged, found, counted⟩ := stored
      obtain rfl := Option.some.inj found
      exact counted

/-- The votes of a stored record were cast in the deliveries. -/
theorem votes_foldl_addCrdtBan {voters : Finset String}
    (empty : store.records = ∅) {delivered : List CrdtBanRecord}
    (votes : ∀ record ∈ delivered, record.tombstoneReporters ⊆ voters) {subject : IpNet}
    {stored : CrdtBanRecord}
    (found : (delivered.foldl addCrdtBan store).records.lookup subject = some stored) :
    stored.tombstoneReporters ⊆ voters := by
  induction delivered using List.reverseRecOn generalizing stored with
  | nil => simp [empty] at found
  | append_singleton delivered record ih =>
    replace ih := @ih
      fun earlier member => votes earlier (List.mem_append_left _ member)
    rw [lookup_foldl_addCrdtBan_concat] at found
    split at found
    · obtain rfl := Option.some.inj found
      have last : record.tombstoneReporters ⊆ voters := votes record (by simp)
      cases earlier : (delivered.foldl addCrdtBan store).records.lookup subject with
      | none => exact last
      | some existing => exact Finset.union_subset (ih earlier) last
    · exact ih found

end HiveGuard.Core.CrdtStore

namespace HiveGuard.Persistence

open HiveGuard.Core Library.Dictionary Library.Effect

namespace View

/-- Every replicated record of the first view is part of one of the second. -/
def KeepsRecords (first second : View) : Prop :=
  ∀ subject stored, first.crdt.lookup subject = some stored →
    ∃ later, second.crdt.lookup subject = some later ∧ later.Absorbs stored

theorem KeepsRecords.trans {first second third : View} (earlier : first.KeepsRecords second)
    (later : second.KeepsRecords third) : first.KeepsRecords third := by
  intro subject stored found
  obtain ⟨middle, middleFound, absorbs⟩ := earlier subject stored found
  obtain ⟨last, lastFound, absorbsAgain⟩ := later subject middle middleFound
  exact ⟨last, lastFound, absorbsAgain.trans absorbs⟩

theorem keepsRecords_apply (view : View) (entry : WalEntry) :
    view.KeepsRecords (view.apply entry) := by
  intro subject stored found
  rw [lookup_crdt_apply, found]
  cases entry with
  | addCrdtBan part =>
    by_cases same : subject = part.subject
    · exact ⟨_, if_pos same, stored.mergeFields_absorbs_left part⟩
    · exact ⟨stored, if_neg same, .refl stored⟩
  | tombstoneCrdtBan target =>
    by_cases same : subject = target
    · exact ⟨_, if_pos same, (CrdtBanRecord.Absorbs.refl stored).withFlag true⟩
    · exact ⟨stored, if_neg same, .refl stored⟩
  | addBan _ | removeBan _ | addWhitelist _ | removeWhitelist _ | revokeBan _ _ =>
    exact ⟨stored, rfl, .refl stored⟩

theorem keepsRecords_applyAll (view : View) (entries : List WalEntry) :
    view.KeepsRecords (view.applyAll entries) := by
  induction entries generalizing view with
  | nil => exact fun subject stored found => ⟨stored, found, .refl stored⟩
  | cons entry entries ih =>
    exact (view.keepsRecords_apply entry).trans (ih _)

/-- The record of its subject absorbs a record that was just added. -/
theorem Keyed.absorbs_addCrdtBan {view : View} (keyed : view.Keyed) (part : CrdtBanRecord) :
    ∃ stored, (view.apply (.addCrdtBan part)).crdt.lookup part.subject = some stored ∧
      stored.Absorbs part := by
  rw [lookup_crdt_apply]
  refine ⟨_, if_pos rfl, ?_⟩
  cases found : view.crdt.lookup part.subject with
  | none => exact .refl part
  | some existing =>
    exact CrdtBanRecord.mergeFields_absorbs_right (keyed part.subject existing found)

end View

namespace World

variable (env : Externals)

/-- Add the records one after the other, whether the calls return or fail.  The
answer lists the records whose call returned. -/
def addEachCrdtBan : List CrdtBanRecord → World → List CrdtBanRecord × World
  | [], world => ([], world)
  | record :: records, world =>
    match (StateManager.addCrdtBan env record).run world with
    | .ok _ next => ((addEachCrdtBan records next).1.cons record, (addEachCrdtBan records next).2)
    | .error _ next => addEachCrdtBan records next

/-- The store received the records whose call returned. -/
theorem crdtStore_addEachCrdtBan (records : List CrdtBanRecord) (source : World) :
    (addEachCrdtBan env records source).2.manager.crdtStore =
      (addEachCrdtBan env records source).1.foldl CrdtStore.addCrdtBan
        source.manager.crdtStore := by
  induction records generalizing source with
  | nil => rfl
  | cons record records ih =>
    have ends := StateManager.logEntry_ends env (.addCrdtBan record) source
    rw [addEachCrdtBan]
    cases run : (StateManager.addCrdtBan env record).run source with
    | ok value next =>
      rw [Ends, show (StateManager.logEntry env _).run source = .ok value next from run] at ends
      simp only [ih, List.foldl_cons, ends]
      rfl
    | error error next =>
      rw [Ends, show (StateManager.logEntry env _).run source = .error error next from run]
        at ends
      simp only [ih, ends]

/-- The flags of all stored records state the quorum, so that one voter alone
cancels nothing, exactly if every record that was the only one added of its subject
came with a flag that states the quorum. -/
theorem tombstone_iff_quorum_iff {start : World} (empty : start.manager.crdtStore.records = ∅)
    (records : List CrdtBanRecord) :
    let added := (addEachCrdtBan env records start).1
    let stored := (addEachCrdtBan env records start).2.manager.crdtStore.records
    ((∀ subject record, stored.lookup subject = some record →
        (record.tombstone = true ↔ tombstoneQuorum ≤ record.tombstoneReporters.card)) ∧
      ((∃ node, ∀ record ∈ added, record.tombstoneReporters ⊆ {node}) →
        ∀ subject record, stored.lookup subject = some record →
          ∀ currentTimeMs, currentTimeMs < record.banUntil.wallTimeMs.val →
            record.isActive currentTimeMs = true)) ↔
      ∀ record ∈ added, CrdtStore.about record.subject added = [record] →
        (record.tombstone = true ↔ tombstoneQuorum ≤ record.tombstoneReporters.card) := by
  intro added stored
  have stored_eq : stored = (added.foldl CrdtStore.addCrdtBan start.manager.crdtStore).records :=
    congrArg CrdtStore.records (crdtStore_addEachCrdtBan env records start)
  have flags := CrdtStore.flags_foldl_addCrdtBan_iff empty added
  rw [← stored_eq] at flags
  simp only [CrdtBanRecord.flagConsistent_iff] at flags
  rw [← flags, and_iff_left_iff_imp]
  rintro counted ⟨node, votes⟩ subject record found currentTimeMs before
  have voters : record.tombstoneReporters ⊆ {node} :=
    CrdtStore.votes_foldl_addCrdtBan empty votes (by rwa [← stored_eq])
  have few : record.tombstoneReporters.card < tombstoneQuorum :=
    (Finset.card_le_card voters).trans_lt (by rw [Finset.card_singleton]; decide)
  have standing : record.tombstone = false := by
    rw [← Bool.not_eq_true, counted subject record found]
    exact Nat.not_le.mpr few
  simp [CrdtBanRecord.isActive, standing, before]

/-- A first report of a subject that claims to be cancelled without any vote. -/
def forgedReplica : CrdtBanRecord :=
  { sampleReplica with tombstone := true }

theorem forgedReplica_cancels :
    let stored := (addEachCrdtBan Wire.externals [forgedReplica] sampleStart).2.manager.crdtStore
    stored.records.lookup forgedReplica.subject = some forgedReplica ∧
      ¬(forgedReplica.tombstone = true ↔
        tombstoneQuorum ≤ forgedReplica.tombstoneReporters.card) ∧
      forgedReplica.isActive 0 = false := by
  decide +kernel

theorem tombstone_iff_quorum_sample :
    let stored := (addEachCrdtBan Wire.externals
      [forgedReplica, sampleReplica] sampleStart).2.manager.crdtStore.records
    ∀ subject record, stored.lookup subject = some record →
      ∀ currentTimeMs, currentTimeMs < record.banUntil.wallTimeMs.val →
        record.isActive currentTimeMs = true := by
  have allAdded : (addEachCrdtBan Wire.externals [forgedReplica, sampleReplica] sampleStart).1 =
      [forgedReplica, sampleReplica] := by
    decide +kernel
  refine ((tombstone_iff_quorum_iff Wire.externals rfl _).mpr ?_).2 ?_
  · rw [allAdded]
    decide +kernel
  · rw [allAdded]
    exact ⟨"node-a", by decide⟩

/-! ## Tombstones without votes -/

/-- The calls that returned, in order; restarts and changes of iteration orders may
come between them. -/
inductive Chronicle (dataDir : String) : List Call → World → World → Prop
  | start (world : World) : Chronicle dataDir [] world world
  | call {calls : List Call} {source middle target : World}
      (earlier : Chronicle dataDir calls source middle) (call : Call)
      (run : (call.perform env).run middle = .ok () target) :
      Chronicle dataDir (calls ++ [call]) source target
  | pause {calls : List Call} {source middle target : World}
      (earlier : Chronicle dataDir calls source middle)
      (step : Step env dataDir (fun _ => False) middle target) :
      Chronicle dataDir calls source target

variable {env}

variable {dataDir : String} {source target : World} {base : View} {entries : List WalEntry}

/-- Without a call the view stays as it is. -/
theorem Persisted.view_pause (persisted : Persisted env source base entries)
    (step : Step env dataDir (fun _ => False) source target) : target.view = source.view := by
  cases step with
  | call call admitted run => contradiction
  | restart syncMode io run => exact persisted.view_restart run
  | reorder reordered => exact reordered.view

theorem view_takeSnapshot
    (run : (StateManager.takeSnapshot env).run source = .ok () target) :
    target.view = source.view :=
  (persisted_takeSnapshot run).view_eq

theorem Persisted.view_flushWal
    (persisted : Persisted env source base entries)
    (run : StateManager.flushWal.run source = .ok () target) : target.view = source.view :=
  (persisted.flushWal run).view_eq.trans persisted.view_eq.symm

variable {calls : List Call}

theorem Chronicle.persisted
    (chronicle : Chronicle env dataDir calls source target)
    (persisted : Persisted env source base entries) :
    ∃ base entries, Persisted env target base entries := by
  induction chronicle with
  | start => exact ⟨base, entries, persisted⟩
  | call _ call run ih =>
    obtain ⟨base, entries, persisted⟩ := ih persisted
    have step : Step env dataDir (fun _ => True) _ _ := .call call trivial run
    exact persisted.step step
  | pause _ step ih =>
    obtain ⟨base, entries, persisted⟩ := ih persisted
    exact persisted.step step

/-- No call takes anything back from a replicated record. -/
theorem Persisted.keepsRecords
    (persisted : Persisted env source base entries) {call : Call}
    (run : (call.perform env).run source = .ok () target) :
    source.view.KeepsRecords target.view := by
  cases call with
  | mutation change =>
    obtain ⟨logged, -, targetPersisted⟩ := persisted.mutation change run
    rw [targetPersisted.view_eq, View.applyAll_append, ← persisted.view_eq]
    exact source.view.keepsRecords_applyAll logged
  | takeSnapshot =>
    rw [view_takeSnapshot run]
    exact source.view.keepsRecords_applyAll []
  | flushWal =>
    rw [persisted.view_flushWal run]
    exact source.view.keepsRecords_applyAll []

/-- The record of a subject absorbs all that were ever added of it. -/
theorem Chronicle.absorbs
    (chronicle : Chronicle env dataDir calls source target)
    (persisted : Persisted env source base entries)
    {part : CrdtBanRecord} (member : .mutation (.addCrdtBan part) ∈ calls) :
    ∃ stored, target.view.crdt.lookup part.subject = some stored ∧ stored.Absorbs part := by
  induction chronicle with
  | start => contradiction
  | @call calls source middle target earlier call run ih =>
    rcases List.mem_append.mp member with before | last
    · obtain ⟨stored, found, absorbs⟩ := ih persisted before
      obtain ⟨base, entries, persisted⟩ := earlier.persisted persisted
      obtain ⟨later, laterFound, laterAbsorbs⟩ :=
        persisted.keepsRecords run part.subject stored found
      exact ⟨later, laterFound, laterAbsorbs.trans absorbs⟩
    · cases List.mem_singleton.mp last
      rw [show target.view = middle.view.apply (.addCrdtBan part) from view_logEntry run]
      exact (Stores.view_keyed middle.manager.toStores).absorbs_addCrdtBan part
  | pause earlier step ih =>
    obtain ⟨base, entries, middlePersisted⟩ := earlier.persisted persisted
    rw [middlePersisted.view_pause step]
    exact ih persisted member

/-- A record of the subject is among those that the calls add. -/
def Delivers (subject : IpNet) (calls : List Call) : Prop :=
  ∃ part, .mutation (.addCrdtBan part) ∈ calls ∧ part.subject = subject

/-- Add records again that earlier calls added, and keep the log. -/
def Redelivers (earlier : List Call) : Call → Prop
  | .mutation (.addCrdtBan part) => .mutation (.addCrdtBan part) ∈ earlier
  | .takeSnapshot => True
  | .flushWal => True
  | .mutation _ => False

/-- The record is there with this flag: counted if the calls delivered the subject,
and as it was otherwise. -/
structure Flagged (subject : IpNet) (record : CrdtBanRecord) (calls : List Call) (view : View)
    (flag : Bool) : Prop where
  found : view.crdt.lookup subject = some { record with tombstone := flag }
  counted : Delivers subject calls → flag = record.quorumReached
  untouched : ¬Delivers subject calls → flag = record.tombstone

variable {subject : IpNet} {record : CrdtBanRecord}

theorem Flagged.idle
    {view next : View} {flag : Bool} (flagged : Flagged subject record calls view flag)
    {call : Call} (elsewhere : ∀ part, call = .mutation (.addCrdtBan part) → part.subject ≠ subject)
    (same : next.crdt.lookup subject = view.crdt.lookup subject) :
    Flagged subject record (calls ++ [call]) next flag := by
  have delivers_iff : Delivers subject (calls ++ [call]) ↔ Delivers subject calls := by
    constructor
    · rintro ⟨part, member, partSame⟩
      rcases List.mem_append.mp member with before | last
      · exact ⟨part, before, partSame⟩
      · exact absurd partSame (elsewhere part (List.mem_singleton.mp last).symm)
    · rintro ⟨part, member, partSame⟩
      exact ⟨part, List.mem_append_left _ member, partSame⟩
  exact ⟨same.trans flagged.found, fun delivers => flagged.counted (delivers_iff.mp delivers),
    fun none => flagged.untouched (mt delivers_iff.mpr none)⟩

theorem Flagged.merged {part : CrdtBanRecord}
    {view : View} {flag : Bool} (flagged : Flagged subject record calls view flag)
    (same : part.subject = subject) (absorbs : record.Absorbs part) :
    Flagged subject record (calls ++ [.mutation (.addCrdtBan part)])
      (view.apply (.addCrdtBan part)) record.quorumReached where
  found := by
    have known : ∀ other, WalEntry.addCrdtBan part = .addCrdtBan other →
        subject = other.subject →
          CrdtBanRecord.Absorbs { record with tombstone := flag } other := by
      rintro _ ⟨⟩ -
      exact absorbs.withFlag flag
    rw [View.lookup_crdt_apply, flagged.found, View.crdtCell_of_absorbs known, View.flagWrite,
      if_pos same.symm]
    rfl
  counted := fun _ => rfl
  untouched := fun none => absurd ⟨part, by simp, same⟩ none

theorem Chronicle.flagged {earlier later : List Call}
    (chronicle : Chronicle env dataDir later source target)
    (persisted : Persisted env source base entries)
    (found : source.view.crdt.lookup subject = some record)
    (absorbs : ∀ part, .mutation (.addCrdtBan part) ∈ earlier → part.subject = subject →
      record.Absorbs part) (redelivers : ∀ call ∈ later, Redelivers earlier call) :
    ∃ flag, Flagged subject record later target.view flag := by
  induction chronicle with
  | start => exact ⟨record.tombstone, found, fun ⟨_, member, _⟩ => by contradiction, fun _ => rfl⟩
  | @call calls source middle target before call run ih =>
    obtain ⟨flag, flagged⟩ := ih persisted found
      fun call member => redelivers call (List.mem_append_left _ member)
    obtain ⟨base, entries, middlePersisted⟩ := before.persisted persisted
    have redelivered := redelivers call (by simp)
    cases call with
    | takeSnapshot =>
      exact ⟨flag, flagged.idle (by rintro _ ⟨⟩) (by rw [view_takeSnapshot run])⟩
    | flushWal =>
      exact ⟨flag, flagged.idle (by rintro _ ⟨⟩) (by rw [middlePersisted.view_flushWal run])⟩
    | mutation change =>
      cases change with
      | addCrdtBan part =>
        have view_eq : target.view = middle.view.apply (.addCrdtBan part) :=
          view_logEntry run
        by_cases same : part.subject = subject
        · rw [view_eq]
          exact ⟨_, flagged.merged same (absorbs part redelivered same)⟩
        · refine ⟨flag, flagged.idle ?_ ?_⟩
          · rintro _ ⟨⟩
            exact same
          · rw [view_eq, View.lookup_crdt_apply]
            exact if_neg (Ne.symm same)
      | _ => contradiction
  | pause before step ih =>
    obtain ⟨base, entries, middlePersisted⟩ := before.persisted persisted
    rw [middlePersisted.view_pause step]
    exact ih persisted found redelivers

/-- What a tombstone that found its record leaves. -/
theorem tombstoneCrdtBan_found
    (run : (StateManager.tombstoneCrdtBan env subject).run source = .ok true target) :
    ∃ stored, source.view.crdt.lookup subject = some stored ∧
      target.view.crdt.lookup subject = some { stored with tombstone := true } := by
  rw [StateManager.tombstoneCrdtBan_eq] at run
  have answer : (source.manager.crdtStore.tombstoneCrdtBan subject).1 = true := by
    obtain ⟨_, _, getRun, run⟩ := bind_eq_ok_iff.mp run
    cases getRun
    obtain ⟨_, _, -, run⟩ := bind_eq_ok_iff.mp run
    injection run
  have view_eq := view_logEntry (StateManager.logEntry_of_answer env run)
  have view_lookup : source.view.crdt.lookup subject =
      source.manager.crdtStore.records.lookup subject := lookup_toMap _ _
  cases found : source.manager.crdtStore.records.lookup subject with
  | none => simp [CrdtStore.tombstoneCrdtBan, found] at answer
  | some stored =>
    refine ⟨stored, view_lookup.trans found, ?_⟩
    rw [view_eq, View.lookup_crdt_apply, view_lookup, found]
    exact if_pos rfl

variable (env) in
/-- A record that was tombstoned stays inactive while records added earlier are added
again and the manager restarts, exactly as long as it has the votes, or none of the
records is one of its subject, or it has expired anyway. -/
theorem tombstone_stays_iff {dataDir : String} {syncMode : WalSyncMode} {io : List Outcome}
    {start before after last : World} {earlier later : List Call} {subject : IpNet}
    (fresh : (StateManager.new env dataDir syncMode).run ⟨.empty, io⟩ =
      .ok start.manager start.toDevice) (history : Chronicle env dataDir earlier start before)
    (tombstones : (StateManager.tombstoneCrdtBan env subject).run before = .ok true after)
    (run : Chronicle env dataDir later after last)
    (redelivers : ∀ call ∈ later, Redelivers earlier call) :
    ∃ stored record, before.manager.crdtStore.records.lookup subject = some stored ∧
      last.manager.crdtStore.records.lookup subject = some record ∧
      ∀ currentTimeMs, record.isActive currentTimeMs = false ↔
        tombstoneQuorum ≤ stored.tombstoneReporters.card ∨ ¬Delivers subject later ∨
          stored.banUntil.wallTimeMs.val ≤ currentTimeMs := by
  have startPersisted : Persisted env start .empty _ := persisted_new fresh rfl
  obtain ⟨base, entries, persisted⟩ := history.persisted startPersisted
  obtain ⟨stored, found, tombstoned⟩ := tombstoneCrdtBan_found tombstones
  have absorbs : ∀ part, .mutation (.addCrdtBan part) ∈ earlier → part.subject = subject →
      CrdtBanRecord.Absorbs { stored with tombstone := true } part := by
    rintro part member rfl
    obtain ⟨_, partFound, partAbsorbed⟩ := history.absorbs startPersisted member
    obtain rfl := Option.some.inj (found.symm.trans partFound)
    exact partAbsorbed.withFlag true
  obtain ⟨_, -, afterPersisted⟩ := persisted.mutation (.tombstoneCrdtBan subject)
    (bind_eq_ok_iff.mpr ⟨true, after, tombstones, rfl⟩)
  obtain ⟨flag, lastFound, counted, untouched⟩ :=
    run.flagged afterPersisted tombstoned absorbs redelivers
  refine ⟨stored, _, (lookup_toMap _ _).symm.trans found,
    (lookup_toMap _ _).symm.trans lastFound, ?_⟩
  intro currentTimeMs
  have inactive_iff : CrdtBanRecord.isActive { stored with tombstone := flag } currentTimeMs =
      false ↔ flag = true ∨ stored.banUntil.wallTimeMs.val ≤ currentTimeMs := by
    rw [CrdtBanRecord.isActive, Bool.and_eq_false_iff, Bool.not_eq_false', decide_eq_false_iff_not,
      Nat.not_lt]
  rw [inactive_iff]
  by_cases delivers : Delivers subject later
  · rw [counted delivers]
    simp [CrdtBanRecord.quorumReached, delivers]
  · simp [untouched delivers, delivers]

/-- A manager that received a replicated record. -/
def sampleReceived : World :=
  finalState ((StateManager.addCrdtBan Wire.externals sampleReplica).run sampleStart)

/-- The same manager after the tombstone of the record. -/
def sampleTombstoned : World :=
  finalState ((StateManager.tombstoneCrdtBan Wire.externals sampleReplica.subject).run
    sampleReceived)

/-- The same manager after another delivery of the record. -/
def sampleRedelivered : World :=
  finalState ((StateManager.addCrdtBan Wire.externals sampleReplica).run sampleTombstoned)

theorem tombstone_undone :
    returned ((StateManager.addCrdtBan Wire.externals sampleReplica).run sampleStart) = some () ∧
      returned ((StateManager.tombstoneCrdtBan Wire.externals sampleReplica.subject).run
        sampleReceived) = some true ∧
      returned ((StateManager.addCrdtBan Wire.externals sampleReplica).run sampleTombstoned) =
        some () ∧ sampleRedelivered.manager.crdtStore.records.lookup sampleReplica.subject =
        some sampleReplica ∧ sampleReplica.isActive 0 = true := by
  decide +kernel

/-- The record with the vote of a node against it. -/
def replicaAgainst (nodeId : String) : CrdtBanRecord :=
  { sampleReplica with tombstoneReporters := {nodeId} }

/-- Adding the record with one vote against it. -/
def addAgainst (nodeId : String) : EStateM HiveGuardError World Unit :=
  StateManager.addCrdtBan Wire.externals (replicaAgainst nodeId)

/-- A manager that received the record with two votes against it. -/
def sampleVoted : World :=
  finalState ((addAgainst "node-c").run (finalState ((addAgainst "node-b").run sampleStart)))

/-- The same manager after the tombstone of the record. -/
def sampleOutvoted : World :=
  finalState ((StateManager.tombstoneCrdtBan Wire.externals sampleReplica.subject).run sampleVoted)

/-- After another delivery with one of the votes, the two votes keep the record inactive before
its end. -/
theorem tombstone_stays_sample :
    let last := finalState ((addAgainst "node-b").run sampleOutvoted)
    ∃ record, last.manager.crdtStore.records.lookup sampleReplica.subject = some record ∧
      record.isActive 2000 = false := by
  have first := eq_ok_of_returned (show returned ((addAgainst "node-b").run sampleStart) =
    some () by decide +kernel)
  have second := eq_ok_of_returned (show returned ((addAgainst "node-c").run
    (finalState ((addAgainst "node-b").run sampleStart))) = some () by decide +kernel)
  have tombstoned := eq_ok_of_returned (show returned ((StateManager.tombstoneCrdtBan
    Wire.externals sampleReplica.subject).run sampleVoted) = some true by decide +kernel)
  have redelivered := eq_ok_of_returned (show returned ((addAgainst "node-b").run
    sampleOutvoted) = some () by decide +kernel)
  obtain ⟨stored, record, storedFound, found, inactive_iff⟩ := tombstone_stays_iff Wire.externals
    sampleStart_fresh (.call (.call (.start _) (.mutation (.addCrdtBan (replicaAgainst "node-b")))
      first) (.mutation (.addCrdtBan (replicaAgainst "node-c"))) second)
    tombstoned (.call (.start _) (.mutation (.addCrdtBan (replicaAgainst "node-b"))) redelivered)
    (by simp [Redelivers])
  have votes : (sampleVoted.manager.crdtStore.records.lookup sampleReplica.subject).map
      CrdtBanRecord.tombstoneReporters = some {"node-b", "node-c"} := by
    decide +kernel
  rw [sampleVoted, storedFound] at votes
  refine ⟨record, found, (inactive_iff 2000).mpr (.inl ?_)⟩
  rw [Option.some.inj votes]
  decide

end World

end HiveGuard.Persistence
