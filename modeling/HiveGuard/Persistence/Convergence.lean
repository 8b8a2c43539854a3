import HiveGuard.Persistence.Recovery

/-!
# Convergence of the replicated records

Managers that received the same replicated records hold the same map, whatever
the order of the deliveries and however often one of them was repeated.
-/

namespace HiveGuard.Persistence.World

open HiveGuard.Core Library.Dictionary Library.Effect

variable {env : Externals}

/-- Delivered records end up in the store one after the other. -/
theorem crdtStore_of_forM {delivered : List CrdtBanRecord} {source target : World}
    (run : (forM delivered (StateManager.addCrdtBan env)).run source = .ok () target) :
    target.manager.crdtStore = delivered.foldl CrdtStore.addCrdtBan source.manager.crdtStore := by
  induction delivered generalizing source with
  | nil =>
    cases run
    rfl
  | cons record delivered ih =>
    rw [List.forM_cons] at run
    obtain ⟨_, middle, addRun, run⟩ := bind_eq_ok_iff.mp run
    obtain ⟨state, -, rfl⟩ := (StateManager.logEntry_ok_iff env).mp addRun
    exact ih run

variable (env) in
/-- Two managers that start without replicated records and receive the same ones,
in any orders and with any repetitions, end with equal maps, if the flags state
the quorum and records of one subject that tie in their modification time agree
on reason and evidence. -/
theorem crdtStore_converges {firstStart firstEnd secondStart secondEnd : World}
    {first second : List CrdtBanRecord} (firstEmpty : firstStart.manager.crdtStore.records = ∅)
    (secondEmpty : secondStart.manager.crdtStore.records = ∅)
    (sameRecords : ∀ record, record ∈ first ↔ record ∈ second) (consistent : ∀ record ∈ first,
      record.tombstone = decide (tombstoneQuorum ≤ record.tombstoneReporters.card))
    (harmless : ∀ a ∈ first, ∀ b ∈ first, a.subject = b.subject →
      a.lastModified = b.lastModified → a.reason = b.reason ∧ a.evidenceHash = b.evidenceHash)
    (firstRun : (forM first (StateManager.addCrdtBan env)).run firstStart = .ok () firstEnd)
    (secondRun : (forM second (StateManager.addCrdtBan env)).run secondStart = .ok () secondEnd) :
    toMap firstEnd.manager.crdtStore.records = toMap secondEnd.manager.crdtStore.records := by
  apply toMap_ext
  intro subject
  have firstAbsent : firstStart.manager.crdtStore.records.lookup subject = none := by
    rw [firstEmpty, AList.lookup_empty]
  have secondAbsent : secondStart.manager.crdtStore.records.lookup subject = none := by
    rw [secondEmpty, AList.lookup_empty]
  have secondConsistent : ∀ record ∈ second, record.FlagConsistent :=
    fun record member => consistent record ((sameRecords record).mpr member)
  rw [crdtStore_of_forM firstRun, crdtStore_of_forM secondRun]
  rcases CrdtStore.lookup_foldl_addCrdtBan firstAbsent consistent with
    ⟨firstNone, firstFresh⟩ | ⟨left, firstFound, leftGathered⟩ <;>
  rcases CrdtStore.lookup_foldl_addCrdtBan secondAbsent secondConsistent with
    ⟨secondNone, secondFresh⟩ | ⟨right, secondFound, rightGathered⟩
  · rw [firstNone, secondNone]
  · obtain ⟨author, member, same, -⟩ := rightGathered.attribution
    exact absurd same (firstFresh author ((sameRecords author).mpr member))
  · obtain ⟨author, member, same, -⟩ := leftGathered.attribution
    exact absurd same (secondFresh author ((sameRecords author).mp member))
  · rw [firstFound, secondFound, leftGathered.unique rightGathered sameRecords harmless]

/-- Another report of the same subject, modified later. -/
def laterReplica : CrdtBanRecord :=
  { sampleReplica with
    reporters := {"node-b"}
    reason := "scan"
    lastModified := ⟨2000, 0, 9⟩ }

theorem crdtStore_converges_sample :
    ∃ firstEnd secondEnd,
      (forM [sampleReplica, laterReplica] (StateManager.addCrdtBan Wire.externals)).run
          sampleStart = .ok () firstEnd ∧ (forM [laterReplica, sampleReplica, laterReplica]
          (StateManager.addCrdtBan Wire.externals)).run sampleStart = .ok () secondEnd ∧
        toMap firstEnd.manager.crdtStore.records = toMap secondEnd.manager.crdtStore.records := by
  have firstRun := eq_ok_of_succeeded (show succeeded ((forM [sampleReplica, laterReplica]
    (StateManager.addCrdtBan Wire.externals)).run sampleStart) = true by decide +kernel)
  have secondRun := eq_ok_of_succeeded (show succeeded ((forM
    [laterReplica, sampleReplica, laterReplica]
    (StateManager.addCrdtBan Wire.externals)).run sampleStart) = true by decide +kernel)
  refine ⟨_, _, firstRun, secondRun,
    crdtStore_converges Wire.externals rfl rfl ?_ ?_ ?_ firstRun secondRun⟩
  · intro record
    simp only [List.mem_cons, List.not_mem_nil, or_false]
    tauto
  · decide +kernel
  · decide +kernel

end HiveGuard.Persistence.World
