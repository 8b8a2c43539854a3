import HiveGuard.Core.Chrono
import HiveGuard.Enforce.Kernel
import HiveGuard.Library.Effect

/-!
# The nftables enforcer

The enforcer keeps the exact set of wanted bans and writes to the kernel a set of
networks without overlaps that covers the same addresses.  Each call replaces all sets in
one batch, so a removed ban uncovers the narrower ones it had hidden.

The firewall refines the set of wanted bans: after any sequence of calls, failed ones
included, the main sets drop the addresses of the wanted bans and no others, if no run of the
tool fails that has changed the kernel.
-/

namespace HiveGuard.Enforce

open HiveGuard.Core Library.Effect Library.Sweep

/-! ## The batch of a synchronisation -/

/-- Remove networks that are contained within broader ones of the list. -/
def dedupOverlapping (nets : List IpNet) : List IpNet :=
  sweep IpNet.containsNet
    ((nets.map IpNet.trunc).mergeSort fun first second => decide (first ≤ second))

theorem mem_of_mem_dedupOverlapping {nets : List IpNet} {net : IpNet}
    (member : net ∈ dedupOverlapping nets) : ∃ source ∈ nets, source.trunc = net :=
  List.mem_map.mp (List.mem_mergeSort.mp ((sweep_sublist _ _).mem member))

/-- The networks left do not meet. -/
theorem pairwise_dedupOverlapping (nets : List IpNet) :
    (dedupOverlapping nets).Pairwise fun first second => ¬IpNet.SharesAddress first second := by
  refine pairwise_sweep IpNet.nesting ?_ ?_
  · have transitive : ∀ first second third : IpNet, decide (first ≤ second) = true →
        decide (second ≤ third) = true → decide (first ≤ third) = true := by
      intro first second third firstSecond secondThird
      exact decide_eq_true
        (le_trans (of_decide_eq_true firstSecond) (of_decide_eq_true secondThird))
    have total : ∀ first second : IpNet,
        (decide (first ≤ second) || decide (second ≤ first)) = true := by
      intro first second
      simpa using le_total first second
    have sorted := List.pairwise_mergeSort transitive total (nets.map IpNet.trunc)
    exact sorted.imp of_decide_eq_true
  · intro net member
    rw [List.mem_mergeSort, List.mem_map] at member
    obtain ⟨source, -, rfl⟩ := member
    exact source.canonical_trunc

/-- The networks left hold the addresses of all. -/
theorem contains_dedupOverlapping_iff (nets : List IpNet) (ip : IpAddr) :
    (∃ net ∈ dedupOverlapping nets, net.contains ip = true) ↔
      ∃ net ∈ nets, net.contains ip = true := by
  refine (holds_sweep_iff IpNet.nesting _ ip).trans ?_
  simp

/-- The networks left are canonical, come from the list, do not meet, and hold exactly the
addresses of the list. -/
theorem dedupOverlapping_is_exact_cover (nets : List IpNet) :
    ((dedupOverlapping nets).Pairwise fun first second => ¬IpNet.SharesAddress first second) ∧
      (∀ net ∈ dedupOverlapping nets, net.Canonical ∧ ∃ source ∈ nets, source.trunc = net) ∧
      ∀ ip, (∃ net ∈ dedupOverlapping nets, net.contains ip = true) ↔
        ∃ net ∈ nets, net.contains ip = true := by
  refine ⟨pairwise_dedupOverlapping nets, ?_, contains_dedupOverlapping_iff nets⟩
  intro net member
  obtain ⟨source, listed, rfl⟩ := mem_of_mem_dedupOverlapping member
  exact ⟨source.canonical_trunc, source, listed, rfl⟩

def appendReplaceSetBatch (batch : List Command) (set : String) (nets : List IpNet) :
    List Command :=
  batch ++ [.flushSet set] ++ if nets.isEmpty then [] else [.addElement set nets]

section Batch

variable {kernel middle : Kernel} {batch : List Command}

theorem applyBatch_flushSet (done : kernel.applyBatch batch = some middle) (set : String) :
    kernel.applyBatch (batch ++ [.flushSet set]) = some (middle.put set .empty) := by
  rw [Kernel.applyBatch_append, done]
  rfl

theorem applyBatch_appendReplaceSetBatch (done : kernel.applyBatch batch = some middle)
    (set : String) {nets : List IpNet}
    (disjoint : nets.Pairwise fun first second => ¬IpNet.SharesAddress first second) :
    kernel.applyBatch (appendReplaceSetBatch batch set nets) =
      some (middle.put set (.ofNets nets disjoint)) := by
  rw [appendReplaceSetBatch, Kernel.applyBatch_append, applyBatch_flushSet done,
    Option.bind_some]
  cases nets with
  | nil => rfl
  | cons net nets =>
    exact (Kernel.applyBatch_singleton _ _).trans
      (Kernel.perform_addElement_empty middle set disjoint)

end Batch

/-- The part of the enforcer that synchronisation reads and writes.  The names of its six
sets are different. -/
structure NftablesEnforcer where
  setNameV4 : String
  setNameV6 : String
  syncSetNameV4 : String
  syncSetNameV6 : String
  syncNextSetNameV4 : String
  syncNextSetNameV6 : String
  names_nodup : [setNameV4, setNameV6, syncSetNameV4, syncSetNameV6, syncNextSetNameV4,
    syncNextSetNameV6].Nodup
  desiredBans : Finset IpNet
  commandTimeout : StdDuration

namespace NftablesEnforcer

/-- What `new` appends to the name of the set, in the order of the fields. -/
def nameEndings : List String :=
  ["", "_v6", "_sync", "_v6_sync", "_sync_next", "_v6_sync_next"]

theorem nodup_appended_endings (setName : String) :
    (nameEndings.map fun ending => setName ++ ending).Nodup := by
  refine List.Nodup.map ?_ (by decide)
  intro first second equal
  exact (String.append_right_inj setName).mp equal

def new (setName : String) : NftablesEnforcer where
  setNameV4 := setName
  setNameV6 := setName ++ "_v6"
  syncSetNameV4 := setName ++ "_sync"
  syncSetNameV6 := setName ++ "_v6" ++ "_sync"
  syncNextSetNameV4 := setName ++ "_sync_next"
  syncNextSetNameV6 := setName ++ "_v6" ++ "_sync_next"
  names_nodup := by
    have distinct := nodup_appended_endings setName
    simpa [nameEndings, String.append_assoc] using distinct
  desiredBans := ∅
  commandTimeout := .fromSecs 10

/-- The sets a batch fills and clears again. -/
def shadowSetNames (enforcer : NftablesEnforcer) : List String :=
  [enforcer.syncSetNameV4, enforcer.syncSetNameV6, enforcer.syncNextSetNameV4,
    enforcer.syncNextSetNameV6]

def buildSyncBatch (enforcer : NftablesEnforcer) (banned : List IpNet) : List Command :=
  let deduped := dedupOverlapping banned
  let v4 := deduped.filter IpNet.isV4
  let v6 := deduped.filter IpNet.isV6
  let batch := appendReplaceSetBatch [] enforcer.syncSetNameV4 v4
  let batch := appendReplaceSetBatch batch enforcer.syncSetNameV6 v6
  let batch := appendReplaceSetBatch batch enforcer.syncNextSetNameV4 v4
  let batch := appendReplaceSetBatch batch enforcer.syncNextSetNameV6 v6
  let batch := appendReplaceSetBatch batch enforcer.setNameV4 v4
  let batch := appendReplaceSetBatch batch enforcer.setNameV6 v6
  -- Clear legacy shadow sets in the same transaction.
  let batch := batch ++ [.flushSet enforcer.syncSetNameV4]
  let batch := batch ++ [.flushSet enforcer.syncSetNameV6]
  let batch := batch ++ [.flushSet enforcer.syncNextSetNameV4]
  batch ++ [.flushSet enforcer.syncNextSetNameV6]

/-- The kernel takes the batch of any list of networks: the main sets hold the networks
left of each family, the shadow sets nothing. -/
theorem applyBatch_buildSyncBatch (enforcer : NftablesEnforcer) (banned : List IpNet)
    (kernel : Kernel) : ∃ synced, kernel.applyBatch (enforcer.buildSyncBatch banned) = some synced ∧
      (∀ ip, (synced.sets enforcer.setNameV4).Holds ip ↔
        ∃ net ∈ (dedupOverlapping banned).filter IpNet.isV4, net.contains ip = true) ∧
      (∀ ip, (synced.sets enforcer.setNameV6).Holds ip ↔
        ∃ net ∈ (dedupOverlapping banned).filter IpNet.isV6, net.contains ip = true) ∧
      ∀ set ∈ enforcer.shadowSetNames, synced.sets set = .empty := by
  have disjointV4 := (pairwise_dedupOverlapping banned).filter IpNet.isV4
  have disjointV6 := (pairwise_dedupOverlapping banned).filter IpNet.isV6
  have names := enforcer.names_nodup
  have applied := applyBatch_appendReplaceSetBatch kernel.applyBatch_nil enforcer.syncSetNameV4
    disjointV4
  replace applied := applyBatch_appendReplaceSetBatch applied enforcer.syncSetNameV6 disjointV6
  replace applied := applyBatch_appendReplaceSetBatch applied enforcer.syncNextSetNameV4
    disjointV4
  replace applied := applyBatch_appendReplaceSetBatch applied enforcer.syncNextSetNameV6
    disjointV6
  replace applied := applyBatch_appendReplaceSetBatch applied enforcer.setNameV4 disjointV4
  replace applied := applyBatch_appendReplaceSetBatch applied enforcer.setNameV6 disjointV6
  replace applied := applyBatch_flushSet applied enforcer.syncSetNameV4
  replace applied := applyBatch_flushSet applied enforcer.syncSetNameV6
  replace applied := applyBatch_flushSet applied enforcer.syncNextSetNameV4
  replace applied := applyBatch_flushSet applied enforcer.syncNextSetNameV6
  simp only [List.nodup_cons, List.mem_cons, List.not_mem_nil, or_false, not_or] at names
  obtain ⟨⟨v4V6, v4Sync, v4SyncV6, v4Next, v4NextV6⟩, ⟨v6Sync, v6SyncV6, v6Next, v6NextV6⟩,
    ⟨syncSyncV6, syncNext, syncNextV6⟩, ⟨syncV6Next, syncV6NextV6⟩, nextNextV6, -⟩ := names
  refine ⟨_, applied, fun ip => ?_, fun ip => ?_, ?_⟩
  · rw [← IntervalSet.holds_ofNets disjointV4]
    simp only [Kernel.sets_put, v4V6, v4Sync, v4SyncV6, v4Next, v4NextV6, if_false, if_true]
  · rw [← IntervalSet.holds_ofNets disjointV6]
    simp only [Kernel.sets_put, v6Sync, v6SyncV6, v6Next, v6NextV6, if_false, if_true]
  · simp only [shadowSetNames, List.forall_mem_cons, List.not_mem_nil, Kernel.sets_put,
      syncSyncV6, syncNext, syncNextV6, syncV6Next, syncV6NextV6, nextNextV6, if_false, if_true,
      false_imp_iff, implies_true, and_self]

end NftablesEnforcer

/-! ## Calls of the enforcer -/

/-- How a run of the `nft` tool ends.  The caller may give up on a tool that has already
committed the batch, or not be able to read its output. -/
inductive NftRun where
  | completes
  | spawnFails (error : String)
  | stdinFails (error : String) (committed : Bool)
  | waitFails (error : String) (committed : Bool)
  | exits (status stderr : String)
  | invalidOutput (error : String)
  | timesOut (committed : Bool)

/-- `HiveGuardError::Enforcement`. -/
structure EnforcementError where
  message : String

def NftRun.failure (deadline : StdDuration) : NftRun → Option EnforcementError
  | completes => none
  | spawnFails error => some ⟨"failed to spawn nft: " ++ error⟩
  | stdinFails error _ => some ⟨"failed to write nft stdin: " ++ error⟩
  | waitFails error _ => some ⟨"failed to wait for nft: " ++ error⟩
  | exits status stderr => some ⟨"nft command failed (exit " ++ status ++ "): " ++ stderr⟩
  | invalidOutput error => some ⟨"invalid UTF-8 from nft: " ++ error⟩
  | timesOut _ =>
    some ⟨"nft command timed out after " ++ toString deadline.secs.val ++ "s"⟩

/-- Whether the tool applied the batch, if the kernel takes it. -/
def NftRun.commits : NftRun → Bool
  | completes | invalidOutput _ => true
  | stdinFails _ committed | waitFails _ committed | timesOut committed => committed
  | spawnFails _ | exits _ _ => false

/-- The batch is applied and the run succeeds, or neither. -/
def NftRun.Atomic (run : NftRun) : Prop :=
  run.commits = true → run = completes

theorem NftRun.failure_eq_none_iff {run : NftRun} {deadline : StdDuration} :
    run.failure deadline = none ↔ run = completes := by
  cases run <;> simp [failure]

/-- The enforcer, the kernel and the ends of the coming runs of the tool. -/
structure Firewall where
  enforcer : NftablesEnforcer
  kernel : Kernel
  runs : List NftRun

namespace Firewall

def nextRun (firewall : Firewall) : NftRun :=
  firewall.runs.headD .completes

/-- Run the tool on a batch. -/
def execute (batch : List Command) : EStateM EnforcementError Firewall Unit := do
  let firewall ← get
  set { firewall with runs := firewall.runs.tail }
  if firewall.nextRun.commits then
    match firewall.kernel.applyBatch batch with
    | some kernel => set { firewall with kernel := kernel, runs := firewall.runs.tail }
    | none =>
      -- The kernel's refusal ends the run like any other failed command.
      throw ⟨"nft command failed (exit exit status: 1): Error: conflicting intervals specified"⟩
  match firewall.nextRun.failure firewall.enforcer.commandTimeout with
  | some error => throw error
  | none => return

def syncFull (banned : List IpNet) : EStateM EnforcementError Firewall Unit := do
  let desired := (banned.map IpNet.trunc).toFinset
  let batch := (← get).enforcer.buildSyncBatch desired.sort
  execute batch
  -- Only advance the applied cache after the kernel update succeeds.
  modify fun firewall =>
    { firewall with enforcer := { firewall.enforcer with desiredBans := desired } }

def applyBan (subject : IpNet) : EStateM EnforcementError Firewall Unit := do
  let next := insert subject.trunc (← get).enforcer.desiredBans
  syncFull next.sort

def removeBan (subject : IpNet) : EStateM EnforcementError Firewall Unit := do
  let next := (← get).enforcer.desiredBans.erase subject.trunc
  -- Restores any still-active narrower bans previously hidden by the subject.
  syncFull next.sort

/-- The address is dropped by one of the two main sets. -/
def Drops (firewall : Firewall) (ip : IpAddr) : Prop :=
  (firewall.kernel.sets firewall.enforcer.setNameV4).Holds ip ∨
    (firewall.kernel.sets firewall.enforcer.setNameV6).Holds ip

/-- Some wanted ban holds the address. -/
def Desires (firewall : Firewall) (ip : IpAddr) : Prop :=
  ∃ net ∈ firewall.enforcer.desiredBans, net.contains ip = true

/-- The main sets drop the addresses of the wanted bans and no others. -/
def Refines (firewall : Firewall) : Prop :=
  ∀ ip, firewall.Drops ip ↔ firewall.Desires ip

/-- No coming run fails after it has changed the kernel. -/
def Atomic (firewall : Firewall) : Prop :=
  ∀ run ∈ firewall.runs, run.Atomic

theorem Atomic.nextRun {firewall : Firewall} (atomic : firewall.Atomic) :
    firewall.nextRun.Atomic := by
  rw [Firewall.nextRun]
  cases runs : firewall.runs with
  | nil => exact fun _ => rfl
  | cons run rest => exact atomic run (by simp [runs])

theorem Atomic.of_runs_eq_tail {before after : Firewall} (atomic : before.Atomic)
    (rest : after.runs = before.runs.tail) : after.Atomic := by
  intro run member
  rw [rest] at member
  exact atomic run (List.mem_of_mem_tail member)

/-- A completed call with its new set of wanted bans. -/
structure Synced (before : Firewall) (desired : Finset IpNet) (after : Firewall) : Prop where
  completed : before.nextRun = .completes
  runs_eq : after.runs = before.runs.tail
  enforcer_eq : after.enforcer = { before.enforcer with desiredBans := desired }
  refines : after.Refines
  shadows_empty : ∀ set ∈ after.enforcer.shadowSetNames, after.kernel.sets set = .empty

/-- A failed call. -/
structure Unchanged (before after : Firewall) : Prop where
  failed : before.nextRun ≠ .completes
  runs_eq : after.runs = before.runs.tail
  enforcer_eq : after.enforcer = before.enforcer
  kernel_eq : after.kernel = before.kernel

theorem Unchanged.refines {before after : Firewall} (unchanged : Unchanged before after)
    (agrees : before.Refines) : after.Refines := by
  intro ip
  rw [Drops, Desires, unchanged.enforcer_eq, unchanged.kernel_eq]
  exact agrees ip

theorem execute_ends (batch : List Command) (before : Firewall) {synced : Kernel}
    (atomic : before.nextRun.Atomic) (taken : before.kernel.applyBatch batch = some synced) :
    Ends (execute batch) before
      (fun _ after => before.nextRun = .completes ∧
        after = { before with kernel := synced, runs := before.runs.tail })
      (fun _ after => Unchanged before after) := by
  refine Ends.get_bind (Ends.set_bind ?_)
  by_cases commits : before.nextRun.commits = true
  · have completes := atomic commits
    simp only [taken, completes, NftRun.failure]
    exact ⟨trivial, rfl⟩
  · have failed : before.nextRun ≠ .completes := fun completes => commits (by rw [completes]; rfl)
    rw [if_neg commits]
    split
    · exact ⟨failed, rfl, rfl, rfl⟩
    next none => exact absurd (NftRun.failure_eq_none_iff.mp none) failed

theorem syncFull_ends (banned : List IpNet) (before : Firewall)
    (atomic : before.nextRun.Atomic) :
    Ends (syncFull banned) before
      (fun _ after => Synced before (banned.map IpNet.trunc).toFinset after)
      (fun _ after => Unchanged before after) := by
  obtain ⟨synced, taken, mainV4, mainV6, shadows⟩ :=
    before.enforcer.applyBatch_buildSyncBatch (banned.map IpNet.trunc).toFinset.sort
      before.kernel
  refine Ends.get_bind (Ends.bind ((execute_ends _ before atomic taken).imp ?_ ?_))
  · rintro - after ⟨completed, rfl⟩
    refine ⟨completed, rfl, rfl, fun ip => ?_, shadows⟩
    refine (or_congr (mainV4 ip) (mainV6 ip)).trans ?_
    rw [IpNet.exists_mem_families_iff, contains_dedupOverlapping_iff]
    simp only [Finset.mem_sort, Desires]
  · exact fun _ after unchanged => unchanged

end Firewall

inductive Call where
  | applyBan (subject : IpNet)
  | removeBan (subject : IpNet)
  | syncFull (banned : List IpNet)

namespace Call

def perform : Call → EStateM EnforcementError Firewall Unit
  | applyBan subject => Firewall.applyBan subject
  | removeBan subject => Firewall.removeBan subject
  | syncFull banned => Firewall.syncFull banned

/-- The bans wanted after a call that succeeds. -/
def desired (bans : Finset IpNet) : Call → Finset IpNet
  | applyBan subject => (insert subject.trunc bans).image IpNet.trunc
  | removeBan subject => (bans.erase subject.trunc).image IpNet.trunc
  | syncFull banned => (banned.map IpNet.trunc).toFinset

theorem toFinset_map_sort (bans : Finset IpNet) :
    (bans.sort.map IpNet.trunc).toFinset = bans.image IpNet.trunc := by
  ext net
  simp

/-- A call brings kernel and wanted bans to their next value together, or leaves both. -/
theorem perform_ends (call : Call) {before : Firewall} (atomic : before.Atomic) :
    Ends call.perform before
      (fun _ after => before.Synced (call.desired before.enforcer.desiredBans) after)
      (fun _ after => before.Unchanged after) := by
  cases call with
  | applyBan subject =>
    refine Ends.get_bind ?_
    rw [desired, ← toFinset_map_sort]
    exact Firewall.syncFull_ends _ before atomic.nextRun
  | removeBan subject =>
    refine Ends.get_bind ?_
    rw [desired, ← toFinset_map_sort]
    exact Firewall.syncFull_ends _ before atomic.nextRun
  | syncFull banned => exact Firewall.syncFull_ends banned before atomic.nextRun

theorem perform_atomic (call : Call) {before : Firewall} (atomic : before.Atomic) :
    (finalState (call.perform.run before)).Atomic :=
  ((call.perform_ends atomic).imp (fun _ _ synced => atomic.of_runs_eq_tail synced.runs_eq)
    fun _ _ unchanged => atomic.of_runs_eq_tail unchanged.runs_eq).finalState

theorem perform_refines (call : Call) {before : Firewall} (atomic : before.Atomic)
    (agrees : before.Refines) : (finalState (call.perform.run before)).Refines :=
  ((call.perform_ends atomic).imp (fun _ _ synced => synced.refines)
    fun _ _ unchanged => unchanged.refines agrees).finalState

end Call

namespace Firewall

/-- The firewall after some calls, whether they succeed or not. -/
def afterCalls (firewall : Firewall) (calls : List Call) : Firewall :=
  calls.foldl (fun firewall call => finalState (call.perform.run firewall)) firewall

theorem refines_afterCalls {firewall : Firewall} (atomic : firewall.Atomic)
    (agrees : firewall.Refines) (calls : List Call) :
    (firewall.afterCalls calls).Atomic ∧ (firewall.afterCalls calls).Refines := by
  induction calls generalizing firewall with
  | nil => exact ⟨atomic, agrees⟩
  | cons call calls ih =>
    exact ih (call.perform_atomic atomic) (call.perform_refines atomic agrees)

/-- The firewall refines the set of wanted bans, if each run of the tool applies its batch and
succeeds or does neither.  From a firewall whose main sets drop the addresses of the wanted
bans, after any calls and one more:

* the main sets drop the addresses of the wanted bans, and no set has two elements with an
  address in common;
* a call that succeeds makes the step of the abstract set and leaves the shadow sets empty;
* a call that fails changes neither the kernel nor the enforcer;
* a call succeeds whenever the tool completes, so the kernel refuses no batch;
* after a ban is removed the other wanted bans are still enforced. -/
theorem firewall_refines_desired (start : Firewall)
    (atomic : ∀ run ∈ start.runs, run.commits = true → run = .completes)
    (agrees : start.Refines) (calls : List Call) (call : Call) :
    let before := start.afterCalls calls
    let result := call.perform.run before
    let after := finalState result
    (∀ ip, after.Drops ip ↔ after.Desires ip) ∧
      (∀ set, (after.kernel.sets set).elements.Pairwise fun first second =>
        ¬∃ ip, first.contains ip = true ∧ second.contains ip = true) ∧
      (succeeded result = true →
        after.enforcer.desiredBans = call.desired before.enforcer.desiredBans ∧
          ∀ set ∈ after.enforcer.shadowSetNames, (after.kernel.sets set).elements = []) ∧
      (succeeded result = false →
        after.kernel = before.kernel ∧ after.enforcer = before.enforcer) ∧
      (succeeded result = true ↔ before.nextRun = .completes) ∧
      ∀ wide narrow, call = .removeBan wide → succeeded result = true →
        narrow ∈ before.enforcer.desiredBans → narrow ≠ wide.trunc →
          ∀ ip, narrow.contains ip = true → after.Drops ip := by
  intro before result after
  obtain ⟨atomicBefore, agreesBefore⟩ := refines_afterCalls atomic agrees calls
  have agreesAfter : after.Refines := call.perform_refines atomicBefore agreesBefore
  have synced : succeeded result = true →
      before.Synced (call.desired before.enforcer.desiredBans) after := fun success =>
    ((call.perform_ends atomicBefore).of_succeeded success).choose_spec
  have unchanged : succeeded result = false → before.Unchanged after := fun failure =>
    ((call.perform_ends atomicBefore).of_failed failure).choose_spec
  refine ⟨agreesAfter, ?_, ?_, ?_, ?_, ?_⟩
  · intro set
    refine (after.kernel.sets set).disjoint.imp fun {first second} apart => ?_
    rw [← Element.overlaps_iff, apart]
    exact Bool.false_ne_true
  · intro success
    have changed := synced success
    refine ⟨by rw [changed.enforcer_eq], fun set member => ?_⟩
    rw [changed.shadows_empty set member]
    rfl
  · intro failure
    exact ⟨(unchanged failure).kernel_eq, (unchanged failure).enforcer_eq⟩
  · refine ⟨fun success => (synced success).completed, fun completes => ?_⟩
    by_contra failure
    exact (unchanged (Bool.not_eq_true _ ▸ failure)).failed completes
  · rintro wide narrow rfl success wanted distinct ip member
    refine (agreesAfter ip).mpr ⟨narrow.trunc, ?_, ?_⟩
    · rw [(synced success).enforcer_eq]
      exact Finset.mem_image_of_mem IpNet.trunc (Finset.mem_erase.mpr ⟨distinct, wanted⟩)
    · rw [IpNet.contains_trunc]
      exact member

/-- The network 10.0.0.0/8. -/
def wideBan : IpNet :=
  .ofV4 0x0A000000#32 8

/-- The host 10.1.2.3, inside the wide network. -/
def hiddenBan : IpNet :=
  .ofV4 0x0A010203#32 32

/-- Two wanted bans of which the kernel holds the wide one.  The next run of the tool is given
up before it commits. -/
def hidingFirewall : Firewall where
  enforcer := { NftablesEnforcer.new "hiveguard_blocklist" with
    desiredBans := {wideBan, hiddenBan} }
  kernel := Kernel.put ⟨fun _ => .empty⟩ "hiveguard_blocklist"
    (.ofNets [wideBan] (List.pairwise_singleton _ _))
  runs := [.timesOut false]

theorem hidingFirewall_refines : hidingFirewall.Refines := by
  intro ip
  have within : hiddenBan.Within wideBan :=
    IpNet.within_of_containsNet (by decide)
  have drops : hidingFirewall.Drops ip ↔ wideBan.contains ip = true := by
    simp [Drops, hidingFirewall, NftablesEnforcer.new, Kernel.sets_put, IntervalSet.ofNets,
      IntervalSet.Holds, IntervalSet.empty]
  have desires : hidingFirewall.Desires ip ↔
      wideBan.contains ip = true ∨ hiddenBan.contains ip = true := by
    simp [Desires, hidingFirewall]
  rw [drops, desires]
  exact ⟨.inl, fun either => either.elim id (within ip)⟩

/-- Removing the wide ban, at the second attempt, leaves the hidden one enforced. -/
theorem hidden_ban_enforced : hidingFirewall.Refines ∧ ∀ ip, hiddenBan.contains ip = true →
      (finalState ((Call.removeBan wideBan).perform.run
        (hidingFirewall.afterCalls [.removeBan wideBan]))).Drops ip := by
  refine ⟨hidingFirewall_refines, ?_⟩
  have atomic : ∀ run ∈ hidingFirewall.runs, run.commits = true → run = .completes := by
    simp [hidingFirewall, NftRun.commits]
  obtain ⟨-, -, -, failed, -, -⟩ := firewall_refines_desired hidingFirewall atomic
    hidingFirewall_refines [] (.removeBan wideBan)
  obtain ⟨-, same⟩ := failed rfl
  obtain ⟨-, -, -, -, completes, enforced⟩ := firewall_refines_desired hidingFirewall atomic
    hidingFirewall_refines [.removeBan wideBan] (.removeBan wideBan)
  refine enforced wideBan hiddenBan rfl (completes.mpr rfl) ?_ (by decide)
  have wanted : hiddenBan ∈ hidingFirewall.enforcer.desiredBans := by decide
  exact same ▸ wanted

end Firewall

end HiveGuard.Enforce
