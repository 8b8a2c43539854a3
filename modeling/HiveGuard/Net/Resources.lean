import HiveGuard.Net.Quorum

/-!
# What peers can make the engine hold

Whatever arrives, the table of votes and the memory of digests stay below their limits.
The running number of votes is the number of votes in the table at every moment of a
batch, also after rounds that stop early and leave a subject without votes.  A peer is
charged for the decisions it brings about and for nothing else.
-/

namespace HiveGuard.Net

open HiveGuard.Core Library.Dictionary Library.Effect

/-- The number of votes on all subjects. -/
def Reports.size (reports : Reports) : Nat :=
  total (fun votes => votes.keys.length) reports

/-- The limits on what an engine holds. -/
structure GossipEngine.Bounded (engine : GossipEngine) : Prop where
  subjects : engine.reports.keys.length ≤ maxReports
  votes : ∀ subject votes, engine.reports.lookup subject = some votes →
    votes.keys.length ≤ maxVotes
  size : engine.reports.size ≤ maxReports
  digests : engine.accepted.keys.length ≤ maxReports

namespace SyncState

/-- The engine that the variables of the loop stand for. -/
def engine (state : SyncState) : GossipEngine :=
  ⟨state.reports, state.seen⟩

/-- The limits hold, and the running number of votes is exact. -/
structure Bounded (state : SyncState) : Prop where
  engine : state.engine.Bounded
  count : state.reportCount = state.reports.size

/-- The parts of the state that limits are about are unchanged. -/
structure SameSize (source target : SyncState) : Prop where
  reports : target.reports = source.reports
  reportCount : target.reportCount = source.reportCount
  seen : target.seen = source.seen

theorem SameSize.bounded {source target : SyncState} (same : source.SameSize target)
    (bounded : source.Bounded) : target.Bounded := by
  have engine_eq : target.engine = source.engine := by rw [engine, engine, same.reports, same.seen]
  exact ⟨engine_eq ▸ bounded.engine, by rw [same.reportCount, same.reports, bounded.count]⟩

end SyncState

namespace BanSync

open SyncState

variable (env : Externals) (call : BanSync)

/-! ## The limits in one round -/

variable {state : SyncState}

/-- The votes of a subject may be replaced by others, within the limits. -/
theorem bounded_insert {target : SyncState} (bounded : state.Bounded) {subject : String}
    {votes : Dict String BanRecord} (reports : target.reports = state.reports.insert subject votes)
    (seen : target.seen = state.seen)
    (room : state.reports.lookup subject = none → state.reports.keys.length < maxReports)
    (few : votes.keys.length ≤ maxVotes) (count : target.reportCount +
        (((state.reports.lookup subject).map fun votes => votes.keys.length).getD 0) =
      state.reportCount + votes.keys.length)
    (fits : target.reportCount ≤ maxReports) : target.Bounded := by
  have size_eq := total_insert (fun votes => votes.keys.length) state.reports subject votes
  have count_eq : target.reportCount = target.reports.size := by
    have before := bounded.count
    rw [Reports.size] at before ⊢
    rw [reports]
    omega
  refine ⟨⟨?_, ?_, count_eq ▸ fits, ?_⟩, count_eq⟩
  · rw [engine, reports]
    by_cases present : subject ∈ state.reports
    · rw [length_keys_insert_of_mem present]
      exact bounded.engine.subjects
    · rw [length_keys_insert_of_notMem present]
      exact room (AList.lookup_eq_none.mpr present)
  · intro probe others found
    rw [engine, reports, lookup_insert] at found
    split at found
    · cases found
      exact few
    · exact bounded.engine.votes probe others found
  · rw [engine, seen]
    exact bounded.engine.digests

/-- Opening an empty ballot for a subject keeps the limits. -/
theorem bounded_open (bounded : state.Bounded) (subject : String)
    (room : state.reports.lookup subject = none → state.reports.keys.length < maxReports) :
    SyncState.Bounded { state with
      reports := state.reports.insert subject ((state.reports.lookup subject).getD ∅) } := by
  have fits : state.reportCount ≤ maxReports := bounded.count ▸ bounded.engine.size
  refine bounded_insert bounded rfl rfl room ?_ ?_ fits
  · cases found : state.reports.lookup subject with
    | none => exact Nat.zero_le maxVotes
    | some votes => exact bounded.engine.votes subject votes found
  · cases state.reports.lookup subject with
    | none => rfl
    | some votes => rfl

/-- A vote is counted when its signer is new, and only if there is room for it. -/
theorem admitVote_counts (signed : SignedBanRecord) (votes : Dict String BanRecord)
    (state : SyncState) :
    Ends (admitVote signed votes) state
      (fun _ target => target.reports = state.reports ∧ target.seen = state.seen ∧
        target.reportCount + votes.keys.length =
          state.reportCount + (votes.insert signed.signerId signed.record).keys.length ∧
        ((votes.insert signed.signerId signed.record).keys.length ≤ votes.keys.length ∨
          (votes.insert signed.signerId signed.record).keys.length ≤ maxVotes ∧
            target.reportCount ≤ maxReports)) fun _ target => target = state := by
  rw [admitVote]
  cases found : votes.lookup signed.signerId with
  | none =>
    have length_eq := length_keys_insert_of_notMem (AList.lookup_eq_none.mp found) signed.record
    refine Ends.get_bind (Ends.bind (ends_skipIf rfl fun room => ⟨rfl, rfl, ?_, .inr ?_⟩))
    · rw [length_eq]
      exact Nat.add_right_comm state.reportCount 1 votes.keys.length
    · simp only [Bool.or_eq_false_iff, decide_eq_false_iff_not, Nat.not_le] at room
      rw [length_eq]
      exact ⟨room.2, room.1⟩
  | some old =>
    have present : signed.signerId ∈ votes :=
      AList.lookup_isSome.mp (Option.isSome_of_eq_some found)
    have length_eq := length_keys_insert_of_mem present signed.record
    refine ends_skipIf rfl fun _ => ⟨rfl, rfl, ?_, .inl length_eq.le⟩
    rw [length_eq]

theorem castVote_bounded (signed : SignedBanRecord) (bounded : state.Bounded) :
    Ends (castVote env signed) state (fun _ target => target.Bounded)
      fun _ target => target.Bounded := by
  refine Ends.get_bind (Ends.bind (ends_skipIf bounded fun hasRoom => Ends.set_bind ?_))
  have opened := bounded_open bounded (env.display signed.record.subject) (by
    intro absent
    simpa [absent] using hasRoom)
  refine Ends.bind ((admitVote_counts signed _ _).imp ?_ ?_)
  · rintro - middle ⟨reports_eq, seen_eq, count_eq, limits⟩
    have held : (state.reports.insert (env.display signed.record.subject)
        ((state.reports.lookup (env.display signed.record.subject)).getD ∅)).lookup
          (env.display signed.record.subject) = _ := AList.lookup_insert state.reports
    have fewBefore := opened.engine.votes _ _ held
    have fitsBefore : state.reportCount ≤ maxReports := bounded.count ▸ bounded.engine.size
    refine bounded_insert opened
      (congrArg (AList.insert (env.display signed.record.subject) _) reports_eq) seen_eq ?_ ?_ ?_ ?_
    · intro absent
      rw [held] at absent
      contradiction
    · rcases limits with same | ⟨few, -⟩
      · exact same.trans fewBefore
      · exact few
    · rw [held]
      exact count_eq
    · rcases limits with same | ⟨-, fits⟩
      · dsimp only at count_eq
        have fewer : middle.reportCount ≤ state.reportCount := by omega
        exact fewer.trans fitsBefore
      · exact fits
  · rintro - target rfl
    exact opened

/-- One step of the search for the oldest digest. -/
def sooner (best : Option (Vector UInt8 32 × DateTime))
    (entry : Sigma fun _ : Vector UInt8 32 => DateTime) :
    Option (Vector UInt8 32 × DateTime) :=
  match best with
  | none => some (entry.1, entry.2)
  | some earliest => if entry.2 < earliest.2 then some (entry.1, entry.2) else best

/-- The search from a digest on finds this one or a later one. -/
theorem exists_foldl_sooner (entries : List (Sigma fun _ : Vector UInt8 32 => DateTime))
    (best : Vector UInt8 32 × DateTime) :
    ∃ found, entries.foldl sooner (some best) = some found ∧
      (found = best ∨ found.1 ∈ entries.keys) := by
  induction entries generalizing best with
  | nil => exact ⟨best, rfl, .inl rfl⟩
  | cons entry entries ih =>
    rw [List.foldl_cons, List.keys_cons]
    by_cases earlier : entry.2 < best.2
    · rcases ih (entry.1, entry.2) with ⟨found, found_eq, rfl | member⟩
      · exact ⟨_, by simpa [sooner, earlier] using found_eq, .inr List.mem_cons_self⟩
      · exact ⟨found, by simpa [sooner, earlier] using found_eq,
          .inr (List.mem_cons_of_mem _ member)⟩
    · rcases ih best with ⟨found, found_eq, rfl | member⟩
      · exact ⟨_, by simpa [sooner, earlier] using found_eq, .inl rfl⟩
      · exact ⟨found, by simpa [sooner, earlier] using found_eq,
          .inr (List.mem_cons_of_mem _ member)⟩

variable {seen : Dict (Vector UInt8 32) DateTime}

/-- The search for the oldest digest finds one of the digests, if there is any. -/
theorem oldest_mem (some_seen : seen.entries ≠ []) :
    ∃ key expiry, oldest seen = some (key, expiry) ∧ key ∈ seen := by
  rcases entries_eq : seen.entries with _ | ⟨entry, entries⟩
  · exact absurd entries_eq some_seen
  · rcases exists_foldl_sooner entries (entry.1, entry.2) with ⟨found, found_eq, origin⟩
    refine ⟨found.1, found.2, ?_, ?_⟩
    · rw [oldest, entries_eq]
      exact found_eq
    · rw [AList.mem_keys, AList.keys, entries_eq, List.keys_cons]
      rcases origin with rfl | member
      · exact List.mem_cons_self
      · exact List.mem_cons_of_mem _ member

/-- There is room for one more digest after the oldest one is gone. -/
theorem length_evictOldest_lt
    (few : seen.keys.length ≤ maxReports) : (evictOldest seen).keys.length < maxReports := by
  rw [evictOldest]
  split
  · rename_i full
    have some_seen : seen.entries ≠ [] := by
      intro empty
      rw [AList.keys, empty] at full
      contradiction
    rcases oldest_mem some_seen with ⟨key, expiry, found, member⟩
    have positive := List.length_pos_of_mem (AList.mem_keys.mp member)
    have length_eq := @List.length_erase_of_mem _ instBEqOfDecidableEq _ _ _
      (AList.mem_keys.mp member)
    simp only [found, AList.keys_erase]
    omega
  · omega

theorem length_insert_evictOldest_le
    (few : seen.keys.length ≤ maxReports) (key : Vector UInt8 32) (expiry : DateTime) :
    ((evictOldest seen).insert key expiry).keys.length ≤ maxReports := by
  have room := length_evictOldest_lt few
  by_cases present : key ∈ evictOldest seen
  · rw [length_keys_insert_of_mem present]
    exact room.le
  · rw [length_keys_insert_of_notMem present]
    exact room

/-- One round keeps the limits. -/
theorem handleRecord_bounded (signed : SignedBanRecord) (readings : Readings)
    (bounded : state.Bounded) :
    (finalState ((call.handleRecord env signed readings).run state)).Bounded := by
  apply Ends.finalState
  refine Ends.bind ((call.screen_ends env signed state).imp ?_ fun _ _ same => same ▸ bounded)
  rintro key screened ⟨⟨batchSeen, rfl⟩, -⟩
  have screenedSame : state.SameSize { state with batchSeen } := ⟨rfl, rfl, rfl⟩
  have screenedBounded := screenedSame.bounded bounded
  refine Ends.bind (ends_skipIf screenedBounded fun _ => ?_)
  refine Ends.bind ((castVote_bounded env signed screenedBounded).imp ?_ fun _ _ kept => kept)
  rintro votes voted votedBounded
  refine Ends.bind (ends_skipIf votedBounded fun _ => ?_)
  refine Ends.bind (ends_skipIf votedBounded fun _ => ?_)
  have charge (rateLimiter) : voted.SameSize { voted with rateLimiter } := ⟨rfl, rfl, rfl⟩
  refine Ends.bind ((call.charge_ends readings voted).imp ?_ ?_)
  rotate_left
  · rintro - charged ⟨rateLimiter, -, rfl⟩
    exact (charge rateLimiter).bounded votedBounded
  rintro - charged ⟨rateLimiter, -, rfl⟩
  have chargedBounded := (charge rateLimiter).bounded votedBounded
  exact ⟨⟨chargedBounded.engine.subjects, chargedBounded.engine.votes, chargedBounded.engine.size,
    length_insert_evictOldest_le chargedBounded.engine.digests key _⟩, chargedBounded.count⟩

/-! ## The limits in every reachable state -/

theorem keys_initially_sublist (engine : GossipEngine) :
    (call.initially engine).reports.keys.Sublist engine.reports.keys := by
  rw [← keys_mapValues (retain fun _ record => InMemoryBanStore.unexpired call.now record)
    engine.reports]
  exact keys_retain_sublist _ _

variable {engine : GossipEngine}

theorem lookup_initially {subject : String} {votes : Dict String BanRecord}
    (found : (call.initially engine).reports.lookup subject = some votes) :
    ∃ before, engine.reports.lookup subject = some before ∧
      votes.keys.length ≤ before.keys.length := by
  simp only [initially, lookup_retain, lookup_mapValues, Option.filter_eq_some_iff,
    Option.map_eq_some_iff] at found
  rcases found with ⟨⟨before, held, rfl⟩, -⟩
  exact ⟨before, held, (keys_retain_sublist _ before).length_le⟩

theorem size_initially_le (engine : GossipEngine) :
    (call.initially engine).reports.size ≤ engine.reports.size := by
  refine (total_retain_le _ _ _).trans (total_mapValues_le ?_ engine.reports)
  exact fun votes => (keys_retain_sublist _ votes).length_le

/-- Dropping what has expired keeps the limits. -/
theorem initially_bounded (bounded : engine.Bounded) :
    (call.initially engine).Bounded := by
  refine ⟨⟨?_, ?_, ?_, ?_⟩, rfl⟩
  · exact (call.keys_initially_sublist engine).length_le.trans bounded.subjects
  · intro subject votes found
    rcases call.lookup_initially found with ⟨before, held, fewer⟩
    exact fewer.trans (bounded.votes subject before held)
  · exact (call.size_initially_le engine).trans bounded.size
  · exact (keys_retain_sublist _ engine.accepted).length_le.trans bounded.digests

theorem loop_bounded (bounded : engine.Bounded)
    (handled : List (SignedBanRecord × Readings)) : (call.loop env engine handled).Bounded := by
  induction handled using List.reverseRecOn with
  | nil => exact call.initially_bounded bounded
  | append_singleton handled entry ih =>
    rw [loop_concat]
    exact call.handleRecord_bounded env entry.1 entry.2 ih

end BanSync

theorem GossipEngine.Bounded.handle {env : Externals} {engine : GossipEngine}
    (bounded : engine.Bounded) (call : BanSync) :
    (engine.handleBanSyncFilteredWithPolicy env call).2.1.Bounded := by
  rw [handleBanSyncFilteredWithPolicy]
  split
  · exact bounded
  · exact (call.loop_bounded env bounded call.records).engine

/-- In every reachable state the limits hold. -/
theorem GossipEngine.bounded_after (env : Externals) (calls : List BanSync) :
    (GossipEngine.after env calls).Bounded := by
  induction calls using List.reverseRecOn with
  | nil => exact ⟨Nat.zero_le _, nofun, Nat.zero_le _, Nat.zero_le _⟩
  | append_singleton calls call ih =>
    rw [GossipEngine.after, List.foldl_concat]
    exact ih.handle call

/-! ## Quota -/

/-- The limiter was consulted for one key some number of times, and charged it at these
times only. -/
inductive Ledger (key : String) (start : RateLimiter) : List DateTime → RateLimiter → Prop
  | opened : Ledger key start [] start
  | charged {times : List DateTime} {now cleanup : DateTime} {before after : RateLimiter}
      (earlier : Ledger key start times before)
      (consulted : before.checkAndRecord key now cleanup = (true, after))
      (charged : RateLimiter.Charged key now before after) :
      Ledger key start (times ++ [now]) after
  | refused {times : List DateTime} {now cleanup : DateTime} {before after : RateLimiter}
      (earlier : Ledger key start times before)
      (consulted : before.checkAndRecord key now cleanup = (false, after))
      (spared : RateLimiter.Spared before after) : Ledger key start times after

namespace BanSync

open SyncState

variable (env : Externals) (call : BanSync)

/-- The record is a signed observation of its signer, unexpired and not seen before, which
completes a quorum for this eligible decision. -/
structure Cleared (signed : SignedBanRecord) (readings : Readings) (state : SyncState)
    (record : BanRecord) : Prop where
  admissible : Admissible env call signed
  unseen : ∃ encoded, env.serializeSigned signed = .ok encoded ∧
    state.seen.lookup (env.blake3 encoded) = none
  quorum : ∃ votes, record = decision signed votes ∧ call.shouldEnforce votes.keys = true
  eligible : call.eligible readings.eligible record = true

/-- What one round costs: the sender is charged once if the round returns a decision, and
is not charged otherwise. -/
inductive Billed (signed : SignedBanRecord) (readings : Readings) (source : SyncState) :
    SyncState → Prop
  | skipped {target : SyncState} (limiter : target.rateLimiter = source.rateLimiter)
      (accepted : target.accepted = source.accepted) : Billed signed readings source target
  | refused {target : SyncState}
      (consulted : source.rateLimiter.checkAndRecord call.senderId readings.limiter
        readings.cleanup = (false, target.rateLimiter))
      (accepted : target.accepted = source.accepted) : Billed signed readings source target
  | charged {target : SyncState} {record : BanRecord}
      (cleared : Cleared env call signed readings source record)
      (consulted : source.rateLimiter.checkAndRecord call.senderId readings.limiter
        readings.cleanup = (true, target.rateLimiter))
      (accepted : target.accepted = source.accepted ++ [record]) :
      Billed signed readings source target

/-- One round charges the sender exactly if it returns a decision. -/
theorem handleRecord_billed (signed : SignedBanRecord) (readings : Readings) (state : SyncState) :
    Billed env call signed readings state
      (finalState ((call.handleRecord env signed readings).run state)) := by
  apply Ends.finalState
  refine Ends.bind ((call.screen_ends env signed state).imp ?_ fun _ _ same =>
    .skipped (by rw [same]) (by rw [same]))
  rintro key screened ⟨⟨batchSeen, rfl⟩, firsthand, unexpired, unseen⟩
  refine Ends.bind (ends_skipIf (.skipped rfl rfl) fun authentic => ?_)
  have admissible : Admissible env call signed :=
    ⟨firsthand, unexpired, by simpa using authentic⟩
  refine Ends.bind ((castVote_ends env signed _).imp ?_ fun _ _ later =>
    .skipped later.2 later.1.accepted)
  rintro votes voted ⟨-, accepted_eq, limiter_eq⟩
  refine Ends.bind (ends_skipIf (.skipped limiter_eq accepted_eq) fun enforced => ?_)
  refine Ends.bind (ends_skipIf (.skipped limiter_eq accepted_eq) fun eligible => ?_)
  have cleared : Cleared env call signed readings state (decision signed votes) :=
    ⟨admissible, unseen, ⟨votes, rfl, by simpa using enforced⟩, by simpa using eligible⟩
  refine Ends.bind ((call.charge_ends readings voted).imp ?_ ?_)
  · rintro - charged ⟨rateLimiter, consulted, rfl⟩
    rw [limiter_eq] at consulted
    exact .charged cleared consulted
      (congrArg (fun accepted => accepted ++ [decision signed votes]) accepted_eq)
  · rintro - refused ⟨rateLimiter, consulted, rfl⟩
    rw [limiter_eq] at consulted
    exact .refused consulted accepted_eq

/-- The sender is charged once for every decision of a batch. -/
theorem loop_ledger (engine : GossipEngine) (handled : List (SignedBanRecord × Readings)) :
    ∃ times, Ledger call.senderId call.rateLimiter times
        (call.loop env engine handled).rateLimiter ∧
      times.length = (call.loop env engine handled).accepted.length := by
  induction handled using List.reverseRecOn with
  | nil => exact ⟨[], .opened, rfl⟩
  | append_singleton handled entry ih =>
    rcases ih with ⟨times, ledger, length_eq⟩
    have round := call.handleRecord_billed env entry.1 entry.2 (call.loop env engine handled)
    have consulted_cases := (call.loop env engine handled).rateLimiter.checkAndRecord_cases
      call.senderId entry.2.limiter entry.2.cleanup
    rw [← loop_concat] at round
    cases round with
    | skipped limiter accepted =>
      rw [limiter, accepted]
      exact ⟨times, ledger, length_eq⟩
    | refused consulted accepted =>
      rw [consulted, if_neg Bool.false_ne_true] at consulted_cases
      rw [accepted]
      exact ⟨times, .refused ledger consulted consulted_cases, length_eq⟩
    | charged cleared consulted accepted =>
      rw [consulted, if_pos rfl] at consulted_cases
      refine ⟨times ++ [entry.2.limiter], .charged ledger consulted consulted_cases, ?_⟩
      rw [accepted, List.length_append, List.length_append, length_eq]
      rfl

end BanSync

def GossipAction.appliedBans : Option GossipAction → List BanRecord
  | some (.applyBans records) => records
  | _ => []

/-- After every call of every sequence of calls, the engine holds at most 8192 subjects, 64
votes on each, 8192 votes in all and 8192 digests, and the sender has been charged as often
as bans were returned.  A record for which it was charged was authentic, unexpired and new,
and completed a quorum for an eligible decision. -/
theorem gossip_resources_bounded (env : Externals) (past : List BanSync) (call : BanSync) :
    let result := (GossipEngine.after env past).handleBanSyncFilteredWithPolicy env call
    (result.2.1.reports.keys.length ≤ 8192 ∧
      (∀ subject votes, result.2.1.reports.lookup subject = some votes →
        votes.keys.length ≤ 64) ∧
      result.2.1.reports.size ≤ 8192 ∧ result.2.1.accepted.keys.length ≤ 8192) ∧
    (∃ times, Ledger call.senderId call.rateLimiter times result.2.2 ∧
      times.length = (GossipAction.appliedBans result.1).length) ∧
    ∀ handled entry rest, call.records = handled ++ entry :: rest →
      BanSync.Billed env call entry.1 entry.2 (call.loop env (.after env past) handled)
        (call.loop env (.after env past) (handled ++ [entry])) := by
  have bounded : ((GossipEngine.after env past).handleBanSyncFilteredWithPolicy env
      call).2.1.Bounded := (GossipEngine.bounded_after env past).handle call
  refine ⟨⟨bounded.subjects, bounded.votes, bounded.size, bounded.digests⟩, ?_, ?_⟩
  · rw [GossipEngine.handleBanSyncFilteredWithPolicy]
    split
    · exact ⟨[], .opened, rfl⟩
    · rcases call.loop_ledger env (.after env past) call.records with ⟨times, ledger, length_eq⟩
      refine ⟨times, ledger, length_eq.trans ?_⟩
      dsimp only
      split
      · rename_i none_accepted
        rw [List.isEmpty_iff.mp none_accepted]
        rfl
      · rfl
  · intro handled entry rest _
    rw [BanSync.loop_concat]
    exact call.handleRecord_billed env entry.1 entry.2 _

end HiveGuard.Net
