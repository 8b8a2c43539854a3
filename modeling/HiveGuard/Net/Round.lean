import HiveGuard.Net.Gossip

/-!
# One round of the gossip engine

What handling one record does to the votes and to the decisions of a batch.  A
record is skipped without a trace in the votes, or it becomes the vote of its
signer, and only a record that became a vote can lead to a decision.
-/

namespace HiveGuard.Net

open HiveGuard.Core Library.Dictionary Library.Effect

/-- The vote of a signer on a subject. -/
def Reports.vote (reports : Reports) (subject signer : String) : Option BanRecord :=
  (reports.lookup subject).bind fun votes => votes.lookup signer

theorem Reports.vote_insert (reports : Reports) (subject : String)
    (votes : Dict String BanRecord) (probe signer : String) :
    Reports.vote (reports.insert subject votes) probe signer =
      if probe = subject then votes.lookup signer else reports.vote probe signer := by
  rw [vote, lookup_insert]
  split <;> rfl

theorem Reports.lookup_getD (reports : Reports) (subject signer : String) :
    ((reports.lookup subject).getD ∅).lookup signer = reports.vote subject signer := by
  rw [vote]
  cases reports.lookup subject with
  | none => exact AList.lookup_empty signer
  | some votes => rfl

namespace SyncState

/-- Same votes and same decisions. -/
structure Same (source target : SyncState) : Prop where
  votes : ∀ subject signer, target.reports.vote subject signer =
    source.reports.vote subject signer
  accepted : target.accepted = source.accepted

theorem Same.refl (state : SyncState) : state.Same state :=
  ⟨fun _ _ => rfl, rfl⟩

theorem Same.of_eq {source target : SyncState} (reports : target.reports = source.reports)
    (accepted : target.accepted = source.accepted) : source.Same target :=
  ⟨fun _ _ => by rw [reports], accepted⟩

theorem Same.trans {first second third : SyncState} (earlier : first.Same second)
    (later : second.Same third) : first.Same third :=
  ⟨fun subject signer => (later.votes subject signer).trans (earlier.votes subject signer),
    later.accepted.trans earlier.accepted⟩

/-- The record was filed as the vote of its signer, and these are the votes on
its subject. -/
structure Filed (env : Externals) (signed : SignedBanRecord) (votes : Dict String BanRecord)
    (source target : SyncState) : Prop where
  held : target.reports.lookup (env.display signed.record.subject) = some votes
  votes : ∀ subject signer, target.reports.vote subject signer =
    if subject = env.display signed.record.subject ∧ signer = signed.signerId then
      some signed.record
    else source.reports.vote subject signer

theorem Filed.congr {env : Externals} {signed : SignedBanRecord} {votes : Dict String BanRecord}
    {source target later : SyncState} (filed : Filed env signed votes source target)
    (same : later.reports = target.reports) : Filed env signed votes source later where
  held := by rw [same, filed.held]
  votes subject signer := by rw [same, filed.votes]

end SyncState

namespace BanSync

open SyncState

variable (env : Externals) (call : BanSync)

/-- What a record must satisfy to become a vote. -/
structure Admissible (signed : SignedBanRecord) : Prop where
  firsthand : signed.record.source.isClusterPeer = false
  unexpired : InMemoryBanStore.unexpired call.now signed.record = true
  authentic : call.authentic env signed = true

/-- Everything one round can do. -/
inductive Handled (signed : SignedBanRecord) (source : SyncState) : SyncState → Prop
  | skipped {target : SyncState} (same : source.Same target) : Handled signed source target
  | voted {target : SyncState} {votes : Dict String BanRecord}
      (admissible : Admissible env call signed) (filed : Filed env signed votes source target)
      (accepted : target.accepted = source.accepted) : Handled signed source target
  | decided {target : SyncState} {votes : Dict String BanRecord}
      (admissible : Admissible env call signed) (filed : Filed env signed votes source target)
      (enforced : call.shouldEnforce votes.keys = true)
      (accepted : target.accepted = source.accepted ++ [decision signed votes]) :
      Handled signed source target

/-! ## The parts of a round -/

section Parts

variable {returns : Unit → SyncState → Prop} {fails : Unit → SyncState → Prop}

theorem ends_skipIf {wrong : Bool} {state : SyncState} (skipped : fails () state)
    (passed : wrong = false → returns () state) :
    Ends (skipIf wrong) state returns fails := by
  cases wrong with
  | true => exact skipped
  | false => exact passed rfl

end Parts

theorem unexpired_of_not_any {now : DateTime} {record : BanRecord}
    (current : (record.expiresAt.any fun expiry => decide (expiry ≤ now)) = false) :
    InMemoryBanStore.unexpired now record = true := by
  rw [InMemoryBanStore.unexpired]
  cases expiry : record.expiresAt with
  | none => rfl
  | some expiry =>
    simp_all

/-- The checks remember the digest of a record that passes, and nothing else. -/
theorem screen_ends (signed : SignedBanRecord) (state : SyncState) :
    Ends (call.screen env signed) state
      (fun _ target => (∃ batchSeen, target = { state with batchSeen }) ∧
        signed.record.source.isClusterPeer = false ∧
        InMemoryBanStore.unexpired call.now signed.record = true ∧
        ∃ encoded, env.serializeSigned signed = .ok encoded ∧
          state.seen.lookup (env.blake3 encoded) = none)
      fun _ target => target = state := by
  refine Ends.bind (ends_skipIf rfl fun fit => ?_)
  obtain ⟨firsthand, current⟩ := Bool.or_eq_false_iff.mp fit
  cases serialized : env.serializeSigned signed with
  | error message => rfl
  | ok encoded =>
    refine Ends.bind (ends_skipIf rfl fun _ => ?_)
    refine Ends.get_bind (Ends.bind (ends_skipIf rfl fun unseen => ?_))
    refine ⟨⟨_, rfl⟩, firsthand, unexpired_of_not_any current, encoded, rfl, ?_⟩
    simpa using (Bool.or_eq_false_iff.mp unseen).1

theorem admitVote_ends (signed : SignedBanRecord) (votes : Dict String BanRecord)
    (state : SyncState) :
    Ends (admitVote signed votes) state
      (fun _ target => ∃ reportCount, target = { state with reportCount })
      fun _ target => target = state := by
  rw [admitVote]
  cases votes.lookup signed.signerId with
  | none => exact Ends.get_bind (Ends.bind (ends_skipIf rfl fun _ => ⟨_, rfl⟩))
  | some old => exact ends_skipIf rfl fun _ => ⟨_, rfl⟩

theorem castVote_ends (signed : SignedBanRecord) (state : SyncState) :
    Ends (castVote env signed) state
      (fun votes target => Filed env signed votes state target ∧
        target.accepted = state.accepted ∧ target.rateLimiter = state.rateLimiter)
      fun _ target => state.Same target ∧ target.rateLimiter = state.rateLimiter := by
  refine Ends.get_bind (Ends.bind (ends_skipIf ⟨.refl state, rfl⟩ fun _ => Ends.set_bind ?_))
  -- Creating an empty entry for the subject changes no vote.
  have created : ∀ subject signer, Reports.vote
      (state.reports.insert (env.display signed.record.subject)
        ((state.reports.lookup (env.display signed.record.subject)).getD ∅)) subject signer =
      state.reports.vote subject signer := by
    intro subject signer
    rw [Reports.vote_insert]
    split
    · rename_i same
      rw [same, Reports.lookup_getD]
    · rfl
  refine Ends.bind ((admitVote_ends signed _ _).imp ?_ ?_)
  · rintro - middle ⟨reportCount, rfl⟩
    refine ⟨⟨AList.lookup_insert _, ?_⟩, rfl, rfl⟩
    intro subject signer
    rw [Reports.vote_insert, lookup_insert, Reports.lookup_getD, created]
    by_cases same : subject = env.display signed.record.subject
    · by_cases sameSigner : signer = signed.signerId
      · simp [same, sameSigner]
      · simp [same, sameSigner]
    · simp [same]
  · rintro - target rfl
    exact ⟨⟨created, rfl⟩, rfl⟩

theorem charge_ends (readings : Readings) (state : SyncState) :
    let consult := state.rateLimiter.checkAndRecord call.senderId readings.limiter readings.cleanup
    Ends (call.charge readings) state
      (fun _ target => ∃ rateLimiter, consult = (true, rateLimiter) ∧
        target = { state with rateLimiter })
      fun _ target => ∃ rateLimiter, consult = (false, rateLimiter) ∧
        target = { state with rateLimiter } := by
  refine Ends.get_bind ?_
  dsimp only
  rcases state.rateLimiter.checkAndRecord call.senderId readings.limiter readings.cleanup
    with ⟨allowed, rateLimiter⟩
  cases allowed with
  | true => exact ⟨rateLimiter, rfl, rfl⟩
  | false => exact ⟨rateLimiter, rfl, rfl⟩

/-! ## The whole round -/

theorem handleRecord_handled (signed : SignedBanRecord) (readings : Readings) (state : SyncState) :
    Handled env call signed state
      (finalState ((call.handleRecord env signed readings).run state)) := by
  apply Ends.finalState
  refine Ends.bind ((call.screen_ends env signed state).imp ?_ ?_)
  rotate_left
  · rintro - target rfl
    exact .skipped (.refl _)
  rintro key screened ⟨⟨batchSeen, rfl⟩, firsthand, unexpired, -⟩
  have same : state.Same { state with batchSeen } := .of_eq rfl rfl
  refine Ends.bind (ends_skipIf (.skipped same) fun authentic => ?_)
  have admissible : Admissible env call signed :=
    ⟨firsthand, unexpired, by simpa using authentic⟩
  refine Ends.bind ((castVote_ends env signed _).imp ?_
    fun _ _ later => .skipped (same.trans later.1))
  rintro votes voted ⟨filedLater, votedAccepted, -⟩
  have filed : Filed env signed votes state voted :=
    ⟨filedLater.held, fun subject signer => by rw [filedLater.votes, same.votes]⟩
  have accepted_eq : voted.accepted = state.accepted := votedAccepted.trans same.accepted
  have onlyVoted : Handled env call signed state voted := .voted admissible filed accepted_eq
  refine Ends.bind (ends_skipIf onlyVoted fun enforced => ?_)
  refine Ends.bind (ends_skipIf onlyVoted fun _ => ?_)
  refine Ends.bind ((call.charge_ends readings voted).imp ?_ ?_)
  · rintro - charged ⟨rateLimiter, -, rfl⟩
    exact .decided admissible (filed.congr rfl) (by simpa using enforced)
      (congrArg (fun accepted => accepted ++ [decision signed votes]) accepted_eq)
  · rintro - charged ⟨rateLimiter, -, rfl⟩
    exact .voted admissible (filed.congr rfl) accepted_eq

/-! ## Decisions and votes -/

theorem exists_min?_le {α : Type} [LinearOrder α] {values : List α} {value : α}
    (member : value ∈ values) : ∃ least, values.min? = some least ∧ least ≤ value := by
  obtain ⟨least, found⟩ := Option.isSome_iff_exists.mp (List.isSome_min?_of_mem member)
  exact ⟨least, found, (List.min?_eq_some_iff.mp found).2 value member⟩

/-- A decision claims no more than any of its votes. -/
theorem decision_le {signed : SignedBanRecord} {votes : Dict String BanRecord}
    {signer : String} {vote : BanRecord} (found : votes.lookup signer = some vote) :
    (decision signed votes).createdAt ≤ vote.createdAt ∧
      (decision signed votes).severity ≤ vote.severity ∧ ∀ expiry, vote.expiresAt = some expiry →
        ∃ bound, (decision signed votes).expiresAt = some bound ∧ bound ≤ expiry := by
  have member : vote ∈ values votes := mem_values_iff.mpr ⟨signer, found⟩
  obtain ⟨start, start_eq, start_le⟩ := exists_min?_le
    (List.mem_map.mpr ⟨vote, member, rfl⟩ : vote.createdAt ∈ (values votes).map
      BanRecord.createdAt)
  obtain ⟨severity, severity_eq, severity_le⟩ := exists_min?_le
    (List.mem_map.mpr ⟨vote, member, rfl⟩ : vote.severity ∈ (values votes).map
      BanRecord.severity)
  refine ⟨?_, ?_, ?_⟩
  · rwa [decision, start_eq, Option.getD_some]
  · rwa [decision, severity_eq, Option.getD_some]
  · intro expiry finite
    exact exists_min?_le (List.mem_filterMap.mpr ⟨vote, member, finite⟩)

end BanSync

end HiveGuard.Net
