import HiveGuard.Library.Journal
import HiveGuard.Library.Standing
import HiveGuard.Scoring.Engine

/-!
# When the engine decides

The bucket of an address holds, in order, the signals recorded for it that stand in the journal
of calls: since they were recorded there was no decision for the address, and no call of
`evaluate` for it or of `decay` has found them before the window.  A decision is made from these
signals, which are all that are in the window unless the clock has gone back, and their weights
are added in 32 bits.
-/

namespace HiveGuard.Scoring

open HiveGuard.Core Daemon Detectors Library.Dictionary Library.Effect Library.Journal
open Library.Standing

variable (env : ScoringEnv) (cfg : Config)

/-- The start of the window has a date. -/
def HasStart (now : DateTime) : Prop :=
  (now.checkedAddSigned (-cfg.windowOf)).isSome = true

instance (now : DateTime) : Decidable (HasStart cfg now) :=
  inferInstanceAs (Decidable (_ = true))

/-! ## Signals in the journal -/

/-- A call and what it returned; nothing if it panicked. -/
abbrev Entry : Type :=
  Call × Option (Option BanDecision)

/-- The signal that a call records for an address. -/
def recordedFor (ip : IpAddr) (entry : Entry) : Option DetectionSignal :=
  match entry.1 with
  | .record signal => if signal.sourceIp.addr = ip then some signal else none
  | _ => none

/-- The call made a decision about the address. -/
def decidedFor (ip : IpAddr) (entry : Entry) : Bool :=
  match entry.1 with
  | .evaluate other _ => decide (other = ip) && entry.2.any Option.isSome
  | _ => false

/-- The signal is before the window at a time. -/
def expires (now : DateTime) (signal : DetectionSignal) : Bool :=
  decide (HasStart cfg now ∧ signal.timestamp < now - cfg.windowOf)

/-- The time that a call reads from the clock. -/
def clock : Call → Option DateTime
  | .evaluate _ now => some now
  | .decay now => some now
  | .record _ => none

/-- The call drops a signal of the address that is before the window. -/
def dropsFor (ip : IpAddr) (signal : DetectionSignal) (entry : Entry) : Bool :=
  match entry.1 with
  | .evaluate other now => decide (other = ip) && expires cfg now signal
  | .decay now => expires cfg now signal
  | .record _ => false

/-- The signals recorded for an address since the last decision about it. -/
def undecided (ip : IpAddr) (log : List Entry) : List (Nat × DetectionSignal) :=
  standing (recordedFor ip) (fun _ => decidedFor ip) log

/-- Those of them that no call has dropped. -/
def surviving (ip : IpAddr) (log : List Entry) : List (Nat × DetectionSignal) :=
  standing (recordedFor ip)
    (fun signal entry => decidedFor ip entry || dropsFor cfg ip signal entry) log

/-- The signals since the last decision that are not older than the configured window. -/
def inWindow (ip : IpAddr) (now : DateTime) (log : List Entry) : List (Nat × DetectionSignal) :=
  (undecided ip log).filter fun stands =>
    decide (now - (StdDuration.fromSecs cfg.accumulationWindowSecs).asNanos ≤ stands.2.timestamp)

/-- The signals that a decision at a time is made from. -/
def contributing (ip : IpAddr) (now : DateTime) (log : List Entry) :
    List (Nat × DetectionSignal) :=
  (surviving cfg ip log).filter fun stands => !expires cfg now stands.2

/-- There are signals, and their weights reach the threshold. -/
def Reaches (signals : List (Nat × DetectionSignal)) : Prop :=
  signals ≠ [] ∧ cfg.banSeverityThreshold.val ≤ weight env (signals.map Prod.snd)

instance (signals : List (Nat × DetectionSignal)) : Decidable (Reaches env cfg signals) :=
  inferInstanceAs (Decidable (_ ∧ _))

/-! ## Buckets -/

/-- The signals of a bucket that pruning keeps. -/
def unexpired (now : DateTime) (signals : List DetectionSignal) : List DetectionSignal :=
  signals.filter fun signal => !expires cfg now signal

/-- The weights can be added: they fit, or sums wrap around. -/
def Adds (signals : List DetectionSignal) : Prop :=
  weight env signals < 2 ^ 32 ∨ env.overflowChecks = false

variable {env cfg}

variable {now : DateTime}

theorem unexpired_eq_self (noStart : ¬HasStart cfg now)
    (signals : List DetectionSignal) : unexpired cfg now signals = signals := by
  rw [unexpired, List.filter_eq_self]
  intro signal _
  simp [expires, noStart]

theorem filter_eq_unexpired {cutoff : DateTime}
    (starts : now.checkedAddSigned (-cfg.windowOf) = some cutoff) (signals : List DetectionSignal) :
    (signals.filter fun signal => decide (cutoff ≤ signal.timestamp)) =
      unexpired cfg now signals := by
  have hasStart : HasStart cfg now := by
    rw [HasStart, starts]
    rfl
  have cutoff_eq : now - cfg.windowOf = cutoff := by
    rw [Int.sub_eq_add_neg]
    exact (DateTime.checkedAddSigned_eq_some_iff.mp starts).2
  rw [unexpired]
  refine List.filter_congr fun signal _ => ?_
  rw [expires, cutoff_eq, Bool.eq_iff_iff]
  simp [hasStart]

theorem unexpired_idem (now : DateTime) (signals : List DetectionSignal) :
    unexpired cfg now (unexpired cfg now signals) = unexpired cfg now signals := by
  simp [unexpired]

theorem bucket_insert (signals : Signals) (ip other : IpAddr) (held : List DetectionSignal) :
    bucket (signals.insert ip held) other = if other = ip then held else bucket signals other := by
  rw [bucket, lookup_insert]
  split
  · rfl
  · rfl

theorem bucket_erase (signals : Signals) (ip other : IpAddr) :
    bucket (signals.erase ip) other = if other = ip then [] else bucket signals other := by
  rw [bucket, lookup_erase]
  split
  · rfl
  · rfl

theorem pruneSignals_ends (ip : IpAddr) (now : DateTime) (source : Signals) :
    Ends (pruneSignals cfg ip now) source (fun _ target => (ip ∈ source → HasStart cfg now) ∧
        ∀ other, bucket target other =
          if other = ip then unexpired cfg now (bucket source ip) else bucket source other)
      fun _ target => ip ∈ source ∧ ¬HasStart cfg now ∧ target = source := by
  refine .get_bind ?_
  cases found : source.lookup ip with
  | none =>
    have absent : ip ∉ source := AList.lookup_eq_none.mp found
    refine ⟨fun present => absurd present absent, fun other => ?_⟩
    have empty : bucket source ip = [] := by
      rw [bucket, found]
      rfl
    split
    · rename_i same
      rw [same, empty]
      rfl
    · rfl
  | some signals =>
    have present : ip ∈ source := by
      rw [← AList.lookup_isSome, found]
      rfl
    have holds : bucket source ip = signals := by
      rw [bucket, found]
      rfl
    refine .bind (.expect (fun cutoff starts => ?_) fun noStart => ?_)
    · have hasStart : HasStart cfg now := by
        rw [HasStart, starts]
        rfl
      refine ⟨fun _ => hasStart, fun other => ?_⟩
      rw [holds, filter_eq_unexpired starts]
      split
      · rename_i empty
        rw [bucket_erase, empty]
      · exact bucket_insert _ _ _ _
    · refine ⟨present, ?_, rfl⟩
      rw [HasStart, noStart]
      exact Bool.false_ne_true

/-- Where pruning fails it would have kept everything. -/
theorem bucket_pruneSignals (ip : IpAddr) (now : DateTime) (source : Signals) :
    Ends (pruneSignals cfg ip now) source (fun _ target => ∀ other, bucket target other =
        if other = ip then unexpired cfg now (bucket source ip) else bucket source other)
      fun _ target => ¬HasStart cfg now ∧ ∀ other, bucket target other = bucket source other := by
  refine (pruneSignals_ends ip now source).imp (fun _ _ pruned => pruned.2) ?_
  rintro _ target ⟨-, noStart, rfl⟩
  exact ⟨noStart, fun _ => rfl⟩

theorem bucket_pruneAll (now : DateTime) (ips : List IpAddr) (source : Signals) :
    Ends (pruneAll cfg now ips) source (fun _ target => ∀ other, bucket target other =
        if other ∈ ips then unexpired cfg now (bucket source other) else bucket source other)
      fun _ target => ¬HasStart cfg now ∧ ∀ other, bucket target other = bucket source other := by
  induction ips generalizing source with
  | nil => exact fun other => by simp
  | cons ip ips ih =>
    refine .bind ((bucket_pruneSignals ip now source).imp (fun _ middle pruned => ?_) ?_)
    · refine (ih middle).imp (fun _ target rest other => ?_) ?_
      · rw [rest, pruned]
        by_cases same : other = ip
        · subst same
          simp [unexpired_idem]
        · simp [same]
      · rintro _ target ⟨noStart, rest⟩
        refine ⟨noStart, fun other => ?_⟩
        rw [rest, pruned, unexpired_eq_self noStart]
        split
        · rename_i same
          rw [same]
        · rfl
    · exact fun _ _ failed => failed

/-- After `decay` every bucket is pruned. -/
theorem bucket_decay (now : DateTime) (source : Signals) (other : IpAddr) :
    bucket (finalState ((decay cfg now).run source)) other =
      unexpired cfg now (bucket source other) := by
  have ends : Ends (decay cfg now) source
      (fun _ target => bucket target other = unexpired cfg now (bucket source other))
      fun _ target => bucket target other = unexpired cfg now (bucket source other) := by
    refine .get_bind ((bucket_pruneAll now source.keys source).imp ?_ ?_)
    · intro _ target pruned
      rw [pruned]
      split
      · rfl
      · rename_i absent
        have missing : source.lookup other = none := AList.lookup_eq_none.mpr absent
        rw [bucket, missing]
        rfl
    · rintro _ target ⟨noStart, same⟩
      rw [same, unexpired_eq_self noStart]
  exact ends.finalState

theorem totalSeverity_ends (signals : List DetectionSignal) (source : Signals) :
    Ends (totalSeverity env signals) source
      (fun total target => Adds env signals ∧ total = weight env signals % 2 ^ 32 ∧ target = source)
      fun _ target => ¬Adds env signals ∧ target = source := by
  rw [totalSeverity]
  split
  · rename_i fits
    exact ⟨.inl fits, (Nat.mod_eq_of_lt fits).symm, rfl⟩
  · rename_i large
    split
    · rename_i checked
      refine ⟨?_, rfl⟩
      rintro (fits | wraps)
      · exact large fits
      · rw [checked] at wraps
        contradiction
    · rename_i wraps
      exact ⟨.inr (Bool.eq_false_of_not_eq_true wraps), rfl, rfl⟩

/-- An evaluation decides from the signals that pruning keeps, and then drops them. -/
theorem evaluate_ends (ip : IpAddr) (now : DateTime) (source : Signals) :
    Ends (evaluate env cfg ip now) source
      (fun outcome target => (ip ∈ source → HasStart cfg now) ∧
        let found := unexpired cfg now (bucket source ip)
        (outcome = none ∧ (∀ other, bucket target other =
            if other = ip then found else bucket source other) ∧
          (found = [] ∨ Adds env found ∧
            weight env found % 2 ^ 32 < cfg.banSeverityThreshold.val) ∨
        ∃ best, outcome = some (decisionOf env cfg found best (weight env found % 2 ^ 32) ip now) ∧
          (∀ other, bucket target other = if other = ip then [] else bucket source other) ∧
          found ≠ [] ∧ Adds env found ∧
          cfg.banSeverityThreshold.val ≤ weight env found % 2 ^ 32))
      fun _ target =>
        let found := unexpired cfg now (bucket source ip)
        (∀ other, bucket target other = if other = ip then found else bucket source other) ∧
          (ip ∈ source ∧ ¬HasStart cfg now ∨ found ≠ [] ∧ ¬Adds env found) := by
  refine .bind ((pruneSignals_ends ip now source).imp ?_ ?_)
  · rintro _ middle ⟨starts, pruned⟩
    have here : bucket middle ip = unexpired cfg now (bucket source ip) := by
      rw [pruned, if_pos rfl]
    refine .get_bind ?_
    cases looked : middle.lookup ip with
    | none =>
      have empty : unexpired cfg now (bucket source ip) = [] := by
        rw [← here, bucket, looked]
        rfl
      exact ⟨starts, .inl ⟨rfl, pruned, .inl empty⟩⟩
    | some found =>
      have holds : unexpired cfg now (bucket source ip) = found := by
        rw [← here, bucket, looked]
        rfl
      rw [holds] at pruned ⊢
      change Ends (if found = [] then _ else _) _ _ _
      split
      · rename_i empty
        exact ⟨starts, .inl ⟨rfl, pruned, .inl empty⟩⟩
      · rename_i nonempty
        refine .bind ((totalSeverity_ends found middle).imp ?_ ?_)
        · rintro total target ⟨adds, rfl, rfl⟩
          split
          · rename_i below
            exact ⟨starts, .inl ⟨rfl, pruned, .inr ⟨adds, below⟩⟩⟩
          · rename_i reaches
            cases chosen : bestSignal found with
            | none =>
              rw [bestSignal, List.argmax_eq_none, List.reverse_eq_nil_iff] at chosen
              contradiction
            | some best =>
              refine .set_bind ⟨starts, .inr ⟨best, rfl, fun other => ?_, nonempty, adds,
                Nat.le_of_not_lt reaches⟩⟩
              rw [bucket_insert, pruned]
              split
              · rfl
              · rfl
        · rintro _ target ⟨overflows, rfl⟩
          exact ⟨pruned, .inr ⟨nonempty, overflows⟩⟩
  · rintro _ target ⟨present, noStart, rfl⟩
    refine ⟨fun other => ?_, .inl ⟨present, noStart⟩⟩
    rw [unexpired_eq_self noStart]
    split
    · rename_i same
      rw [same]
    · rfl

/-! ## Buckets and the journal -/

theorem map_surviving_concat (ip : IpAddr) (log : List Entry) (entry : Entry) :
    (surviving cfg ip (log ++ [entry])).map Prod.snd = ((surviving cfg ip log).map Prod.snd).filter
          (fun signal => !(decidedFor ip entry || dropsFor cfg ip signal entry)) ++
        (recordedFor ip entry).toList := by
  rw [surviving, standing_concat, List.map_append, List.filter_map]
  congr 1
  cases recordedFor ip entry with
  | none => rfl
  | some signal => rfl

/-- The bucket of each address holds the signals that stand in the journal. -/
def Holds (cfg : Config) (log : List Entry) (state : Signals) : Prop :=
  ∀ ip, bucket state ip = (surviving cfg ip log).map Prod.snd

variable {log : List Entry} {state : Signals}

theorem Holds.concat_record (holds : Holds cfg log state)
    (signal : DetectionSignal) (result : Option (Option BanDecision)) :
    Holds cfg (log ++ [(.record signal, result)])
      (finalState ((perform env cfg (.record signal)).run state)) := by
  intro ip
  change bucket (state.insert _ _) ip = _
  rw [map_surviving_concat, bucket_insert, holds]
  by_cases same : ip = signal.sourceIp.addr
  · subst same
    simp [decidedFor, dropsFor, recordedFor]
  · simp [decidedFor, dropsFor, recordedFor, same, Ne.symm same, holds ip]

theorem Holds.concat_decay (holds : Holds cfg log state)
    (now : DateTime) (result : Option (Option BanDecision)) :
    Holds cfg (log ++ [(.decay now, result)])
      (finalState ((perform env cfg (.decay now)).run state)) := by
  intro ip
  have same : finalState ((perform env cfg (.decay now)).run state) =
      finalState ((decay cfg now).run state) := by
    rw [perform, EStateM.run_bind]
    cases (decay cfg now).run state with
    | ok value target => rfl
    | error error target => rfl
  rw [same, bucket_decay, map_surviving_concat, holds]
  simp [decidedFor, dropsFor, recordedFor, unexpired]

theorem Holds.concat_evaluate (holds : Holds cfg log state)
    (other : IpAddr) (now : DateTime) :
    Holds cfg (log ++ [(.evaluate other now, returned ((evaluate env cfg other now).run state))])
      (finalState ((evaluate env cfg other now).run state)) := by
  intro ip
  rw [map_surviving_concat, ← holds, recordedFor, Option.toList_none, List.append_nil]
  have ends := @evaluate_ends env cfg other now state
  rw [Ends] at ends
  -- Without a decision the bucket is pruned, with one it is emptied.
  have pruned : ∀ result target, (∀ any, bucket target any = if any = other then
      unexpired cfg now (bucket state other) else bucket state any) →
      Option.any Option.isSome result = false →
      bucket target ip = (bucket state ip).filter fun signal =>
        !(decidedFor ip (.evaluate other now, result) ||
          dropsFor cfg ip signal (.evaluate other now, result)) := by
    intro result target buckets undecided
    rw [buckets]
    by_cases same : ip = other
    · subst same
      simp [decidedFor, dropsFor, undecided, unexpired]
    · simp [decidedFor, dropsFor, same, Ne.symm same]
  cases run : (evaluate env cfg other now).run state with
  | ok outcome target =>
    rw [run] at ends
    rcases ends.2 with ⟨rfl, buckets, -⟩ | ⟨best, rfl, buckets, -⟩
    · exact pruned _ target buckets rfl
    · rw [finalState_ok, buckets]
      by_cases same : ip = other
      · subst same
        simp [decidedFor, returned]
      · simp [decidedFor, dropsFor, same, Ne.symm same]
  | error error target =>
    rw [run] at ends
    exact pruned _ target ends.1 rfl

theorem holds_journal (calls : List Call) :
    Holds cfg (journal (perform env cfg) (∅ : Signals) calls).1
      (journal (perform env cfg) (∅ : Signals) calls).2 := by
  refine journal_induction (fun ip => rfl) (fun log state call holds => ?_) calls
  cases call with
  | record signal => exact holds.concat_record signal _
  | evaluate ip now => exact holds.concat_evaluate ip now
  | decay now => exact holds.concat_decay now _

theorem Holds.unexpired_eq (holds : Holds cfg log state)
    (ip : IpAddr) (now : DateTime) :
    unexpired cfg now (bucket state ip) = (contributing cfg ip now log).map Prod.snd := by
  rw [holds, unexpired, contributing, List.filter_map]
  rfl

/-! ## Decisions -/

theorem windowOf_eq
    (convertible : (Duration.fromStd (.fromSecs cfg.accumulationWindowSecs)).isSome = true) :
    cfg.windowOf = (StdDuration.fromSecs cfg.accumulationWindowSecs).asNanos := by
  obtain ⟨span, converted⟩ := Option.isSome_iff_exists.mp convertible
  rw [Config.windowOf, converted, (Duration.fromStd_eq_some_iff.mp converted).2]
  rfl

variable {ip : IpAddr}

/-- What a call drops is before the window at every later time. -/
theorem before_of_dropsFor {signal : DetectionSignal} {entry : Entry}
    (notLater : ∀ time ∈ clock entry.1, time ≤ now) (drops : dropsFor cfg ip signal entry = true) :
    signal.timestamp < now - cfg.windowOf := by
  have before : ∀ time, time ≤ now → expires cfg time signal = true →
      signal.timestamp < now - cfg.windowOf := by
    intro time passed expired
    exact (of_decide_eq_true expired).2.trans_le (Int.sub_le_sub_right passed _)
  obtain ⟨call, result⟩ := entry
  cases call with
  | record other => cases drops
  | evaluate other time => exact before time (notLater time rfl) (Bool.and_eq_true _ _ ▸ drops).2
  | decay time => exact before time (notLater time rfl) drops

/-- As long as the clock does not go back, calls drop only what is before the window. -/
theorem filter_surviving (notLater : ∀ entry ∈ log, ∀ time ∈ clock entry.1, time ≤ now) :
    ((surviving cfg ip log).filter fun stands =>
        decide (now - cfg.windowOf ≤ stands.2.timestamp)) =
      (undecided ip log).filter fun stands =>
        decide (now - cfg.windowOf ≤ stands.2.timestamp) := by
  induction log using List.reverseRecOn with
  | nil => rfl
  | append_singleton log entry ih =>
    rw [List.forall_mem_append, List.forall_mem_singleton] at notLater
    have before := ih notLater.1
    rw [surviving, undecided] at before ⊢
    rw [standing_concat, standing_concat, List.filter_append, List.filter_append]
    congr 1
    conv_rhs => rw [List.filter_comm, ← before]
    rw [List.filter_comm]
    refine List.filter_congr fun stands member => ?_
    have within := of_decide_eq_true (List.mem_filter.mp member).2
    have kept : dropsFor cfg ip stands.2 entry = false := by
      rw [← Bool.not_eq_true]
      exact fun drops => absurd within (not_le.mpr (before_of_dropsFor notLater.2 drops))
    rw [kept, Bool.or_false]

/-- The signals that count are those in the window. -/
theorem contributing_eq_inWindow
    (convertible : (Duration.fromStd (.fromSecs cfg.accumulationWindowSecs)).isSome = true)
    (starts : HasStart cfg now)
    (notLater : ∀ entry ∈ log, ∀ time ∈ clock entry.1, time ≤ now) :
    contributing cfg ip now log = inWindow cfg ip now log := by
  rw [contributing, inWindow, ← windowOf_eq convertible, ← filter_surviving notLater]
  refine List.filter_congr fun stands _ => ?_
  rw [expires, Bool.eq_iff_iff]
  simp [starts]

/-- The span is the longest ban that signals suggest, or the default if none suggests one. -/
def LongestBan (cfg : Config) (signals : List DetectionSignal) (duration : StdDuration) : Prop :=
  (∀ suggested ∈ signals.filterMap suggestedBan, suggested.asNanos ≤ duration.asNanos) ∧
    (duration ∈ signals.filterMap suggestedBan ∨
      signals.filterMap suggestedBan = [] ∧ duration = .fromSecs cfg.defaultBanDurationSecs)

theorem longestBan_banDuration (signals : List DetectionSignal) :
    LongestBan cfg signals (banDuration cfg signals) := by
  rw [banDuration]
  cases longest : (signals.filterMap suggestedBan).argmax nanosOf with
  | none =>
    rw [List.argmax_eq_none] at longest
    rw [LongestBan, longest]
    exact ⟨fun suggested member => absurd member List.not_mem_nil, .inr ⟨rfl, rfl⟩⟩
  | some duration =>
    refine ⟨fun suggested member => ?_, .inl (List.argmax_mem longest)⟩
    have le := List.le_of_mem_argmax member longest
    simp only [nanosOf] at le
    simp only [StdDuration.asNanos, Option.getD_some]
    omega

/-- Networks with one address are within the widest of them. -/
theorem within_subjectOf {signals : List DetectionSignal}
    (addr_eq : ∀ signal ∈ signals, signal.sourceIp.addr = ip) {signal : DetectionSignal}
    (member : signal ∈ signals) : signal.sourceIp.Within (subjectOf signals ip) := by
  rw [subjectOf]
  cases widest : (signals.map DetectionSignal.sourceIp).argmin IpNet.prefixLen with
  | none =>
    rw [List.argmin_eq_none, List.map_eq_nil_iff] at widest
    rw [widest] at member
    exact absurd member List.not_mem_nil
  | some net =>
    obtain ⟨wide, isWide, rfl⟩ := List.mem_map.mp (List.argmin_mem widest)
    have shorter := List.le_of_mem_argmin (List.mem_map_of_mem member) widest
    refine IpNet.SharesAddress.within ⟨ip, ?_, ?_⟩ shorter
    · rw [← addr_eq signal member]
      exact IpNet.contains_addr _
    · rw [← addr_eq wide isWide]
      exact IpNet.contains_addr _

theorem addr_of_mem_contributing
    {signal : DetectionSignal} (member : signal ∈ (contributing cfg ip now log).map Prod.snd) :
    signal.sourceIp.addr = ip := by
  obtain ⟨⟨position, stands⟩, kept, rfl⟩ := List.mem_map.mp member
  obtain ⟨⟨⟨call, result⟩, -, recorded⟩, -⟩ := mem_standing_iff.mp (List.mem_of_mem_filter kept)
  cases call with
  | record other =>
    rw [recordedFor, Option.ite_none_right_eq_some] at recorded
    cases recorded.2
    exact recorded.1
  | evaluate other time => contradiction
  | decay time => contradiction

/-- What is decided once contributes to no later decision. -/
theorem contributing_once {other : IpAddr} {time : DateTime}
    {earlier : Nat} {decision : BanDecision}
    (decided : log[earlier]? = some (.evaluate other time, some (some decision))) {position : Nat}
    (before : position ∈ (contributing cfg other time (log.take earlier)).map Prod.fst) :
    position ∉ (contributing cfg ip now log).map Prod.fst := by
  intro again
  obtain ⟨⟨place, first⟩, firstKept, rfl⟩ := List.mem_map.mp before
  obtain ⟨⟨samePlace, second⟩, secondKept, same⟩ := List.mem_map.mp again
  cases same
  obtain ⟨⟨entry, found, firstPut⟩, -⟩ := mem_standing_iff.mp (List.mem_of_mem_filter firstKept)
  obtain ⟨⟨sameEntry, foundAgain, secondPut⟩, stands⟩ :=
    mem_standing_iff.mp (List.mem_of_mem_filter secondKept)
  rw [List.getElem?_take, Option.ite_none_right_eq_some] at found
  cases found.2.symm.trans foundAgain
  have kept := stands earlier _ found.1 decided
  rw [Bool.or_eq_false_iff] at kept
  obtain ⟨call, result⟩ := entry
  cases call with
  | record signal =>
    rw [recordedFor, Option.ite_none_right_eq_some] at firstPut secondPut
    have addresses : other = ip := firstPut.1.symm.trans secondPut.1
    simp [decidedFor, addresses] at kept
  | evaluate any time => contradiction
  | decay time => contradiction

/-! ## How an evaluation ends -/

section Outcomes

variable {log : List Entry} {state : Signals} {ip : IpAddr} {now : DateTime}

theorem Holds.decided (holds : Holds cfg log state) {decision : BanDecision}
    (decides : returned ((evaluate env cfg ip now).run state) = some (some decision)) :
    let signals := (contributing cfg ip now log).map Prod.snd
    (∃ best total, decision = decisionOf env cfg signals best total ip now) ∧
      signals ≠ [] ∧ Adds env signals ∧
        cfg.banSeverityThreshold.val ≤ weight env signals % 2 ^ 32 := by
  have ends := @evaluate_ends env cfg ip now state
  rw [Ends, eq_ok_of_returned decides, holds.unexpired_eq] at ends
  rcases ends.2 with ⟨impossible, -⟩ | ⟨best, isDecision, -, condition⟩
  · contradiction
  · exact ⟨⟨best, _, Option.some.inj isDecision⟩, condition⟩

theorem Holds.quiet (holds : Holds cfg log state)
    (silent : returned ((evaluate env cfg ip now).run state) = some none) :
    let signals := (contributing cfg ip now log).map Prod.snd
    signals = [] ∨ weight env signals % 2 ^ 32 < cfg.banSeverityThreshold.val := by
  have ends := @evaluate_ends env cfg ip now state
  rw [Ends, eq_ok_of_returned silent, holds.unexpired_eq] at ends
  rcases ends.2 with ⟨-, -, empty | below⟩ | ⟨best, impossible, -⟩
  · exact .inl empty
  · exact .inr below.2
  · contradiction

theorem Holds.failed (holds : Holds cfg log state)
    (failure : succeeded ((evaluate env cfg ip now).run state) = false) :
    let signals := (contributing cfg ip now log).map Prod.snd
    ip ∈ state ∧ ¬HasStart cfg now ∨ signals ≠ [] ∧ ¬Adds env signals := by
  obtain ⟨error, ends⟩ := (@evaluate_ends env cfg ip now state).of_failed failure
  rw [holds.unexpired_eq] at ends
  exact ends.2

end Outcomes

/-- An evaluation that is right: it returns, it decides exactly when the signals in the window
reach the threshold, and a decision covers what contributed to it, lasts for the longest
suggested ban and takes nothing that contributed to an earlier one. -/
structure Exact (env : ScoringEnv) (cfg : Config) (ip : IpAddr) (now : DateTime)
    (log : List Entry) (state : Signals) : Prop where
  returns : succeeded ((evaluate env cfg ip now).run state) = true
  decides_iff : (∃ decision, returned ((evaluate env cfg ip now).run state) =
    some (some decision)) ↔ Reaches env cfg (inWindow cfg ip now log)
  covers : ∀ decision, returned ((evaluate env cfg ip now).run state) = some (some decision) →
    ∀ signal ∈ (contributing cfg ip now log).map Prod.snd,
      signal.sourceIp.Within decision.subject
  lasts : ∀ decision, returned ((evaluate env cfg ip now).run state) = some (some decision) →
    LongestBan cfg ((contributing cfg ip now log).map Prod.snd) decision.duration
  once : ∀ (earlier : Nat) other time decision,
    log[earlier]? = some (.evaluate other time, some (some decision)) →
    ∀ position ∈ (contributing cfg other time (log.take earlier)).map Prod.fst,
      position ∉ (contributing cfg ip now log).map Prod.fst

/-- An evaluation is right if no call before it has read a later time, the window is one that
dates can have and begins at a date, and the weights in it fit into 32 bits. -/
theorem evaluate_exact (env : ScoringEnv) (cfg : Config) (calls : List Call) (ip : IpAddr)
    (now : DateTime) (notLater : ∀ call ∈ calls, ∀ time ∈ clock call, time ≤ now)
    (convertible : (Duration.fromStd (.fromSecs cfg.accumulationWindowSecs)).isSome = true)
    (starts : HasStart cfg now)
    (fits : weight env ((inWindow cfg ip now
      (journal (perform env cfg) (∅ : Signals) calls).1).map Prod.snd) < 2 ^ 32) :
    Exact env cfg ip now (journal (perform env cfg) (∅ : Signals) calls).1
      (journal (perform env cfg) (∅ : Signals) calls).2 := by
  have holds := @holds_journal env cfg calls
  have callsOf := @map_fst_journal _ _ _ _ (perform env cfg) (∅ : Signals) calls
  generalize journal (perform env cfg) (∅ : Signals) calls = run at holds callsOf fits ⊢
  obtain ⟨log, state⟩ := run
  have same : contributing cfg ip now log = inWindow cfg ip now log := by
    refine contributing_eq_inWindow convertible starts fun entry member => notLater entry.1 ?_
    exact callsOf ▸ List.mem_map_of_mem member
  rw [← same] at fits
  have success : succeeded ((evaluate env cfg ip now).run state) = true := by
    rw [← Bool.not_eq_false]
    intro failure
    rcases holds.failed failure with ⟨-, noStart⟩ | ⟨-, overflows⟩
    · exact noStart starts
    · exact overflows (.inl fits)
  refine ⟨success, ?_, ?_, ?_, ?_⟩
  · rw [← same, Reaches, ← Nat.mod_eq_of_lt fits, Ne, ← List.map_eq_nil_iff (f := Prod.snd)]
    constructor
    · rintro ⟨decision, decides⟩
      obtain ⟨-, nonempty, -, reached⟩ := holds.decided decides
      exact ⟨nonempty, reached⟩
    · rintro ⟨nonempty, reached⟩
      obtain ⟨outcome, target, isRun⟩ := exists_of_succeeded _ success
      cases outcome with
      | some decision => exact ⟨decision, by rw [isRun]; rfl⟩
      | none =>
        rcases holds.quiet (by rw [isRun]; rfl) with empty | below
        · exact absurd empty nonempty
        · exact absurd reached (Nat.not_le_of_lt below)
  · intro decision decides signal member
    obtain ⟨⟨best, total, rfl⟩, -⟩ := holds.decided decides
    exact within_subjectOf (fun _ => addr_of_mem_contributing) member
  · intro decision decides
    obtain ⟨⟨best, total, rfl⟩, -⟩ := holds.decided decides
    exact longestBan_banDuration _
  · exact fun _ _ _ _ decides _ before => contributing_once decides before

/-- A signal of weight 120 for one address. -/
def loneSignal : DetectionSignal where
  sourceIp := hostNet (.v4 0)
  severity := 120
  confidence := 1
  reason := []
  evidenceHash := .replicate 32 0
  suggestedAction := .observe
  detectorName := []
  timestamp := 0

/-- Every signal weighs its severity. -/
def plainScoring : ScoringEnv where
  weightedSeverity := DetectionSignal.severity
  displayNet := fun _ => []
  overflowChecks := true

/-- Two signals that only reach the threshold together, with an evaluation between them. -/
def pairOfCalls : List Call :=
  [.record { loneSignal with severity := 60 }, .evaluate (.v4 0) 1,
    .record { loneSignal with severity := 60, timestamp := 2 }, .decay 3]

theorem evaluate_exact_at_pair :
    ∃ decision, returned ((evaluate plainScoring .default (.v4 0) 4).run
      (journal (perform plainScoring .default) (∅ : Signals) pairOfCalls).2) =
        some (some decision) := by
  have exact := evaluate_exact plainScoring .default pairOfCalls (.v4 0) 4 (by decide) (by decide)
    (by decide) (by decide +kernel)
  exact exact.decides_iff.mpr (by decide +kernel)

/-- The longest window there is to configure. -/
def endlessConfig : Config where
  accumulationWindowSecs := 18446744073709551615
  banSeverityThreshold := 100
  defaultBanDurationSecs := 86400

/-- One signal reaches the threshold.  It is not counted a nanosecond later when the window is
too long for the time library, and not in half an hour's window when the clock has gone back
over a `decay`. -/
theorem heavy_signal_not_counted :
    (Reaches plainScoring endlessConfig (inWindow endlessConfig (.v4 0) 1
        (journal (perform plainScoring endlessConfig) (∅ : Signals) [.record loneSignal]).1) ∧
      (returned ((evaluate plainScoring endlessConfig (.v4 0) 1).run
        (journal (perform plainScoring endlessConfig) (∅ : Signals)
          [.record loneSignal]).2)).map Option.isSome = some false) ∧
    Reaches plainScoring .default (inWindow .default (.v4 0) 1
        (journal (perform plainScoring .default) (∅ : Signals)
          [.record loneSignal, .decay 3600000000000]).1) ∧
      (returned ((evaluate plainScoring .default (.v4 0) 1).run
        (journal (perform plainScoring .default) (∅ : Signals)
          [.record loneSignal, .decay 3600000000000]).2)).map Option.isSome = some false := by
  decide +kernel

end HiveGuard.Scoring
