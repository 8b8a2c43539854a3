import HiveGuard.Detectors.CampaignHits
import HiveGuard.Detectors.CampaignLedger

/-!
# The evidence for a campaign

The window of a key holds some of the hits that the events brought for it, and the addresses
that are counted are among those of the window.  So when a key becomes hot, enough hits from
enough addresses lie in the window.  Within a hot period the flags of the key hold every address
that was signalled or queued, so none of them is signalled or queued again.
-/

namespace HiveGuard.Detectors

open HiveGuard.Core Library Library.Bag Library.Dictionary Library.Effect

theorem addr_hostNet (ip : IpAddr) : (hostNet ip).addr = ip := by
  cases ip with
  | v4 addr => rfl
  | v6 addr => rfl

namespace CampaignDetector

open KeyState
open Ledger

variable (env : CampaignEnv) (detector : CampaignDetector)

/-! ## Hits in the events -/

/-- The keys that a request is counted for. -/
def keysOf (request : CountedRequest) : List (List Char) :=
  uaKey request :: ((detector.countedVhost request).map (vhostKey request)).toList

/-- The event is counted for the key. -/
def counts (key : List Char) (event : NormalizedEvent) : Bool :=
  isHttp event && (detector.screen event).any fun screened =>
    screened.any fun request => detector.keysOf request |>.contains key

/-- The hits that events bring for a key. -/
def hitsFor (events : List NormalizedEvent) (key : List Char) : List (DateTime × IpAddr) :=
  (events.filter (detector.counts key)).map fun event => (event.timestamp, event.sourceIp)

/-- The hits in the configured window when a key becomes hot. -/
def windowAt (start : HotStart) (hits : List (DateTime × IpAddr)) : List (DateTime × IpAddr) :=
  hits.filter fun hit =>
    decide (start.now - detector.cfg.window.asNanos ≤ hit.1 ∧ hit.1 ≤ start.now)

/-- Enough hits from enough addresses lie in the window. -/
structure Evidence (hits : List (DateTime × IpAddr)) (start : HotStart) : Prop where
  ips : start.minIps ≤ ((detector.windowAt start hits).map Prod.snd).toFinset.card
  requests : detector.cfg.minRequests ≤ (detector.windowAt start hits).length

variable {env detector}

theorem Evidence.of_sublist {hits more : List (DateTime × IpAddr)} {start : HotStart}
    (evidence : detector.Evidence hits start) (sublist : hits.Sublist more) :
    detector.Evidence more start where
  ips := evidence.ips.trans (Finset.card_le_card fun ip member => by
    rw [List.mem_toFinset] at member ⊢
    exact ((sublist.filter _).map _).subset member)
  requests := evidence.requests.trans (sublist.filter _).length_le

theorem windowOf_le : detector.windowOf ≤ detector.cfg.window.asNanos := by
  rw [windowOf]
  cases converted : Duration.fromStd detector.cfg.window with
  | some span => exact (Duration.fromStd_eq_some_iff.mp converted).2.ge
  | none =>
    have long : ¬detector.cfg.window.asNanos ≤ Duration.max := by
      intro short
      rw [Duration.fromStd_eq_some_iff.mpr ⟨short, rfl⟩] at converted
      contradiction
    have minutes_le : Duration.minutes 30 ≤ Duration.max := by decide
    rw [Option.getD_none]
    exact minutes_le.trans (le_of_not_ge long)

theorem windowOf_nonneg : 0 ≤ detector.windowOf :=
  Duration.fromStd_getD_nonneg _ (by decide)

theorem hotOf_nonneg : 0 ≤ detector.hotOf :=
  Duration.fromStd_getD_nonneg _ (by decide)

variable {now : DateTime} {key : List Char}

/-- A key with enough in its window, all of it recent, has the evidence. -/
theorem evidence_of_recorded {minIps : Nat} {state : KeyState}
    (tallies : state.Tallies) (recent : ∀ hit ∈ state.hits, now - detector.windowOf ≤ hit.1)
    (past : ∀ hit ∈ state.hits, hit.1 ≤ now) (enoughIps : minIps ≤ state.ipCounts.entries.length)
    (enoughRequests : detector.cfg.minRequests ≤ state.hits.length) :
    detector.Evidence state.hits ⟨key, minIps, now⟩ := by
  have all_in : detector.windowAt ⟨key, minIps, now⟩ state.hits = state.hits := by
    rw [windowAt, List.filter_eq_self]
    intro hit member
    rw [decide_eq_true_eq]
    exact ⟨(Int.sub_le_sub_left windowOf_le now).trans (recent hit member), past hit member⟩
  obtain ⟨bag, represents, le⟩ := tallies
  refine ⟨enoughIps.trans ?_, ?_⟩
  · rw [all_in, represents.length_entries]
    refine Finset.card_le_card fun ip member => ?_
    rw [Multiset.mem_toFinset] at member
    rw [List.mem_toFinset]
    exact Multiset.mem_of_le le member
  · rw [all_in]
    exact enoughRequests

/-! ## Hits in the ledger -/

/-- The hits of a key at its time are in order and not after it. -/
def InOrder (now : DateTime) (hits : List (DateTime × IpAddr)) : Prop :=
  (hits.Pairwise fun first second => first.1 ≤ second.1) ∧ ∀ hit ∈ hits, hit.1 ≤ now

/-- What a hit does to the flags of its key, the queue and the ledger: nothing new, one address
signalled in a hot period, or the start of one. -/
inductive Logged (detector : CampaignDetector) (key : List Char) (minIps : Nat) (ip : IpAddr)
    (now : DateTime) (entry : KeyState) (pending : List Pending) (ledger : Ledger) :
    List IpAddr → KeyState → List Pending → Ledger → Prop
  | calm {final : KeyState} (faded : Faded entry final) :
      Logged detector key minIps ip now entry pending ledger [] final pending ledger
  | joins {final : KeyState} (hot : entry.hotUntil ≠ none) (stillHot : final.hotUntil ≠ none)
      (new : ip ∉ entry.flagged) (flagged : final.flagged = insert ip entry.flagged) :
      Logged detector key minIps ip now entry pending ledger [ip] final pending
        { ledger with reactions := ledger.reactions ++ [⟨key, ledger.period key, ip⟩] }
  | starts {final : KeyState} {entries : List Pending} (hot : final.hotUntil ≠ none)
      (flagged : ip ∈ final.flagged) (distinct : (entries.map Pending.ip).Nodup)
      (queued : ∀ other ∈ entries.map Pending.ip, other ≠ ip ∧ other ∈ final.flagged)
      (few : entries.length ≤ detector.cfg.maxRetroBans)
      (complete : pending.length + detector.cfg.maxRetroBans ≤ maxPending →
        ∀ other ∈ final.flagged, other = ip ∨ other ∈ entries.map Pending.ip)
      (evidence : InOrder now entry.hits →
        detector.Evidence (entry.hits ++ [(now, ip)]) ⟨key, minIps, now⟩) :
      Logged detector key minIps ip now entry pending ledger [ip] final (pending ++ entries)
        { ledger with
          starts := ledger.starts ++ [⟨key, minIps, now⟩]
          owners := ledger.owners ++ entries.map fun _ => key
          reactions := ledger.reactions ++ (ip :: entries.map Pending.ip).map fun other =>
            ⟨key, ledger.period key + 1, other⟩ }

section Entering

variable {key : List Char} {minIps : Nat} {ip : IpAddr} {now : DateTime} {before after : Inner}
  {ledger : Ledger} {reason : List Char}

theorem enter_calm (sameHeat : hotAt key now before = hotAt key now after)
    (same : after.pending = before.pending) :
    enter key minIps now before [] after ledger = ledger := by
  rw [enter, sameHeat, Bool.not_and_self, same, List.drop_length]
  simp

theorem enter_joins (hot : hotAt key now before = true) (same : after.pending = before.pending) :
    enter key minIps now before [detector.signal env ip reason now] after ledger =
      { ledger with reactions := ledger.reactions ++ [⟨key, ledger.period key, ip⟩] } := by
  rw [enter, hot, Bool.not_true, Bool.false_and, same, List.drop_length]
  simp [signal, addr_hostNet]

theorem enter_starts (cool : hotAt key now before = false) (hot : hotAt key now after = true)
    {entries : List Pending} (pending_eq : after.pending = before.pending ++ entries) :
    enter key minIps now before [detector.signal env ip reason now] after ledger =
      { ledger with
        starts := ledger.starts ++ [⟨key, minIps, now⟩]
        owners := ledger.owners ++ entries.map fun _ => key
        reactions := ledger.reactions ++ (ip :: entries.map Pending.ip).map fun other =>
          ⟨key, ledger.period key + 1, other⟩ } := by
  rw [enter, cool, hot, pending_eq, List.drop_left]
  simp [signal, addr_hostNet, period, List.countP_append, Function.comp_def]

end Entering

theorem hotAt_eq {kind : KeyKind} {label : List Char} (inner : Inner) :
    hotAt key now inner = (entryOf key kind label now inner).isHot now := by
  rw [hotAt, entryOf]
  cases inner.keys.lookup key with
  | none => rfl
  | some state => rfl

theorem isHot_of_hotOf {state : KeyState}
    (hot : state.hotUntil = some (now + detector.hotOf)) : state.isHot now = true := by
  rw [isHot, hot, Option.any_some, decide_eq_true_eq]
  exact Int.le_add_of_nonneg_right hotOf_nonneg

theorem hotUntil_of_isHot {state : KeyState} (hot : state.isHot now = true) :
    state.hotUntil ≠ none := by
  intro never
  rw [isHot, never] at hot
  contradiction

variable {inner : Inner} {ledger : Ledger}

theorem hitLogged_logged {kind : KeyKind} {label : List Char} {minIps : Nat} {ip : IpAddr}
    (tallies : (entryOf key kind label now inner).Tallies)
    (cold : (entryOf key kind label now inner).Cold) :
    Ends (detector.hitLogged env key kind label minIps ip now) (inner, ledger)
      (fun tagged target => ∃ ips final, tagged.map (fun each => (each.1, each.2.sourceIp.addr)) =
          ips.map (fun other => (key, other)) ∧
        Shape ip now (entryOf key kind label now inner) final ∧
        target.1.keys = (detector.roomFor env key now inner.keys).insert key final ∧
        Logged detector key minIps ip now (entryOf key kind label now inner) inner.pending ledger
          ips final target.1.pending target.2)
      fun _ target => ∃ final, Shape ip now (entryOf key kind label now inner) final ∧
        Faded (entryOf key kind label now inner) final ∧
        target.1.keys = (detector.roomFor env key now inner.keys).insert key final ∧
        target.1.pending = inner.pending ∧ target.2 = ledger := by
  refine .get_bind (.bind (.zoom ((hit_hits tallies cold).imp ?_ ?_)))
  · rintro signals after ⟨recorded, final, isRecorded, reacts, keys_eq⟩
    have heat_eq := isRecorded.isHot_eq cold
    have before_eq : hotAt key now inner = recorded.isHot now :=
      (hotAt_eq inner).trans heat_eq.symm
    have after_eq : hotAt key now after = final.isHot now := by
      rw [hotAt, keys_eq, lookup_insert, if_pos rfl]
      rfl
    have shape : Shape ip now (entryOf key kind label now inner) recorded := isRecorded.toShape
    change ∃ ips state, _ ∧ _ ∧ after.keys = _ ∧ Logged _ _ _ _ _ _ _ _ _ _ after.pending
      (enter key minIps now inner signals after ledger)
    generalize pending_eq : after.pending = pending at reacts ⊢
    cases reacts with
    | known hot =>
      have sameHeat := isRecorded.hot (heat_eq.symm.trans hot)
      refine ⟨[], _, rfl, ?_, keys_eq, ?_⟩
      · exact ⟨shape.hits, shape.tallies⟩
      rw [enter_calm (before_eq.trans (hot.trans ?_)) pending_eq]
      · refine .calm (.inl ⟨iff_of_false (Option.some_ne_none _) ?_, sameHeat.2⟩)
        rw [← sameHeat.1]
        exact hotUntil_of_isHot hot
      · rw [after_eq, isHot_of_hotOf rfl]
    | joins hot new reason =>
      have sameHeat := isRecorded.hot (heat_eq.symm.trans hot)
      refine ⟨[ip], _, by simp [signal, addr_hostNet], ?_, keys_eq, ?_⟩
      · exact ⟨shape.hits, shape.tallies⟩
      rw [enter_joins (before_eq.trans hot) pending_eq]
      refine .joins ?_ (Option.some_ne_none _) ?_ ?_
      · rw [← sameHeat.1]
        exact hotUntil_of_isHot hot
      · rw [← sameHeat.2]
        exact new
      · rw [← sameHeat.2]
    | quiet cool =>
      refine ⟨[], _, rfl, shape, keys_eq, ?_⟩
      rw [enter_calm (before_eq.trans after_eq.symm) pending_eq]
      exact .calm (.inr (isRecorded.cool (heat_eq.symm.trans cool) cold))
    | @starts cool enoughIps enoughRequests reason participants few =>
      obtain ⟨entries, queues⟩ :=
        queuesRetro_queueRetro reason participants (insert ip recorded.flagged) inner.pending
      refine ⟨[ip], _, by simp [signal, addr_hostNet], ?_, keys_eq, ?_⟩
      · exact ⟨shape.hits, shape.tallies⟩
      rw [enter_starts (before_eq.trans cool) (after_eq.trans (isHot_of_hotOf rfl))
        (pending_eq.trans queues.pending_eq), queues.pending_eq]
      refine .starts (Option.some_ne_none _) (queues.grows (Finset.mem_insert_self ip _))
        queues.distinct ?_ (queues.few.trans few) ?_ ?_
      · intro other member
        refine ⟨?_, (queues.new other member).2⟩
        rintro rfl
        exact (queues.new other member).1 (Finset.mem_insert_self other _)
      · intro room other member
        -- A key that is not hot has no flags.
        have noFlags := (isRecorded.cool (heat_eq.symm.trans cool) cold).2
        have known := queues.complete (by omega) other member
        rw [noFlags, Finset.mem_insert] at known
        simpa using known
      · rintro ⟨ordered, past⟩
        exact (evidence_of_recorded shape.tallies (isRecorded.recent ordered windowOf_nonneg)
          (shape.past past) enoughIps enoughRequests).of_sublist shape.hits
  · rintro _ after ⟨final, shape, faded, pending_eq, keys_eq⟩
    exact ⟨final, shape, faded, keys_eq, pending_eq, rfl⟩

/-! ## The invariant -/

/-- The state and the ledger fit together: windows hold hits of the history, the queue has
owners, no address is in the ledger twice for one hot period, and the flags of a key hold the
addresses in the ledger for its current one. -/
structure Consistent (history : List Char → List (DateTime × IpAddr)) (inner : Inner)
    (ledger : Ledger) : Prop where
  backed : ∀ key state, inner.keys.lookup key = some state →
    state.hits.Sublist (history key) ∧ state.Tallies ∧ state.Cold
  queue : ledger.owners.length = inner.pending.length
  nodup : ledger.reactions.Nodup
  past : ∀ mark ∈ ledger.reactions, mark.period ≤ ledger.period mark.key
  marked : ∀ key state, inner.keys.lookup key = some state → state.hotUntil ≠ none →
    ∀ ip, ⟨key, ledger.period key, ip⟩ ∈ ledger.reactions → ip ∈ state.flagged

/-- The history with one more hit of a key. -/
def extend (history : List Char → List (DateTime × IpAddr)) (key : List Char)
    (hit : DateTime × IpAddr) : List Char → List (DateTime × IpAddr) :=
  Function.update history key (history key ++ [hit])

theorem sublist_extend (history : List Char → List (DateTime × IpAddr)) (key : List Char)
    (hit : DateTime × IpAddr) (other : List Char) :
    (history other).Sublist (extend history key hit other) := by
  rw [extend, Function.update_apply]
  split
  · rename_i same
    rw [same]
    exact List.sublist_append_left _ _
  · exact .refl _

theorem inOrder_extend {history : List Char → List (DateTime × IpAddr)}
    (inOrder : ∀ key, InOrder now (history key)) (key : List Char) (ip : IpAddr)
    (other : List Char) : InOrder now (extend history key (now, ip) other) := by
  rw [extend, Function.update_apply]
  split
  · refine ⟨List.pairwise_append.mpr ⟨(inOrder key).1, List.pairwise_singleton _ _, ?_⟩, ?_⟩
    · intro first earlier second last
      rw [List.mem_singleton] at last
      rw [last]
      exact (inOrder key).2 first earlier
    · intro hit member
      rw [List.mem_append, List.mem_singleton] at member
      rcases member with earlier | rfl
      · exact (inOrder key).2 hit earlier
      · exact le_rfl
  · exact inOrder other

/-! ### One hit in the ledger -/

section Logged

variable {key : List Char} {minIps : Nat} {ip : IpAddr} {now : DateTime} {entry final : KeyState}
  {pending queue : List Pending} {ledger entered : Ledger} {ips : List IpAddr}

/-- A hot period that begins has the next number. -/
theorem period_concat (key : List Char) (minIps : Nat) (now : DateTime) (ledger : Ledger)
    (owners : List (List Char)) (reactions : List Mark) :
    ({ ledger with
        starts := ledger.starts ++ [⟨key, minIps, now⟩]
        owners := owners
        reactions := reactions } : Ledger).period key = ledger.period key + 1 := by
  rw [period, period, List.countP_append]
  simp

variable (logged : Logged detector key minIps ip now entry pending ledger ips final queue entered)

include logged

theorem Logged.cold (cold : entry.Cold) : final.Cold := by
  intro cooled
  cases logged with
  | calm faded =>
    rcases faded with ⟨sameHot, flagged⟩ | ⟨-, flagged⟩
    · exact flagged.trans (cold (sameHot.mp cooled))
    · exact flagged
  | joins _ hot _ _ => exact absurd cooled hot
  | starts hot => exact absurd cooled hot

theorem Logged.period_le (other : List Char) : ledger.period other ≤ entered.period other := by
  cases logged with
  | calm faded => exact le_rfl
  | joins _ _ _ _ => exact le_rfl
  | starts =>
    rw [period, period, List.countP_append]
    exact Nat.le_add_right _ _

theorem Logged.period_of_ne {other : List Char} (different : other ≠ key) :
    entered.period other = ledger.period other := by
  cases logged with
  | calm faded => rfl
  | joins _ _ _ _ => rfl
  | starts =>
    rw [period, period, List.countP_append]
    simp [Ne.symm different, period]

theorem Logged.queue_length
    (same : ledger.owners.length = pending.length) : entered.owners.length = queue.length := by
  cases logged with
  | calm faded => exact same
  | joins _ _ _ _ => exact same
  | starts => rw [List.length_append, List.length_append, List.length_map, same]

/-- A hit adds only marks of its own key, with a number up to the current one. -/
theorem Logged.mem_reactions {mark : Mark} (member : mark ∈ entered.reactions) :
    mark ∈ ledger.reactions ∨
      mark.key = key ∧ mark.period = entered.period key ∧ mark.ip ∈ final.flagged := by
  cases logged with
  | calm faded => exact .inl member
  | joins _ _ _ flagged =>
    rw [List.mem_append, List.mem_singleton] at member
    rcases member with old | rfl
    · exact .inl old
    · refine .inr ⟨rfl, rfl, ?_⟩
      rw [flagged]
      exact Finset.mem_insert_self ip _
  | starts _ flagged _ queued =>
    rw [List.mem_append, List.mem_map] at member
    rcases member with old | ⟨other, isNew, rfl⟩
    · exact .inl old
    · refine .inr ⟨rfl, (period_concat _ _ _ _ _ _).symm, ?_⟩
      rw [List.mem_cons] at isNew
      rcases isNew with rfl | isQueued
      · exact flagged
      · exact (queued other isQueued).2

/-- The addresses in the ledger for the key's current hot period are flagged. -/
theorem Logged.marked (past : ∀ mark ∈ ledger.reactions, mark.period ≤ ledger.period mark.key)
    (marked : entry.hotUntil ≠ none →
      ∀ other, ⟨key, ledger.period key, other⟩ ∈ ledger.reactions → other ∈ entry.flagged)
    (hot : final.hotUntil ≠ none) {other : IpAddr}
    (member : ⟨key, entered.period key, other⟩ ∈ entered.reactions) : other ∈ final.flagged := by
  rcases logged.mem_reactions member with old | ⟨-, -, flagged⟩
  · cases logged with
    | calm faded =>
      rcases faded with ⟨sameHot, flagged⟩ | ⟨cooled, -⟩
      · rw [flagged]
        exact marked (fun never => hot (sameHot.mpr never)) other old
      · exact absurd cooled hot
    | joins wasHot _ _ flagged =>
      rw [flagged]
      exact Finset.mem_insert_of_mem (marked wasHot other old)
    | starts =>
      -- The hot period has just begun.
      rw [period_concat] at old
      exact absurd (past _ old) (Nat.not_succ_le_self _)
  · exact flagged

theorem Logged.nodup (nodup : ledger.reactions.Nodup)
    (past : ∀ mark ∈ ledger.reactions, mark.period ≤ ledger.period mark.key)
    (marked : entry.hotUntil ≠ none →
      ∀ other, ⟨key, ledger.period key, other⟩ ∈ ledger.reactions → other ∈ entry.flagged) :
    entered.reactions.Nodup := by
  cases logged with
  | calm faded => exact nodup
  | joins wasHot _ new _ =>
    refine nodup.append (List.nodup_singleton _) ?_
    rw [List.disjoint_singleton]
    exact fun again => new (marked wasHot ip again)
  | starts _ _ distinct queued =>
    refine nodup.append (List.Nodup.map ?_ ?_) ?_
    · exact fun first second same => congrArg Mark.ip same
    · exact List.nodup_cons.mpr ⟨fun again => (queued ip again).1 rfl, distinct⟩
    · intro mark old new
      obtain ⟨other, -, rfl⟩ := List.mem_map.mp new
      exact absurd (past _ old) (Nat.not_succ_le_self _)

/-- A hit begins a hot period only on evidence. -/
theorem Logged.starts_eq :
    ∃ begun, entered.starts = ledger.starts ++ begun ∧ ∀ start ∈ begun, start = ⟨key, minIps, now⟩ ∧
        (InOrder now entry.hits → detector.Evidence (entry.hits ++ [(now, ip)]) start) := by
  cases logged with
  | calm faded => exact ⟨[], (List.append_nil _).symm, by simp⟩
  | joins _ _ _ _ => exact ⟨[], (List.append_nil _).symm, by simp⟩
  | starts _ _ _ _ _ _ evidence =>
    refine ⟨[⟨key, minIps, now⟩], rfl, fun start member => ?_⟩
    rw [List.mem_singleton] at member
    rw [member]
    exact ⟨rfl, evidence⟩

end Logged

/-! ### One hit -/

section Steps

variable {history further : List Char → List (DateTime × IpAddr)} {inner target : Inner}
  {ledger entered : Ledger} {key : List Char} {kind : KeyKind} {label : List Char} {minIps : Nat}
  {ip : IpAddr} {now : DateTime} {final : KeyState} {ips : List IpAddr}

theorem Consistent.entry (consistent : Consistent history inner ledger) (key : List Char)
    (kind : KeyKind) (label : List Char) (now : DateTime) :
    (entryOf key kind label now inner).hits.Sublist (history key) ∧
      (entryOf key kind label now inner).Tallies ∧ (entryOf key kind label now inner).Cold := by
  rw [entryOf]
  cases found : inner.keys.lookup key with
  | none => exact ⟨List.nil_sublist _, ⟨0, represents_empty, le_rfl⟩, fun _ => rfl⟩
  | some state => exact consistent.backed key state found

/-- Only a key that is tracked can be hot. -/
theorem lookup_of_hot (hot : (entryOf key kind label now inner).hotUntil ≠ none) :
    inner.keys.lookup key = some (entryOf key kind label now inner) := by
  rw [entryOf] at hot ⊢
  cases found : inner.keys.lookup key with
  | none =>
    rw [found] at hot
    exact absurd rfl hot
  | some state => rfl

theorem Consistent.logged (consistent : Consistent history inner ledger)
    (shape : Shape ip now (entryOf key kind label now inner) final)
    (keys_eq : target.keys = (detector.roomFor env key now inner.keys).insert key final)
    (logged : Logged detector key minIps ip now (entryOf key kind label now inner) inner.pending
      ledger ips final target.pending entered) :
    Consistent (extend history key (now, ip)) target entered := by
  obtain ⟨hits, -, cold⟩ := consistent.entry key kind label now
  have marked : (entryOf key kind label now inner).hotUntil ≠ none →
      ∀ other, ⟨key, ledger.period key, other⟩ ∈ ledger.reactions →
        other ∈ (entryOf key kind label now inner).flagged :=
    fun hot => consistent.marked key _ (lookup_of_hot hot) hot
  have lookup_eq : ∀ other state, target.keys.lookup other = some state →
      other = key ∧ state = final ∨ other ≠ key ∧ inner.keys.lookup other = some state := by
    intro other state found
    rw [keys_eq, lookup_insert] at found
    split at found
    · rename_i same
      exact .inl ⟨same, (Option.some.inj found).symm⟩
    · rename_i different
      exact .inr ⟨different, lookup_of_lookup_roomFor found⟩
  refine ⟨?_, logged.queue_length consistent.queue,
    logged.nodup consistent.nodup consistent.past marked, ?_, ?_⟩
  · intro other state found
    rcases lookup_eq other state found with ⟨rfl, rfl⟩ | ⟨-, kept⟩
    · refine ⟨?_, shape.tallies, logged.cold cold⟩
      rw [extend, Function.update_self]
      exact shape.hits.trans (hits.append_right _)
    · obtain ⟨otherHits, rest⟩ := consistent.backed other state kept
      exact ⟨otherHits.trans (sublist_extend history key _ other), rest⟩
  · intro mark member
    rcases logged.mem_reactions member with old | ⟨same, number, -⟩
    · exact (consistent.past mark old).trans (logged.period_le mark.key)
    · rw [number, same]
  · intro other state found hot address member
    rcases lookup_eq other state found with ⟨rfl, rfl⟩ | ⟨different, kept⟩
    · exact logged.marked consistent.past marked hot member
    · rcases logged.mem_reactions member with old | ⟨same, -⟩
      · rw [logged.period_of_ne different] at old
        exact consistent.marked other state kept hot address old
      · exact absurd same different

/-- The ledger after a part of an event, with the hot periods that began in it. -/
structure Follows (detector : CampaignDetector)
    (history further : List Char → List (DateTime × IpAddr)) (now : DateTime)
    (due : HotStart → Prop) (ledger : Ledger) (target : Inner × Ledger) : Prop where
  consistent : Consistent further target.1 target.2
  grows : ∀ key, (history key).Sublist (further key)
  inOrder : (∀ key, InOrder now (history key)) → ∀ key, InOrder now (further key)
  starts : ∃ begun, target.2.starts = ledger.starts ++ begun ∧ ∀ start ∈ begun, due start ∧
    ((∀ key, InOrder now (history key)) → detector.Evidence (further start.key) start)

theorem hitLogged_follows (consistent : Consistent history inner ledger) :
    let follows := Follows detector history (extend history key (now, ip)) now
      (· = ⟨key, minIps, now⟩) ledger
    Ends (detector.hitLogged env key kind label minIps ip now) (inner, ledger)
      (fun _ target => follows target) fun _ target => follows target := by
  obtain ⟨hits, tallies, cold⟩ := consistent.entry key kind label now
  have follows : ∀ ips final (target : Inner × Ledger),
      Shape ip now (entryOf key kind label now inner) final →
      target.1.keys = (detector.roomFor env key now inner.keys).insert key final →
      Logged detector key minIps ip now (entryOf key kind label now inner) inner.pending ledger
        ips final target.1.pending target.2 →
      Follows detector history (extend history key (now, ip)) now (· = ⟨key, minIps, now⟩) ledger
        target := by
    intro ips final target shape keys_eq logged
    refine ⟨consistent.logged shape keys_eq logged, sublist_extend history key _,
      fun inOrder => inOrder_extend inOrder key ip, ?_⟩
    obtain ⟨begun, starts_eq, due⟩ := logged.starts_eq
    refine ⟨begun, starts_eq, fun start member => ⟨(due start member).1, fun inOrder => ?_⟩⟩
    have entryInOrder : InOrder now (entryOf key kind label now inner).hits :=
      ⟨(inOrder key).1.sublist hits, fun hit inside => (inOrder key).2 hit (hits.subset inside)⟩
    have same : start.key = key := by rw [(due start member).1]
    rw [same, extend, Function.update_self]
    exact ((due start member).2 entryInOrder).of_sublist (hits.append_right _)
  refine (hitLogged_logged tallies cold).imp ?_ ?_
  · rintro _ target ⟨ips, final, -, shape, keys_eq, logged⟩
    exact follows ips final target shape keys_eq logged
  · rintro _ ⟨after, same⟩ ⟨final, shape, faded, keys_eq, pending_eq, rfl⟩
    refine follows [] final _ shape keys_eq ?_
    rw [pending_eq]
    exact .calm faded

/-! ### Parts of an event -/

variable {due also : HotStart → Prop} {wider : List Char → List (DateTime × IpAddr)}

theorem Consistent.mono (consistent : Consistent history inner ledger)
    (grows : ∀ key, (history key).Sublist (further key))
    (kept : ∀ key state, target.keys.lookup key = some state → inner.keys.lookup key = some state)
    (queue : ledger.owners.length = target.pending.length) : Consistent further target ledger where
  backed key state found :=
    ⟨(consistent.backed key state (kept key state found)).1.trans (grows key),
      (consistent.backed key state (kept key state found)).2⟩
  queue := queue
  nodup := consistent.nodup
  past := consistent.past
  marked key state found := consistent.marked key state (kept key state found)

/-- Counting the event forgets idle keys at most. -/
theorem lookup_of_lookup_keysAtRequest {state : KeyState}
    (found : (detector.keysAtRequest inner now).lookup key = some state) :
    inner.keys.lookup key = some state := by
  rw [keysAtRequest] at found
  split at found
  · exact lookup_of_lookup_sweep found
  · exact found

theorem Consistent.counted (consistent : Consistent history inner ledger)
    (keys_eq : target.keys = detector.keysAtRequest inner now)
    (pending_eq : target.pending = inner.pending) : Consistent history target ledger := by
  refine consistent.mono (fun _ => .refl _) ?_ (consistent.queue.trans ?_)
  · intro key state found
    rw [keys_eq] at found
    exact lookup_of_lookup_keysAtRequest found
  · rw [pending_eq]

/-- Entries leave the queue together with their owners. -/
theorem Consistent.drained (consistent : Consistent history inner ledger) (count : Nat) :
    Consistent history { inner with pending := inner.pending.drop count }
      { ledger with owners := ledger.owners.drop count } where
  backed := consistent.backed
  queue := by rw [List.length_drop, List.length_drop, consistent.queue]
  nodup := consistent.nodup
  past := consistent.past
  marked := consistent.marked

theorem Follows.refl (consistent : Consistent history target ledger) :
    Follows detector history history now due ledger (target, ledger) where
  consistent := consistent
  grows _ := .refl _
  inOrder inOrder := inOrder
  starts := ⟨[], (List.append_nil _).symm, by simp⟩

variable {state : Inner × Ledger}

theorem Follows.imp
    (follows : Follows detector history further now due ledger state)
    (implies : ∀ start, due start → also start) :
    Follows detector history further now also ledger state where
  consistent := follows.consistent
  grows := follows.grows
  inOrder := follows.inOrder
  starts := by
    obtain ⟨begun, starts_eq, each⟩ := follows.starts
    exact ⟨begun, starts_eq, fun start member =>
      ⟨implies start (each start member).1, (each start member).2⟩⟩

theorem Follows.trans {middle : Inner × Ledger}
    (first : Follows detector history further now due ledger middle)
    (second : Follows detector further wider now due middle.2 state) :
    Follows detector history wider now due ledger state where
  consistent := second.consistent
  grows key := (first.grows key).trans (second.grows key)
  inOrder inOrder := second.inOrder (first.inOrder inOrder)
  starts := by
    obtain ⟨begun, starts_eq, each⟩ := first.starts
    obtain ⟨later, later_eq, eachLater⟩ := second.starts
    refine ⟨begun ++ later, by rw [later_eq, starts_eq, List.append_assoc], ?_⟩
    intro start member
    rw [List.mem_append] at member
    rcases member with early | late
    · exact ⟨(each start early).1, fun inOrder =>
        ((each start early).2 inOrder).of_sublist (second.grows start.key)⟩
    · exact ⟨(eachLater start late).1, fun inOrder =>
        (eachLater start late).2 (first.inOrder inOrder)⟩

/-- A hit that did not take place leaves room in the history. -/
theorem Follows.skip
    (follows : Follows detector history further now due ledger state) (key : List Char)
    (ip : IpAddr) :
    Follows detector history (extend further key (now, ip)) now due ledger state := by
  have consistent : Consistent (extend further key (now, ip)) state.1 state.2 :=
    follows.consistent.mono (sublist_extend further key _) (fun _ _ found => found)
      follows.consistent.queue
  refine follows.trans ⟨consistent, sublist_extend further key _,
    fun inOrder => inOrder_extend inOrder key ip, ?_⟩
  exact ⟨[], (List.append_nil _).symm, by simp⟩

/-- A hot period that a request can begin. -/
def DueTo (detector : CampaignDetector) (request : CountedRequest) (now : DateTime)
    (start : HotStart) : Prop :=
  start.now = now ∧
    (start.key = uaKey request ∧ start.minIps = detector.cfg.minDistinctIps ∨
      ∃ vhost, detector.countedVhost request = some vhost ∧
        start.key = vhostKey request vhost ∧ start.minIps = detector.cfg.vhostMinDistinctIps)

/-- The history with the hits of a request. -/
def extendAll (history : List Char → List (DateTime × IpAddr)) (keys : List (List Char))
    (hit : DateTime × IpAddr) : List Char → List (DateTime × IpAddr) :=
  keys.foldl (fun history key => extend history key hit) history

theorem countEvent_pending (inner : Inner) (now : DateTime) :
    Ends (detector.countEvent now) inner (fun _ target => target.pending = inner.pending)
      fun _ target => target.pending = inner.pending := by
  refine .get_bind ?_
  split
  · rfl
  · rfl

theorem countRequestLogged_follows {request : CountedRequest}
    (consistent : Consistent history inner ledger) :
    let follows := Follows detector history
      (extendAll history (detector.keysOf request) (now, ip)) now
      (detector.DueTo request now) ledger
    Ends (detector.countRequestLogged env request ip now) (inner, ledger)
      (fun _ target => follows target) fun _ target => follows target := by
  have skips : ∀ {state : Inner × Ledger},
      Follows detector history (extend history (uaKey request) (now, ip)) now
        (detector.DueTo request now) ledger state →
      Follows detector history (extendAll history (detector.keysOf request) (now, ip)) now
        (detector.DueTo request now) ledger state := by
    intro state follows
    rw [keysOf]
    cases detector.countedVhost request with
    | none => exact follows
    | some vhost => exact follows.skip _ ip
  refine .bind (.zoom ((countEvent_ends.and (countEvent_pending inner now)).imp ?_ ?_))
  · rintro _ counted ⟨⟨-, keys_eq⟩, pending_eq⟩
    have countedConsistent : Consistent history counted ledger :=
      consistent.counted keys_eq pending_eq
    have dueUa : ∀ start : HotStart, start = ⟨uaKey request, detector.cfg.minDistinctIps, now⟩ →
        detector.DueTo request now start := by
      rintro start rfl
      exact ⟨rfl, .inl ⟨rfl, rfl⟩⟩
    refine .bind (.expect (fun agent _ => ?_) fun missing => absurd missing (truncate_ne_none _ _))
    refine .bind ((hitLogged_follows countedConsistent).imp ?_ ?_)
    · intro _ middle hit
      have followed := hit.imp dueUa
      cases vhost_eq : detector.countedVhost request with
      | none =>
        rw [keysOf, vhost_eq]
        exact followed
      | some vhost =>
        have dueVhost : ∀ start : HotStart,
            start = ⟨vhostKey request vhost, detector.cfg.vhostMinDistinctIps, now⟩ →
              detector.DueTo request now start := by
          rintro start rfl
          exact ⟨rfl, .inr ⟨vhost, vhost_eq, rfl, rfl⟩⟩
        rw [keysOf, vhost_eq]
        refine .bind ((hitLogged_follows followed.consistent).imp ?_ ?_)
        · exact fun _ _ further => followed.trans (further.imp dueVhost)
        · exact fun _ _ further => followed.trans (further.imp dueVhost)
    · exact fun _ _ hit => skips (hit.imp dueUa)
  · rintro _ target ⟨⟨-, rfl⟩, -⟩
    exact skips (.skip (.refl consistent) _ ip)

end Steps

/-! ## Events -/

/-- A hot period that an event can begin. -/
def Due (detector : CampaignDetector) (event : NormalizedEvent) (start : HotStart) : Prop :=
  ∃ request, detector.screen event = some (some request) ∧
    detector.DueTo request event.timestamp start

theorem hitsFor_concat (events : List NormalizedEvent) (event : NormalizedEvent) (key : List Char) :
    detector.hitsFor (events ++ [event]) key = detector.hitsFor events key ++
      if detector.counts key event then [(event.timestamp, event.sourceIp)] else [] := by
  rw [hitsFor, List.filter_append, List.map_append, List.filter_singleton]
  cases detector.counts key event with
  | true => rfl
  | false => rfl

variable {event : NormalizedEvent}

theorem hitsFor_concat_of_uncounted (events : List NormalizedEvent)
    (uncounted : ∀ key, detector.counts key event = false) :
    detector.hitsFor (events ++ [event]) = detector.hitsFor events := by
  funext key
  rw [hitsFor_concat, uncounted, if_neg Bool.false_ne_true, List.append_nil]

theorem hitsFor_concat_of_counted (events : List NormalizedEvent)
    {request : CountedRequest} (http : isHttp event = true)
    (screened : detector.screen event = some (some request)) :
    detector.hitsFor (events ++ [event]) = extendAll (detector.hitsFor events)
      (detector.keysOf request) (event.timestamp, event.sourceIp) := by
  funext key
  have counts_eq : detector.counts key event = (detector.keysOf request).contains key := by
    rw [counts, http, screened]
    rfl
  rw [hitsFor_concat, counts_eq, keysOf]
  cases detector.countedVhost request with
  | none =>
    by_cases same : key = uaKey request
    · simp [extendAll, extend, same]
    · simp [extendAll, extend, same]
  | some vhost =>
    have different := vhostKey_ne_uaKey request vhost
    by_cases same : key = uaKey request
    · simp [extendAll, extend, same, different.symm]
    · by_cases isVhost : key = vhostKey request vhost
      · simp [extendAll, extend, isVhost, different]
      · simp [extendAll, extend, same, isVhost]

variable {events : List NormalizedEvent}

theorem processHttpLogged_follows (http : isHttp event = true)
    (consistent : Consistent (detector.hitsFor events) inner ledger) :
    let follows := Follows detector (detector.hitsFor events)
      (detector.hitsFor (events ++ [event])) event.timestamp (detector.Due event) ledger
    Ends (detector.processHttpLogged env event) (inner, ledger)
      (fun _ target => follows target) fun _ target => follows target := by
  rw [processHttpLogged]
  cases screened : detector.screen event with
  | none =>
    rw [hitsFor_concat_of_uncounted events fun key => by simp [counts, screened]]
    exact .refl consistent
  | some found =>
    cases found with
    | none =>
      rw [hitsFor_concat_of_uncounted events fun key => by simp [counts, screened]]
      exact .refl consistent
    | some request =>
      rw [hitsFor_concat_of_counted events http screened]
      have due : ∀ start, detector.DueTo request event.timestamp start →
          detector.Due event start :=
        fun start dueTo => ⟨request, screened, dueTo⟩
      refine (countRequestLogged_follows consistent).imp ?_ ?_
      · exact fun _ _ follows => follows.imp due
      · exact fun _ _ follows => follows.imp due

theorem answer_follows {history further : List Char → List (DateTime × IpAddr)}
    {due : HotStart → Prop} {state : Inner × Ledger} (out : List Tagged)
    (follows : Follows detector history further now due ledger state)
    {fails : Unit → Inner × Ledger → Prop} :
    Ends (answer out) state (fun _ target => Follows detector history further now due ledger target)
      fails :=
  ⟨⟨follows.consistent.backed, follows.consistent.queue, follows.consistent.nodup,
      follows.consistent.past, follows.consistent.marked⟩,
    follows.grows, follows.inOrder, follows.starts⟩

theorem processMultiLogged_follows
    (consistent : Consistent (detector.hitsFor events) inner ledger) :
    let follows := Follows detector (detector.hitsFor events)
      (detector.hitsFor (events ++ [event])) event.timestamp (detector.Due event) ledger
    Ends (detector.processMultiLogged env event) (inner, ledger)
      (fun _ target => follows target) fun _ target => follows target := by
  refine .get_bind (.set_bind ?_)
  have drained : Consistent (detector.hitsFor events)
      { inner with pending := inner.pending.drop detector.cfg.retroBatch }
      { ledger with owners := ledger.owners.drop detector.cfg.retroBatch } :=
    consistent.drained detector.cfg.retroBatch
  dsimp only
  split
  · rename_i http
    refine .bind ((processHttpLogged_follows http drained).imp ?_ ?_)
    · intro found target follows
      have whole : Follows detector _ _ _ _ ledger target :=
        ⟨follows.consistent, follows.grows, follows.inOrder, follows.starts⟩
      exact answer_follows _ whole
    · exact fun _ target follows =>
        ⟨follows.consistent, follows.grows, follows.inOrder, follows.starts⟩
  · rename_i other
    rw [hitsFor_concat_of_uncounted events fun key => by simp [counts, other]]
    have follows : Follows detector (detector.hitsFor events) (detector.hitsFor events)
        event.timestamp (detector.Due event) ledger
        ({ inner with pending := inner.pending.drop detector.cfg.retroBatch },
          { ledger with owners := ledger.owners.drop detector.cfg.retroBatch }) :=
      ⟨drained, fun _ => .refl _, fun inOrder => inOrder,
        [], (List.append_nil _).symm, by simp⟩
    exact answer_follows _ follows

theorem consistent_loggedRun (events : List NormalizedEvent) :
    Consistent (detector.hitsFor events) (detector.loggedRun env events).1
      (detector.loggedRun env events).2 := by
  induction events using List.reverseRecOn with
  | nil =>
    have nothing : ∀ key state, Inner.default.keys.lookup key ≠ some state := by
      intro key state found
      rw [Inner.default, AList.lookup_empty] at found
      contradiction
    exact ⟨fun key state found => absurd found (nothing key state), rfl, .nil,
      fun mark member => absurd member List.not_mem_nil,
      fun key state found => absurd found (nothing key state)⟩
  | append_singleton events event ih =>
    rw [loggedRun_concat]
    exact (processMultiLogged_follows ih).finalState.consistent

theorem follows_loggedRun (events : List NormalizedEvent) (event : NormalizedEvent) :
    Follows detector (detector.hitsFor events) (detector.hitsFor (events ++ [event]))
      event.timestamp (detector.Due event) (detector.loggedRun env events).2
      (detector.loggedRun env (events ++ [event])) := by
  rw [loggedRun_concat]
  exact (processMultiLogged_follows (consistent_loggedRun events)).finalState

theorem inOrder_hitsFor
    (ordered : events.Pairwise fun first second => first.timestamp ≤ second.timestamp)
    (past : ∀ event ∈ events, event.timestamp ≤ now) (key : List Char) :
    InOrder now (detector.hitsFor events key) := by
  constructor
  · rw [hitsFor, List.pairwise_map]
    exact ordered.filter _
  · intro hit member
    obtain ⟨event, isCounted, rfl⟩ := List.mem_map.mp member
    exact past event (List.mem_of_mem_filter isCounted)

/-- For events in the order of time, a key becomes hot only on evidence: enough hits from enough
addresses in the configured window before the event.  In each hot period of a key an address is
signalled or queued at most once. -/
theorem campaign_evidence (cfg : CampaignConfig) (env : CampaignEnv)
    (events : List NormalizedEvent) (event : NormalizedEvent)
    (ordered : (events ++ [event]).Pairwise fun first second =>
      first.timestamp ≤ second.timestamp) :
    (∀ start ∈ ((withConfig cfg).loggedRun env (events ++ [event])).2.starts.drop
        ((withConfig cfg).loggedRun env events).2.starts.length, (withConfig cfg).Due event start ∧
        (withConfig cfg).Evidence ((withConfig cfg).hitsFor (events ++ [event]) start.key) start) ∧
      ((withConfig cfg).loggedRun env (events ++ [event])).2.reactions.Nodup := by
  rw [List.pairwise_append] at ordered
  have inOrder : ∀ key, InOrder event.timestamp ((withConfig cfg).hitsFor events key) :=
    inOrder_hitsFor ordered.1 fun earlier member =>
      ordered.2.2 earlier member event (List.mem_singleton_self event)
  refine ⟨?_, (consistent_loggedRun (events ++ [event])).nodup⟩
  obtain ⟨begun, starts_eq, each⟩ := (@follows_loggedRun env (withConfig cfg) events event).starts
  rw [starts_eq, List.drop_left]
  exact fun start member => ⟨(each start member).1, (each start member).2 inOrder⟩

namespace Sample

/-- A campaign of two addresses is enough. -/
def pairConfig : CampaignConfig :=
  { CampaignConfig.default with minDistinctIps := 2, minRequests := 2 }

end Sample

theorem campaign_evidence_at_pair :
    ((withConfig Sample.pairConfig).loggedRun Sample.env
        ([Sample.login 1] ++ [Sample.login 2])).2.starts.length = 1 ∧
      ((withConfig Sample.pairConfig).loggedRun Sample.env
        ([Sample.login 1] ++ [Sample.login 2])).2.reactions.Nodup :=
  ⟨by decide +kernel, (campaign_evidence Sample.pairConfig Sample.env [Sample.login 1]
    (Sample.login 2) (by decide +kernel)).2⟩

end CampaignDetector

end HiveGuard.Detectors
