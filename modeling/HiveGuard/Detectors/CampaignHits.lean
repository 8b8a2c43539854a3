import HiveGuard.Detectors.CampaignReturns

/-!
# What a hit of a campaign key does

A hit first records the request in the window of its key and then reacts to it.  Recording
changes the window and ends a hot period that is over; the reaction signals or queues
addresses and flags them.  A hit that panics has no reaction.  Over any run of events the
counters of a key stay those of its window.
-/

namespace HiveGuard.Detectors

open HiveGuard.Core Library Library.Bag Library.Dictionary Library.Effect

/-! ## Recording -/

namespace KeyState

/-- The addresses that are counted are those of some of the hits. -/
def Tallies (state : KeyState) : Prop :=
  ∃ bag, Represents state.ipCounts bag ∧ bag ≤ addresses state.hits

/-- Flags are kept for a hot period only. -/
def Cold (state : KeyState) : Prop :=
  state.hotUntil = none → state.flagged = ∅

section Window

variable {source middle target : KeyState} {bag : Multiset IpAddr}

/-- From hits in the order of time pruning drops all that are before the cutoff. -/
theorem le_of_mem_drop_expired {cutoff : DateTime} {hits : List (DateTime × IpAddr)}
    (ordered : hits.Pairwise fun first second => first.1 ≤ second.1)
    {hit : DateTime × IpAddr} (member : hit ∈ hits.drop (expired cutoff hits)) :
    cutoff ≤ hit.1 := by
  induction hits with
  | nil => exact absurd member (by simp)
  | cons first hits ih =>
    rw [List.pairwise_cons] at ordered
    rw [expired, List.takeWhile_cons] at member
    split at member
    · exact ih ordered.2 member
    · rename_i recent
      have first_le : cutoff ≤ first.1 := by simpa using recent
      rw [List.length_nil, List.drop_zero, List.mem_cons] at member
      rcases member with rfl | later
      · exact first_le
      · exact first_le.trans (ordered.1 hit later)

end Window

/-- What recording a hit leaves, whether it panics or not. -/
structure Shape (ip : IpAddr) (now : DateTime) (source target : KeyState) : Prop where
  hits : target.hits.Sublist (source.hits ++ [(now, ip)])
  tallies : target.Tallies

/-- What recording a hit leaves when it returns. -/
structure Recorded (window : Duration) (ip : IpAddr) (now : DateTime)
    (source target : KeyState) : Prop extends Shape ip now source target where
  hot : source.isHot now = true → SameHeat source target
  cool : source.isHot now = false → source.Cold → target.hotUntil = none ∧ target.flagged = ∅
  recent : (source.hits.Pairwise fun first second => first.1 ≤ second.1) → 0 ≤ window →
    ∀ hit ∈ target.hits, now - window ≤ hit.1

theorem coolDown_hot {state : KeyState} {now : DateTime} (hot : state.isHot now = true) :
    coolDown now state = state := by
  rw [coolDown, hot, Bool.not_true, Bool.and_false, if_neg Bool.false_ne_true]

theorem coolDown_cool {state : KeyState} {now : DateTime} (cool : state.isHot now = false)
    (cold : state.Cold) :
    (coolDown now state).hotUntil = none ∧ (coolDown now state).flagged = ∅ := by
  rw [coolDown, cool]
  split
  · exact ⟨rfl, rfl⟩
  · rename_i never
    have none_hot : state.hotUntil = none := by simpa using never
    exact ⟨none_hot, cold none_hot⟩

section Recording

variable {maxHits number : Nat} {window : Duration} {ip : IpAddr} {now : DateTime}
  {source target : KeyState} {bag : Multiset IpAddr} {hit : DateTime × IpAddr}

theorem Shape.past (shape : Shape ip now source target)
    (past : ∀ hit ∈ source.hits, hit.1 ≤ now) : ∀ hit ∈ target.hits, hit.1 ≤ now := by
  intro hit member
  rcases List.mem_append.mp (shape.hits.subset member) with old | last
  · exact past hit old
  · exact (congrArg Prod.fst (List.mem_singleton.mp last)).le

theorem Adds.hits_sublist (adds : Adds hit number source bag target) :
    target.hits.Sublist (source.hits ++ [hit]) := by
  rw [adds.hits]
  exact (List.drop_sublist _ _).append_right _

/-- The addresses left in a bag are among those of the hits that are left. -/
theorem sub_addresses_le {hits : List (DateTime × IpAddr)} (le : bag ≤ addresses hits)
    (number : Nat) : bag - addresses (hits.take number) ≤ addresses (hits.drop number) := by
  rw [tsub_le_iff_left, ← addresses_append, List.take_append_drop]
  exact le

theorem record_recorded (tallies : source.Tallies) :
    Ends (record maxHits window ip now) source
      (fun _ target => Recorded window ip now source target)
      fun _ target => Shape ip now source target ∧ SameHeat source target := by
  obtain ⟨bag, represents, le⟩ := tallies
  have rest_le := sub_addresses_le le (leaving maxHits (now - window) source.hits)
  have addresses_concat : ∀ hits, addresses (hits ++ [(now, ip)]) = ip ::ₘ addresses hits := by
    intro hits
    rw [addresses_append, add_comm]
    rfl
  refine (record_adds represents).imp ?_ ?_
  · rintro _ _ ⟨-, -, added, adds, rfl⟩
    rcases coolDown_window added now with ⟨cooledHits, cooledCounts⟩
    have heat := adds.sameHeat
    have isHot_eq : added.isHot now = source.isHot now := by
      rw [isHot, isHot, heat.1]
    refine ⟨⟨?_, _, cooledCounts ▸ adds.represents, ?_⟩, fun hot => ?_, fun cool cold => ?_,
      fun ordered positive => ?_⟩
    · rw [cooledHits]
      exact adds.hits_sublist
    · rw [cooledHits, adds.hits, addresses_concat]
      exact Multiset.cons_le_cons ip rest_le
    · rw [coolDown_hot (isHot_eq.trans hot)]
      exact heat
    · refine coolDown_cool (isHot_eq.trans cool) fun ended => ?_
      exact heat.2.trans (cold (heat.1.symm.trans ended))
    · intro hit member
      rw [cooledHits, adds.hits, List.mem_append, List.mem_singleton] at member
      rcases member with earlier | rfl
      · refine le_of_mem_drop_expired ordered ((List.drop_sublist_drop_left _ ?_).subset earlier)
        rw [leaving]
        split
        · exact Nat.le_succ _
        · exact le_rfl
      · exact Int.sub_le_self now positive
  · rintro _ target (⟨-, rfl⟩ | ⟨-, adds⟩)
    · exact ⟨⟨List.sublist_append_left _ _, bag, represents, le⟩, .refl target⟩
    · refine ⟨⟨adds.hits_sublist, _, adds.represents, rest_le.trans ?_⟩, adds.sameHeat⟩
      rw [adds.hits, addresses_concat]
      exact Multiset.le_cons_self _ _

theorem Recorded.isHot_eq (recorded : Recorded window ip now source target)
    (cold : source.Cold) : target.isHot now = source.isHot now := by
  cases heat : source.isHot now with
  | true => rw [← heat, isHot, isHot, (recorded.hot heat).1]
  | false =>
    rw [isHot, (recorded.cool heat cold).1]
    rfl

end Recording

end KeyState

namespace CampaignDetector

open KeyState

/-! ## Reacting -/

/-- Queued addresses were not flagged before and are flagged afterwards, each queued once.  If
there is room for all participants, no address is flagged without being queued. -/
structure QueuesRetro (flagged : Finset IpAddr) (pending entries : List Pending)
    (participants : List IpAddr) (queued : Finset IpAddr × List Pending) : Prop where
  grows : flagged ⊆ queued.1
  pending_eq : queued.2 = pending ++ entries
  few : entries.length ≤ participants.length
  distinct : (entries.map Pending.ip).Nodup
  new : ∀ ip ∈ entries.map Pending.ip, ip ∉ flagged ∧ ip ∈ queued.1
  complete : pending.length + participants.length ≤ maxPending →
    ∀ ip ∈ queued.1, ip ∈ flagged ∨ ip ∈ entries.map Pending.ip

theorem queuesRetro_queueRetro (reason : List Char) (participants : List IpAddr)
    (flagged : Finset IpAddr) (pending : List Pending) :
    ∃ entries, QueuesRetro flagged pending entries participants
      (queueRetro reason participants (flagged, pending)) := by
  have nothing : ∀ flagged pending participants,
      QueuesRetro flagged pending [] participants (flagged, pending) :=
    fun _ _ _ => ⟨subset_rfl, (List.append_nil _).symm, Nat.zero_le _, .nil, by simp,
      fun _ _ => .inl⟩
  induction participants generalizing flagged pending with
  | nil => exact ⟨[], nothing _ _ _⟩
  | cons ip participants ih =>
    rw [queueRetro]
    split
    · exact ⟨[], nothing _ _ _⟩
    · split
      · obtain ⟨entries, queues⟩ := ih flagged pending
        exact ⟨entries, { queues with
          few := queues.few.trans (Nat.le_succ _)
          complete := fun room => queues.complete (by rw [List.length_cons] at room; omega) }⟩
      · rename_i fresh
        split
        · obtain ⟨entries, queues⟩ := ih (insert ip flagged) (pending ++ [⟨ip, reason⟩])
          refine ⟨⟨ip, reason⟩ :: entries, ⟨(Finset.subset_insert ip flagged).trans queues.grows,
            ?_, Nat.succ_le_succ queues.few, ?_, ?_, ?_⟩⟩
          · rw [queues.pending_eq, List.append_assoc]
            rfl
          · rw [List.map_cons, List.nodup_cons]
            exact ⟨fun again => (queues.new ip again).1 (Finset.mem_insert_self ip flagged),
              queues.distinct⟩
          · intro other member
            rw [List.map_cons, List.mem_cons] at member
            rcases member with rfl | later
            · exact ⟨fresh, queues.grows (Finset.mem_insert_self _ flagged)⟩
            · exact ⟨fun old => (queues.new other later).1 (Finset.mem_insert_of_mem old),
                (queues.new other later).2⟩
          · intro room other member
            rw [List.map_cons, List.mem_cons, ← or_assoc, or_comm (a := other ∈ flagged),
              ← Finset.mem_insert]
            refine queues.complete ?_ other member
            rw [List.length_append, List.length_singleton]
            rw [List.length_cons] at room
            omega
        · rename_i full
          obtain ⟨entries, queues⟩ := ih (insert ip flagged) pending
          refine ⟨entries, ⟨(Finset.subset_insert ip flagged).trans queues.grows,
            queues.pending_eq, queues.few.trans (Nat.le_succ _), queues.distinct, ?_, ?_⟩⟩
          · exact fun other later =>
              ⟨fun old => (queues.new other later).1 (Finset.mem_insert_of_mem old),
                (queues.new other later).2⟩
          · intro room
            rw [List.length_cons] at room
            omega

variable (env : CampaignEnv) (detector : CampaignDetector)

/-- The reactions to a recorded hit: the signals, the state of the key and the queue. -/
inductive Reacts (minIps : Nat) (ip : IpAddr) (now : DateTime) (state : KeyState)
    (pending : List Pending) : List DetectionSignal → KeyState → List Pending → Prop
  | known (hot : state.isHot now = true) :
      Reacts minIps ip now state pending []
        { state with hotUntil := some (now + detector.hotOf) } pending
  | joins (hot : state.isHot now = true) (new : ip ∉ state.flagged) (reason : List Char) :
      Reacts minIps ip now state pending [detector.signal env ip reason now]
        { state with
          hotUntil := some (now + detector.hotOf)
          flagged := insert ip state.flagged } pending
  | quiet (cool : state.isHot now = false) : Reacts minIps ip now state pending [] state pending
  | starts (cool : state.isHot now = false) (enoughIps : minIps ≤ state.ipCounts.entries.length)
      (enoughRequests : detector.cfg.minRequests ≤ state.hits.length) (reason : List Char)
      {participants : List IpAddr} (few : participants.length ≤ detector.cfg.maxRetroBans) :
      Reacts minIps ip now state pending [detector.signal env ip reason now]
        { state with
          hotUntil := some (now + detector.hotOf)
          flagged := (queueRetro reason participants (insert ip state.flagged, pending)).1 }
        (queueRetro reason participants (insert ip state.flagged, pending)).2

variable {env detector}

theorem react_reacts {minIps : Nat} {ip : IpAddr} {now : DateTime} {state : KeyState}
    {pending : List Pending} :
    Ends (detector.react env minIps ip now) (state, pending)
      (fun signals target => Reacts env detector minIps ip now state pending signals target.1
        target.2) fun _ target => target = (state, pending) := by
  refine .get_bind ?_
  dsimp only
  split
  · rename_i hot
    refine Ends.checkedAddSigned (fun _ => ?_) fun _ => rfl
    split
    · rename_i new
      exact .joins hot new.2 _
    · exact .known hot
  · rename_i notHot
    have cool : state.isHot now = false := Bool.eq_false_of_not_eq_true notHot
    split
    · exact .quiet cool
    · rename_i enough
      rw [not_or, Nat.not_lt, Nat.not_lt] at enough
      refine Ends.checkedAddSigned (fun _ => ?_) fun _ => rfl
      refine .starts cool enough.1 enough.2 _ ?_
      split
      · exact List.length_take_le _ _
      · exact Nat.zero_le _

/-! ## Hits -/

/-- The state a hit starts from. -/
def entryOf (key : List Char) (kind : KeyKind) (label : List Char) (now : DateTime)
    (inner : Inner) : KeyState :=
  (inner.keys.lookup key).getD (.new kind label now)

/-- No address is newly flagged: the flags are kept with the hot period, or both are gone. -/
def Faded (source target : KeyState) : Prop :=
  (target.hotUntil = none ↔ source.hotUntil = none) ∧ target.flagged = source.flagged ∨
    target.hotUntil = none ∧ target.flagged = ∅

theorem faded_of_sameHeat {source target : KeyState} (same : SameHeat source target) :
    Faded source target :=
  .inl ⟨by rw [same.1], same.2⟩

theorem hit_hits {key : List Char} {kind : KeyKind} {label : List Char} {minIps : Nat}
    {ip : IpAddr} {now : DateTime} {inner : Inner}
    (tallies : (entryOf key kind label now inner).Tallies)
    (cold : (entryOf key kind label now inner).Cold) :
    Ends (detector.hit env key kind label minIps ip now) inner
      (fun signals target => ∃ recorded final,
        Recorded detector.windowOf ip now (entryOf key kind label now inner) recorded ∧
          Reacts env detector minIps ip now recorded inner.pending signals final target.pending ∧
            target.keys = (detector.roomFor env key now inner.keys).insert key final)
      fun _ target => ∃ final, Shape ip now (entryOf key kind label now inner) final ∧
        Faded (entryOf key kind label now inner) final ∧ target.pending = inner.pending ∧
          target.keys = (detector.roomFor env key now inner.keys).insert key final := by
  have entry_eq : ((detector.roomFor env key now inner.keys).lookup key).getD
      (.new kind label now) = entryOf key kind label now inner := by
    rw [lookup_roomFor_self, entryOf]
  rw [← entry_eq] at tallies cold ⊢
  refine .modify_bind (.zoom (.bind (.zoom ((record_recorded tallies).imp ?_ ?_))))
  · intro _ recorded isRecorded
    refine react_reacts.imp ?_ ?_
    · exact fun signals target reacts => ⟨recorded, target.1, isRecorded, reacts, rfl⟩
    · rintro _ target rfl
      refine ⟨recorded, isRecorded.toShape, ?_, rfl, rfl⟩
      cases heat : KeyState.isHot _ now with
      | true => exact faded_of_sameHeat (isRecorded.hot heat)
      | false => exact .inr (isRecorded.cool heat cold)
  · rintro _ target ⟨shape, sameHeat⟩
    exact ⟨target, shape, faded_of_sameHeat sameHeat, rfl, rfl⟩

/-! ## The books of the keys -/

section Books

/-- The counters are those of the addresses of the hits, and there are not too many hits. -/
def Booked (maxHits : Nat) (state : KeyState) : Prop :=
  Represents state.ipCounts (addresses state.hits) ∧ state.hits.length ≤ maxHits

/-- Recording a hit keeps the books, also when the start of the window has no date. -/
theorem record_booked {maxHits : Nat} {window : Duration} {ip : IpAddr} {now : DateTime}
    {source : KeyState} (positive : 0 < maxHits) (small : maxHits < 2 ^ 32)
    (booked : Booked maxHits source) :
    Ends (record maxHits window ip now) source (fun _ => Booked maxHits)
      fun _ => Booked maxHits := by
  let number := leaving maxHits (now - window) source.hits
  have rest_eq : addresses source.hits - addresses (source.hits.take number) =
      addresses (source.hits.drop number) := by
    conv_lhs => rw [← List.take_append_drop number source.hits, addresses_append]
    rw [List.take_append_drop, add_tsub_cancel_left]
  have room : (source.hits.drop number).length < maxHits := by
    have few := booked.2
    simp only [number, leaving, List.length_drop]
    split <;> omega
  refine (record_adds booked.1).imp ?_ ?_
  · rintro _ _ ⟨-, -, added, adds, rfl⟩
    rcases coolDown_window added now with ⟨sameHits, sameCounts⟩
    have represents := adds.represents
    rw [rest_eq] at represents
    rw [Booked, sameHits, sameCounts, adds.hits, addresses_append, add_comm]
    exact ⟨represents, by simpa using room⟩
  · rintro _ target (⟨-, rfl⟩ | ⟨full, -⟩)
    · exact booked
    · -- No counter is full: it counts hits that are left.
      rw [rest_eq] at full
      have counted_le : (addresses (source.hits.drop number)).count ip ≤
          (source.hits.drop number).length :=
        (Multiset.count_le_card ip _).trans_eq (List.length_map _)
      omega

/-- The books of all keys are right. -/
def Kept (detector : CampaignDetector) (inner : Inner) : Prop :=
  ∀ key state, inner.keys.lookup key = some state → Booked detector.cfg.maxHitsPerKey state

variable {inner : Inner} {now : DateTime}

theorem Kept.insert {state : KeyState} (kept : detector.Kept inner)
    (booked : Booked detector.cfg.maxHitsPerKey state) (key : List Char) (pending : List Pending)
    (matched : Nat) : detector.Kept
      ⟨(detector.roomFor env key now inner.keys).insert key state, pending, matched⟩ := by
  intro other found lookup_eq
  rw [lookup_insert] at lookup_eq
  split at lookup_eq
  · cases lookup_eq
    exact booked
  · exact kept other found (lookup_of_lookup_roomFor lookup_eq)

variable (positive : 0 < detector.cfg.maxHitsPerKey) (small : detector.cfg.maxHitsPerKey < 2 ^ 32)
include positive small

theorem hit_kept (kept : detector.Kept inner) (key : List Char) (kind : KeyKind)
    (label : List Char) (minIps : Nat) (ip : IpAddr) :
    Ends (detector.hit env key kind label minIps ip now) inner (fun _ => detector.Kept)
      fun _ => detector.Kept := by
  have booked : Booked detector.cfg.maxHitsPerKey
      (((detector.roomFor env key now inner.keys).lookup key).getD (.new kind label now)) := by
    rw [lookup_roomFor_self]
    cases found : inner.keys.lookup key with
    | none => exact ⟨represents_empty, Nat.zero_le _⟩
    | some state => exact kept key state found
  refine .modify_bind (.zoom (.bind (.zoom ((record_booked positive small booked).imp ?_ ?_))))
  · intro _ recorded stillBooked
    refine react_reacts.imp ?_ ?_
    · rintro signals ⟨final, pending⟩ reacts
      have finalBooked : Booked detector.cfg.maxHitsPerKey final := by
        cases reacts <;> exact stillBooked
      exact kept.insert finalBooked key _ _
    · rintro _ target rfl
      exact kept.insert stillBooked key _ _
  · intro _ target stillBooked
    exact kept.insert stillBooked key _ _

theorem countRequest_kept (kept : detector.Kept inner) (request : CountedRequest) (ip : IpAddr) :
    Ends (detector.countRequest env request ip now) inner (fun _ => detector.Kept)
      fun _ => detector.Kept := by
  refine .bind (countEvent_ends.imp ?_ ?_)
  · rintro _ counted ⟨-, keys_eq⟩
    have countedKept : detector.Kept counted := by
      intro key state found
      rw [keys_eq, keysAtRequest] at found
      split at found
      · exact kept key state (lookup_of_lookup_sweep found)
      · exact kept key state found
    refine .bind (.expect (fun agent _ => ?_) fun _ => countedKept)
    refine .bind ((hit_kept positive small countedKept _ _ _ _ _).imp ?_ fun _ _ ended => ended)
    intro signals hit stillKept
    split
    · exact stillKept
    · exact .bind ((hit_kept positive small stillKept _ _ _ _ _).imp (fun _ _ ended => ended)
        fun _ _ ended => ended)
  · rintro _ target ⟨-, rfl⟩
    exact kept

theorem processMulti_kept (kept : detector.Kept inner) (event : NormalizedEvent) :
    Ends (detector.processMulti env event) inner (fun _ => detector.Kept)
      fun _ => detector.Kept := by
  refine .get_bind (.set_bind ?_)
  dsimp only
  split
  · refine .bind ?_
    rw [processHttp]
    split
    · exact kept
    · exact kept
    · let drained := { inner with pending := inner.pending.drop detector.cfg.retroBatch }
      have drained_kept : detector.Kept drained := kept
      exact (countRequest_kept positive small drained_kept _ _).imp (fun _ _ ended => ended)
        fun _ _ ended => ended
  · exact kept

end Books

/-- In every state that events lead to, whatever their order and also after panics, each key
counts exactly the addresses of its hits, and has not more hits than allowed. -/
theorem campaign_books_are_kept (cfg : CampaignConfig) (env : CampaignEnv) {inner : Inner}
    (small : cfg.maxHitsPerKey < 2 ^ 32) (reachable : Reachable env (withConfig cfg) inner) :
    ∀ key state, inner.keys.lookup key = some state →
      Represents state.ipCounts (addresses state.hits) ∧
        state.hits.length ≤ max cfg.maxHitsPerKey 1 := by
  change (withConfig cfg).Kept inner
  induction reachable with
  | start => exact nofun
  | event _ event ih =>
    have positive : 0 < max cfg.maxHitsPerKey 1 := Nat.le_max_right _ _
    exact (processMulti_kept positive (max_lt small (by decide)) ih event).finalState

namespace Sample

/-- A key holds three hits. -/
def smallConfig : CampaignConfig :=
  { CampaignConfig.default with maxHitsPerKey := 3 }

def login (ip : BitVec 32) : NormalizedEvent :=
  { post "/wp-login.php".toList with sourceIp := .v4 ip }

/-- The state after requests from some addresses. -/
def innerAfter (ips : List (BitVec 32)) : Inner :=
  ips.foldl (fun inner ip =>
    finalState (((withConfig smallConfig).processMulti Sample.env (login ip)).run inner))
    .default

theorem reachable_innerAfter (ips : List (BitVec 32)) :
    Reachable Sample.env (withConfig smallConfig) (innerAfter ips) := by
  induction ips using List.reverseRecOn with
  | nil => exact .start
  | append_singleton ips ip ih =>
    rw [innerAfter, List.foldl_append]
    exact .event ih (login ip)

end Sample

/-- The first of four hits is dropped.  Of the others, two are from the same address. -/
theorem campaign_books_are_kept_after_login :
    let inner := Sample.innerAfter [1, 2, 2, 3]
    inner.keys.entries.map (fun entry => addresses entry.2.hits) = [{.v4 2, .v4 2, .v4 3}] ∧
      ∀ key state, inner.keys.lookup key = some state →
        Represents state.ipCounts (addresses state.hits) ∧ state.hits.length ≤ 3 :=
  ⟨by decide +kernel, campaign_books_are_kept Sample.smallConfig Sample.env (by decide)
    (Sample.reachable_innerAfter _)⟩

end CampaignDetector

end HiveGuard.Detectors
