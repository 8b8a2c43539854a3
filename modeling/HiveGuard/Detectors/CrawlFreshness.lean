import HiveGuard.Detectors.DistributedCrawl
import HiveGuard.Library.Generations

/-!
# How long the crawl detector remembers a source

The two generations hold the sources of the present generation of requests and of the one
before it.  A generation is closed only when a request comes, so after a pause a source is
still remembered that was last seen before it, however long ago that is.
-/

namespace HiveGuard.Detectors.DistributedCrawlDetector

open HiveGuard.Core Library Library.Generations

variable (detector : DistributedCrawlDetector)

def httpKey (event : NormalizedEvent) : Option IpAddr :=
  if event.isHttp then some (detector.key event) else none

/-- What a request adds to the memory; one without a path adds nothing. -/
def arrival (event : NormalizedEvent) : Option (DateTime × IpAddr) :=
  if event.isHttp && (event.metadata.lookup "path".toList).isSome then
    some (event.timestamp, detector.key event)
  else
    none

def arrivals (events : List NormalizedEvent) : List (DateTime × IpAddr) :=
  events.filterMap detector.arrival

/-- What is protected by the lock after some events. -/
def innerAfter (events : List NormalizedEvent) : CrawlInner :=
  events.foldl detector.recordInner .new

/-- Whether the source of a request counts as seen before. -/
def knownAt (events : List NormalizedEvent) (event : NormalizedEvent) : Bool :=
  (detector.markSeen (detector.innerAfter events) (detector.key event) event.timestamp).1

/-! ## One event -/

section Step

variable {detector} {inner : CrawlInner} {event : NormalizedEvent}

theorem rotate_candidates (candidates : Dictionary.Dict IpAddr DateTime) (now : DateTime) :
    detector.rotate { inner with candidates := candidates } now =
      { detector.rotate inner now with candidates := candidates } := by
  have same : detector.rotationDue { inner with candidates := candidates } now =
      detector.rotationDue inner now := rfl
  rw [rotate, rotate, same]
  split
  · rfl
  · rfl

theorem markSeen_candidates (candidates : Dictionary.Dict IpAddr DateTime) (key : IpAddr)
    (now : DateTime) : detector.markSeen { inner with candidates := candidates } key now =
      ((detector.markSeen inner key now).1,
        { (detector.markSeen inner key now).2 with candidates := candidates }) := by
  rw [markSeen, rotate_candidates]
  rfl

/-- Both records remember the same sources. -/
def SameMemory (first second : CrawlInner) : Prop :=
  first.seenCur = second.seenCur ∧ first.seenPrev = second.seenPrev ∧
    first.generationStarted = second.generationStarted

/-- Nothing but `markSeen` changes the memory. -/
theorem sameMemory_recordInner {time : DateTime} {key : IpAddr}
    (arrives : detector.arrival event = some (time, key)) :
    SameMemory (detector.recordInner inner event) (detector.markSeen inner key time).2 := by
  rw [arrival, Option.ite_none_right_eq_some, Bool.and_eq_true, Option.isSome_iff_exists] at arrives
  obtain ⟨⟨isHttp, path, hasPath⟩, same⟩ := arrives
  cases same
  rw [recordInner, if_pos isHttp, hasPath]
  change SameMemory (detector.recordPath inner event path) _
  rw [recordPath]
  dsimp only
  split
  · rw [markSeen_candidates]
    exact ⟨rfl, rfl, rfl⟩
  · split
    · exact ⟨rfl, rfl, rfl⟩
    · exact ⟨rfl, rfl, rfl⟩

theorem recordInner_of_no_arrival (nothing : detector.arrival event = none) :
    detector.recordInner inner event = inner := by
  rw [recordInner]
  split
  · rename_i isHttp
    split
    · rename_i path hasPath
      rw [arrival, isHttp, hasPath] at nothing
      cases nothing
    · rfl
  · rfl

end Step

/-! ## The memory after some events -/

/-- The two sets hold the sources of the present generation and of the one before. -/
structure Holds (tags : List (Nat × IpAddr)) (now : Nat × Option Int) (inner : CrawlInner) :
    Prop where
  start : inner.generationStarted = now.2
  current : ∀ key, key ∈ inner.seenCur ↔ (now.1, key) ∈ tags
  previous : ∀ key, key ∈ inner.seenPrev ↔ ∃ past, past + 1 = now.1 ∧ (past, key) ∈ tags

section Memory

variable {detector} {inner : CrawlInner} {tags : List (Nat × IpAddr)} {before : Nat × Option Int}

theorem rotate_holds (holds : Holds tags before inner) (past : ∀ tag ∈ tags, tag.1 ≤ before.1)
    (room : inner.seenCur.card < detector.cfg.maxTrackedIps / 2) (now : DateTime) :
    Holds tags (arrive detector.halfMemory before now) (detector.rotate inner now) := by
  have full : decide (detector.cfg.maxTrackedIps / 2 ≤ inner.seenCur.card) = false :=
    decide_eq_false (Nat.not_le.mpr room)
  rw [rotate, rotationDue, full, Bool.or_false, arrive, holds.start]
  by_cases due : detector.halfMemory ≤ now - before.2.getD now
  · rw [if_pos (decide_eq_true due), if_pos due]
    refine ⟨rfl, ?_, ?_⟩
    · intro key
      refine iff_of_false (Finset.notMem_empty key) ?_
      intro member
      exact absurd (past _ member) (Nat.not_succ_le_self _)
    · intro key
      rw [holds.current]
      simp
  · have notDue : ¬decide (detector.halfMemory ≤ now - before.2.getD now) = true := by
      rw [decide_eq_true_eq]
      exact due
    rw [if_neg notDue, if_neg due]
    exact ⟨rfl, holds.current, holds.previous⟩

theorem markSeen_eq_true_iff {now : Nat × Option Int} {time : DateTime} {key : IpAddr}
    (holds : Holds tags now (detector.rotate inner time)) (past : ∀ tag ∈ tags, tag.1 ≤ now.1) :
    (detector.markSeen inner key time).1 = true ↔ ∃ tag, (tag, key) ∈ tags ∧ now.1 ≤ tag + 1 := by
  change decide (key ∈ (detector.rotate inner time).seenCur ∨
    key ∈ (detector.rotate inner time).seenPrev) = true ↔ _
  rw [decide_eq_true_eq, holds.current, holds.previous]
  constructor
  · rintro (present | ⟨tag, next, member⟩)
    · exact ⟨now.1, present, Nat.le_succ _⟩
    · exact ⟨tag, member, next.ge⟩
  · rintro ⟨tag, member, near⟩
    rcases (past _ member).lt_or_eq with earlier | same
    · exact .inr ⟨tag, by omega, member⟩
    · exact .inl (same ▸ member)

theorem markSeen_holds {now : Nat × Option Int} {time : DateTime} (key : IpAddr)
    (holds : Holds tags now (detector.rotate inner time)) :
    Holds (tags ++ [(now.1, key)]) now (detector.markSeen inner key time).2 where
  start := holds.start
  current other := by
    change other ∈ insert key (detector.rotate inner time).seenCur ↔ _
    rw [Finset.mem_insert, holds.current, List.mem_append, List.mem_singleton, Prod.mk.injEq,
      and_iff_right rfl, or_comm]
  previous other := by
    change other ∈ (detector.rotate inner time).seenPrev ↔ _
    rw [holds.previous]
    constructor
    · rintro ⟨past, next, member⟩
      exact ⟨past, next, List.mem_append_left _ member⟩
    · rintro ⟨past, next, member⟩
      refine ⟨past, next, (List.mem_append.mp member).resolve_right ?_⟩
      intro last
      rw [List.mem_singleton, Prod.mk.injEq] at last
      omega

end Memory

/-- The sources of some events are few. -/
def FewKeys (events : List NormalizedEvent) : Prop :=
  (events.filterMap detector.httpKey).toFinset.card < detector.cfg.maxTrackedIps / 2

instance (events : List NormalizedEvent) : Decidable (detector.FewKeys events) :=
  inferInstanceAs (Decidable (_ < _))

variable {detector}

variable {event : NormalizedEvent}

theorem httpKey_of_arrival {time : DateTime} {key : IpAddr}
    (arrives : detector.arrival event = some (time, key)) :
    detector.httpKey event = some key ∧ event.timestamp = time := by
  rw [arrival, Option.ite_none_right_eq_some, Bool.and_eq_true] at arrives
  obtain ⟨⟨isHttp, -⟩, same⟩ := arrives
  cases same
  exact ⟨if_pos isHttp, rfl⟩

variable {events : List NormalizedEvent}

theorem FewKeys.of_append {more : List NormalizedEvent}
    (few : detector.FewKeys (events ++ more)) : detector.FewKeys events := by
  refine lt_of_le_of_lt (Finset.card_le_card ?_) few
  intro key member
  rw [List.mem_toFinset, List.filterMap_append, List.mem_append]
  exact .inl (List.mem_toFinset.mp member)

theorem arrivals_concat (events : List NormalizedEvent) (event : NormalizedEvent) :
    detector.arrivals (events ++ [event]) =
      detector.arrivals events ++ (detector.arrival event).toList := by
  rw [arrivals, List.filterMap_append, List.filterMap_cons, List.filterMap_nil]
  cases detector.arrival event <;> rfl

theorem mem_filterMap_httpKey {key : IpAddr}
    (member : key ∈ (detector.arrivals events).map Prod.snd) :
    key ∈ events.filterMap detector.httpKey := by
  obtain ⟨⟨time, _⟩, isArrival, rfl⟩ := List.mem_map.mp member
  obtain ⟨event, isEvent, arrives⟩ := List.mem_filterMap.mp isArrival
  exact List.mem_filterMap.mpr ⟨event, isEvent, (httpKey_of_arrival arrives).1⟩

/-- Few sources do not fill a generation. -/
theorem room_of_fewKeys {now : Nat × Option Int}
    {inner : CrawlInner} (few : detector.FewKeys events)
    (holds : Holds (tagged detector.halfMemory (detector.arrivals events) []) now inner) :
    inner.seenCur.card < detector.cfg.maxTrackedIps / 2 := by
  refine lt_of_le_of_lt (Finset.card_le_card ?_) few
  intro key member
  have isTag := List.mem_map_of_mem (f := Prod.snd) ((holds.current key).mp member)
  rw [map_snd_tagged] at isTag
  exact List.mem_toFinset.mpr (mem_filterMap_httpKey isTag)

theorem Holds.of_sameMemory {tags : List (Nat × IpAddr)} {now : Nat × Option Int}
    {first second : CrawlInner} (holds : Holds tags now second)
    (same : SameMemory first second) : Holds tags now first where
  start := same.2.2 ▸ holds.start
  current := same.1 ▸ holds.current
  previous := same.2.1 ▸ holds.previous

/-- The memory after some events. -/
theorem innerAfter_holds (few : detector.FewKeys events) :
    Holds (tagged detector.halfMemory (detector.arrivals events) [])
      (present detector.halfMemory ((detector.arrivals events).map Prod.fst))
      (detector.innerAfter events) := by
  induction events using List.reverseRecOn with
  | nil => exact ⟨rfl, by simp [innerAfter, CrawlInner.new, arrivals, tagged], by
      simp [innerAfter, CrawlInner.new, arrivals, tagged]⟩
  | append_singleton events event ih =>
    have before := ih few.of_append
    rw [innerAfter, List.foldl_concat]
    change Holds _ _ (detector.recordInner (detector.innerAfter events) event)
    cases arrives : detector.arrival event with
    | none =>
      rw [recordInner_of_no_arrival arrives, arrivals_concat, arrives, Option.toList_none,
        List.append_nil]
      exact before
    | some entry =>
      obtain ⟨time, key⟩ := entry
      have rotated := rotate_holds before (fun _ => le_generation_of_mem_tagged)
        (room_of_fewKeys few.of_append before) time
      rw [← present_concat] at rotated
      rw [arrivals_concat, arrives, Option.toList_some, tagged_concat, List.map_append]
      exact (markSeen_holds key rotated).of_sameMemory (sameMemory_recordInner arrives)

/-- A source counts as seen before exactly if it is remembered. -/
theorem knownAt_iff (few : detector.FewKeys events)
    (event : NormalizedEvent) : detector.knownAt events event = true ↔
      Remembered detector.halfMemory (detector.arrivals events) (detector.key event)
        event.timestamp := by
  have before := innerAfter_holds few
  have past : ∀ tag ∈ tagged detector.halfMemory (detector.arrivals events) [],
      tag.1 ≤ (present detector.halfMemory ((detector.arrivals events).map Prod.fst)).1 :=
    fun _ => le_generation_of_mem_tagged
  have rotated := rotate_holds before past (room_of_fewKeys few before) event.timestamp
  rw [← present_concat] at rotated
  refine markSeen_eq_true_iff rotated ?_
  intro tag member
  exact (past tag member).trans (generation_le_concat _ _)

/-! ## What was documented -/

/-- The event is the latest request of a source among some. -/
def IsLatest (detector : DistributedCrawlDetector) (key : IpAddr) (events : List NormalizedEvent)
    (last : NormalizedEvent) : Prop :=
  ∃ front back, events = front ++ last :: back ∧ detector.httpKey last = some key ∧
    ∀ event ∈ back, detector.httpKey event ≠ some key

/-- The source of a request is treated by its age as documented. -/
def TreatedByAge (detector : DistributedCrawlDetector) (events : List NormalizedEvent)
    (last event : NormalizedEvent) : Prop :=
  let age := event.timestamp - last.timestamp
  (detector.cfg.freshIpMemory.asNanos < age → detector.knownAt events event = false) ∧
    (2 * age < detector.cfg.freshIpMemory.asNanos → detector.knownAt events event = true)

theorem halfMemory_eq (positive : 0 < detector.halfMemory) :
    detector.halfMemory = detector.cfg.freshIpMemory.asNanos / 2 := by
  rw [halfMemory, windowSpan] at positive ⊢
  cases converted : Duration.fromStd _ with
  | none =>
    rw [converted] at positive
    exact absurd positive (lt_irrefl _)
  | some span =>
    rw [Option.getD_some, ← (Duration.fromStd_eq_some_iff.mp converted).2]
    rw [StdDuration.asNanos, StdDuration.asNanos]
    change ((detector.cfg.freshIpMemory.secs.val / 2 : Nat) : Int) * 1000000000 +
      (((detector.cfg.freshIpMemory.secs.val % 2 * 1000000000 +
        detector.cfg.freshIpMemory.nanos.val) / 2 : Nat) : Int) = _
    omega

theorem le_add_half {now last memory half : Int} (half_eq : half = memory / 2)
    (young : 2 * (now - last) < memory) : now ≤ last + half := by
  omega

theorem arrivals_append (first second : List NormalizedEvent) :
    detector.arrivals (first ++ second) = detector.arrivals first ++ detector.arrivals second :=
  List.filterMap_append

/-- The times of the arrivals are those of events. -/
theorem exists_of_mem_times {time : DateTime}
    (member : time ∈ (detector.arrivals events).map Prod.fst) :
    ∃ event ∈ events, event.timestamp = time := by
  obtain ⟨⟨_, key⟩, isArrival, rfl⟩ := List.mem_map.mp member
  obtain ⟨event, isEvent, arrives⟩ := List.mem_filterMap.mp isArrival
  exact ⟨event, isEvent, (httpKey_of_arrival arrives).2⟩

/-- Requests that come in order, the first of them not long ago. -/
theorem near_of_ordered {back : List NormalizedEvent} {last : NormalizedEvent} {span : Int}
    (ordered : (last :: (back ++ [event])).Pairwise fun first second =>
      first.timestamp ≤ second.timestamp) (young : event.timestamp ≤ last.timestamp + span) :
    ∀ later ∈ (detector.arrivals back).map Prod.fst ++ [event.timestamp],
      last.timestamp ≤ later ∧ later ≤ last.timestamp + span := by
  rw [List.pairwise_cons, List.forall_mem_append, List.forall_mem_singleton,
    List.pairwise_append] at ordered
  rw [List.forall_mem_append, List.forall_mem_singleton]
  refine ⟨?_, ordered.1.2, young⟩
  intro later member
  obtain ⟨other, isOther, rfl⟩ := exists_of_mem_times member
  refine ⟨ordered.1.1 other isOther, le_trans ?_ young⟩
  exact ordered.2.2.2 other isOther event List.mem_cons_self

theorem remembered_of_young {last : NormalizedEvent}
    (ordered : (events ++ [event]).Pairwise fun first second => first.timestamp ≤ second.timestamp)
    (latest : IsLatest detector (detector.key event) events last)
    (positive : 0 < detector.halfMemory) (recorded : (detector.arrival last).isSome = true)
    (young : 2 * (event.timestamp - last.timestamp) < detector.cfg.freshIpMemory.asNanos) :
    Remembered detector.halfMemory (detector.arrivals events) (detector.key event)
      event.timestamp := by
  obtain ⟨front, back, rfl, isKey, -⟩ := latest
  obtain ⟨⟨time, key⟩, arrives⟩ := Option.isSome_iff_exists.mp recorded
  obtain ⟨sameKey, rfl⟩ := httpKey_of_arrival arrives
  rw [isKey] at sameKey
  cases sameKey
  have split : detector.arrivals (front ++ last :: back) = detector.arrivals front ++
      (last.timestamp, detector.key event) :: detector.arrivals back := by
    rw [arrivals_append]
    exact congrArg (detector.arrivals front ++ ·) (List.filterMap_cons_some arrives)
  rw [split]
  refine remembered_of_near positive (near_of_ordered ?_ ?_)
  · rw [List.append_assoc] at ordered
    exact (List.pairwise_append.mp ordered).2.1
  · exact le_add_half (halfMemory_eq positive) young

/-- A source is forgotten once another request came half the memory after its latest one and
half the memory ago. -/
theorem forgotten_after_gaps (detector : DistributedCrawlDetector)
    {front mid back : List NormalizedEvent} {last between event : NormalizedEvent}
    (ordered : (front ++ last :: mid ++ between :: (back ++ [event])).Pairwise
      fun first second => first.timestamp ≤ second.timestamp)
    (few : detector.FewKeys (front ++ last :: mid ++ between :: back))
    (noMore : ∀ later ∈ mid ++ between :: back,
      detector.httpKey later ≠ some (detector.key event))
    (recorded : (detector.arrival between).isSome = true)
    (firstGap : last.timestamp + detector.halfMemory ≤ between.timestamp)
    (secondGap : between.timestamp + detector.halfMemory ≤ event.timestamp) :
    detector.knownAt (front ++ last :: mid ++ between :: back) event = false := by
  rw [← Bool.not_eq_true, knownAt_iff few]
  obtain ⟨⟨time, other⟩, arrives⟩ := Option.isSome_iff_exists.mp recorded
  obtain ⟨-, rfl⟩ := httpKey_of_arrival arrives
  have arrivals_eq : detector.arrivals (mid ++ between :: back) = detector.arrivals mid ++
      (between.timestamp, other) :: detector.arrivals back := by
    rw [arrivals_append]
    exact congrArg (detector.arrivals mid ++ ·) (List.filterMap_cons_some arrives)
  have upToBetween := (List.pairwise_append.mp ordered).2.2
  have upToLast : ∀ earlier ∈ front ++ [last], earlier.timestamp ≤ last.timestamp := by
    rw [List.forall_mem_append, List.forall_mem_singleton]
    have inOrder := (List.pairwise_append.mp (List.pairwise_append.mp ordered).1).2.2
    exact ⟨fun earlier isEarlier => inOrder earlier isEarlier last List.mem_cons_self, le_rfl⟩
  rw [List.append_assoc, List.cons_append, List.append_cons, arrivals_append, arrivals_eq]
  refine not_remembered_of_gaps ?_ ?_ ?_
  · rw [← arrivals_eq]
    intro member
    obtain ⟨later, isLater, isKey⟩ := List.mem_filterMap.mp (mem_filterMap_httpKey member)
    exact noMore later isLater isKey
  · intro time member
    obtain ⟨earlier, isEarlier, rfl⟩ := exists_of_mem_times member
    exact (Int.add_le_add_right (upToLast earlier isEarlier) _).trans firstGap
  · rw [← List.map_append, ← arrivals_append, ← List.append_cons, List.forall_mem_append,
      List.forall_mem_singleton]
    refine ⟨fun time member => ?_, secondGap⟩
    obtain ⟨earlier, isEarlier, rfl⟩ := exists_of_mem_times member
    have notLater := upToBetween earlier isEarlier between List.mem_cons_self
    exact (Int.add_le_add_right notLater _).trans secondGap

/-- For requests in order that have few sources, a source is treated as documented exactly if
it is forgotten when it was last seen too long ago, and, when it was seen not long ago, half
the memory is a span of time and the last request had a path, or it is remembered anyway. -/
theorem freshness_by_age_iff (detector : DistributedCrawlDetector)
    (events : List NormalizedEvent) (last event : NormalizedEvent)
    (ordered : (events ++ [event]).Pairwise fun first second => first.timestamp ≤ second.timestamp)
    (few : detector.FewKeys (events ++ [event]))
    (latest : IsLatest detector (detector.key event) events last) :
    TreatedByAge detector events last event ↔
      (detector.cfg.freshIpMemory.asNanos < event.timestamp - last.timestamp →
        ¬Remembered detector.halfMemory (detector.arrivals events) (detector.key event)
          event.timestamp) ∧
      (2 * (event.timestamp - last.timestamp) < detector.cfg.freshIpMemory.asNanos →
        0 < detector.halfMemory ∧ (detector.arrival last).isSome = true ∨
          Remembered detector.halfMemory (detector.arrivals events) (detector.key event)
            event.timestamp) := by
  have known := knownAt_iff few.of_append event
  rw [TreatedByAge]
  refine and_congr (imp_congr_right fun _ => ?_) (imp_congr_right fun young => ?_)
  · rw [← known, Bool.not_eq_true]
  · rw [known]
    constructor
    · exact .inr
    · rintro (⟨positive, recorded⟩ | remembered)
      · exact remembered_of_young ordered latest positive recorded young
      · exact remembered

namespace Sample

def request (timestamp : DateTime) : NormalizedEvent where
  timestamp
  sourceIp := .v4 0x0a000001
  eventType := .httpRequest
  metadata := [⟨"path".toList, "/".toList⟩].toAList

def crawl : DistributedCrawlDetector :=
  withConfig .default

end Sample

open Sample in
theorem freshness_by_age_at_hour :
    TreatedByAge crawl [request 1700000000000000000] (request 1700000000000000000)
      (request 1700003600000000000) :=
  (freshness_by_age_iff crawl [request 1700000000000000000] (request 1700000000000000000)
    (request 1700003600000000000) (by decide) (by decide +kernel)
    ⟨[], [], rfl, by decide +kernel, by simp⟩).mpr
    ⟨fun old => absurd old (by decide +kernel), fun _ => .inl (by decide +kernel)⟩

open Sample in
/-- After a pause of ten days a source still counts as seen, though a day is remembered. -/
theorem source_remembered_after_pause :
    IsLatest crawl (crawl.key (request 1700864000000000000)) [request 1700000000000000000]
        (request 1700000000000000000) ∧
      crawl.FewKeys [request 1700000000000000000, request 1700864000000000000] ∧
      ¬TreatedByAge crawl [request 1700000000000000000] (request 1700000000000000000)
        (request 1700864000000000000) := by
  refine ⟨⟨[], [], rfl, by decide +kernel, by simp⟩, by decide +kernel, ?_⟩
  intro treated
  have forgotten := treated.1 (by decide +kernel)
  have known : crawl.knownAt [request 1700000000000000000] (request 1700864000000000000) =
      true := by
    decide +kernel
  rw [known] at forgotten
  cases forgotten

end HiveGuard.Detectors.DistributedCrawlDetector
