import HiveGuard.Detectors.Campaign
import HiveGuard.Library.Bag

/-!
# When the campaign detector returns

The detector compares the path of a request with a slice that has the length of an
endpoint in bytes, subtracts the window from the time of the event and counts with
machine integers.  This module says from the state before an event and from the event
whether all of that succeeds.  In every state that can be reached, also after panics, no
counter of an address is zero, so leaving the window never fails.
-/

namespace HiveGuard.Detectors

open HiveGuard.Core Library Library.Bag Library.Dictionary Library.Effect Library.Fallible
open Library.Text

namespace CampaignDetector

/-! ## Endpoints -/

/-- The path begins with the endpoint, ignoring the case of ASCII letters. -/
def begins (path endpoint : List Char) : Bool :=
  eqIgnoreAsciiCase (path.take endpoint.length) endpoint

/-- The offset lies between two characters of the text, or at one of its ends. -/
def IsBoundary (text : List Char) (offset : Nat) : Prop :=
  ∃ front, front <+: text ∧ byteLength front = offset

/-- No endpoint that is compared with the path cuts a character of it: those before the
first one that begins the path are longer than the path or end at a boundary. -/
def SlicesFit (endpoints : List (List Char)) (path : List Char) : Prop :=
  ∀ endpoint ∈ endpoints.takeWhile fun endpoint => !begins path endpoint,
    byteLength endpoint ≤ byteLength path → IsBoundary path (byteLength endpoint)

theorem length_of_eqIgnoreAsciiCase {first second : List Char}
    (same : eqIgnoreAsciiCase first second = true) : first.length = second.length := by
  have := congrArg List.length (eq_of_beq same)
  rwa [List.length_map, List.length_map] at this

variable {path endpoint : List Char}

theorem begins_of_front {front : List Char} (starts : front <+: path)
    (same : eqIgnoreAsciiCase front endpoint = true) : begins path endpoint = true := by
  rw [begins, ← length_of_eqIgnoreAsciiCase same, ← List.prefix_iff_eq_take.mp starts]
  exact same

/-- An endpoint that begins the path is found by the slice. -/
theorem sliceTo_of_begins (starts : begins path endpoint = true) :
    byteLength endpoint ≤ byteLength path ∧
      sliceTo path (byteLength endpoint) = some (path.take endpoint.length) := by
  have length_eq := byteLength_of_eqIgnoreAsciiCase starts
  have path_eq := List.take_append_drop endpoint.length path
  constructor
  · rw [← length_eq]
    conv_rhs => rw [← path_eq, byteLength_append]
    exact Nat.le_add_right _ _
  · exact sliceTo_eq_some_iff.mpr ⟨List.take_prefix _ _, length_eq⟩

theorem slicesFit_cons_of_begins {endpoints : List (List Char)}
    (starts : begins path endpoint = true) : SlicesFit (endpoint :: endpoints) path := by
  rw [SlicesFit, List.takeWhile_cons_of_neg (by simp [starts])]
  exact nofun

theorem slicesFit_cons_iff {endpoints : List (List Char)}
    (other : begins path endpoint = false) :
    SlicesFit (endpoint :: endpoints) path ↔
      (byteLength endpoint ≤ byteLength path → IsBoundary path (byteLength endpoint)) ∧
        SlicesFit endpoints path := by
  rw [SlicesFit, List.takeWhile_cons_of_pos (by simp [other]), List.forall_mem_cons]
  rfl

/-- The endpoints are searched to the end or to the first one that begins the path,
unless a slice cuts a character. -/
theorem findEndpoint_spec (path : List Char) (endpoints : List (List Char)) :
    (SlicesFit endpoints path ∧
      findEndpoint path endpoints = attempt (endpoints.find? (begins path))) ∨
      ¬SlicesFit endpoints path ∧ findEndpoint path endpoints = none := by
  induction endpoints with
  | nil => exact .inl ⟨nofun, rfl⟩
  | cons endpoint endpoints ih =>
    rw [findEndpoint]
    cases starts : begins path endpoint with
    | true =>
      rcases sliceTo_of_begins starts with ⟨fits, found⟩
      have same : eqIgnoreAsciiCase (path.take endpoint.length) endpoint = true := starts
      refine .inl ⟨slicesFit_cons_of_begins starts, ?_⟩
      rw [if_pos fits, found, checked_bind_some, if_pos same, List.find?_cons_of_pos starts]
      rfl
    | false =>
      rw [slicesFit_cons_iff starts, List.find?_cons_of_neg (by simp [starts])]
      by_cases fits : byteLength endpoint ≤ byteLength path
      · rw [if_pos fits]
        cases found : sliceTo path (byteLength endpoint) with
        | none =>
          refine .inr ⟨?_, rfl⟩
          rintro ⟨boundary, -⟩
          rcases boundary fits with ⟨front, starts, length_eq⟩
          rw [sliceTo_eq_some_iff.mpr ⟨starts, length_eq⟩] at found
          cases found
        | some front =>
          rcases sliceTo_eq_some_iff.mp found with ⟨frontStarts, length_eq⟩
          have differs : eqIgnoreAsciiCase front endpoint = false := by
            rw [← Bool.not_eq_true]
            intro same
            rw [begins_of_front frontStarts same] at starts
            cases starts
          rw [checked_bind_some, differs, if_neg (by simp),
            and_iff_right fun _ => ⟨front, frontStarts, length_eq⟩]
          exact ih
      · rw [if_neg fits, and_iff_right fun fits' => absurd fits' fits]
        exact ih

end CampaignDetector

/-! ## The window of a key -/

namespace KeyState

/-- No address is counted with zero. -/
def Positive (state : KeyState) : Prop :=
  ∀ ip, state.ipCounts.lookup ip ≠ some 0

def addresses (hits : List (DateTime × IpAddr)) : Multiset IpAddr :=
  hits.map Prod.snd

theorem addresses_append (first second : List (DateTime × IpAddr)) :
    addresses (first ++ second) = addresses first + addresses second := by
  rw [addresses, List.map_append, ← Multiset.coe_add]
  rfl

/-- The hits before the cutoff, from the front. -/
def expired (cutoff : DateTime) (hits : List (DateTime × IpAddr)) : Nat :=
  (hits.takeWhile fun hit => decide (hit.1 < cutoff)).length

/-- How many hits leave the window: those before the cutoff, and one more to make room. -/
def leaving (maxHits : Nat) (cutoff : DateTime) (hits : List (DateTime × IpAddr)) : Nat :=
  if maxHits ≤ hits.length - expired cutoff hits then expired cutoff hits + 1
  else expired cutoff hits

/-- The hot period and its flags are unchanged. -/
def SameHeat (source target : KeyState) : Prop :=
  target.hotUntil = source.hotUntil ∧ target.flagged = source.flagged

/-- The state after some of the first hits have left. -/
structure Slides (source : KeyState) (bag : Multiset IpAddr) (count : Nat) (target : KeyState) :
    Prop where
  hits : target.hits = source.hits.drop count
  represents : Represents target.ipCounts (bag - addresses (source.hits.take count))
  hotUntil : target.hotUntil = source.hotUntil

section Window

variable {source middle target : KeyState} {bag : Multiset IpAddr}

theorem SameHeat.refl (state : KeyState) : SameHeat state state :=
  ⟨rfl, rfl⟩

theorem SameHeat.trans (first : SameHeat source middle) (second : SameHeat middle target) :
    SameHeat source target :=
  ⟨second.1.trans first.1, second.2.trans first.2⟩

theorem Slides.refl (represents : Represents source.ipCounts bag) : Slides source bag 0 source where
  hits := rfl
  represents := by
    have none_leaves : addresses (source.hits.take 0) = 0 := rfl
    rw [none_leaves, Multiset.sub_zero]
    exact represents
  hotUntil := rfl

theorem Slides.trans {first second : Nat} (before : Slides source bag first middle)
    (after : Slides middle (bag - addresses (source.hits.take first)) second target) :
    Slides source bag (first + second) target where
  hits := by rw [after.hits, before.hits, List.drop_drop]
  represents := by
    have counts := after.represents
    rw [before.hits, tsub_tsub, ← addresses_append, ← List.take_add] at counts
    exact counts
  hotUntil := after.hotUntil.trans before.hotUntil

theorem uncount_ends (source : KeyState) (ip : IpAddr)
    (represents : Represents source.ipCounts bag) :
    Ends (uncount ip) source
      (fun _ target => target.hits = source.hits ∧ Represents target.ipCounts (bag.erase ip) ∧
        SameHeat source target) fun _ _ => False := by
  refine .get_bind ?_
  split
  · rename_i absent
    refine ⟨rfl, ?_, .refl source⟩
    rw [Multiset.erase_of_notMem (represents.notMem absent)]
    exact represents
  · rename_i zero
    exact represents.lookup_ne_zero ip zero
  · rename_i count found
    exact ⟨rfl, represents.erase found, rfl, rfl⟩

theorem popFront_ends (represents : Represents source.ipCounts bag) :
    Ends popFront source (fun _ target => Slides source bag 1 target ∧ SameHeat source target)
      fun _ _ => False := by
  refine .get_bind ?_
  split
  · rename_i empty
    have none_leaves : addresses (source.hits.take 1) = 0 := by rw [empty]; rfl
    refine ⟨⟨by rw [empty]; rfl, ?_, rfl⟩, .refl source⟩
    rw [none_leaves, Multiset.sub_zero]
    exact represents
  · rename_i time ip hits first
    have one_leaves : addresses (source.hits.take 1) = ip ::ₘ 0 := by rw [first]; rfl
    refine .set_bind ((uncount_ends { source with hits } ip represents).imp ?_
      fun _ _ impossible => impossible)
    rintro _ target ⟨sameHits, counts, sameHeat⟩
    refine ⟨⟨by rw [first]; exact sameHits, ?_, sameHeat.1⟩, sameHeat⟩
    rw [one_leaves, Multiset.sub_cons, Multiset.sub_zero]
    exact counts

theorem pruneLoop_ends (cutoff : DateTime) {fuel : Nat} (enough : source.hits.length ≤ fuel)
    (represents : Represents source.ipCounts bag) :
    Ends (pruneLoop cutoff fuel) source
      (fun _ target => Slides source bag (expired cutoff source.hits) target ∧
        SameHeat source target) fun _ _ => False := by
  induction fuel generalizing source bag with
  | zero =>
    have empty : source.hits = [] := List.eq_nil_of_length_eq_zero (Nat.le_zero.mp enough)
    have none_leaves : expired cutoff source.hits = 0 := by rw [empty]; rfl
    rw [none_leaves]
    exact ⟨.refl represents, .refl source⟩
  | succ fuel ih =>
    refine .get_bind ?_
    split
    · rename_i empty
      have none_leaves : expired cutoff source.hits = 0 := by rw [empty]; rfl
      rw [none_leaves]
      exact ⟨.refl represents, .refl source⟩
    · rename_i time ip hits first
      split
      · rename_i old
        have one_leaves : expired cutoff source.hits = 1 + expired cutoff hits := by
          rw [first, expired, List.takeWhile_cons_of_pos (by simpa using old),
            List.length_cons, Nat.add_comm, expired]
        rw [one_leaves]
        refine .bind ((popFront_ends represents).imp ?_ fun _ _ impossible => impossible)
        rintro _ middle ⟨slides, sameHeat⟩
        have rest_eq : middle.hits = hits := by rw [slides.hits, first]; rfl
        have shorter : middle.hits.length ≤ fuel := by
          rw [first, List.length_cons] at enough
          rw [rest_eq]
          omega
        refine (ih shorter slides.represents).imp ?_
          fun _ _ impossible => impossible
        rintro _ target ⟨later, stillHeat⟩
        rw [rest_eq] at later
        exact ⟨slides.trans later, sameHeat.trans stillHeat⟩
      · rename_i recent
        have none_leaves : expired cutoff source.hits = 0 := by
          rw [first, expired, List.takeWhile_cons_of_neg (by simpa using recent)]
          rfl
        rw [none_leaves]
        exact ⟨.refl represents, .refl source⟩

/-- The window slides without a panic. -/
theorem prune_ends (cutoff : DateTime) (represents : Represents source.ipCounts bag) :
    Ends (prune cutoff) source
      (fun _ target => Slides source bag (expired cutoff source.hits) target ∧
        SameHeat source target) fun _ _ => False :=
  .get_bind (pruneLoop_ends cutoff le_rfl represents)

theorem count_ends (source : KeyState) (ip : IpAddr) (represents : Represents source.ipCounts bag) :
    Ends (count ip) source (fun _ target => bag.count ip + 1 < 2 ^ 32 ∧ target.hits = source.hits ∧
        Represents target.ipCounts (ip ::ₘ bag) ∧ SameHeat source target)
      fun _ target => ¬bag.count ip + 1 < 2 ^ 32 ∧ target = source := by
  refine .get_bind ?_
  rw [← represents.getD_lookup]
  dsimp only
  split
  · rename_i fits
    exact ⟨fits, rfl, represents.cons ip, rfl, rfl⟩
  · rename_i full
    exact ⟨full, rfl⟩

theorem isHot_coolDown (state : KeyState) (now : DateTime) :
    (coolDown now state).isHot now = state.isHot now := by
  rw [coolDown]
  split
  · rename_i ended
    rw [Bool.and_eq_true, Bool.not_eq_true'] at ended
    rw [ended.2]
    rfl
  · rfl

theorem coolDown_window (state : KeyState) (now : DateTime) :
    (coolDown now state).hits = state.hits ∧ (coolDown now state).ipCounts = state.ipCounts := by
  rw [coolDown]
  split
  · exact ⟨rfl, rfl⟩
  · exact ⟨rfl, rfl⟩

end Window

theorem positive_of_represents {state : KeyState} {bag : Multiset IpAddr}
    (represents : Represents state.ipCounts bag) : state.Positive :=
  represents.lookup_ne_zero

/-! ## Recording a hit -/

/-- The addresses counted for a key after hits have left its window. -/
def remaining (maxHits : Nat) (cutoff : DateTime) (state : KeyState) : Multiset IpAddr :=
  toBag state.ipCounts - addresses (state.hits.take (leaving maxHits cutoff state.hits))

/-- The time has a date. -/
def InRange (time : DateTime) : Prop :=
  DateTime.minUtc ≤ time ∧ time ≤ DateTime.maxUtc

/-- The start of the window has a date and the counter of the address has room. -/
def RecordFits (maxHits : Nat) (window : Duration) (ip : IpAddr) (now : DateTime)
    (state : KeyState) : Prop :=
  InRange (now - window) ∧ (remaining maxHits (now - window) state).count ip + 1 < 2 ^ 32

/-- The state with a further hit. -/
structure Records (maxHits : Nat) (window : Duration) (ip : IpAddr) (now : DateTime)
    (source target : KeyState) : Prop where
  hits : target.hits.length =
    source.hits.length - leaving maxHits (now - window) source.hits + 1
  represents : Represents target.ipCounts (ip ::ₘ remaining maxHits (now - window) source)
  isHot : target.isHot now = source.isHot now

/-- The window with a further hit, whose counters count the addresses of the bag. -/
structure Adds (hit : DateTime × IpAddr) (number : Nat) (source : KeyState)
    (bag : Multiset IpAddr) (target : KeyState) : Prop where
  hits : target.hits = source.hits.drop number ++ [hit]
  represents : Represents target.ipCounts bag
  sameHeat : SameHeat source target

theorem Ends.checkedAddSigned {σ α : Type} {time : DateTime} {duration : Duration}
    {next : DateTime → EStateM Unit σ α} {source : σ} {returns : α → σ → Prop}
    {fails : Unit → σ → Prop}
    (present : InRange (time + duration) → Ends (next (time + duration)) source returns fails)
    (absent : ¬InRange (time + duration) → fails () source) :
    Ends (expect () (time.checkedAddSigned duration) >>= next) source returns fails := by
  refine .bind (.expect ?_ ?_)
  · intro sum found
    rcases DateTime.checkedAddSigned_eq_some_iff.mp found with ⟨fits, rfl⟩
    exact present fits
  · intro missing
    refine absent fun fits => ?_
    rw [DateTime.checkedAddSigned_eq_some_iff.mpr ⟨fits, rfl⟩] at missing
    cases missing

section Recording

variable {maxHits : Nat} {window : Duration} {ip : IpAddr} {now : DateTime}
  {source slid : KeyState} {bag : Multiset IpAddr} {number : Nat}

/-- The hit is added at the end of the window and counted, or panics at its counter. -/
theorem addHit_ends (slides : Slides source bag number slid) (sameHeat : SameHeat source slid) :
    Ends (do
        modify fun state => { state with hits := state.hits ++ [(now, ip)] }
        count ip
        modify fun state => coolDown now { state with lastSeen := now }) slid
      (fun _ target => (bag - addresses (source.hits.take number)).count ip + 1 < 2 ^ 32 ∧
        ∃ added, Adds (now, ip) number source (ip ::ₘ (bag - addresses (source.hits.take number)))
          added ∧ target = coolDown now added)
      fun _ target => ¬(bag - addresses (source.hits.take number)).count ip + 1 < 2 ^ 32 ∧
        Adds (now, ip) number source (bag - addresses (source.hits.take number)) target := by
  let pushed := { slid with hits := slid.hits ++ [(now, ip)] }
  have pushed_eq : pushed.hits = source.hits.drop number ++ [(now, ip)] :=
    congrArg (· ++ [(now, ip)]) slides.hits
  refine .modify_bind (.bind ((count_ends pushed ip slides.represents).imp ?_ ?_))
  · rintro _ counted ⟨fits, sameHits, represents, stillHeat⟩
    refine ⟨fits, { counted with lastSeen := now }, ⟨?_, represents, ?_⟩, rfl⟩
    · exact sameHits.trans pushed_eq
    · exact sameHeat.trans stillHeat
  · rintro _ target ⟨full, rfl⟩
    exact ⟨full, pushed_eq, slides.represents, sameHeat⟩

/-- The walk through `record`: it ends before the window changes, at the counter of the
address, or with the hit. -/
theorem record_adds (represents : Represents source.ipCounts bag) :
    let number := leaving maxHits (now - window) source.hits
    let rest := bag - addresses (source.hits.take number)
    Ends (record maxHits window ip now) source
      (fun _ target => InRange (now - window) ∧ rest.count ip + 1 < 2 ^ 32 ∧
        ∃ added, Adds (now, ip) number source (ip ::ₘ rest) added ∧ target = coolDown now added)
      fun _ target => ¬InRange (now - window) ∧ target = source ∨
        ¬rest.count ip + 1 < 2 ^ 32 ∧ Adds (now, ip) number source rest target := by
  refine Ends.checkedAddSigned (fun inRange => ?_) fun out => .inl ⟨out, rfl⟩
  refine .bind ((prune_ends _ represents).imp ?_ fun _ _ impossible => impossible.elim)
  rintro _ pruned ⟨expires, sameHeat⟩
  have length_eq : pruned.hits.length =
      source.hits.length - expired (now - window) source.hits := by
    rw [expires.hits, List.length_drop]
    rfl
  refine .get_bind ?_
  dsimp only
  split
  · rename_i full
    rw [length_eq] at full
    refine .bind ((popFront_ends expires.represents).imp ?_
      fun _ _ impossible => impossible.elim)
    rintro _ slid ⟨slides, stillHeat⟩
    rw [leaving, if_pos full]
    exact (addHit_ends (expires.trans slides) (sameHeat.trans stillHeat)).imp
      (fun _ _ => .intro inRange) fun _ _ => .inr
  · rename_i room
    rw [length_eq] at room
    rw [leaving, if_neg room]
    exact (addHit_ends expires sameHeat).imp (fun _ _ => .intro inRange) fun _ _ => .inr

theorem record_ends (positive : source.Positive) :
    Ends (record maxHits window ip now) source
      (fun _ target => RecordFits maxHits window ip now source ∧
        Records maxHits window ip now source target)
      fun _ target => ¬RecordFits maxHits window ip now source ∧ target.Positive := by
  refine (record_adds (represents_toBag positive)).imp ?_ ?_
  · rintro _ _ ⟨inRange, fits, added, adds, rfl⟩
    rcases coolDown_window added now with ⟨cooledHits, cooledCounts⟩
    refine ⟨⟨inRange, fits⟩, ?_, ?_, ?_⟩
    · rw [cooledHits, adds.hits, List.length_append, List.length_drop]
      rfl
    · rw [cooledCounts]
      exact adds.represents
    · rw [isHot_coolDown, isHot, adds.sameHeat.1]
      rfl
  · rintro _ target (⟨out, rfl⟩ | ⟨full, adds⟩)
    · exact ⟨fun fits => out fits.1, positive⟩
    · exact ⟨fun fits => full fits.2, positive_of_represents adds.represents⟩

end Recording

end KeyState

/-! ## Hits -/

namespace CampaignDetector

open KeyState

/-- Every key that is kept counts no address with zero. -/
def Sound (keys : Dict (List Char) KeyState) : Prop :=
  ∀ key state, keys.lookup key = some state → state.Positive

/-- The state a hit of the key starts from. -/
def stateAt (key : List Char) (now : DateTime) (keys : Dict (List Char) KeyState) : KeyState :=
  (keys.lookup key).getD (.new .userAgent [] now)

section Hits

variable (env : CampaignEnv) (detector : CampaignDetector)

/-- If the key is or becomes hot, the end of the hot period has a date. -/
def ReactFits (minIps : Nat) (now : DateTime) (hot : Bool) (distinct requests : Nat) : Prop :=
  (hot = true ∨ minIps ≤ distinct ∧ detector.cfg.minRequests ≤ requests) →
    InRange (now + detector.hotOf)

/-- A hit of a key succeeds from its state. -/
def HitFits (minIps : Nat) (ip : IpAddr) (now : DateTime) (state : KeyState) : Prop :=
  let cutoff := now - detector.windowOf
  let kept := remaining detector.cfg.maxHitsPerKey cutoff state
  let left := leaving detector.cfg.maxHitsPerKey cutoff state.hits
  RecordFits detector.cfg.maxHitsPerKey detector.windowOf ip now state ∧
    detector.ReactFits minIps now (state.isHot now) (ip ::ₘ kept).toFinset.card
      (state.hits.length - left + 1)

variable {env detector}

variable {minIps : Nat} {ip : IpAddr} {now : DateTime} {state : KeyState}

theorem react_ends
    {pending : List Pending} :
    Ends (detector.react env minIps ip now) (state, pending)
      (fun _ target => detector.ReactFits minIps now (state.isHot now)
        state.ipCounts.entries.length state.hits.length ∧ target.1.ipCounts = state.ipCounts)
      fun _ target => ¬detector.ReactFits minIps now (state.isHot now)
        state.ipCounts.entries.length state.hits.length ∧ target.1.ipCounts = state.ipCounts := by
  refine .get_bind ?_
  dsimp only
  split
  · rename_i hot
    refine Ends.checkedAddSigned ?_ ?_
    · intro inRange
      split
      · exact ⟨fun _ => inRange, rfl⟩
      · exact ⟨fun _ => inRange, rfl⟩
    · exact fun out => ⟨fun fits => out (fits (.inl hot)), rfl⟩
  · rename_i cool
    split
    · rename_i few
      refine ⟨?_, rfl⟩
      rintro (hot | ⟨enoughIps, enoughRequests⟩)
      · exact absurd hot cool
      · omega
    · rename_i enough
      have enough' : minIps ≤ state.ipCounts.entries.length ∧
          detector.cfg.minRequests ≤ state.hits.length := by
        omega
      refine Ends.checkedAddSigned ?_ ?_
      · exact fun inRange => ⟨fun _ => inRange, rfl⟩
      · exact fun out => ⟨fun fits => out (fits (.inr enough')), rfl⟩

variable {keys : Dict (List Char) KeyState}

theorem sound_of_lookup {kept : Dict (List Char) KeyState} (sound : Sound keys)
    (subset : ∀ key state, kept.lookup key = some state → keys.lookup key = some state) :
    Sound kept :=
  fun key state found => sound key state (subset key state found)

theorem positive_stateAt (sound : Sound keys) (key : List Char)
    (kind : KeyKind) (label : List Char) (now : DateTime) :
    ((keys.lookup key).getD (.new kind label now)).Positive := by
  cases found : keys.lookup key with
  | none =>
    intro ip
    rw [Option.getD_none, KeyState.new, AList.lookup_empty]
    exact nofun
  | some state => exact sound key state found

theorem sound_insert (sound : Sound keys) (key : List Char) (positive : state.Positive) : Sound
    (keys.insert key state) := by
  intro other found lookup_eq
  rw [lookup_insert] at lookup_eq
  split at lookup_eq
  · cases lookup_eq
    exact positive
  · exact sound other found lookup_eq

/-! ### Room for a key -/

variable {key : List Char}

theorem lookup_of_lookup_sweep
    (found : (detector.sweep now keys).lookup key = some state) : keys.lookup key = some state := by
  rw [sweep, lookup_retain, Option.filter_eq_some_iff] at found
  exact found.1

theorem lookup_of_lookup_evict {fuel : Nat}
    (found : (detector.evict env now fuel keys).lookup key = some state) :
    keys.lookup key = some state := by
  induction fuel generalizing keys with
  | zero => exact found
  | succ fuel ih =>
    rw [evict] at found
    split at found
    · split at found
      · have kept := ih found
        rw [lookup_erase] at kept
        split at kept
        · cases kept
        · exact kept
      · exact found
    · exact found

theorem lookup_of_lookup_roomFor {other : List Char}
    (found : (detector.roomFor env key now keys).lookup other = some state) :
    keys.lookup other = some state := by
  rw [roomFor] at found
  split at found
  · exact found
  · rw [makeRoom] at found
    split at found
    · exact found
    · exact lookup_of_lookup_sweep (lookup_of_lookup_evict found)

/-- Making room for a key leaves the key itself as it is. -/
theorem lookup_roomFor_self (key : List Char) (now : DateTime) (keys : Dict (List Char) KeyState) :
    (detector.roomFor env key now keys).lookup key = keys.lookup key := by
  cases found : (detector.roomFor env key now keys).lookup key with
  | some state => exact (lookup_of_lookup_roomFor found).symm
  | none =>
    rw [roomFor] at found
    split at found
    · exact found.symm
    · rename_i absent
      exact (AList.lookup_eq_none.mpr absent).symm

/-! ### One hit -/

theorem hitFits_getD_iff {label : List Char}
    {kind : KeyKind} :
    detector.HitFits minIps ip now ((keys.lookup key).getD (.new kind label now)) ↔
      detector.HitFits minIps ip now (stateAt key now keys) := by
  rw [stateAt]
  cases keys.lookup key with
  | none => exact Iff.rfl
  | some state => exact Iff.rfl

theorem hit_ends {kind : KeyKind} {label : List Char} {inner : Inner} (sound : Sound inner.keys) :
    Ends (detector.hit env key kind label minIps ip now) inner
      (fun _ target => detector.HitFits minIps ip now (stateAt key now inner.keys) ∧
        Sound target.keys ∧ ∀ other, other ≠ key →
          target.keys.lookup other = (detector.roomFor env key now inner.keys).lookup other)
      fun _ target => ¬detector.HitFits minIps ip now (stateAt key now inner.keys) ∧
        Sound target.keys := by
  have roomSound : Sound (detector.roomFor env key now inner.keys) :=
    sound_of_lookup sound fun _ _ => lookup_of_lookup_roomFor
  have positive := positive_stateAt roomSound key kind label now
  have fits_iff : detector.HitFits minIps ip now
      ((inner.keys.lookup key).getD (.new kind label now)) ↔ _ := hitFits_getD_iff
  rw [← fits_iff, ← lookup_roomFor_self key now inner.keys]
  refine .modify_bind (.zoom (.bind (.zoom ((record_ends positive).imp ?_ ?_))))
  · rintro _ recorded ⟨recordFits, records⟩
    have stillPositive := positive_of_represents records.represents
    refine react_ends.imp ?_ ?_
    · rintro _ ⟨state, pending⟩ ⟨reactFits, sameCounts⟩
      rw [records.isHot, records.represents.length_entries, records.hits] at reactFits
      refine ⟨⟨recordFits, reactFits⟩, sound_insert roomSound key ?_, ?_⟩
      · rw [Positive, sameCounts]
        exact stillPositive
      · intro other different
        exact (lookup_insert _ _ _ _).trans (if_neg different)
    · rintro _ ⟨state, pending⟩ ⟨overflows, sameCounts⟩
      rw [records.isHot, records.represents.length_entries, records.hits] at overflows
      refine ⟨fun fits => overflows fits.2, sound_insert roomSound key ?_⟩
      rw [Positive, sameCounts]
      exact stillPositive
  · rintro _ target ⟨overflows, kept⟩
    exact ⟨fun fits => overflows fits.1, sound_insert roomSound key kept⟩

end Hits

/-! ## Counted requests -/

section Requests

variable (env : CampaignEnv) (detector : CampaignDetector)

/-- The keys when a request is counted. -/
def keysAtRequest (inner : Inner) (now : DateTime) : Dict (List Char) KeyState :=
  if sweepEvery ∣ inner.matchedEvents + 1 then detector.sweep now inner.keys else inner.keys

/-- The number of the request fits, and so does the hit of each of its keys. -/
def RequestFits (inner : Inner) (request : CountedRequest) (ip : IpAddr) (now : DateTime) :
    Prop :=
  let keys := detector.keysAtRequest inner now
  inner.matchedEvents + 1 < 2 ^ 64 ∧
    detector.HitFits detector.cfg.minDistinctIps ip now (stateAt (uaKey request) now keys) ∧
      ∀ vhost, detector.countedVhost request = some vhost →
        detector.HitFits detector.cfg.vhostMinDistinctIps ip now
          (stateAt (vhostKey request vhost) now (detector.roomFor env (uaKey request) now keys))

variable {env detector}

variable {inner : Inner}

theorem countEvent_ends {now : DateTime} :
    Ends (detector.countEvent now) inner (fun _ target => inner.matchedEvents + 1 < 2 ^ 64 ∧
        target.keys = detector.keysAtRequest inner now)
      fun _ target => ¬inner.matchedEvents + 1 < 2 ^ 64 ∧ target = inner := by
  refine .get_bind ?_
  split
  · rename_i fits
    exact ⟨fits, rfl⟩
  · rename_i full
    exact ⟨full, rfl⟩

/-- A text is cut between characters. -/
theorem truncate_ne_none (text : List Char) (max : Nat) : truncate text max ≠ none := by
  rw [truncate]
  split
  · rw [sliceTo_eq_some_iff.mpr ⟨List.take_prefix max text, rfl⟩]
    exact nofun
  · exact nofun

theorem vhostKey_ne_uaKey (request : CountedRequest) (vhost : List Char) :
    vhostKey request vhost ≠ uaKey request := by
  intro same
  have first := congrArg List.head? same
  simp [vhostKey, uaKey] at first

theorem countRequest_ends {request : CountedRequest} {ip : IpAddr}
    {now : DateTime} (sound : Sound inner.keys) :
    Ends (detector.countRequest env request ip now) inner
      (fun _ target => detector.RequestFits env inner request ip now ∧ Sound target.keys)
      fun _ target => ¬detector.RequestFits env inner request ip now ∧ Sound target.keys := by
  refine .bind (countEvent_ends.imp ?_ ?_)
  · rintro _ counted ⟨numberFits, keys_eq⟩
    have countedSound : Sound counted.keys := by
      rw [keys_eq, keysAtRequest]
      split
      · exact sound_of_lookup sound fun _ _ => lookup_of_lookup_sweep
      · exact sound
    refine .bind (.expect ?_ fun missing => absurd missing (truncate_ne_none _ _))
    intro agent _
    refine .bind ((hit_ends countedSound).imp ?_ ?_)
    · rintro signals hit ⟨uaFits, hitSound, others⟩
      rw [keys_eq] at uaFits others
      cases vhost_eq : detector.countedVhost request with
      | none =>
        refine ⟨⟨numberFits, uaFits, ?_⟩, hitSound⟩
        intro vhost counted
        rw [vhost_eq] at counted
        cases counted
      | some vhost =>
        have same : stateAt (vhostKey request vhost) now hit.keys =
            stateAt (vhostKey request vhost) now
              (detector.roomFor env (uaKey request) now (detector.keysAtRequest inner now)) := by
          rw [stateAt, others _ (vhostKey_ne_uaKey request vhost), stateAt]
        refine .bind ((hit_ends hitSound).imp ?_ ?_)
        · rintro _ target ⟨vhostFits, targetSound, -⟩
          rw [same] at vhostFits
          refine ⟨⟨numberFits, uaFits, ?_⟩, targetSound⟩
          intro other counted
          rw [vhost_eq] at counted
          cases counted
          exact vhostFits
        · rintro _ target ⟨overflows, targetSound⟩
          rw [same] at overflows
          exact ⟨fun fits => overflows (fits.2.2 vhost vhost_eq), targetSound⟩
    · rintro _ target ⟨overflows, targetSound⟩
      rw [keys_eq] at overflows
      exact ⟨fun fits => overflows fits.2.1, targetSound⟩
  · rintro _ target ⟨full, rfl⟩
    exact ⟨fun fits => full fits.1, sound⟩

/-! ## Events -/

variable (env detector)

/-- The path of a request whose method is counted. -/
def requestPath (event : NormalizedEvent) : Option (List Char) :=
  (event.metadata.lookup "method".toList).bind fun method =>
    if detector.methodsUpper.contains (method.map Char.toUpper) then
      event.metadata.lookup "path".toList
    else
      none

/-- The request of an event, with the first endpoint that begins its path. -/
def countedRequest (event : NormalizedEvent) : Option CountedRequest :=
  (detector.requestPath event).bind fun path =>
    (detector.cfg.paths.find? (begins (stripQuery path))).bind fun endpoint =>
      if detector.isCounted event then
        some ⟨((event.metadata.lookup "method".toList).getD []).map Char.toUpper, endpoint,
          userAgentOf event, vhostOf event⟩
      else
        none

/-- No endpoint cuts a character of the path. -/
def PathFits (event : NormalizedEvent) : Prop :=
  ∀ path, detector.requestPath event = some path →
    SlicesFit detector.cfg.paths (stripQuery path)

/-- Nothing about the event makes the detector panic in this state. -/
def Harmless (inner : Inner) (event : NormalizedEvent) : Prop :=
  isHttp event = true → detector.PathFits event ∧
    ∀ request, detector.countedRequest event = some request →
      detector.RequestFits env inner request event.sourceIp event.timestamp

variable {env detector}

theorem screen_spec (detector : CampaignDetector) (event : NormalizedEvent) :
    (detector.PathFits event ∧ detector.screen event = attempt (detector.countedRequest event)) ∨
      ¬detector.PathFits event ∧ detector.screen event = none := by
  rw [screen, PathFits, countedRequest, requestPath]
  cases method_eq : event.metadata.lookup "method".toList with
  | none => exact .inl ⟨nofun, rfl⟩
  | some method =>
    rw [attempt_bind_some, Option.bind_some]
    split
    · rename_i listed
      cases path_eq : event.metadata.lookup "path".toList with
      | none => exact .inl ⟨nofun, rfl⟩
      | some path =>
        rw [attempt_bind_some, matchedEndpoint]
        rcases findEndpoint_spec (stripQuery path) detector.cfg.paths with
          ⟨fits, found⟩ | ⟨cuts, found⟩
        · refine .inl ⟨?_, ?_⟩
          · rintro other same
            cases same
            exact fits
          · rw [found, Option.bind_some]
            cases detector.cfg.paths.find? (begins (stripQuery path)) with
            | none => rfl
            | some endpoint =>
              rw [attempt_bind_some, Option.bind_some]
              split
              · rfl
              · rfl
        · refine .inr ⟨fun fits => cuts (fits path rfl), ?_⟩
          rw [found]
          rfl
    · exact .inl ⟨nofun, rfl⟩

theorem processHttp_ends (inner : Inner) {event : NormalizedEvent} (sound : Sound inner.keys)
    (http : isHttp event = true) :
    Ends (detector.processHttp env event) inner
      (fun _ target => detector.Harmless env inner event ∧ Sound target.keys)
      fun _ target => ¬detector.Harmless env inner event ∧ Sound target.keys := by
  rw [processHttp]
  rcases screen_spec detector event with ⟨fits, screened⟩ | ⟨cuts, screened⟩
  · rw [screened]
    cases counted : detector.countedRequest event with
    | none =>
      refine ⟨fun _ => ⟨fits, fun request same => ?_⟩, sound⟩
      rw [counted] at same
      cases same
    | some request =>
      refine (countRequest_ends sound).imp ?_ ?_
      · rintro _ target ⟨requestFits, targetSound⟩
        refine ⟨fun _ => ⟨fits, fun other same => ?_⟩, targetSound⟩
        rw [counted] at same
        cases same
        exact requestFits
      · rintro _ target ⟨overflows, targetSound⟩
        exact ⟨fun harmless => overflows ((harmless http).2 request counted), targetSound⟩
  · rw [screened]
    exact ⟨fun harmless => cuts (harmless http).1, sound⟩

theorem processMulti_ends {event : NormalizedEvent} (sound : Sound inner.keys) :
    Ends (detector.processMulti env event) inner
      (fun _ target => detector.Harmless env inner event ∧ Sound target.keys)
      fun _ target => ¬detector.Harmless env inner event ∧ Sound target.keys := by
  refine .get_bind (.set_bind ?_)
  dsimp only
  split
  · rename_i http
    let drained := { inner with pending := inner.pending.drop detector.cfg.retroBatch }
    refine .bind ((processHttp_ends drained sound http).imp ?_ ?_)
    · exact fun _ _ ended => ended
    · exact fun _ _ ended => ended
  · rename_i other
    exact ⟨fun http => absurd http other, sound⟩

end Requests

/-- A state of the detector after some events, also after events on which it panicked. -/
inductive Reachable (env : CampaignEnv) (detector : CampaignDetector) : Inner → Prop
  | start : Reachable env detector .default
  | event {inner : Inner} (reachable : Reachable env detector inner) (event : NormalizedEvent) :
      Reachable env detector (finalState ((detector.processMulti env event).run inner))

theorem sound_of_reachable {env : CampaignEnv} {detector : CampaignDetector} {inner : Inner}
    (reachable : Reachable env detector inner) : Sound inner.keys := by
  induction reachable with
  | start =>
    intro key state found
    rw [Inner.default, AList.lookup_empty] at found
    cases found
  | event _ event ih =>
    have ends : Ends (detector.processMulti env event) _ (fun _ target => Sound target.keys)
        fun _ target => Sound target.keys :=
      (processMulti_ends ih).imp (fun _ _ ended => ended.2)
        fun _ _ ended => ended.2
    exact ends.finalState

theorem harmless_iff_succeeded {env : CampaignEnv} {detector : CampaignDetector} {inner : Inner}
    (reachable : Reachable env detector inner) (event : NormalizedEvent) :
    detector.Harmless env inner event ↔
      succeeded ((detector.processMulti env event).run inner) = true := by
  have ends : Ends (detector.processMulti env event) inner _ _ :=
    processMulti_ends (sound_of_reachable reachable)
  constructor
  · intro harmless
    rw [← Bool.not_eq_false]
    intro failure
    obtain ⟨_, harmful, -⟩ := ends.of_failed failure
    exact harmful harmless
  · intro success
    obtain ⟨_, harmless, -⟩ := ends.of_succeeded success
    exact harmless

namespace Sample

def post (path : List Char) : NormalizedEvent where
  timestamp := 1700000000000000000
  sourceIp := .v4 0x08080808
  eventType := .httpRequest
  metadata := [⟨"method".toList, "POST".toList⟩, ⟨"path".toList, path⟩].toAList

/-- Stand-ins for the functions of libraries. -/
def env : CampaignEnv where
  display _ := []
  blake3 _ := Vector.replicate 32 0
  iterate entries := entries
  iterate_perm _ := List.Perm.refl _

end Sample

/-- In every state that events lead to, the detector returns from an event exactly when
the event is harmless there; and where the search for an endpoint returns, it has found
the first endpoint that begins the path. -/
theorem processMulti_returns_iff (cfg : CampaignConfig) (env : CampaignEnv) {inner : Inner}
    (reachable : Reachable env (withConfig cfg) inner) (event : NormalizedEvent) :
    (succeeded (((withConfig cfg).processMulti env event).run inner) = true ↔
      (withConfig cfg).Harmless env inner event) ∧
      ∀ path found, (withConfig cfg).matchedEndpoint path = some found →
        found = cfg.paths.find? (begins (stripQuery path)) := by
  refine ⟨(harmless_iff_succeeded reachable event).symm, fun path found matched => ?_⟩
  · rcases findEndpoint_spec (stripQuery path) (withConfig cfg).cfg.paths with
      ⟨-, searched⟩ | ⟨-, panicked⟩
    · exact Option.some.inj (matched.symm.trans searched)
    · cases matched.symm.trans panicked

/-- The second request of a source, after one that made the detector panic. -/
theorem processMulti_returns_at_login :
    let login := Sample.post "/wp-login.php".toList
    let after (inner : Inner) (event : NormalizedEvent) : Inner :=
      finalState (((withConfig .default).processMulti Sample.env event).run inner)
    (withConfig .default).Harmless Sample.env
      (after (after .default (Sample.post "/wp-login.phé".toList)) login) login := by
  refine (processMulti_returns_iff .default Sample.env (.event (.event .start _) _) _).1.mp ?_
  decide +kernel

/-- The last character of the path has two bytes, and the endpoint ends between them. -/
theorem processMulti_panics_inside_character :
    succeeded (((withConfig .default).processMulti Sample.env
        (Sample.post "/wp-login.phé".toList)).run .default) = false ∧
      defaultCampaignPaths.find? (begins "/wp-login.phé".toList) = none := by
  decide +kernel

end CampaignDetector

end HiveGuard.Detectors
