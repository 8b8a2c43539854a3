import HiveGuard.Detectors.CampaignEvidence

/-!
# Whether flagged addresses are accounted for

A flagged address is not signalled again in the hot period of its key, so it should have been
sent in a signal for the key or wait in the queue.  An event can break this: signals taken from
the queue are lost in a panic, only the first signal of a source is returned, and a full queue
takes no more entries although their addresses are flagged.
-/

namespace HiveGuard.Detectors

open HiveGuard.Core Library Library.Dictionary Library.Effect

namespace CampaignDetector

open KeyState
open Ledger

/-- The addresses in the queue with the keys for which they wait. -/
def queueOf (state : Inner × Ledger) : List (List Char × IpAddr) :=
  (owned state.2.owners state.1.pending).map fun entry => (entry.1, entry.2.ip)

def Flagged (state : Inner × Ledger) (key : List Char) (ip : IpAddr) : Prop :=
  ∃ tracked, state.1.keys.lookup key = some tracked ∧ ip ∈ tracked.flagged

/-- The address was sent for the key in its current hot period. -/
def Sent (state : Inner × Ledger) (key : List Char) (ip : IpAddr) : Prop :=
  ⟨key, state.2.period key, ip⟩ ∈ state.2.sent

/-- Every flagged address was sent for its key in the current hot period or is in the queue. -/
def Accounted (state : Inner × Ledger) : Prop :=
  ∀ key ip, Flagged state key ip → Sent state key ip ∨ (key, ip) ∈ queueOf state

variable (env : CampaignEnv) (detector : CampaignDetector)

/-- The queue without the entries that the next event takes from it. -/
def drainedOf (state : Inner × Ledger) : Inner × Ledger :=
  ({ state.1 with pending := state.1.pending.drop detector.cfg.retroBatch },
    { state.2 with owners := state.2.owners.drop detector.cfg.retroBatch })

/-- The signals for the entries that an event takes from the queue. -/
def taken (state : Inner × Ledger) (event : NormalizedEvent) : List Tagged :=
  detector.deliver env event.timestamp
    ((owned state.2.owners state.1.pending).take detector.cfg.retroBatch)

/-- What an event does after it has taken its entries. -/
def count (event : NormalizedEvent) : EStateM Unit (Inner × Ledger) (List Tagged) :=
  if isHttp event then detector.processHttpLogged env event else pure []

/-- The signals from which an event returns the first of each source. -/
def offered (state : Inner × Ledger) (event : NormalizedEvent) : List Tagged :=
  detector.taken env state event ++
    (returned ((detector.count env event).run (detector.drainedOf state))).getD []

/-- The event does not make the detector panic, no source has two signals, and the queue has
room for the participants of two keys. -/
structure Orderly (state : Inner × Ledger) (event : NormalizedEvent) : Prop where
  harmless : detector.Harmless env state.1 event
  distinct : ((detector.offered env state event).map fun tagged => tagged.2.sourceIp).Nodup
  room : (state.1.pending.drop detector.cfg.retroBatch).length + 2 * detector.cfg.maxRetroBans ≤
    maxPending

variable {env detector}

/-- The keys and addresses of signals. -/
def pairsOf (signals : List Tagged) : List (List Char × IpAddr) :=
  signals.map fun tagged => (tagged.1, tagged.2.sourceIp.addr)

/-! ## The queue and the flags -/

theorem owned_append {owners : List (List Char)} {entries : List Pending}
    (same : owners.length = entries.length) (moreOwners : List (List Char)) (more : List Pending) :
    owned (owners ++ moreOwners) (entries ++ more) =
      owned owners entries ++ owned moreOwners more := by
  induction entries generalizing owners with
  | nil =>
    rw [List.length_nil, List.length_eq_zero_iff] at same
    subst same
    simp [owned]
  | cons entry entries ih =>
    cases owners with
    | nil => contradiction
    | cons owner owners =>
      simp only [List.cons_append, owned]
      rw [ih (Nat.succ.inj same)]

theorem owned_drop (count : Nat) (owners : List (List Char)) (entries : List Pending) :
    owned (owners.drop count) (entries.drop count) = (owned owners entries).drop count := by
  induction count generalizing owners entries with
  | zero => rfl
  | succ count ih =>
    cases entries with
    | nil => simp [owned]
    | cons entry entries =>
      cases owners with
      | nil =>
        have rest := ih [] entries
        rw [List.drop_nil] at rest
        exact rest
      | cons owner owners => exact ih owners entries

theorem owned_map_const (key : List Char) (entries : List Pending) :
    (owned (entries.map fun _ => key) entries).map (fun entry => (entry.1, entry.2.ip)) =
      (entries.map Pending.ip).map fun ip => (key, ip) := by
  induction entries with
  | nil => rfl
  | cons entry entries ih => rw [List.map_cons, owned, List.map_cons, ih]; rfl

/-- A part of an event with some hits: the queue grows at its end, nothing is sent, and if there
is room, what is flagged is signalled or queued. -/
structure Grows (detector : CampaignDetector) (hits : Nat) (source : Inner × Ledger)
    (found : List (List Char × IpAddr)) (target : Inner × Ledger) : Prop where
  queue : queueOf source <+: queueOf target
  sent : target.2.sent = source.2.sent
  few : target.1.pending.length ≤ source.1.pending.length + hits * detector.cfg.maxRetroBans
  flags : source.1.pending.length + hits * detector.cfg.maxRetroBans ≤ maxPending →
    ∀ key ip, Flagged target key ip →
      (Flagged source key ip ∧ target.2.period key = source.2.period key) ∨
        (key, ip) ∈ found ∨ (key, ip) ∈ queueOf target

section Grows

variable {source middle target : Inner × Ledger} {first second : Nat}
  {found further : List (List Char × IpAddr)}

theorem Grows.refl (state : Inner × Ledger) : Grows detector 0 state [] state :=
  ⟨List.prefix_rfl, rfl, Nat.le_add_right _ _, fun _ _ _ flagged => .inl ⟨flagged, rfl⟩⟩

theorem Grows.trans (grows : Grows detector first source found middle)
    (more : Grows detector second middle further target) :
    Grows detector (first + second) source (found ++ further) target where
  queue := grows.queue.trans more.queue
  sent := more.sent.trans grows.sent
  few := by
    have one := grows.few
    have two := more.few
    rw [Nat.add_mul]
    omega
  flags room key ip flagged := by
    rw [Nat.add_mul] at room
    have one := grows.few
    rcases more.flags (by omega) key ip flagged with ⟨before, same⟩ | signalled | queued
    · rcases grows.flags (by omega) key ip before with ⟨old, asBefore⟩ | signalled | queued
      · exact .inl ⟨old, same.trans asBefore⟩
      · exact .inr (.inl (List.mem_append_left _ signalled))
      · exact .inr (.inr (more.queue.subset queued))
    · exact .inr (.inl (List.mem_append_right _ signalled))
    · exact .inr (.inr queued)

theorem Grows.mono (grows : Grows detector first source found target) (le : first ≤ second) :
    Grows detector second source found target where
  queue := grows.queue
  sent := grows.sent
  few := grows.few.trans (Nat.add_le_add_left (Nat.mul_le_mul_right _ le) _)
  flags room :=
    grows.flags ((Nat.add_le_add_left (Nat.mul_le_mul_right _ le) _).trans room)

end Grows

section Parts

variable {history : List Char → List (DateTime × IpAddr)} {inner target : Inner}
  {ledger entered : Ledger} {key : List Char} {kind : KeyKind} {label : List Char} {minIps : Nat}
  {ip : IpAddr} {now : DateTime}

theorem flagged_of_entry {other : IpAddr}
    (flagged : other ∈ (entryOf key kind label now inner).flagged) :
    Flagged (inner, ledger) key other := by
  rw [entryOf] at flagged
  cases found : inner.keys.lookup key with
  | none =>
    rw [found] at flagged
    exact absurd flagged (Finset.notMem_empty other)
  | some tracked =>
    rw [found] at flagged
    exact ⟨tracked, found, flagged⟩

/-- A hit signals or queues what it flags. -/
theorem Logged.grows {final : KeyState} {ips : List IpAddr}
    (keys_eq : target.keys = (detector.roomFor env key now inner.keys).insert key final)
    (logged : Logged detector key minIps ip now (entryOf key kind label now inner) inner.pending
      ledger ips final target.pending entered)
    (owners : ledger.owners.length = inner.pending.length) :
    Grows detector 1 (inner, ledger) (ips.map fun other => (key, other)) (target, entered) := by
  -- Only the flags of the key itself change.
  suffices own : queueOf (inner, ledger) <+: queueOf (target, entered) ∧
      entered.sent = ledger.sent ∧
      target.pending.length ≤ inner.pending.length + detector.cfg.maxRetroBans ∧
      (inner.pending.length + detector.cfg.maxRetroBans ≤ maxPending → ∀ other ∈ final.flagged,
        (other ∈ (entryOf key kind label now inner).flagged ∧
          entered.period key = ledger.period key) ∨
        other ∈ ips ∨ (key, other) ∈ queueOf (target, entered)) by
    obtain ⟨queue, sent, few, flags⟩ := own
    refine ⟨queue, sent, by rwa [Nat.one_mul], fun room other address flagged => ?_⟩
    rw [Nat.one_mul] at room
    obtain ⟨tracked, found, isFlagged⟩ := flagged
    rw [keys_eq, lookup_insert] at found
    split at found
    next same =>
      subst same
      cases found
      rcases flags room address isFlagged with ⟨old, period_eq⟩ | signalled | queued
      · exact .inl ⟨flagged_of_entry old, period_eq⟩
      · exact .inr (.inl (List.mem_map_of_mem signalled))
      · exact .inr (.inr queued)
    next different =>
      exact .inl ⟨⟨tracked, lookup_of_lookup_roomFor found, isFlagged⟩,
        logged.period_of_ne different⟩
  have queue_eq : queueOf (target, entered) =
      (owned entered.owners target.pending).map fun entry => (entry.1, entry.2.ip) := rfl
  rw [queue_eq]
  generalize target.pending = pending at logged ⊢
  cases logged with
  | calm faded =>
    refine ⟨List.prefix_rfl, rfl, Nat.le_add_right _ _, fun _ other flagged => .inl ⟨?_, rfl⟩⟩
    rcases faded with ⟨-, same⟩ | ⟨-, none⟩
    · exact same ▸ flagged
    · rw [none] at flagged
      exact absurd flagged (Finset.notMem_empty other)
  | joins _ _ _ flagged_eq =>
    refine ⟨List.prefix_rfl, rfl, Nat.le_add_right _ _, fun _ other flagged => ?_⟩
    rw [flagged_eq, Finset.mem_insert] at flagged
    rcases flagged with rfl | old
    · exact .inr (.inl (List.mem_singleton_self other))
    · exact .inl ⟨old, rfl⟩
  | starts _ _ _ _ few complete =>
    rw [owned_append owners, List.map_append, owned_map_const]
    refine ⟨List.prefix_append _ _, rfl, ?_, fun room other flagged => .inr ?_⟩
    · rw [List.length_append]
      exact Nat.add_le_add_left few _
    · rcases complete room other flagged with rfl | queued
      · exact .inl (List.mem_singleton_self other)
      · exact .inr (List.mem_append_right _ (List.mem_map_of_mem queued))

theorem hitLogged_grows (consistent : Consistent history inner ledger) :
    Ends (detector.hitLogged env key kind label minIps ip now) (inner, ledger)
      (fun signals target => Grows detector 1 (inner, ledger) (pairsOf signals) target)
      fun _ _ => True := by
  obtain ⟨-, tallies, cold⟩ := consistent.entry key kind label now
  refine (hitLogged_logged tallies cold).imp ?_ fun _ _ _ => trivial
  rintro signals target ⟨ips, final, pairs_eq, -, keys_eq, logged⟩
  rw [pairsOf, pairs_eq]
  exact Logged.grows keys_eq logged consistent.queue

theorem countRequestLogged_grows {request : CountedRequest}
    (consistent : Consistent history inner ledger) :
    Ends (detector.countRequestLogged env request ip now) (inner, ledger)
      (fun signals target => Grows detector 2 (inner, ledger) (pairsOf signals) target)
      fun _ _ => True := by
  refine .bind (.zoom ((countEvent_ends.and (countEvent_pending inner now)).imp ?_ ?_))
  · rintro _ counted ⟨⟨-, keys_eq⟩, pending_eq⟩
    have countedConsistent : Consistent history counted ledger :=
      consistent.counted keys_eq pending_eq
    have starts : Grows detector 0 (inner, ledger) [] (counted, ledger) := by
      refine ⟨?_, rfl, by rw [pending_eq]; exact Nat.le_add_right _ _, ?_⟩
      · rw [queueOf, queueOf, pending_eq]
      · rintro - key other ⟨tracked, found, flagged⟩
        rw [keys_eq] at found
        exact .inl ⟨⟨tracked, lookup_of_lookup_keysAtRequest found, flagged⟩, rfl⟩
    refine .bind (.expect (fun agent _ => ?_) fun missing => absurd missing (truncate_ne_none _ _))
    refine .bind (((hitLogged_follows countedConsistent).and
      (hitLogged_grows countedConsistent)).imp ?_ fun _ _ _ => trivial)
    rintro signals middle ⟨follows, grows⟩
    have sofar := starts.trans grows
    cases detector.countedVhost request with
    | none => exact sofar.mono (Nat.le_succ _)
    | some vhost =>
      refine .bind ((hitLogged_grows follows.consistent).imp ?_ fun _ _ _ => trivial)
      intro more target further
      change Grows detector 2 _ (List.map _ (signals ++ more)) target
      rw [List.map_append]
      exact sofar.trans further
  · exact fun _ _ _ => trivial

theorem count_grows {event : NormalizedEvent} (consistent : Consistent history inner ledger) :
    Ends (detector.count env event) (inner, ledger)
      (fun signals target => Grows detector 2 (inner, ledger) (pairsOf signals) target)
      fun _ _ => True := by
  have nothing : Grows detector 2 (inner, ledger) (pairsOf []) (inner, ledger) :=
    (Grows.refl _).mono (Nat.zero_le _)
  rw [count, processHttpLogged]
  split
  · cases detector.screen event with
    | none => trivial
    | some screened =>
      cases screened with
      | none => exact nothing
      | some request => exact countRequestLogged_grows consistent
  · exact nothing

end Parts

/-! ## Events -/

theorem firstTagged_eq_self {signals : List Tagged} {seen : List IpNet}
    (distinct : (signals.map fun tagged => tagged.2.sourceIp).Nodup)
    (unseen : ∀ tagged ∈ signals, tagged.2.sourceIp ∉ seen) :
    firstTagged signals seen = signals := by
  induction signals generalizing seen with
  | nil => rfl
  | cons tagged rest ih =>
    rw [List.map_cons, List.nodup_cons] at distinct
    rw [firstTagged, if_neg (unseen tagged List.mem_cons_self), ih distinct.2]
    intro other member again
    rcases List.mem_cons.mp again with same | old
    · exact distinct.1 (same ▸ List.mem_map_of_mem member)
    · exact unseen other (List.mem_cons_of_mem _ member) old

section Events

variable {history : List Char → List (DateTime × IpAddr)} {state : Inner × Ledger}
  {event : NormalizedEvent}

theorem answer_of_distinct {signals : List Tagged}
    (distinct : (signals.map fun tagged => tagged.2.sourceIp).Nodup) (middle : Inner × Ledger) :
    (answer signals).run middle = .ok signals (middle.1, send signals middle.2) := by
  have same : (if 1 < signals.length then firstTagged signals [] else signals) = signals := by
    rw [firstTagged_eq_self distinct fun _ _ => List.not_mem_nil, ite_self]
  rw [answer, same]
  rfl

theorem succeeded_of_harmless (reachable : Reachable env detector state.1)
    (harmless : detector.Harmless env state.1 event) :
    succeeded ((detector.processMultiLogged env event).run state) = true := by
  have success := (harmless_iff_succeeded reachable event).mp harmless
  rw [← erases_processMultiLogged event state] at success
  cases run : (detector.processMultiLogged env event).run state with
  | ok signals target => rfl
  | error error target =>
    rw [run] at success
    exact success

/-- An orderly event sends everything that it offers. -/
theorem Orderly.run_eq (reachable : Reachable env detector state.1)
    (consistent : Consistent history state.1 state.2)
    (orderly : detector.Orderly env state event) :
    ∃ found middle, detector.offered env state event = detector.taken env state event ++ found ∧
      Grows detector 2 (detector.drainedOf state) (pairsOf found) middle ∧
      finalState ((detector.processMultiLogged env event).run state) =
        (middle.1, send (detector.offered env state event) middle.2) := by
  have run_eq : (detector.processMultiLogged env event).run state =
      (detector.count env event >>= fun found =>
        answer (detector.taken env state event ++ found)).run (detector.drainedOf state) := by
    rw [count, processMultiLogged]
    cases isHttp event <;> rfl
  have grows := @count_grows env detector history (detector.drainedOf state).1
    (detector.drainedOf state).2 event (consistent.drained detector.cfg.retroBatch)
  obtain ⟨signals, target, succeeds⟩ :=
    exists_of_succeeded _ (succeeded_of_harmless reachable orderly.harmless)
  obtain ⟨found, middle, counted, answered⟩ := bind_eq_ok_iff.mp (run_eq.symm.trans succeeds)
  have offered_eq : detector.offered env state event =
      detector.taken env state event ++ found := by
    rw [offered, counted]
    rfl
  have distinct := orderly.distinct
  rw [Ends, counted] at grows
  rw [offered_eq] at distinct ⊢
  rw [answer_of_distinct distinct] at answered
  cases answered
  exact ⟨found, middle, rfl, grows, by rw [succeeds]; rfl⟩

theorem mem_taken_of_mem_queue {key : List Char} {ip : IpAddr}
    (waits : (key, ip) ∈ (queueOf state).take detector.cfg.retroBatch) :
    (key, ip) ∈ pairsOf (detector.taken env state event) := by
  rw [queueOf, ← List.map_take] at waits
  obtain ⟨entry, isTaken, same⟩ := List.mem_map.mp waits
  cases same
  rw [pairsOf, taken, deliver, List.map_map, List.mem_map]
  exact ⟨entry, isTaken, by simp [signal, addr_hostNet]⟩

/-- From accounts that are in order, an orderly event leaves them so. -/
theorem accounted_of_orderly (reachable : Reachable env detector state.1)
    (consistent : Consistent history state.1 state.2) (accounted : Accounted state)
    (orderly : detector.Orderly env state event) :
    Accounted (finalState ((detector.processMultiLogged env event).run state)) := by
  obtain ⟨found, middle, offered_eq, grows, run_eq⟩ := orderly.run_eq reachable consistent
  rw [run_eq, offered_eq]
  intro key ip flagged
  have sends : (key, ip) ∈ pairsOf (detector.taken env state event ++ found) →
      Sent (middle.1, send (detector.taken env state event ++ found) middle.2) key ip := by
    intro member
    obtain ⟨tagged, isOffered, same⟩ := List.mem_map.mp member
    cases same
    exact List.mem_append_right _ (List.mem_map_of_mem isOffered)
  have queue_eq : queueOf (detector.drainedOf state) =
      (queueOf state).drop detector.cfg.retroBatch := by
    rw [queueOf, drainedOf, owned_drop, queueOf, List.map_drop]
  rw [pairsOf, List.map_append, List.mem_append] at sends
  rcases grows.flags orderly.room key ip flagged with ⟨before, samePeriod⟩ | signalled | queued
  · -- Flagged before: it was sent, or it waits and is taken or stays.
    rcases accounted key ip before with sent | waits
    · refine .inl (List.mem_append_left _ ?_)
      rw [grows.sent]
      exact samePeriod ▸ sent
    · rw [← List.take_append_drop detector.cfg.retroBatch (queueOf state),
        List.mem_append] at waits
      rcases waits with isTaken | stays
      · exact .inl (sends (.inl (mem_taken_of_mem_queue isTaken)))
      · exact .inr (grows.queue.subset (queue_eq ▸ stays))
  · exact .inl (sends (.inr signalled))
  · exact .inr queued

end Events

/-- Over any events that are orderly in the states they meet, every flagged address is sent for
its key in the current hot period or waits in the queue. -/
theorem campaign_accounted (cfg : CampaignConfig) (env : CampaignEnv)
    (events : List NormalizedEvent)
    (orderly : ∀ front event, front ++ [event] <+: events →
      (withConfig cfg).Orderly env ((withConfig cfg).loggedRun env front) event) :
    Accounted ((withConfig cfg).loggedRun env events) := by
  induction events using List.reverseRecOn with
  | nil =>
    rintro key ip ⟨tracked, found, -⟩
    rw [loggedRun, List.foldl_nil, Inner.default, AList.lookup_empty] at found
    contradiction
  | append_singleton events event ih =>
    have before := ih fun front next isFront =>
      orderly front next (isFront.trans (List.prefix_append _ _))
    rw [loggedRun_concat]
    exact accounted_of_orderly (reachable_loggedRun events) (consistent_loggedRun events) before
      (orderly events event List.prefix_rfl)

namespace Sample

def loginRequest : CountedRequest where
  method := "POST".toList
  endpoint := "/wp-login.php".toList
  ua := []
  vhost := none

/-- Two addresses are a campaign, also for a host. -/
def hostConfig : CampaignConfig :=
  { pairConfig with vhostMinDistinctIps := 2 }

def hostLogin (ip : BitVec 32) : NormalizedEvent :=
  { login ip with
    metadata := [⟨"method".toList, "POST".toList⟩, ⟨"path".toList, "/wp-login.php".toList⟩,
      ⟨"vhost".toList, "a".toList⟩].toAList }

end Sample

/-- The second address makes the key hot, the third joins and brings the first from the queue. -/
theorem campaign_accounted_at_three :
    Accounted ((withConfig Sample.pairConfig).loggedRun Sample.env
      [Sample.login 1, Sample.login 2, Sample.login 3]) := by
  refine campaign_accounted Sample.pairConfig Sample.env _ fun front event isFront => ?_
  have harmless := harmless_iff_succeeded
    (@reachable_loggedRun Sample.env (withConfig Sample.pairConfig) front) event
  have split : ∀ {start : List NormalizedEvent} {last : NormalizedEvent},
      front ++ [event] = start ++ [last] → front = start ∧ event = last := by
    intro start last same
    simpa using List.append_inj' same rfl
  rw [← List.mem_inits] at isFront
  simp only [List.inits, List.map_cons, List.map_nil, List.mem_cons, List.append_eq_nil_iff,
    List.cons_ne_nil, and_false, false_or, List.not_mem_nil, or_false] at isFront
  rcases isFront with same | same | same
  · obtain ⟨rfl, rfl⟩ := @split [] _ same
    exact ⟨harmless.mpr (by decide +kernel), by decide +kernel, by decide +kernel⟩
  · obtain ⟨rfl, rfl⟩ := @split [_] _ same
    exact ⟨harmless.mpr (by decide +kernel), by decide +kernel, by decide +kernel⟩
  · obtain ⟨rfl, rfl⟩ := @split [_, _] _ same
    exact ⟨harmless.mpr (by decide +kernel), by decide +kernel, by decide +kernel⟩

/-- The address is flagged, but neither sent nor queued. -/
def writtenOff (state : Inner × Ledger) (key : List Char) (ip : IpAddr) : Bool :=
  (state.1.keys.lookup key).any (fun tracked => decide (ip ∈ tracked.flagged)) &&
    !decide (⟨key, state.2.period key, ip⟩ ∈ state.2.sent) && !decide ((key, ip) ∈ queueOf state)

theorem not_accounted_of_writtenOff {state : Inner × Ledger} {key : List Char} {ip : IpAddr}
    (isOff : writtenOff state key ip = true) : ¬Accounted state := by
  intro accounted
  rw [writtenOff, Bool.and_eq_true, Bool.and_eq_true, Option.any_eq_true, Bool.not_eq_true',
    Bool.not_eq_true', decide_eq_false_iff_not, decide_eq_false_iff_not] at isOff
  obtain ⟨⟨⟨tracked, found, flagged⟩, notSent⟩, notQueued⟩ := isOff
  rcases accounted key ip ⟨tracked, found, of_decide_eq_true flagged⟩ with sent | waits
  · exact notSent sent
  · exact notQueued waits

/-- The first of two addresses waits in the queue and is lost when the next event, with a path
that is cut inside a character, takes it from there and panics.  An address that is flagged for
its user agent and for its host at once is only sent for the user agent. -/
theorem campaign_participants_written_off :
    ¬Accounted ((withConfig Sample.pairConfig).loggedRun Sample.env
        [Sample.login 1, Sample.login 2, Sample.post "/wp-login.phé".toList]) ∧
      ¬Accounted ((withConfig Sample.hostConfig).loggedRun Sample.env
        [Sample.hostLogin 1, Sample.hostLogin 2]) := by
  constructor
  · refine @not_accounted_of_writtenOff _ (uaKey Sample.loginRequest) (.v4 1) ?_
    decide +kernel
  · refine @not_accounted_of_writtenOff _ (vhostKey Sample.loginRequest "a".toList) (.v4 2) ?_
    decide +kernel

end CampaignDetector

end HiveGuard.Detectors
