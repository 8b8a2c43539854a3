import HiveGuard.Detectors.CampaignReturns
import HiveGuard.Library.Ghost

/-!
# A ledger of the campaign detector

The detector does not keep for which key an entry waits in the queue, nor which signals it has
sent.  A ledger beside its state does: it numbers the hot periods of each key, and it says which
addresses were signalled or queued in them and which signals left the detector.  The detector
does not depend on it.
-/

namespace HiveGuard.Detectors

open HiveGuard.Core Library Library.Effect Library.Ghost

/-- A key has become hot. -/
structure HotStart where
  key : List Char
  minIps : Nat
  now : DateTime

/-- An address in a hot period of a key, which is given by its number. -/
structure Mark where
  key : List Char
  period : Nat
  ip : IpAddr
  deriving DecidableEq

/-- What has happened so far: the hot periods that have begun, the keys for which the entries
of the queue wait, the addresses that were signalled at once or queued, and the signals that
the detector has returned. -/
structure Ledger where
  starts : List HotStart
  owners : List (List Char)
  reactions : List Mark
  sent : List Mark

namespace Ledger

def empty : Ledger :=
  ⟨[], [], [], []⟩

/-- The number of the last hot period of a key. -/
def period (ledger : Ledger) (key : List Char) : Nat :=
  ledger.starts.countP fun start => start.key = key

def hotAt (key : List Char) (now : DateTime) (inner : Inner) : Bool :=
  (inner.keys.lookup key).any fun state => state.isHot now

/-- Enter a hit of a key between two states: a hot period begins if the key was not hot and
now is; the signals of the hit and what it added to the queue belong to the key's hot period. -/
def enter (key : List Char) (minIps : Nat) (now : DateTime) (before : Inner)
    (signals : List DetectionSignal) (after : Inner) (ledger : Ledger) : Ledger :=
  let starts :=
    if !hotAt key now before && hotAt key now after then ledger.starts ++ [⟨key, minIps, now⟩]
    else ledger.starts
  let queued := (after.pending.drop before.pending.length).map Pending.ip
  let number := ({ ledger with starts } : Ledger).period key
  { ledger with
    starts := starts
    owners := ledger.owners ++ queued.map fun _ => key
    reactions := ledger.reactions ++
      (signals.map (fun signal => signal.sourceIp.addr) ++ queued).map fun ip =>
        ⟨key, number, ip⟩ }

/-- The entries of a queue with the keys for which they wait. -/
def owned : List (List Char) → List Pending → List (List Char × Pending)
  | _, [] => []
  | [], entry :: entries => ([], entry) :: owned [] entries
  | owner :: owners, entry :: entries => (owner, entry) :: owned owners entries

theorem map_snd_owned (owners : List (List Char)) (entries : List Pending) :
    (owned owners entries).map Prod.snd = entries := by
  induction entries generalizing owners with
  | nil => simp [owned]
  | cons entry entries ih =>
    cases owners with
    | nil => rw [owned, List.map_cons, ih]
    | cons owner owners => rw [owned, List.map_cons, ih]

end Ledger

namespace CampaignDetector

open Ledger

/-- A signal with the key it is for. -/
abbrev Tagged : Type :=
  List Char × DetectionSignal

variable (env : CampaignEnv) (detector : CampaignDetector)

def hitLogged (key : List Char) (kind : KeyKind) (label : List Char) (minIps : Nat) (ip : IpAddr)
    (now : DateTime) : EStateM Unit (Inner × Ledger) (List Tagged) := do
  let before ← get
  let signals ← unnoticed (detector.hit env key kind label minIps ip now)
  note (enter key minIps now before.1 signals)
  pure (signals.map fun signal => (key, signal))

def countRequestLogged (request : CountedRequest) (ip : IpAddr) (now : DateTime) :
    EStateM Unit (Inner × Ledger) (List Tagged) := do
  unnoticed (detector.countEvent now)
  let agent ← expect () (truncate (normalizedUa request) 80)
  let signals ← detector.hitLogged env (uaKey request) .userAgent (uaLabel request agent)
    detector.cfg.minDistinctIps ip now
  match detector.countedVhost request with
  | none => pure signals
  | some vhost => do
      let further ← detector.hitLogged env (vhostKey request vhost) .vhost
        (vhostLabel request vhost) detector.cfg.vhostMinDistinctIps ip now
      pure (signals ++ further)

def processHttpLogged (event : NormalizedEvent) : EStateM Unit (Inner × Ledger) (List Tagged) :=
  match detector.screen event with
  | none => throw ()
  | some none => pure []
  | some (some request) =>
    detector.countRequestLogged env request event.sourceIp event.timestamp

def firstTagged : List Tagged → List IpNet → List Tagged
  | [], _ => []
  | tagged :: rest, seen =>
    if tagged.2.sourceIp ∈ seen then firstTagged rest seen
    else tagged :: firstTagged rest (tagged.2.sourceIp :: seen)

/-- The signals for entries of the queue. -/
def deliver (now : DateTime) (entries : List (List Char × Pending)) : List Tagged :=
  entries.map fun entry => (entry.1, detector.signal env entry.2.ip entry.2.reason now)

/-- Enter the signals that the detector returns. -/
def send (signals : List Tagged) (ledger : Ledger) : Ledger :=
  { ledger with
    sent := ledger.sent ++ signals.map fun tagged =>
      ⟨tagged.1, ledger.period tagged.1, tagged.2.sourceIp.addr⟩ }

/-- Return the first signal of each source. -/
def answer (out : List Tagged) : EStateM Unit (Inner × Ledger) (List Tagged) := do
  let sent := if 1 < out.length then firstTagged out [] else out
  note fun _ => send sent
  pure sent

def processMultiLogged (event : NormalizedEvent) :
    EStateM Unit (Inner × Ledger) (List Tagged) := do
  let (inner, ledger) ← get
  let drained := (owned ledger.owners inner.pending).take detector.cfg.retroBatch
  set (({ inner with pending := inner.pending.drop detector.cfg.retroBatch },
    { ledger with owners := ledger.owners.drop detector.cfg.retroBatch }) : Inner × Ledger)
  let found ← if isHttp event then detector.processHttpLogged env event else pure []
  answer (detector.deliver env event.timestamp drained ++ found)

/-- The state and the ledger after some events, also after those on which the detector
panicked. -/
def loggedRun (events : List NormalizedEvent) : Inner × Ledger :=
  events.foldl (fun state event => finalState ((detector.processMultiLogged env event).run state))
    (.default, .empty)

/-! ## The detector without the ledger -/

variable {env detector}

theorem map_snd_firstTagged (tagged : List Tagged) (seen : List IpNet) :
    (firstTagged tagged seen).map Prod.snd = firstPerSource (tagged.map Prod.snd) seen := by
  induction tagged generalizing seen with
  | nil => rfl
  | cons first rest ih =>
    rw [firstTagged, List.map_cons, firstPerSource]
    split
    · exact ih seen
    · rw [List.map_cons, ih]

theorem erases_hitLogged (key : List Char) (kind : KeyKind) (label : List Char) (minIps : Nat)
    (ip : IpAddr) (now : DateTime) :
    Erases (List.map Prod.snd) (detector.hitLogged env key kind label minIps ip now)
      (detector.hit env key kind label minIps ip now) := by
  intro source
  have erases : Erases (List.map Prod.snd)
      (do
        let signals ← unnoticed (detector.hit env key kind label minIps ip now)
        note (enter key minIps now source.1 signals)
        pure (signals.map fun signal => ((key, signal) : Tagged)))
      (detector.hit env key kind label minIps ip now >>= pure) := by
    refine (erases_unnoticed _).bind fun signals => .note_bind ?_
    have back : (signals.map fun signal => ((key, signal) : Tagged)).map Prod.snd = signals := by
      simp
    conv_rhs => rw [id_eq, ← back]
    exact erases_pure (List.map Prod.snd) (signals.map fun signal => (key, signal))
  rw [bind_pure] at erases
  exact erases source

theorem erases_countRequestLogged (request : CountedRequest) (ip : IpAddr) (now : DateTime) :
    Erases (List.map Prod.snd) (detector.countRequestLogged env request ip now)
      (detector.countRequest env request ip now) := by
  refine (erases_unnoticed _).bind fun _ => (erases_expect () _).bind fun agent => ?_
  refine (erases_hitLogged _ _ _ _ _ _).bind fun signals => ?_
  cases detector.countedVhost request with
  | none => exact erases_pure _ signals
  | some vhost =>
    refine (erases_hitLogged _ _ _ _ _ _).bind fun further => ?_
    rw [← List.map_append]
    exact erases_pure _ (signals ++ further)

theorem erases_processHttpLogged (event : NormalizedEvent) :
    Erases (List.map Prod.snd) (detector.processHttpLogged env event)
      (detector.processHttp env event) := by
  rw [processHttpLogged, processHttp]
  cases detector.screen event with
  | none => exact erases_throw _ ()
  | some screened =>
    cases screened with
    | none => exact erases_pure _ []
    | some request => exact erases_countRequestLogged _ _ _

theorem erases_answer (out : List Tagged) :
    Erases (List.map Prod.snd) (answer out)
      (pure (if 1 < (out.map Prod.snd).length then firstPerSource (out.map Prod.snd) []
        else out.map Prod.snd)) := by
  refine .note_bind ?_
  rw [List.length_map]
  split
  · rw [← map_snd_firstTagged]
    exact erases_pure _ _
  · exact erases_pure _ _

/-- Without the ledger the logged detector is the detector. -/
theorem erases_processMultiLogged (event : NormalizedEvent) :
    Erases (List.map Prod.snd) (detector.processMultiLogged env event)
      (detector.processMulti env event) := by
  rintro ⟨inner, ledger⟩
  let drained := (owned ledger.owners inner.pending).take detector.cfg.retroBatch
  let rest : Inner × Ledger :=
    ({ inner with pending := inner.pending.drop detector.cfg.retroBatch },
      { ledger with owners := ledger.owners.drop detector.cfg.retroBatch })
  have drained_eq : (detector.deliver env event.timestamp drained).map Prod.snd =
      (inner.pending.take detector.cfg.retroBatch).map fun entry =>
        detector.signal env entry.ip entry.reason event.timestamp := by
    conv_rhs => rw [← map_snd_owned ledger.owners inner.pending, ← List.map_take]
    rw [deliver, List.map_map, List.map_map]
    rfl
  let plain (found : List DetectionSignal) : EStateM Unit Inner (List DetectionSignal) :=
    let out := (inner.pending.take detector.cfg.retroBatch).map (fun entry =>
      detector.signal env entry.ip entry.reason event.timestamp) ++ found
    pure (if 1 < out.length then firstPerSource out [] else out)
  have answers : ∀ found : List Tagged, Erases (List.map Prod.snd)
      (answer (detector.deliver env event.timestamp drained ++ found))
      (plain (found.map Prod.snd)) := by
    intro found
    have erases := erases_answer (detector.deliver env event.timestamp drained ++ found)
    rw [List.map_append, drained_eq] at erases
    exact erases
  by_cases http : isHttp event = true
  · have step := (@erases_processHttpLogged env detector event).bind answers rest
    simp only [processMultiLogged, processMulti, http, if_true]
    exact step
  · have step := answers [] rest
    simp only [processMultiLogged, processMulti, http, Bool.false_eq_true, if_false]
    exact step

theorem loggedRun_concat (events : List NormalizedEvent) (event : NormalizedEvent) :
    detector.loggedRun env (events ++ [event]) =
      finalState ((detector.processMultiLogged env event).run (detector.loggedRun env events)) := by
  rw [loggedRun, List.foldl_concat]
  rfl

/-- The states beside the ledgers are those of the detector. -/
theorem reachable_loggedRun (events : List NormalizedEvent) :
    Reachable env detector (detector.loggedRun env events).1 := by
  induction events using List.reverseRecOn with
  | nil => exact .start
  | append_singleton events event ih =>
    rw [loggedRun_concat, (erases_processMultiLogged event).finalState]
    exact .event ih event

end CampaignDetector

end HiveGuard.Detectors
