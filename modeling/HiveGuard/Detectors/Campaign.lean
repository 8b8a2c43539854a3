import HiveGuard.Detectors.Event
import HiveGuard.Library.Effect
import HiveGuard.Library.Fallible
import HiveGuard.Library.Utf8

/-!
# The campaign detector

Requests to sensitive endpoints are counted by a fingerprint that all participants of a
distributed campaign share.  A key with enough addresses and requests inside a sliding
window becomes hot; its participants are signalled, those seen before from a queue.

An error is a panic: a slice inside a character, a date out of range, or a counter that
overflows in a build with overflow checks.  The lock on the state is taken over after a
panic, so what was changed before it stays.
-/

namespace HiveGuard.Detectors

open HiveGuard.Core Library Library.Dictionary Library.Effect Library.Fallible Library.Text

/-- Idle keys are swept every this many counted requests. -/
def sweepEvery : Nat :=
  4096

/-- How many addresses are remembered as signalled for a key. -/
def maxFlaggedPerKey : Nat :=
  50000

/-- How many signals may wait in the queue. -/
def maxPending : Nat :=
  20000

structure CampaignConfig where
  paths : List (List Char)
  methods : List (List Char)
  window : StdDuration
  minDistinctIps : Nat
  minRequests : Nat
  hotDuration : StdDuration
  banDuration : StdDuration
  ignoreUserAgents : List (List Char)
  ignoreVhosts : List (List Char)
  ignoreRedirects : Bool
  vhostMinDistinctIps : Nat
  retroBan : Bool
  maxRetroBans : Nat
  retroBatch : Nat
  maxKeys : Nat
  maxHitsPerKey : Nat

def defaultCampaignPaths : List (List Char) :=
  ["/wp-login.php".toList, "/xmlrpc.php".toList]

def defaultCampaignIgnoreUserAgents : List (List Char) :=
  ["Googlebot".toList, "bingbot".toList, "Jetpack".toList, "WordPress/".toList,
    "UptimeRobot".toList]

def CampaignConfig.default : CampaignConfig where
  paths := defaultCampaignPaths
  methods := ["POST".toList]
  window := .fromSecs ⟨1800, by decide⟩
  minDistinctIps := 20
  minRequests := 30
  hotDuration := .fromSecs ⟨6 * 3600, by decide⟩
  banDuration := .fromSecs ⟨24 * 3600, by decide⟩
  ignoreUserAgents := defaultCampaignIgnoreUserAgents
  ignoreVhosts := []
  ignoreRedirects := true
  vhostMinDistinctIps := 0
  retroBan := true
  maxRetroBans := 2000
  retroBatch := 32
  maxKeys := 5000
  maxHitsPerKey := 4096

inductive KeyKind where
  | userAgent
  | vhost
  deriving DecidableEq

/-! ## The state of a key -/

structure KeyState where
  kind : KeyKind
  label : List Char
  hits : List (DateTime × IpAddr)
  ipCounts : Dict IpAddr Nat
  lastSeen : DateTime
  hotUntil : Option DateTime
  flagged : Finset IpAddr

namespace KeyState

def new (kind : KeyKind) (label : List Char) (now : DateTime) : KeyState where
  kind := kind
  label := label
  hits := []
  ipCounts := ∅
  lastSeen := now
  hotUntil := none
  flagged := ∅

/-- Lower the counter of an address; at zero the address is forgotten. -/
def uncount (ip : IpAddr) : EStateM Unit KeyState Unit := do
  let state ← get
  match state.ipCounts.lookup ip with
  | none => pure ()
  | some 0 => throw ()
  | some (count + 1) =>
    set { state with
      ipCounts :=
        if count = 0 then state.ipCounts.erase ip else state.ipCounts.insert ip count }

def popFront : EStateM Unit KeyState Unit := do
  let state ← get
  match state.hits with
  | [] => pure ()
  | (_, ip) :: hits =>
    set { state with hits }
    uncount ip

/-- Drop the hits before the cutoff from the front; the fuel bounds their number. -/
def pruneLoop (cutoff : DateTime) : Nat → EStateM Unit KeyState Unit
  | 0 => pure ()
  | fuel + 1 => do
      let state ← get
      match state.hits with
      | [] => pure ()
      | (time, _) :: _ =>
        if time < cutoff then
          popFront
          pruneLoop cutoff fuel
        else
          pure ()

def prune (cutoff : DateTime) : EStateM Unit KeyState Unit := do
  let state ← get
  pruneLoop cutoff state.hits.length

def isHot (state : KeyState) (now : DateTime) : Bool :=
  state.hotUntil.any fun hotUntil => decide (now ≤ hotUntil)

/-- Raise the 32-bit counter of an address. -/
def count (ip : IpAddr) : EStateM Unit KeyState Unit := do
  let state ← get
  let counter := (state.ipCounts.lookup ip).getD 0
  if counter + 1 < 2 ^ 32 then
    set { state with ipCounts := state.ipCounts.insert ip (counter + 1) }
  else
    throw ()

/-- A hot period that has ended is forgotten. -/
def coolDown (now : DateTime) (state : KeyState) : KeyState :=
  if state.hotUntil.isSome && !state.isHot now then
    { state with hotUntil := none, flagged := ∅ }
  else
    state

/-- The first part of a hit: the window slides and the request is recorded in it. -/
def record (maxHits : Nat) (window : Duration) (ip : IpAddr) (now : DateTime) :
    EStateM Unit KeyState Unit := do
  let cutoff ← expect () (now.checkedAddSigned (-window))
  prune cutoff
  let state ← get
  if maxHits ≤ state.hits.length then popFront else pure ()
  modify fun state => { state with hits := state.hits ++ [(now, ip)] }
  count ip
  modify fun state => coolDown now { state with lastSeen := now }

/-- The name of the key's kind in reasons. -/
def kindLabel (state : KeyState) : List Char :=
  match state.kind with
  | .userAgent => "fingerprint".toList
  | .vhost => "vhost".toList

end KeyState

structure Pending where
  ip : IpAddr
  reason : List Char

structure Inner where
  keys : Dict (List Char) KeyState
  pending : List Pending
  matchedEvents : Nat

def Inner.default : Inner :=
  ⟨∅, [], 0⟩

/-- What the detector takes from libraries: the text of an address, a hash, and the order
in which a hash map is iterated. -/
structure CampaignEnv where
  display : IpAddr → List Char
  blake3 : List UInt8 → Vector UInt8 32
  iterate : {α : Type} → List α → List α
  iterate_perm : ∀ {α : Type} (entries : List α), (iterate entries).Perm entries

structure CampaignDetector where
  cfg : CampaignConfig
  methodsUpper : List (List Char)
  ignoreUaLower : List (List Char)

namespace CampaignDetector

def withConfig (cfg : CampaignConfig) : CampaignDetector where
  cfg := { cfg with
    ignoreVhosts := cfg.ignoreVhosts.map (List.map Char.toLower)
    maxKeys := max cfg.maxKeys 1
    maxHitsPerKey := max cfg.maxHitsPerKey 1
    retroBatch := max cfg.retroBatch 1 }
  methodsUpper := cfg.methods.map (List.map Char.toUpper)
  ignoreUaLower := (cfg.ignoreUserAgents.map (List.map Char.toLower)).filter (· ≠ [])

variable (env : CampaignEnv) (detector : CampaignDetector)

def signal (ip : IpAddr) (reason : List Char) (timestamp : DateTime) : DetectionSignal where
  sourceIp := hostNet ip
  severity := ⟨200, by decide⟩
  -- The single-precision number next to 0.9.
  confidence := 15099494 / 2 ^ 24
  reason := reason
  evidenceHash := env.blake3 (encode (env.display ip ++ ":campaign:".toList ++ reason))
  suggestedAction := .ban detector.cfg.banDuration
  detectorName := "campaign".toList
  timestamp := timestamp

/-! ## Requests -/

/-- The path without its query and fragment. -/
def stripQuery (path : List Char) : List Char :=
  path.takeWhile fun char => char != '?' && char != '#'

/-- The first endpoint that begins the path; each is compared with a slice of the path
that has the endpoint's length in bytes. -/
def findEndpoint (path : List Char) : List (List Char) → Fallible (List Char)
  | [] => attempt none
  | endpoint :: endpoints =>
    if byteLength endpoint ≤ byteLength path then do
      let front ← checked (sliceTo path (byteLength endpoint))
      if eqIgnoreAsciiCase front endpoint then pure endpoint else findEndpoint path endpoints
    else
      findEndpoint path endpoints

def matchedEndpoint (path : List Char) : Fallible (List Char) :=
  findEndpoint (stripQuery path) detector.cfg.paths

def uaIgnored (ua : List Char) : Bool :=
  detector.ignoreUaLower.any fun ignored => (breakAt ignored (ua.map Char.toLower)).isSome

/-- At most so many characters of a text, cut at the offset of the next one. -/
def truncate (text : List Char) (max : Nat) : Option (List Char) :=
  if max < text.length then sliceTo text (byteLength (text.take max)) else some text

structure CountedRequest where
  method : List Char
  endpoint : List Char
  ua : List Char
  vhost : Option (List Char)

/-- The answer was a redirect and such answers are not counted. -/
def redirectIgnored (event : NormalizedEvent) : Bool :=
  detector.cfg.ignoreRedirects &&
    ((event.metadata.lookup "status_code".toList).bind (parseUnsigned (2 ^ 16))).any fun code =>
      decide (300 ≤ code ∧ code < 400)

def vhostOf (event : NormalizedEvent) : Option (List Char) :=
  (event.metadata.lookup "vhost".toList).map (List.map Char.toLower)

def userAgentOf (event : NormalizedEvent) : List Char :=
  (event.metadata.lookup "user_agent".toList).getD []

/-- None of the reasons not to count the request at an endpoint applies. -/
def isCounted (event : NormalizedEvent) : Bool :=
  !detector.redirectIgnored event && !detector.uaIgnored (userAgentOf event) &&
    !(vhostOf event).any fun vhost => detector.cfg.ignoreVhosts.contains vhost

/-- The first part of `process_http`: which requests go on to be counted. -/
def screen (event : NormalizedEvent) : Fallible CountedRequest := do
  let method ← attempt (event.metadata.lookup "method".toList)
  if detector.methodsUpper.contains (method.map Char.toUpper) then
    let path ← attempt (event.metadata.lookup "path".toList)
    let endpoint ← detector.matchedEndpoint path
    if detector.isCounted event then
      pure ⟨method.map Char.toUpper, endpoint, userAgentOf event, vhostOf event⟩
    else
      attempt none
  else
    attempt none

/-! ## Keys -/

/-- Forget the keys that are neither hot nor seen within the window. -/
def sweep (now : DateTime) (keys : Dict (List Char) KeyState) : Dict (List Char) KeyState :=
  let idle := (Duration.fromStd detector.cfg.window).getD (.minutes 60)
  retain (fun _ state => state.isHot now || decide (now - state.lastSeen < idle)) keys

/-- The order in which keys are given up: first those that are not hot, and the least
recently seen first. -/
def goesBefore (now : DateTime) (first second : KeyState) : Bool :=
  if first.isHot now = second.isHot now then decide (first.lastSeen < second.lastSeen)
  else second.isHot now

/-- The first least entry of the iteration. -/
def victim (now : DateTime) :
    List (Sigma fun _ : List Char => KeyState) → Option (Sigma fun _ : List Char => KeyState)
  | [] => none
  | entry :: entries =>
    some (entries.foldl
      (fun least other => if goesBefore now other.2 least.2 then other else least) entry)

/-- Give up keys until there is room for one more; the fuel bounds their number. -/
def evict (now : DateTime) : Nat → Dict (List Char) KeyState → Dict (List Char) KeyState
  | 0, keys => keys
  | fuel + 1, keys =>
    if detector.cfg.maxKeys ≤ keys.entries.length then
      match victim now (env.iterate keys.entries) with
      | some entry => evict now fuel (keys.erase entry.1)
      | none => keys
    else
      keys

def makeRoom (now : DateTime) (keys : Dict (List Char) KeyState) :
    Dict (List Char) KeyState :=
  if keys.entries.length < detector.cfg.maxKeys then keys
  else detector.evict env now keys.entries.length (detector.sweep now keys)

/-- Make room unless the key is there. -/
def roomFor (key : List Char) (now : DateTime) (keys : Dict (List Char) KeyState) :
    Dict (List Char) KeyState :=
  if key ∈ keys then keys else detector.makeRoom env now keys

/-! ## Hits -/

/-- Queue the earlier participants that are not flagged yet. -/
def queueRetro (reason : List Char) :
    List IpAddr → Finset IpAddr × List Pending → Finset IpAddr × List Pending
  | [], queued => queued
  | ip :: participants, (flagged, pending) =>
    if maxFlaggedPerKey ≤ flagged.card then
      (flagged, pending)
    else if ip ∈ flagged then
      queueRetro reason participants (flagged, pending)
    else
      queueRetro reason participants (insert ip flagged,
        if pending.length < maxPending then pending ++ [⟨ip, reason⟩] else pending)

def newParticipantReason (state : KeyState) : List Char :=
  "Distributed login campaign (".toList ++ state.kindLabel ++ " ".toList ++ state.label ++
    ") — new participant".toList

def campaignReason (state : KeyState) : List Char :=
  "Distributed login campaign (".toList ++ state.kindLabel ++ " ".toList ++ state.label ++
    "): ".toList ++ (toString state.ipCounts.entries.length).toList ++ " IPs / ".toList ++
    (toString state.hits.length).toList ++ " requests in ".toList ++
    (toString detector.cfg.window.secs.val).toList ++ "s".toList

def windowOf : Duration :=
  (Duration.fromStd detector.cfg.window).getD (.minutes 30)

def hotOf : Duration :=
  (Duration.fromStd detector.cfg.hotDuration).getD (.minutes 360)

/-- The second part of a hit: a hot key signals a new participant, and a key with enough
addresses and requests becomes hot. -/
def react (minIps : Nat) (ip : IpAddr) (now : DateTime) :
    EStateM Unit (KeyState × List Pending) (List DetectionSignal) := do
  let (state, pending) ← get
  if state.isHot now then
    let hotUntil ← expect () (now.checkedAddSigned detector.hotOf)
    if state.flagged.card < maxFlaggedPerKey ∧ ip ∉ state.flagged then
      set ({ state with hotUntil := some hotUntil, flagged := insert ip state.flagged }, pending)
      pure [detector.signal env ip (newParticipantReason state) now]
    else
      set ({ state with hotUntil := some hotUntil }, pending)
      pure []
  else if state.ipCounts.entries.length < minIps ∨
      state.hits.length < detector.cfg.minRequests then
    pure []
  else
    let hotUntil ← expect () (now.checkedAddSigned detector.hotOf)
    let reason := detector.campaignReason state
    let participants :=
      if detector.cfg.retroBan then
        ((env.iterate state.ipCounts.keys).filter (· ≠ ip)).take detector.cfg.maxRetroBans
      else
        []
    let (flagged, pending) := queueRetro reason participants (insert ip state.flagged, pending)
    set ({ state with hotUntil := some hotUntil, flagged }, pending)
    pure [detector.signal env ip reason now]

/-- Work on the state of a key, made anew if there is none, beside the queue. -/
def atEntry {α : Type} (key : List Char) (fresh : KeyState)
    (action : EStateM Unit (KeyState × List Pending) α) : EStateM Unit Inner α :=
  zoom (fun inner => ((inner.keys.lookup key).getD fresh, inner.pending))
    (fun slot inner => { inner with keys := inner.keys.insert key slot.1, pending := slot.2 })
    action

def hit (key : List Char) (kind : KeyKind) (label : List Char) (minIps : Nat) (ip : IpAddr)
    (now : DateTime) : EStateM Unit Inner (List DetectionSignal) := do
  modify fun inner => { inner with keys := detector.roomFor env key now inner.keys }
  atEntry key (.new kind label now) do
    zoom Prod.fst (fun state slot => (state, slot.2))
      (KeyState.record detector.cfg.maxHitsPerKey detector.windowOf ip now)
    detector.react env minIps ip now

/-! ## Events -/

def unitSeparator : Char :=
  '\x1f'

/-- The user agent of a key. -/
def normalizedUa (request : CountedRequest) : List Char :=
  if trim request.ua = [] then "-".toList else trim request.ua

def uaKey (request : CountedRequest) : List Char :=
  "ua".toList ++ unitSeparator :: request.method ++ unitSeparator ::
    request.endpoint.map Char.toLower ++ unitSeparator :: normalizedUa request

def vhostKey (request : CountedRequest) (vhost : List Char) : List Char :=
  "vh".toList ++ unitSeparator :: request.method ++ unitSeparator ::
    request.endpoint.map Char.toLower ++ unitSeparator :: vhost

def uaLabel (request : CountedRequest) (agent : List Char) : List Char :=
  "UA='".toList ++ agent ++ "' ".toList ++ request.method ++ " ".toList ++
    request.endpoint.map Char.toLower

def vhostLabel (request : CountedRequest) (vhost : List Char) : List Char :=
  request.method ++ " ".toList ++ vhost ++ request.endpoint.map Char.toLower

/-- Count a request, and sweep the keys now and then. -/
def countEvent (now : DateTime) : EStateM Unit Inner Unit := do
  let inner ← get
  if inner.matchedEvents + 1 < 2 ^ 64 then
    set { inner with
      matchedEvents := inner.matchedEvents + 1
      keys :=
        if sweepEvery ∣ inner.matchedEvents + 1 then detector.sweep now inner.keys
        else inner.keys }
  else
    throw ()

/-- The vhost of a request whose key is counted besides that of the user agent. -/
def countedVhost (request : CountedRequest) : Option (List Char) :=
  if 0 < detector.cfg.vhostMinDistinctIps then request.vhost else none

/-- The second part of `process_http`. -/
def countRequest (request : CountedRequest) (ip : IpAddr) (now : DateTime) :
    EStateM Unit Inner (List DetectionSignal) := do
  detector.countEvent now
  let agent ← expect () (truncate (normalizedUa request) 80)
  let signals ← detector.hit env (uaKey request) .userAgent (uaLabel request agent)
    detector.cfg.minDistinctIps ip now
  match detector.countedVhost request with
  | none => pure signals
  | some vhost => do
      let further ← detector.hit env (vhostKey request vhost) .vhost (vhostLabel request vhost)
        detector.cfg.vhostMinDistinctIps ip now
      pure (signals ++ further)

def processHttp (event : NormalizedEvent) : EStateM Unit Inner (List DetectionSignal) :=
  match detector.screen event with
  | none => throw ()
  | some none => pure []
  | some (some request) => detector.countRequest env request event.sourceIp event.timestamp

def firstPerSource : List DetectionSignal → List IpNet → List DetectionSignal
  | [], _ => []
  | signal :: signals, seen =>
    if signal.sourceIp ∈ seen then firstPerSource signals seen
    else signal :: firstPerSource signals (signal.sourceIp :: seen)

def isHttp (event : NormalizedEvent) : Bool :=
  match event.eventType with
  | .httpRequest | .http4xx | .http5xx => true
  | _ => false

/-- Signals taken from the queue before a panic are lost. -/
def processMulti (event : NormalizedEvent) : EStateM Unit Inner (List DetectionSignal) := do
  let inner ← get
  let drained := inner.pending.take detector.cfg.retroBatch
  set { inner with pending := inner.pending.drop detector.cfg.retroBatch }
  let found ← if isHttp event then detector.processHttp env event else pure []
  let out := drained.map (fun entry => detector.signal env entry.ip entry.reason event.timestamp)
    ++ found
  pure (if 1 < out.length then firstPerSource out [] else out)

end CampaignDetector

end HiveGuard.Detectors
