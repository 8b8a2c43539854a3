import HiveGuard.Detectors.Bruteforce
import HiveGuard.Library.Journal

/-!
# The detector of distributed crawls

A crawler that sends one request from each of its many addresses is seen only as a whole: the
detector counts sources that were not seen for a long time and go straight to an expensive
path.  Too many of them within the window mean that the site is under attack; the attack is
over when the count stays low for a while.

The sources that were seen are kept in two generations.  A generation is closed by the first
request that comes late enough after it began, or when it is full; the one before it is
forgotten then.

An error is a panic: the start of the window has no date.  The lock is held at that moment, so
it is poisoned, and every later call is turned away.
-/

namespace HiveGuard.Detectors

open HiveGuard.Core Library.Dictionary Library.Text
open NetKey

def defaultIgnoreExtensions : List (List Char) :=
  [".css", ".js", ".mjs", ".map", ".png", ".jpg", ".jpeg", ".gif", ".webp", ".avif", ".svg",
    ".ico", ".woff", ".woff2", ".ttf", ".eot", ".mp4", ".webm", ".pdf"].map String.toList

structure DistributedCrawlConfig where
  window : StdDuration
  pathPrefixes : List (List Char)
  freshIpMemory : StdDuration
  freshIpThreshold : Nat
  offThreshold : Nat
  cooldown : StdDuration
  maxTrackedIps : Nat
  excludeStaticFetchers : Bool
  staticExtensions : List (List Char)
  requireNoReferer : Bool
  ipv6Prefix : Fin 256

def DistributedCrawlConfig.default : DistributedCrawlConfig where
  window := .fromSecs 300
  pathPrefixes := []
  freshIpMemory := .fromSecs 86400
  freshIpThreshold := 30
  offThreshold := 10
  cooldown := .fromSecs 900
  maxTrackedIps := 500000
  excludeStaticFetchers := true
  staticExtensions := defaultIgnoreExtensions
  requireNoReferer := false
  ipv6Prefix := 64

inductive CrawlTransition where
  | on (freshIps : Nat)
  | off (freshIps : Nat)
  deriving DecidableEq

structure CrawlStatus where
  underAttack : Bool
  freshIps : Nat
  transition : Option CrawlTransition
  deriving DecidableEq

/-- What the lock protects. -/
structure CrawlInner where
  seenCur : Finset IpAddr
  seenPrev : Finset IpAddr
  generationStarted : Option DateTime
  candidates : Dict IpAddr DateTime
  order : List (DateTime × IpAddr)
  on : Bool
  belowSince : Option DateTime

def CrawlInner.new : CrawlInner :=
  ⟨∅, ∅, none, ∅, [], false, none⟩

/-- The lock and what it protects. -/
structure CrawlState where
  inner : CrawlInner
  poisoned : Bool

def CrawlState.new : CrawlState :=
  ⟨.new, false⟩

/-- The configuration; at least two addresses can be tracked. -/
structure DistributedCrawlDetector where
  cfg : DistributedCrawlConfig
  two_le : 2 ≤ cfg.maxTrackedIps

namespace DistributedCrawlDetector

def withConfig (cfg : DistributedCrawlConfig) : DistributedCrawlDetector where
  cfg :=
    { cfg with
      staticExtensions := cfg.staticExtensions.map fun extension => extension.map Char.toLower
      maxTrackedIps := max cfg.maxTrackedIps 2 }
  two_le := le_max_right _ _

variable (detector : DistributedCrawlDetector)

def isStatic (path : List Char) : Bool :=
  let lower := (path.takeWhile fun char => char != '?' && char != '#').map Char.toLower
  detector.cfg.staticExtensions.any fun extension => extension.isSuffixOf lower

def matchesPrefix (path : List Char) : Bool :=
  detector.cfg.pathPrefixes.any fun start => start.isPrefixOf path

/-- Half the time a source is remembered, rounded down. -/
def halfMemory : Duration :=
  windowSpan
    { secs := detector.cfg.freshIpMemory.secs / 2
      nanos := ⟨(detector.cfg.freshIpMemory.secs.val % 2 * 1000000000 +
        detector.cfg.freshIpMemory.nanos.val) / 2, by omega⟩ }

/-- A new generation begins with a request. -/
def rotationDue (inner : CrawlInner) (now : DateTime) : Bool :=
  decide (detector.halfMemory ≤ now - inner.generationStarted.getD now) ||
    decide (detector.cfg.maxTrackedIps / 2 ≤ inner.seenCur.card)

/-- Begin a new generation if one is due. -/
def rotate (inner : CrawlInner) (now : DateTime) : CrawlInner :=
  if detector.rotationDue inner now then
    { inner with seenPrev := inner.seenCur, seenCur := ∅, generationStarted := some now }
  else
    { inner with generationStarted := some (inner.generationStarted.getD now) }

/-- Mark a source as seen; the answer is whether it was seen before. -/
def markSeen (inner : CrawlInner) (key : IpAddr) (now : DateTime) : Bool × CrawlInner :=
  let inner := detector.rotate inner now
  (decide (key ∈ inner.seenCur ∨ key ∈ inner.seenPrev),
    { inner with seenCur := insert key inner.seenCur })

/-- Drop the oldest candidate that is still one. -/
def dropOldest (candidates : Dict IpAddr DateTime) :
    List (DateTime × IpAddr) → Dict IpAddr DateTime × List (DateTime × IpAddr)
  | [] => (candidates, [])
  | (ts, ip) :: order =>
    if candidates.lookup ip = some ts then (candidates.erase ip, order)
    else dropOldest candidates order

def makeRoom (inner : CrawlInner) : Dict IpAddr DateTime × List (DateTime × IpAddr) :=
  if detector.cfg.maxTrackedIps ≤ inner.candidates.keys.length then
    dropOldest inner.candidates inner.order
  else
    (inner.candidates, inner.order)

def addCandidate (inner : CrawlInner) (key : IpAddr) (now : DateTime) : CrawlInner :=
  { inner with
    candidates := (detector.makeRoom inner).1.insert key now
    order := (detector.makeRoom inner).2 ++ [(now, key)] }

/-- A request with a referrer, where these are not counted. -/
def isReferred (event : NormalizedEvent) : Bool :=
  detector.cfg.requireNoReferer &&
    (event.metadata.lookup "referer".toList).any fun referer =>
      !(trim referer).isEmpty && trim referer != "-".toList

/-- The address a source is counted by. -/
def key (event : NormalizedEvent) : IpAddr :=
  (sourceKey event.sourceIp detector.cfg.ipv6Prefix).addr

def recordPath (inner : CrawlInner) (event : NormalizedEvent) (path : List Char) : CrawlInner :=
  let key := detector.key event
  if detector.cfg.excludeStaticFetchers && detector.isStatic path then
    (detector.markSeen { inner with candidates := inner.candidates.erase key } key
      event.timestamp).2
  else
    let (known, inner) := detector.markSeen inner key event.timestamp
    if detector.matchesPrefix path && !detector.isReferred event && !known &&
        (inner.candidates.lookup key).isNone then
      detector.addCandidate inner key event.timestamp
    else
      inner

def recordInner (inner : CrawlInner) (event : NormalizedEvent) : CrawlInner :=
  if event.isHttp then
    match event.metadata.lookup "path".toList with
    | some path => detector.recordPath inner event path
    | none => inner
  else
    inner

def record (event : NormalizedEvent) : EStateM Unit CrawlState Unit := do
  let state ← get
  unless state.poisoned do
    set { state with inner := detector.recordInner state.inner event }

/-- Drop the candidates that are before the window. -/
def pruneCandidates (cutoff : DateTime) (candidates : Dict IpAddr DateTime) :
    List (DateTime × IpAddr) → Dict IpAddr DateTime × List (DateTime × IpAddr)
  | [] => (candidates, [])
  | (ts, ip) :: order =>
    if cutoff ≤ ts then (candidates, (ts, ip) :: order)
    else if candidates.lookup ip = some ts then
      pruneCandidates cutoff (candidates.erase ip) order
    else pruneCandidates cutoff candidates order

/-- Drop the entries that are no candidates any more when there are many of them. -/
def compact (candidates : Dict IpAddr DateTime) (order : List (DateTime × IpAddr)) :
    List (DateTime × IpAddr) :=
  if 2 * candidates.keys.length + 1024 < order.length then
    order.filter fun entry => decide (candidates.lookup entry.2 = some entry.1)
  else
    order

def pruneInner (inner : CrawlInner) (cutoff : DateTime) : CrawlInner :=
  let (candidates, order) := pruneCandidates cutoff inner.candidates inner.order
  { inner with candidates := candidates, order := compact candidates order }

/-- The count goes through the two thresholds. -/
def decideAttack (inner : CrawlInner) (now : DateTime) : CrawlStatus × CrawlInner :=
  let freshIps := inner.candidates.keys.length
  if !inner.on then
    if detector.cfg.freshIpThreshold < freshIps then
      (⟨true, freshIps, some (.on freshIps)⟩, { inner with on := true, belowSince := none })
    else
      (⟨false, freshIps, none⟩, inner)
  else if freshIps < detector.cfg.offThreshold then
    let since := inner.belowSince.getD now
    if windowSpan detector.cfg.cooldown ≤ now - since then
      (⟨false, freshIps, some (.off freshIps)⟩, { inner with on := false, belowSince := none })
    else
      (⟨true, freshIps, none⟩, { inner with belowSince := some since })
  else
    (⟨true, freshIps, none⟩, { inner with belowSince := none })

def evaluate (now : DateTime) : EStateM Unit CrawlState CrawlStatus := do
  let state ← get
  if state.poisoned then
    pure ⟨false, 0, none⟩
  else
    match windowStart detector.cfg.window now with
    | none => do
        set { state with poisoned := true }
        throw ()
    | some cutoff => do
        let (status, inner) := detector.decideAttack (pruneInner state.inner cutoff) now
        set { state with inner := inner }
        pure status

end DistributedCrawlDetector

end HiveGuard.Detectors
