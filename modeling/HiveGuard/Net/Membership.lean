import HiveGuard.Core.Chrono
import HiveGuard.Library.Dictionary
import HiveGuard.Library.Encoding

/-!
# Failure detection

Peers are probed with pings.  A ping without an answer is repeated through other peers, and
if that brings no answer either, the peer becomes suspect, after some time dead, and in the
end it is removed.  Calls take the times they read and their random choices as arguments.
-/

namespace HiveGuard.Net

open HiveGuard.Core Library.Dictionary Library.Encoding

/-- State of a cluster peer in the failure detector. -/
inductive PeerState where
  | alive
  | suspect
  | dead
  deriving DecidableEq

structure PeerInfo where
  state : PeerState
  lastSeen : DateTime
  deriving DecidableEq

/-- The known peers by their node ids. -/
abbrev PeerManager := Dict String PeerInfo

namespace PeerManager

def updatePeerState (self : PeerManager) (nodeId : String) (state : PeerState) (now : DateTime) :
    Bool × PeerManager :=
  match self.lookup nodeId with
  | none => (false, self)
  | some _ => (true, self.insert nodeId ⟨state, now⟩)

/-- The ids of the peers that pass a test. -/
def select (self : PeerManager) (test : PeerInfo → Bool) : List String :=
  (self.entries.filter fun entry => test entry.2).map Sigma.fst

def getAlivePeers (self : PeerManager) : List String :=
  self.select fun peer => decide (peer.state = .alive)

/-- The state of a peer, if it is known. -/
def stateOf (self : PeerManager) (nodeId : String) : Option PeerState :=
  (self.lookup nodeId).map PeerInfo.state

end PeerManager

structure SwimConfig where
  pingTimeout : StdDuration
  pingReqFanout : Nat
  suspectTimeout : StdDuration
  deadTimeout : StdDuration

inductive SwimAction where
  | sendPing (targetId : String) (digest : Bytes)
  | sendPingReq (targetId : String) (viaPeers : List String)
  | markSuspect (nodeId : String)
  | markDead (nodeId : String)
  | removePeer (nodeId : String)
  | none
  deriving DecidableEq

/-- A ping that waits for its answer. -/
structure PendingPing where
  targetId : String
  sentAt : DateTime
  indirectSent : Bool
  deriving DecidableEq

structure SwimMembership where
  config : SwimConfig
  localNodeId : String
  pendingPings : List PendingPing

/-- A random choice of some items. -/
structure Sampler where
  chooseMultiple : List String → Nat → List String
  chosen : ∀ items amount, (chooseMultiple items amount).Subperm items
  length_chooseMultiple : ∀ items amount,
    (chooseMultiple items amount).length = min amount items.length

/-- What a check for timeouts reads: the time at its start, the time at which it last
gives a peer a state, and the random choice for each pending ping. -/
structure TimeoutCheck where
  now : DateTime
  stamp : String → PeerState → DateTime
  samplers : Nat → Sampler

/-- The time since an instant; zero if the clock went back. -/
def TimeoutCheck.elapsed (self : TimeoutCheck) (since : DateTime) : Duration :=
  max (self.now - since) 0

namespace SwimMembership

/-- Select an alive peer to probe, by a random number. -/
def selectProbeTarget (self : SwimMembership) (peers : PeerManager) (digest : Bytes)
    (choice : Nat) (now : DateTime) : SwimAction × SwimMembership :=
  let alive := peers.getAlivePeers
  match alive[choice % alive.length]? with
  | none => (.none, self)
  | some targetId =>
    (.sendPing targetId digest,
      { self with pendingPings := self.pendingPings ++ [⟨targetId, now, false⟩] })

/-- Handle an answer to a ping. -/
def handlePong (self : SwimMembership) (senderId : String) (peers : PeerManager)
    (now : DateTime) : SwimMembership × PeerManager :=
  ({ self with
      pendingPings := self.pendingPings.filter fun ping => decide (ping.targetId ≠ senderId) },
    (peers.updatePeerState senderId .alive now).2)

section Timeouts

variable (self : SwimMembership) (check : TimeoutCheck)

/-- The alive peers that can repeat a ping. -/
def intermediaries (peers : PeerManager) (ping : PendingPing) : List String :=
  peers.getAlivePeers.filter fun nodeId =>
    decide (nodeId ≠ ping.targetId ∧ nodeId ≠ self.localNodeId)

/-- Some of the peers that can repeat a ping, at random. -/
def viaPeers (sampler : Sampler) (alive : List String) : List String :=
  let amount := min self.config.pingReqFanout alive.length
  if 0 < amount then sampler.chooseMultiple alive amount else []

/-- One round of the loop over the pending pings: what is left of the ping, the actions,
and the peers.  Doubling the timeout does not overflow where it is reached, because the
timeout itself has passed before. -/
def checkPing (sampler : Sampler) (peers : PeerManager) (ping : PendingPing) :
    Option PendingPing × List SwimAction × PeerManager :=
  let suspected : Option PendingPing × List SwimAction × PeerManager :=
    (Option.none, [.markSuspect ping.targetId],
      (peers.updatePeerState ping.targetId .suspect (check.stamp ping.targetId .suspect)).2)
  if ping.indirectSent = false ∧
      self.config.pingTimeout.asNanos ≤ check.elapsed ping.sentAt then
    let via := self.viaPeers sampler (self.intermediaries peers ping)
    if via.isEmpty then
      suspected
    else
      (some { ping with indirectSent := true }, [.sendPingReq ping.targetId via], peers)
  else if ping.indirectSent = true ∧
      2 * self.config.pingTimeout.asNanos ≤ check.elapsed ping.sentAt then
    suspected
  else
    (some ping, [], peers)

/-- The loop over the pending pings, from an index on. -/
def checkPings (index : Nat) (peers : PeerManager) :
    List PendingPing → List PendingPing × List SwimAction × PeerManager
  | [] => ([], [], peers)
  | ping :: pings =>
    let (kept, actions, next) := self.checkPing check (check.samplers index) peers ping
    let (keptLater, later, last) := checkPings (index + 1) next pings
    (kept.toList ++ keptLater, actions ++ later, last)

/-- The peers that have been in a state for too long. -/
def expired (state : PeerState) (timeout : StdDuration) (peers : PeerManager) : List String :=
  peers.select fun peer =>
    decide (peer.state = state ∧ timeout.asNanos ≤ check.elapsed peer.lastSeen)

def checkTimeouts (peers : PeerManager) : List SwimAction × SwimMembership × PeerManager :=
  let (pendingPings, pingActions, peers) :=
    self.checkPings check 0 peers self.pendingPings
  let suspects := expired check .suspect self.config.suspectTimeout peers
  let peers := suspects.foldl (fun peers nodeId =>
    (peers.updatePeerState nodeId .dead (check.stamp nodeId .dead)).2) peers
  let gone := expired check .dead self.config.deadTimeout peers
  (pingActions ++ suspects.map .markDead ++ gone.map .removePeer,
    { self with pendingPings := pendingPings },
    gone.foldl (fun peers nodeId => peers.erase nodeId) peers)

end Timeouts

end SwimMembership

/-! ## Peers -/

namespace PeerManager

theorem mem_select_iff {self : PeerManager} {test : PeerInfo → Bool} {nodeId : String} :
    nodeId ∈ self.select test ↔ ∃ peer, self.lookup nodeId = some peer ∧ test peer = true := by
  simp only [select, List.mem_map, List.mem_filter]
  constructor
  · rintro ⟨⟨nodeId, peer⟩, ⟨member, passes⟩, rfl⟩
    exact ⟨peer, mem_entries_iff.mp member, passes⟩
  · rintro ⟨peer, found, passes⟩
    exact ⟨⟨nodeId, peer⟩, ⟨mem_entries_iff.mpr found, passes⟩, rfl⟩

theorem mem_getAlivePeers_iff {self : PeerManager} {nodeId : String} :
    nodeId ∈ self.getAlivePeers ↔ self.stateOf nodeId = some .alive := by
  simp only [getAlivePeers, mem_select_iff, stateOf, Option.map_eq_some_iff, decide_eq_true_eq]

theorem lookup_updatePeerState (self : PeerManager) (nodeId probe : String) (state : PeerState)
    (now : DateTime) :
    (self.updatePeerState nodeId state now).2.lookup probe =
      if probe = nodeId then (self.lookup nodeId).map fun _ => ⟨state, now⟩
      else self.lookup probe := by
  rw [updatePeerState]
  split
  · rename_i unknown
    rw [unknown]
    split
    · rename_i same
      rw [same]
      exact unknown
    · rfl
  · rename_i peer known
    rw [known]
    exact lookup_insert self nodeId probe ⟨state, now⟩

theorem stateOf_updatePeerState (self : PeerManager) (nodeId probe : String)
    (state : PeerState) (now : DateTime) :
    (self.updatePeerState nodeId state now).2.stateOf probe =
      if probe = nodeId then (self.stateOf nodeId).map fun _ => state else self.stateOf probe := by
  rw [stateOf, lookup_updatePeerState]
  split
  · rw [stateOf, Option.map_map, Option.map_map]
    rfl
  · rfl

end PeerManager

end HiveGuard.Net
