import HiveGuard.Net.Membership

/-!
# Do dead peers stay dead?

A ping runs out while its target may already be dead: several pings to one peer can wait
for an answer, and the peer's death does not cancel them.  The peer then becomes suspect
again.  Which pings run out is determined by the state before the check.
-/

namespace HiveGuard.Net

open HiveGuard.Core Library.Dictionary Library.Encoding

namespace SwimMembership

/-! ## Pings that run out -/

section Pings

variable (self : SwimMembership) (check : TimeoutCheck)

/-- A ping that was repeated and has waited twice the timeout. -/
def Overdue (ping : PendingPing) : Prop :=
  ping.indirectSent = true ∧
    2 * self.config.pingTimeout.asNanos ≤ check.elapsed ping.sentAt

/-- A ping that has waited for the timeout and is to be repeated. -/
def Late (ping : PendingPing) : Prop :=
  ping.indirectSent = false ∧ self.config.pingTimeout.asNanos ≤ check.elapsed ping.sentAt

/-- No alive peer can repeat the ping. -/
def Unaided (peers : PeerManager) (ping : PendingPing) : Prop :=
  self.config.pingReqFanout = 0 ∨ ∀ nodeId, peers.stateOf nodeId = some .alive →
    nodeId ≠ self.localNodeId → nodeId = ping.targetId

/-- The ping is given up, with the peers as they are when its turn comes. -/
def GivenUp (peers : PeerManager) (ping : PendingPing) : Prop :=
  self.Overdue check ping ∨ self.Late check ping ∧ self.Unaided peers ping

theorem viaPeers_isEmpty_iff (sampler : Sampler) (peers : PeerManager) (ping : PendingPing) :
    (self.viaPeers sampler (self.intermediaries peers ping)).isEmpty = true ↔
      self.Unaided peers ping := by
  have unaided_iff : self.Unaided peers ping ↔
      min self.config.pingReqFanout (self.intermediaries peers ping).length = 0 := by
    rw [Nat.min_eq_zero_iff, List.length_eq_zero_iff, intermediaries, List.filter_eq_nil_iff,
      Unaided]
    refine or_congr_right (forall_congr' fun nodeId => ?_)
    rw [PeerManager.mem_getAlivePeers_iff, decide_eq_true_eq]
    tauto
  rw [unaided_iff, viaPeers, List.isEmpty_iff]
  split
  · rename_i some
    rw [← List.length_eq_zero_iff, sampler.length_chooseMultiple,
      Nat.min_eq_left (Nat.min_le_right _ _)]
  · rename_i none
    exact iff_of_true rfl (Nat.eq_zero_of_not_pos none)

/-- A round of the loop gives the ping up and suspects its target, or leaves the peers
alone. -/
theorem checkPing_cases (sampler : Sampler) (peers : PeerManager) (ping : PendingPing) :
    (self.GivenUp check peers ping ∧ (self.checkPing check sampler peers ping).2 =
        ([.markSuspect ping.targetId], (peers.updatePeerState ping.targetId .suspect
          (check.stamp ping.targetId .suspect)).2)) ∨ (¬self.GivenUp check peers ping ∧
      (self.checkPing check sampler peers ping).2.2 = peers ∧
      ∀ nodeId, SwimAction.markSuspect nodeId ∉ (self.checkPing check sampler peers ping).2.1) := by
  rw [checkPing]
  dsimp only
  split
  · rename_i late
    have notOverdue : ¬self.Overdue check ping := by
      rintro ⟨sent, -⟩
      rw [late.1] at sent
      cases sent
    split
    · rename_i unaided
      rw [viaPeers_isEmpty_iff] at unaided
      exact Or.inl ⟨Or.inr ⟨late, unaided⟩, rfl⟩
    · rename_i aided
      rw [viaPeers_isEmpty_iff] at aided
      refine Or.inr ⟨?_, rfl, by simp⟩
      rintro (overdue | ⟨-, unaided⟩)
      · exact notOverdue overdue
      · exact aided unaided
  · rename_i notLate
    split
    · rename_i overdue
      exact Or.inl ⟨Or.inl overdue, rfl⟩
    · rename_i notOverdue
      refine Or.inr ⟨?_, rfl, by simp⟩
      rintro (overdue | ⟨late, -⟩)
      · exact notOverdue overdue
      · exact notLate late

/-! ## The loop, seen from the state before it -/

/-- One of the pings to this peer is overdue. -/
def OverdueTarget (pings : List PendingPing) (nodeId : String) : Prop :=
  ∃ ping ∈ pings, self.Overdue check ping ∧ ping.targetId = nodeId

variable (peers : PeerManager) (front : List PendingPing) (ping : PendingPing)

/-- All peers that could repeat the ping are targets of overdue pings before it. -/
def Isolated : Prop :=
  ∀ nodeId, peers.stateOf nodeId = some .alive → nodeId ≠ self.localNodeId →
    nodeId = ping.targetId ∨ self.OverdueTarget check front nodeId

/-- Among the pings is a late one that is isolated. -/
def Stranded (pings : List PendingPing) : Prop :=
  ∃ front ping back, pings = front ++ ping :: back ∧ self.Late check ping ∧
    self.Isolated check peers front ping

/-- The ping behind `front` runs out: it is overdue, or it is late and nobody is asked to
repeat pings, or it is late and a ping up to it is isolated. -/
def RunsOut : Prop :=
  self.Overdue check ping ∨ self.Late check ping ∧
    (self.config.pingReqFanout = 0 ∨ self.Stranded check peers (front ++ [ping]))

theorem overdueTarget_concat_iff (nodeId : String) :
    self.OverdueTarget check (front ++ [ping]) nodeId ↔ self.OverdueTarget check front nodeId ∨
        self.Overdue check ping ∧ ping.targetId = nodeId := by
  simp only [OverdueTarget, List.mem_append, List.mem_singleton, or_and_right, exists_or,
    exists_eq_left]

theorem stranded_concat_iff :
    self.Stranded check peers (front ++ [ping]) ↔ self.Stranded check peers front ∨
        self.Late check ping ∧ self.Isolated check peers front ping := by
  constructor
  · rintro ⟨before, stranded, back, split, late, isolated⟩
    rcases List.eq_nil_or_concat back with rfl | ⟨back, last, rfl⟩
    · rcases List.append_inj' split rfl with ⟨rfl, same⟩
      cases same
      exact Or.inr ⟨late, isolated⟩
    · rw [List.concat_eq_append, ← List.cons_append, ← List.append_assoc] at split
      exact Or.inl ⟨before, stranded, back, (List.append_inj' split rfl).1, late, isolated⟩
  · rintro (⟨before, stranded, back, rfl, late, isolated⟩ | ⟨late, isolated⟩)
    · exact ⟨before, stranded, back ++ [ping], by simp, late, isolated⟩
    · exact ⟨front, ping, [], rfl, late, isolated⟩

/-- The peers in the loop, seen from the peers before it.  Once a ping was isolated, no
peer can repeat pings; before, the targets of overdue pings are those that cannot. -/
def Follows (original : PeerManager) (front : List PendingPing) (current : PeerManager) :
    Prop :=
  self.config.pingReqFanout = 0 ∨
    (self.Stranded check original front ∧
      ∀ nodeId, current.stateOf nodeId = some .alive → nodeId = self.localNodeId) ∨
    (¬self.Stranded check original front ∧
      ∀ nodeId, nodeId ≠ self.localNodeId → (current.stateOf nodeId = some .alive ↔
        original.stateOf nodeId = some .alive ∧ ¬self.OverdueTarget check front nodeId))

theorem follows_self : self.Follows check peers [] peers := by
  refine Or.inr (Or.inr ⟨?_, fun nodeId _ => ?_⟩)
  · rintro ⟨front, ping, back, split, -⟩
    exact absurd split.symm (List.append_ne_nil_of_right_ne_nil _ (List.cons_ne_nil _ _))
  · simp [OverdueTarget]

variable {self check front ping} {original current : PeerManager}

/-- The ping whose turn it is runs out as the state before the loop says. -/
theorem Follows.givenUp_iff (follows : self.Follows check original front current) :
    self.GivenUp check current ping ↔ self.RunsOut check original front ping := by
  refine or_congr_right (and_congr_right fun late => ?_)
  rw [Unaided, stranded_concat_iff]
  rcases follows with unasked | ⟨stranded, nobody⟩ | ⟨unstranded, alive_iff⟩
  · exact iff_of_true (Or.inl unasked) (Or.inl unasked)
  · refine iff_of_true (Or.inr fun nodeId alive other => ?_) (Or.inr (Or.inl stranded))
    exact absurd (nobody nodeId alive) other
  · rw [or_iff_right unstranded, and_iff_right late]
    refine or_congr_right (forall_congr' fun nodeId => ?_)
    constructor
    · intro unaided alive other
      by_contra spared
      rw [not_or] at spared
      exact spared.1 (unaided ((alive_iff nodeId other).mpr ⟨alive, spared.2⟩) other)
    · intro isolated alive other
      rcases (alive_iff nodeId other).mp alive with ⟨aliveBefore, spared⟩
      exact (isolated aliveBefore other).resolve_right spared

theorem stateOf_suspected_iff {nodeId probe : String} {now : DateTime} :
    (current.updatePeerState nodeId .suspect now).2.stateOf probe = some .alive ↔
      probe ≠ nodeId ∧ current.stateOf probe = some .alive := by
  rw [PeerManager.stateOf_updatePeerState]
  split
  · rename_i same
    refine iff_of_false ?_ fun condition => condition.1 same
    cases current.stateOf nodeId <;> exact nofun
  · rename_i different
    exact (and_iff_right different).symm

theorem not_late_of_overdue (overdue : self.Overdue check ping) : ¬self.Late check ping := by
  rintro ⟨unsent, -⟩
  rw [overdue.1] at unsent
  cases unsent

/-- A round of the loop. -/
theorem Follows.checkPing (follows : self.Follows check original front current)
    (sampler : Sampler) :
    self.Follows check original (front ++ [ping])
      (self.checkPing check sampler current ping).2.2 := by
  rcases eq_or_ne self.config.pingReqFanout 0 with unasked | asked
  · exact Or.inl unasked
  have runsOut_iff : self.GivenUp check current ping ↔ self.RunsOut check original front ping :=
    follows.givenUp_iff
  rcases self.checkPing_cases check sampler current ping with ⟨givenUp, result⟩ |
    ⟨kept, result, -⟩
  · rw [result]
    rcases runsOut_iff.mp givenUp with overdue | ⟨late, unasked | stranded⟩
    · rcases follows with unasked | ⟨stranded, nobody⟩ | ⟨unstranded, alive_iff⟩
      · exact absurd unasked asked
      · refine Or.inr (Or.inl ⟨(stranded_concat_iff ..).mpr (Or.inl stranded), ?_⟩)
        exact fun nodeId alive => nobody nodeId (stateOf_suspected_iff.mp alive).2
      · -- The target leaves the alive peers, and the overdue ping is remembered.
        refine Or.inr (Or.inr ⟨?_, fun nodeId other => ?_⟩)
        · rw [stranded_concat_iff]
          rintro (stranded | ⟨late, -⟩)
          · exact unstranded stranded
          · exact not_late_of_overdue overdue late
        · rw [stateOf_suspected_iff, alive_iff nodeId other, overdueTarget_concat_iff,
            and_iff_right overdue, eq_comm]
          tauto
    · exact absurd unasked asked
    · -- Nobody but the target was left to repeat the ping.
      refine Or.inr (Or.inl ⟨stranded, fun nodeId alive => ?_⟩)
      rw [stateOf_suspected_iff] at alive
      by_contra other
      rcases givenUp with overdue | ⟨-, unasked | unaided⟩
      · exact not_late_of_overdue overdue late
      · exact asked unasked
      · exact alive.1 (unaided nodeId alive.2 other)
  · rw [result]
    rw [runsOut_iff, RunsOut, not_or, not_and, not_or] at kept
    rcases follows with unasked | ⟨stranded, nobody⟩ | ⟨unstranded, alive_iff⟩
    · exact absurd unasked asked
    · exact Or.inr (Or.inl ⟨(stranded_concat_iff ..).mpr (Or.inl stranded), nobody⟩)
    · refine Or.inr (Or.inr ⟨?_, fun nodeId other => ?_⟩)
      · rw [stranded_concat_iff]
        rintro (stranded | ⟨late, isolated⟩)
        · exact unstranded stranded
        · exact (kept.2 late).2 ((stranded_concat_iff ..).mpr (Or.inr ⟨late, isolated⟩))
      · rw [alive_iff nodeId other, overdueTarget_concat_iff, or_iff_left]
        exact fun overdue => kept.1 overdue.1

/-- The loop suspects exactly the targets of the pings that run out. -/
theorem markSuspect_mem_checkPings (follows : self.Follows check original front current)
    (index : Nat) (pings : List PendingPing) (nodeId : String) :
    SwimAction.markSuspect nodeId ∈ (self.checkPings check index current pings).2.1 ↔
      ∃ before ping after, pings = before ++ ping :: after ∧ ping.targetId = nodeId ∧
        self.RunsOut check original (front ++ before) ping := by
  induction pings generalizing index front current with
  | nil =>
    refine iff_of_false nofun ?_
    rintro ⟨before, ping, after, split, -⟩
    exact absurd split.symm (List.append_ne_nil_of_right_ne_nil _ (List.cons_ne_nil _ _))
  | cons ping pings ih =>
    have first : SwimAction.markSuspect nodeId ∈
        (self.checkPing check (check.samplers index) current ping).2.1 ↔
          ping.targetId = nodeId ∧ self.RunsOut check original front ping := by
      rw [← follows.givenUp_iff]
      rcases self.checkPing_cases check (check.samplers index) current ping with
        ⟨givenUp, result⟩ | ⟨kept, -, unmarked⟩
      · rw [result]
        simp [givenUp, eq_comm]
      · exact iff_of_false (unmarked nodeId) fun condition => kept condition.2
    rw [checkPings]
    dsimp only
    rw [List.mem_append, first,
      ih (follows.checkPing (check.samplers index)) (index + 1)]
    constructor
    · rintro (⟨target, runsOut⟩ | ⟨before, later, after, rfl, target, runsOut⟩)
      · exact ⟨[], ping, pings, rfl, target, by rwa [List.append_nil]⟩
      · refine ⟨ping :: before, later, after, rfl, target, ?_⟩
        rwa [List.append_assoc] at runsOut
    · rintro ⟨before, later, after, split, target, runsOut⟩
      cases before with
      | nil =>
        cases split
        rw [List.append_nil] at runsOut
        exact Or.inl ⟨target, runsOut⟩
      | cons head before =>
        cases split
        refine Or.inr ⟨before, later, after, rfl, target, ?_⟩
        rwa [List.append_assoc]

/-- A peer that the loop does not suspect is left alone. -/
theorem lookup_checkPings {nodeId : String} (index : Nat) (pings : List PendingPing)
    (unmarked : SwimAction.markSuspect nodeId ∉ (self.checkPings check index current pings).2.1) :
    (self.checkPings check index current pings).2.2.lookup nodeId = current.lookup nodeId := by
  induction pings generalizing index current with
  | nil => rfl
  | cons ping pings ih =>
    rw [checkPings] at unmarked ⊢
    dsimp only at unmarked ⊢
    rw [List.mem_append, not_or] at unmarked
    have unmarkedFirst : SwimAction.markSuspect nodeId ∉
        (self.checkPing check (check.samplers index) current ping).2.1 := unmarked.1
    have next_eq : (self.checkPing check (check.samplers index) current ping).2.2.lookup
        nodeId = current.lookup nodeId := by
      rcases self.checkPing_cases check (check.samplers index) current ping with
        ⟨-, result⟩ | ⟨-, result, -⟩
      · rw [result, List.mem_singleton, SwimAction.markSuspect.injEq] at unmarkedFirst
        rw [result, PeerManager.lookup_updatePeerState, if_neg unmarkedFirst]
      · rw [result]
    exact (ih (index + 1) unmarked.2).trans next_eq

end Pings

/-! ## Whole checks -/

section Checks

variable {self : SwimMembership} {check : TimeoutCheck} {peers : PeerManager} {nodeId : String}

theorem lookup_foldl_updatePeerState {marked : List String} {stamp : String → DateTime}
    {state : PeerState} (unmarked : nodeId ∉ marked) (peers : PeerManager) :
    (marked.foldl (fun peers marked =>
        (peers.updatePeerState marked state (stamp marked)).2) peers).lookup nodeId =
      peers.lookup nodeId := by
  induction marked generalizing peers with
  | nil => rfl
  | cons first marked ih =>
    rw [List.mem_cons, not_or] at unmarked
    rw [List.foldl_cons, ih unmarked.2,
      PeerManager.lookup_updatePeerState, if_neg unmarked.1]

theorem lookup_foldl_erase (gone : List String) (peers : PeerManager) :
    (gone.foldl (fun peers gone => peers.erase gone) peers).lookup nodeId = peers.lookup nodeId ∨
      (gone.foldl (fun peers gone => peers.erase gone) peers).lookup nodeId = none := by
  induction gone generalizing peers with
  | nil => exact Or.inl rfl
  | cons first gone ih =>
    rw [List.foldl_cons]
    rcases ih (peers.erase first) with kept | removed
    · rw [kept, lookup_erase]
      split
      · exact Or.inr rfl
      · exact Or.inl rfl
    · exact Or.inr removed

theorem state_of_mem_expired {state : PeerState} {timeout : StdDuration}
    (member : nodeId ∈ expired check state timeout peers) : peers.stateOf nodeId = some state := by
  rcases PeerManager.mem_select_iff.mp member with ⟨peer, found, test⟩
  rw [PeerManager.stateOf, found, Option.map_some, (of_decide_eq_true test).1]

/-- The later parts of a check suspect nobody. -/
theorem markSuspect_mem_checkTimeouts :
    SwimAction.markSuspect nodeId ∈ (self.checkTimeouts check peers).1 ↔
      SwimAction.markSuspect nodeId ∈ (self.checkPings check 0 peers self.pendingPings).2.1 := by
  rw [checkTimeouts]
  simp

/-- A dead peer that is not suspected stays dead or is removed. -/
theorem stateOf_checkTimeouts (dead : peers.stateOf nodeId = some .dead)
    (unmarked : SwimAction.markSuspect nodeId ∉ (self.checkTimeouts check peers).1) :
    (self.checkTimeouts check peers).2.2.stateOf nodeId = some .dead ∨
      (self.checkTimeouts check peers).2.2.stateOf nodeId = none := by
  rw [markSuspect_mem_checkTimeouts] at unmarked
  have pinged : (self.checkPings check 0 peers self.pendingPings).2.2.lookup nodeId =
      peers.lookup nodeId := lookup_checkPings 0 self.pendingPings unmarked
  rw [checkTimeouts]
  dsimp only
  generalize (self.checkPings check 0 peers self.pendingPings).2.2 = pingedPeers at pinged
  have stillDead : pingedPeers.stateOf nodeId = some .dead := by
    rw [PeerManager.stateOf, pinged]
    exact dead
  have unexpired : nodeId ∉ expired check .suspect self.config.suspectTimeout pingedPeers := by
    intro member
    rw [state_of_mem_expired member] at stillDead
    cases stillDead
  simp only [PeerManager.stateOf] at stillDead ⊢
  rcases lookup_foldl_erase _ _ with kept | removed
  · rw [kept, lookup_foldl_updatePeerState unexpired]
    exact Or.inl stillDead
  · rw [removed]
    exact Or.inr rfl

end Checks

end SwimMembership

/-! ## Runs -/

/-- A node: the failure detector and the peers it watches. -/
structure Swim where
  membership : SwimMembership
  peers : PeerManager

/-- A call of the failure detector. -/
inductive SwimCall where
  | selectProbeTarget (digest : Bytes) (choice : Nat) (now : DateTime)
  | checkTimeouts (check : TimeoutCheck)
  | handlePong (senderId : String) (now : DateTime)

namespace Swim

/-- One call: the actions for the caller, and the node after it. -/
def step (self : Swim) : SwimCall → List SwimAction × Swim
  | .selectProbeTarget digest choice now =>
    let (action, membership) :=
      self.membership.selectProbeTarget self.peers digest choice now
    ([action], ⟨membership, self.peers⟩)
  | .checkTimeouts check =>
    let (actions, membership, peers) := self.membership.checkTimeouts check self.peers
    (actions, ⟨membership, peers⟩)
  | .handlePong senderId now =>
    let (membership, peers) := self.membership.handlePong senderId self.peers now
    ([], ⟨membership, peers⟩)

/-- The node after a sequence of calls. -/
def run (self : Swim) (calls : List SwimCall) : Swim :=
  calls.foldl (fun node call => (node.step call).2) self

/-- Something holds of every call of a sequence, with the node before it. -/
def Along (holds : Swim → SwimCall → Prop) : Swim → List SwimCall → Prop
  | _, [] => True
  | self, call :: calls => holds self call ∧ Along holds (self.step call).2 calls

/-- A dead peer that the call is not an answer of is not suspected, and afterwards it is dead
or removed. -/
def KeepsDead (self : Swim) (call : SwimCall) : Prop :=
  ∀ nodeId, self.peers.stateOf nodeId = some .dead → (∀ now, call ≠ .handlePong nodeId now) →
    SwimAction.markSuspect nodeId ∉ (self.step call).1 ∧
      ((self.step call).2.peers.stateOf nodeId = some .dead ∨
        (self.step call).2.peers.stateOf nodeId = none)

/-- No ping to a dead peer runs out. -/
def SparesDead (self : Swim) : SwimCall → Prop
  | .checkTimeouts check =>
    ∀ before ping after, self.membership.pendingPings = before ++ ping :: after →
      self.peers.stateOf ping.targetId = some .dead →
        ¬self.membership.RunsOut check self.peers before ping
  | _ => True

theorem keepsDead_iff (self : Swim) (call : SwimCall) :
    self.KeepsDead call ↔ self.SparesDead call := by
  cases call with
  | selectProbeTarget digest choice now =>
    refine iff_of_true (fun nodeId dead _ => ⟨?_, Or.inl dead⟩) trivial
    rw [step, SwimMembership.selectProbeTarget]
    dsimp only
    split <;> simp
  | handlePong senderId now =>
    refine iff_of_true (fun nodeId dead other => ⟨nofun, Or.inl ?_⟩) trivial
    have different : nodeId ≠ senderId := by
      rintro rfl
      exact other now rfl
    rw [step, SwimMembership.handlePong, PeerManager.stateOf_updatePeerState,
      if_neg different]
    exact dead
  | checkTimeouts check =>
    have marked_iff : ∀ nodeId, SwimAction.markSuspect nodeId ∈
        (self.step (.checkTimeouts check)).1 ↔
          ∃ before ping after, self.membership.pendingPings = before ++ ping :: after ∧
            ping.targetId = nodeId ∧
              self.membership.RunsOut check self.peers before ping :=
      fun nodeId => SwimMembership.markSuspect_mem_checkTimeouts.trans
        (SwimMembership.markSuspect_mem_checkPings
          (self.membership.follows_self check self.peers) 0 _ nodeId)
    constructor
    · intro keeps before ping after split dead runsOut
      exact (keeps ping.targetId dead (fun _ => nofun)).1
        ((marked_iff _).mpr ⟨before, ping, after, split, rfl, runsOut⟩)
    · intro spares nodeId dead _
      have unmarked : SwimAction.markSuspect nodeId ∉
          (self.step (.checkTimeouts check)).1 := by
        rw [marked_iff]
        rintro ⟨before, ping, after, split, rfl, runsOut⟩
        exact spares before ping after split dead runsOut
      exact ⟨unmarked, SwimMembership.stateOf_checkTimeouts dead unmarked⟩

/-- In every run, dead peers stay dead until they answer or are removed, exactly if no ping
to a dead peer runs out. -/
theorem run_keepsDead_iff (self : Swim) (calls : List SwimCall) :
    Along KeepsDead self calls ↔ Along SparesDead self calls := by
  induction calls generalizing self with
  | nil => exact Iff.rfl
  | cons call calls ih =>
    exact and_congr (keepsDead_iff self call) (ih (self.step call).2)

/-! ## A peer that comes back -/

namespace Sample

def firstOnes : Sampler where
  chooseMultiple items amount := items.take amount
  chosen items amount := (List.take_sublist amount items).subperm
  length_chooseMultiple _ _ := List.length_take

def checkAt (millis : Int) : SwimCall :=
  .checkTimeouts ⟨millis * 1000000, fun _ _ => millis * 1000000, fun _ => firstOnes⟩

/-- The default configuration. -/
def config : SwimConfig where
  pingTimeout := ⟨0, 500000000⟩
  pingReqFanout := 3
  suspectTimeout := .fromSecs 5
  deadTimeout := .fromSecs 30

/-- A node that knows two peers. -/
def node : Swim where
  membership := ⟨config, "node", []⟩
  peers := ((∅ : PeerManager).insert "b" ⟨.alive, 0⟩).insert "a" ⟨.alive, 0⟩

/-- Two pings to the first peer, and checks at half a second, one second and six seconds. -/
def calls : List SwimCall :=
  [.selectProbeTarget [] 0 0, checkAt 500, .selectProbeTarget [] 0 600000000, checkAt 1000,
    checkAt 6000]

end Sample

/-- The first ping makes the peer suspect and in the end dead.  The second one, still
waiting, makes it suspect again. -/
theorem dead_peer_suspected_again :
    (Sample.node.run Sample.calls).peers.stateOf "a" = some .dead ∧ SwimAction.markSuspect "a" ∈
        ((Sample.node.run Sample.calls).step (Sample.checkAt 6100)).1 ∧
      ((Sample.node.run Sample.calls).step (Sample.checkAt 6100)).2.peers.stateOf "a" =
        some .suspect := by
  decide +kernel

end Swim

end HiveGuard.Net
