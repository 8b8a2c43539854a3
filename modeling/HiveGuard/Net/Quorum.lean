import HiveGuard.Net.Round
import HiveGuard.Net.Wire

/-!
# Remote bans need a quorum

Whatever peers send in whatever order, the engine decides on a ban only while it
holds votes of enough trusted signers for it.  The invariant is about the whole
table of votes: each of them is a record that came with some call and carried a
valid signature of the signer it is filed under.
-/

namespace HiveGuard.Net

open HiveGuard.Core Library.Dictionary Library.Effect

variable (env : Externals)

/-- The vote is a record that came with one of these calls.  It was not a peer's
copy of another record, and it was signed with the key then known for the
signer. -/
def Cast (calls : List BanSync) (signer : String) (vote : BanRecord) : Prop :=
  ∃ call ∈ calls, ∃ signed readings, (signed, readings) ∈ call.records ∧
    signed.signerId = signer ∧ signed.record = vote ∧ vote.source.isClusterPeer = false ∧
    ∃ publicKey, call.peerPublicKeys.lookup signer = some publicKey ∧
      signed.verify env publicKey = .ok ()

/-- Every vote is filed under its subject and was cast by its signer. -/
def Witnessed (calls : List BanSync) (reports : Reports) : Prop :=
  ∀ subject signer vote, reports.vote subject signer = some vote →
    env.display vote.subject = subject ∧ Cast env calls signer vote

def GossipEngine.after (calls : List BanSync) : GossipEngine :=
  calls.foldl
    (fun engine call => (engine.handleBanSyncFilteredWithPolicy env call).2.1) .new

variable {env}

variable {past : List BanSync}

theorem Cast.append {signer : String} {vote : BanRecord}
    (cast : Cast env past signer vote) (later : List BanSync) :
    Cast env (past ++ later) signer vote := by
  obtain ⟨call, member, details⟩ := cast
  exact ⟨call, List.mem_append_left later member, details⟩

/-- What a part of a batch brought, the longer part brought too. -/
theorem Cast.extend {call : BanSync}
    {handled : List (SignedBanRecord × Readings)} {signer : String} {vote : BanRecord}
    (cast : Cast env (past ++ [{ call with records := handled }]) signer vote)
    (more : List (SignedBanRecord × Readings)) :
    Cast env (past ++ [{ call with records := handled ++ more }]) signer vote := by
  obtain ⟨origin, member, signed, readings, received, details⟩ := cast
  rcases List.mem_append.mp member with before | current
  · exact ⟨origin, List.mem_append_left _ before, signed, readings, received, details⟩
  · cases List.mem_singleton.mp current
    exact ⟨{ call with records := handled ++ more }, by simp, signed, readings,
      List.mem_append_left more received, details⟩

namespace BanSync

theorem Admissible.cast {call : BanSync} {signed : SignedBanRecord} {readings : Readings}
    (admissible : Admissible env call signed) (past : List BanSync)
    (handled : List (SignedBanRecord × Readings)) :
    Cast env (past ++ [{ call with records := handled ++ [(signed, readings)] }])
      signed.signerId signed.record := by
  have authentic := admissible.authentic
  rw [BanSync.authentic] at authentic
  cases known : call.peerPublicKeys.lookup signed.signerId with
  | none => simp [known] at authentic
  | some publicKey =>
    simp only [known] at authentic
    cases verified : signed.verify env publicKey with
    | error error => simp [verified, Except.isOk, Except.toBool] at authentic
    | ok value =>
      exact ⟨{ call with records := handled ++ [(signed, readings)] }, by simp, signed,
        readings, by simp, rfl, rfl, admissible.firsthand, publicKey, known, verified⟩

variable (env) (call : BanSync)

theorem loop_concat (engine : GossipEngine) (handled : List (SignedBanRecord × Readings))
    (entry : SignedBanRecord × Readings) :
    call.loop env engine (handled ++ [entry]) =
      finalState ((call.handleRecord env entry.1 entry.2).run (call.loop env engine handled)) :=
  List.foldl_concat ..

/-- The loop starts with the votes that have not expired. -/
theorem vote_initially_eq (engine : GossipEngine) (subject signer : String) :
    (call.initially engine).reports.vote subject signer =
      (engine.reports.vote subject signer).filter (InMemoryBanStore.unexpired call.now) := by
  simp only [Reports.vote, initially, lookup_retain, lookup_mapValues]
  cases engine.reports.lookup subject with
  | none => rfl
  | some votes =>
    have current_eq := lookup_retain
      (fun _ record => InMemoryBanStore.unexpired call.now record) votes signer
    simp only [Option.map_some, Option.filter_some, Option.bind_some]
    rw [← current_eq]
    split
    · rfl
    · rename_i none_current
      have empty := List.isEmpty_iff.mp (by simpa using none_current)
      rw [AList.lookup, empty]
      rfl

variable {subject signer : String} {vote : BanRecord}

theorem vote_initially {engine : GossipEngine}
    (found : (call.initially engine).reports.vote subject signer = some vote) :
    engine.reports.vote subject signer = some vote ∧
      InMemoryBanStore.unexpired call.now vote = true := by
  rwa [vote_initially_eq, Option.filter_eq_some_iff] at found

/-- What is known of a vote after a part of a batch. -/
structure Standing (past : List BanSync) (handled : List (SignedBanRecord × Readings))
    (subject signer : String) (vote : BanRecord) : Prop where
  filed : env.display vote.subject = subject
  cast : Cast env (past ++ [{ call with records := handled }]) signer vote
  unexpired : InMemoryBanStore.unexpired call.now vote = true

/-- The decision was made after a part of a batch, when the engine held the votes
of enough signers. -/
def Supported (engine : GossipEngine) (handled : List (SignedBanRecord × Readings))
    (record : BanRecord) : Prop :=
  ∃ earlier later signed votes, handled = earlier ++ later ∧ record = decision signed votes ∧
    (call.loop env engine earlier).reports.lookup (env.display record.subject) = some votes ∧
    call.shouldEnforce votes.keys = true

variable {env} {call}

/-- A round keeps what is known of the votes. -/
theorem Handled.standing {past : List BanSync} {handled : List (SignedBanRecord × Readings)}
    {signed : SignedBanRecord} {readings : Readings} {source target : SyncState}
    (round : Handled env call signed source target)
    (before : ∀ subject signer vote, source.reports.vote subject signer = some vote →
      Standing env call past handled subject signer vote)
    (found : target.reports.vote subject signer = some vote) :
    Standing env call past (handled ++ [(signed, readings)]) subject signer vote := by
  have kept : source.reports.vote subject signer = some vote →
      Standing env call past (handled ++ [(signed, readings)]) subject signer vote := by
    intro earlier
    have standing := before subject signer vote earlier
    exact ⟨standing.filed, standing.cast.extend _, standing.unexpired⟩
  have filedKept : ∀ {votes}, Admissible env call signed →
      SyncState.Filed env signed votes source target →
      Standing env call past (handled ++ [(signed, readings)]) subject signer vote := by
    intro votes admissible filed
    rw [filed.votes] at found
    split at found
    · rename_i same
      cases found
      rw [same.1, same.2]
      exact ⟨rfl, admissible.cast past handled, admissible.unexpired⟩
    · exact kept found
  cases round with
  | skipped same =>
    rw [same.votes] at found
    exact kept found
  | voted admissible filed accepted => exact filedKept admissible filed
  | decided admissible filed enforced accepted => exact filedKept admissible filed

variable (env) (call)

/-- At every moment of the loop all votes were cast and are unexpired. -/
theorem loop_standing {past : List BanSync} {engine : GossipEngine}
    (witnessed : Witnessed env past engine.reports)
    (handled : List (SignedBanRecord × Readings))
    (found : (call.loop env engine handled).reports.vote subject signer = some vote) :
    Standing env call past handled subject signer vote := by
  induction handled using List.reverseRecOn generalizing subject signer vote with
  | nil =>
    obtain ⟨before, unexpired⟩ := call.vote_initially found
    obtain ⟨subject_eq, cast⟩ := witnessed subject signer vote before
    exact ⟨subject_eq, cast.append _, unexpired⟩
  | append_singleton handled entry ih =>
    rw [loop_concat] at found
    exact (call.handleRecord_handled env entry.1 entry.2 _).standing
      (fun _ _ _ => ih) found

/-- Every decision is supported. -/
theorem loop_supported (engine : GossipEngine)
    (handled : List (SignedBanRecord × Readings)) {record : BanRecord}
    (member : record ∈ (call.loop env engine handled).accepted) :
    Supported env call engine handled record := by
  induction handled using List.reverseRecOn with
  | nil => contradiction
  | append_singleton handled entry ih =>
    have before : record ∈ (call.loop env engine handled).accepted →
        Supported env call engine (handled ++ [entry]) record := by
      intro earlierMember
      obtain ⟨earlier, later, signed, votes, split_eq, supported⟩ :=
        ih earlierMember
      exact ⟨earlier, later ++ [entry], signed, votes, by rw [split_eq, List.append_assoc],
        supported⟩
    have round := call.handleRecord_handled env entry.1 entry.2 (call.loop env engine handled)
    rw [← loop_concat] at round
    cases round with
    | skipped same =>
      rw [same.accepted] at member
      exact before member
    | voted admissible filed accepted =>
      rw [accepted] at member
      exact before member
    | decided admissible filed enforced accepted =>
      rw [accepted] at member
      rcases List.mem_append.mp member with earlierMember | new
      · exact before earlierMember
      · cases List.mem_singleton.mp new
        exact ⟨handled ++ [entry], [], entry.1, _, (List.append_nil _).symm, rfl,
          filed.held, enforced⟩

end BanSync

theorem Witnessed.handle {engine : GossipEngine}
    (witnessed : Witnessed env past engine.reports) (call : BanSync) :
    Witnessed env (past ++ [call])
      (engine.handleBanSyncFilteredWithPolicy env call).2.1.reports := by
  rw [GossipEngine.handleBanSyncFilteredWithPolicy]
  split
  · intro subject signer vote found
    obtain ⟨subject_eq, cast⟩ := witnessed subject signer vote found
    exact ⟨subject_eq, cast.append [call]⟩
  · intro subject signer vote found
    have standing := call.loop_standing env witnessed call.records found
    exact ⟨standing.filed, standing.cast⟩

theorem witnessed_after (calls : List BanSync) :
    Witnessed env calls (GossipEngine.after env calls).reports := by
  induction calls using List.reverseRecOn with
  | nil =>
    intro subject signer vote voted
    exact absurd voted.symm (Option.some_ne_none vote)
  | append_singleton calls call ih =>
    rw [GossipEngine.after, List.foldl_concat]
    exact ih.handle call

variable (env) in
/-- After any calls, a call that returns a ban returns it because, after some part
of its batch, the engine held unexpired votes on the subject by distinct signers
that together are to be enforced.  Each vote came as a record of its own, signed
with the key then known for the signer; who relayed it does not count.  The ban
starts no later, ends no later and is no more severe than any of the votes. -/
theorem quorum_of_applyBans (past : List BanSync) (call : BanSync) {records : List BanRecord}
    (returned : ((GossipEngine.after env past).handleBanSyncFilteredWithPolicy env call).1 =
      some (.applyBans records)) {record : BanRecord} (member : record ∈ records) :
    ∃ handled rest votes, call.records = handled ++ rest ∧
      (call.loop env (.after env past) handled).reports.lookup (env.display record.subject) =
        some votes ∧
      votes.keys.Nodup ∧ call.shouldEnforce votes.keys = true ∧
      ∀ signer vote, votes.lookup signer = some vote →
        vote.subject = record.subject ∧
        InMemoryBanStore.unexpired call.now vote = true ∧
        Cast env (past ++ [{ call with records := handled }]) signer vote ∧
        record.createdAt ≤ vote.createdAt ∧ record.severity ≤ vote.severity ∧
        ∀ expiry, vote.expiresAt = some expiry →
          ∃ bound, record.expiresAt = some bound ∧ bound ≤ expiry := by
  rw [GossipEngine.handleBanSyncFilteredWithPolicy] at returned
  split at returned
  · contradiction
  · have records_eq : (call.loop env (.after env past) call.records).accepted = records := by
      dsimp only at returned
      split at returned
      · contradiction
      · exact GossipAction.applyBans.inj (Option.some.inj returned)
    rw [← records_eq] at member
    obtain ⟨handled, rest, signed, votes, split_eq, rfl, held, enforced⟩ :=
      call.loop_supported env _ call.records member
    refine ⟨handled, rest, votes, split_eq, held, votes.keys_nodup, enforced, ?_⟩
    intro signer vote found
    have voted : (call.loop env (.after env past) handled).reports.vote _ signer = some vote :=
      Option.bind_eq_some_iff.mpr ⟨votes, held, found⟩
    have standing := call.loop_standing env (witnessed_after past) handled voted
    exact ⟨env.display_injective standing.filed, standing.unexpired, standing.cast,
      BanSync.decision_le found⟩

/-! ## Two signers -/

namespace Sample

open Library.Cidr Library.Encoding
open HiveGuard.Persistence.Wire (octets)

/-- The network `8.8.8.8/32`. -/
def subject : IpNet :=
  .ofV4 0x08080808#32 32

/-- What the first node saw. -/
def alphaRecord : BanRecord where
  subject := subject
  createdAt := 1700000000000000000
  expiresAt := some 1700086400000000000
  severity := 150
  reason := "scan"
  evidenceHash := Vector.replicate 32 7
  source := .localDetector "ssh"
  geoInfo := none

/-- What the second node saw. -/
def betaRecord : BanRecord where
  subject := subject
  createdAt := 1700000100000000000
  expiresAt := some 1700043200000000000
  severity := 90
  reason := "flood"
  evidenceHash := Vector.replicate 32 7
  source := .localDetector "smtp"
  geoInfo := none

/-- The record signed with the key of the seed `01…01`, with a mined stamp. -/
def alphaSigned : SignedBanRecord where
  record := alphaRecord
  signerId := "alpha"
  signature :=
    octets 32 0x244433fddc0f5174d7317e4380a71752d5b317a126c900ebd9a8b6cdb93c411f ++
      octets 32 0xb425bbbc885b8329500a66e1ed9a80a38baf5cfaa4edb6a7a21c1795f400980c
  pow := ⟨16143, 16⟩

/-- The record signed with the key of the seed `02…02`, with a mined stamp. -/
def betaSigned : SignedBanRecord where
  record := betaRecord
  signerId := "beta"
  signature :=
    octets 32 0x045b66e0dc3c8934ae78fe20d7087f65f65dce573944aafecd4206d92acdbdb6 ++
      octets 32 0x2da991ce2ae7e216bcb8aeff191b7700d0a081f02a9e5b572361c444ae24a909
  pow := ⟨20133, 16⟩

def alphaKey : Bytes :=
  octets 32 0x8a88e3dd7409f195fd52db2d3cba5d72ca6709bf1d94121bf3748801b40f6f5c

def betaKey : Bytes :=
  octets 32 0x8139770ea87d175f56a35466c34c7ecccb8d8a91b4ee37a25df60f5b8fc9b394

/-- BLAKE3 of the four messages that come up here, as numbers. -/
def knownHashes : List (Bytes × Nat) :=
  [(littleEndian 8 16143 ++ Wire.writeRecord alphaRecord,
      0x0000baaf112900ef3ffc33b5b1aae76c777c835fd3beb7707e7b17f872e1d2f0),
    (Wire.writeSigned alphaSigned,
      0xd11dfdf7749ee6231e2c0d25364a1b865c73505b28815b4590fe64a2b14f9c4c),
    (littleEndian 8 20133 ++ Wire.writeRecord betaRecord,
      0x0000566186785be9264f2ada292f6e2bdfcefde4bac7f8245a2bfbdb7886df8d),
    (Wire.writeSigned betaSigned,
      0x9f7a98e945acb761509ef223081a8c255a8f376974fe35b102a827d9f3bbc6ba)]

/-- A number that determines a network. -/
def code : IpNet → Nat
  | .v4 net => Nat.pair 4 (Nat.pair net.addr.toNat net.prefixLen)
  | .v6 net => Nat.pair 6 (Nat.pair net.addr.toNat net.prefixLen)

theorem block_eq {w : Nat} {first second : Block w}
    (same : Nat.pair first.addr.toNat first.prefixLen =
      Nat.pair second.addr.toNat second.prefixLen) : first = second := by
  obtain ⟨addr_eq, prefix_eq⟩ := Nat.pair_eq_pair.mp same
  have bits_eq := BitVec.eq_of_toNat_eq addr_eq
  cases first
  cases second
  simp_all

theorem code_injective : Function.Injective code := by
  intro first second same
  cases first with
  | v4 first =>
    cases second with
    | v4 second => exact congrArg IpNet.v4 (block_eq (Nat.pair_eq_pair.mp same).2)
    | v6 second => exact absurd (Nat.pair_eq_pair.mp same).1 (by decide)
  | v6 first =>
    cases second with
    | v4 second => exact absurd (Nat.pair_eq_pair.mp same).1 (by decide)
    | v6 second => exact congrArg IpNet.v6 (block_eq (Nat.pair_eq_pair.mp same).2)

/-- The text of the sample's network.  Any other network gets some text of its
own. -/
def display (net : IpNet) : String :=
  if net = subject then "8.8.8.8/32" else String.ofList (List.replicate (code net) 'n')

theorem display_injective : Function.Injective display := by
  have different : ∀ net, String.ofList (List.replicate (code net) 'n') ≠ "8.8.8.8/32" := by
    intro net same
    have chars_eq : List.replicate (code net) 'n' = "8.8.8.8/32".toList := by
      rw [← same, String.toList_ofList]
    have member : '8' ∈ List.replicate (code net) 'n' := by
      rw [chars_eq]
      decide
    exact absurd (List.eq_of_mem_replicate member) (by decide)
  intro first second same
  simp only [display] at same
  split at same
  · split at same
    · simp_all
    · exact absurd same.symm (different second)
  · split at same
    · exact absurd same (different first)
    · have lists_eq := String.ofList_injective same
      exact code_injective (by simpa using congrArg List.length lists_eq)

/-- The third-party functions on the messages that come up here. -/
def externals : Externals where
  serializeVersion := Wire.writeVersion
  serializeRecord record := .ok (Wire.writeRecord record)
  serializeSigned signed := .ok (Wire.writeSigned signed)
  blake3 := Wire.hashOf knownHashes
  verifyEd25519 publicKey message signature :=
    decide ((publicKey, message, signature) ∈
      [(alphaKey, Wire.writeRecord alphaRecord, alphaSigned.signature),
        (betaKey, Wire.writeRecord betaRecord, betaSigned.signature)])
  display := display
  display_injective := display_injective

/-- One signed record relayed by a third node.  Both signers together are to be
enforced. -/
def sync (signed : SignedBanRecord) : BanSync where
  records := [(signed, ⟨1700000200000000000, 1700000200000000000, 1700000200000000000⟩)]
  senderId := "relay"
  shouldEnforce reporters := decide ("alpha" ∈ reporters) && decide ("beta" ∈ reporters)
  rateLimiter := .new 100 (Duration.minutes 1)
  banCounts := ∅
  peerPublicKeys := ((∅ : Dict String Bytes).insert "alpha" alphaKey).insert "beta" betaKey
  eligible _ _ := true
  now := 1700000200000000000

/-- What both votes support. -/
def agreed : BanRecord :=
  { betaRecord with createdAt := 1700000000000000000, source := .clusterPeer "beta" }

end Sample

/-- One vote is not enough; the second, relayed later, makes the decision. -/
theorem quorum_of_applyBans_two_signers :
    (GossipEngine.new.handleBanSyncFilteredWithPolicy Sample.externals
        (Sample.sync Sample.alphaSigned)).1 = none ∧ ((GossipEngine.after Sample.externals
          [Sample.sync Sample.alphaSigned]).handleBanSyncFilteredWithPolicy Sample.externals
            (Sample.sync Sample.betaSigned)).1 = some (.applyBans [Sample.agreed]) ∧
      ∃ votes : Dict String BanRecord, votes.keys.Nodup ∧
        (Sample.sync Sample.betaSigned).shouldEnforce votes.keys = true ∧
        ∀ signer vote, votes.lookup signer = some vote →
          vote.subject = Sample.agreed.subject ∧ Sample.agreed.severity ≤ vote.severity := by
  have decided : ((GossipEngine.after Sample.externals
      [Sample.sync Sample.alphaSigned]).handleBanSyncFilteredWithPolicy Sample.externals
        (Sample.sync Sample.betaSigned)).1 = some (.applyBans [Sample.agreed]) := by
    decide +kernel
  obtain ⟨_, _, votes, _, _, distinct, enforced, support⟩ :=
    quorum_of_applyBans Sample.externals [Sample.sync Sample.alphaSigned]
      (Sample.sync Sample.betaSigned) decided List.mem_cons_self
  refine ⟨by decide +kernel, decided, votes, distinct, enforced, ?_⟩
  intro signer vote found
  obtain ⟨subject_eq, _, _, _, severity_le, _⟩ := support signer vote found
  exact ⟨subject_eq, severity_le⟩

end HiveGuard.Net
