import HiveGuard.Library.SortedJoin
import HiveGuard.Net.Quorum

/-!
# Anti-entropy between two nodes

Nodes compare digests of their bans.  A node whose digest differs from the peer's sends
the keys of its own bans, as many as fit, and the peer answers with the bans whose keys
are not among them.  A key is the text of the subject with a hash of the version fields, so
it ignores what is local to a node: the source and the geographic data.
-/

namespace HiveGuard.Net

open HiveGuard.Core Library.Encoding Library.SortedJoin

deriving instance DecidableEq for RecordVersion

/-- The fields of a record that the peers agree on. -/
def versionOf (record : BanRecord) : RecordVersion :=
  ⟨record.subject, record.createdAt, record.expiresAt, record.severity, record.reason,
    record.evidenceHash⟩

namespace GossipEngine

variable (env : Externals)

/-- The hash of the sorted keys. -/
def computeDigest (bans : List BanRecord) : Bytes :=
  (env.blake3 (joinedBytes ',' (bans.map (recordKey env)))).toList

/-- Limit on the bytes of the keys in one request. -/
def maxInventory : Nat :=
  2 * 1024 * 1024

/-- What a key takes up in a request. -/
def keyCost (key : String) : Nat :=
  key.utf8ByteSize + 8

/-- The keys before the first one that exceeds the limit. -/
def takeInventory (inventoryBytes : Nat) : List String → List String
  | [] => []
  | key :: keys =>
    if inventoryBytes + keyCost key ≤ maxInventory then
      key :: takeInventory (inventoryBytes + keyCost key) keys
    else
      []

/-- Process a received digest and determine if a diff is needed. -/
def handleDigestExchange (remoteDigest : Bytes) (localBans : List BanRecord)
    (senderId : String) : Option GossipAction :=
  if computeDigest env localBans = remoteDigest then
    none
  else
    some (.sendDiffRequest senderId (takeInventory 0 (localBans.map (recordKey env))))

/-- The records that the peer is missing.  Old peers send the plain subject as the key. -/
def handleDiffRequest (peerKeys : List String) (localBans : List BanRecord) : List BanRecord :=
  localBans.filter fun ban =>
    decide (recordKey env ban ∉ peerKeys ∧ env.display ban.subject ∉ peerKeys)

end GossipEngine

/-! ## Keys -/

/-- Two hexadecimal digits are none of the two separators. -/
theorem digitChar_ne {digit : Nat} (bound : digit < 16) :
    Nat.digitChar digit ≠ ',' ∧ Nat.digitChar digit ≠ '#' := by
  interval_cases digit <;> decide

theorem digitChar_inj {first second : Nat} (firstBound : first < 16) (secondBound : second < 16)
    (same : Nat.digitChar first = Nat.digitChar second) : first = second := by
  have all : ∀ first : Fin 16, ∀ second : Fin 16,
      Nat.digitChar first.val = Nat.digitChar second.val → first = second := by
    decide
  exact congrArg Fin.val (all ⟨first, firstBound⟩ ⟨second, secondBound⟩ same)

namespace GossipEngine

def hexDigits (byte : UInt8) : List Char :=
  [Nat.digitChar (byte.toNat / 16), Nat.digitChar (byte.toNat % 16)]

theorem hexDigits_injective : Function.Injective hexDigits := by
  intro first second same
  have firstBound := first.toNat_lt
  have secondBound := second.toNat_lt
  simp only [hexDigits, List.cons.injEq, and_true] at same
  have high := digitChar_inj (by omega) (by omega) same.1
  have low := digitChar_inj (by omega) (by omega) same.2
  exact UInt8.toNat_inj.mp (by omega)

theorem toList_toHex (bytes : Bytes) : (toHex bytes).toList = bytes.flatMap hexDigits :=
  String.toList_ofList

theorem length_toHex (bytes : Bytes) : (toHex bytes).toList.length = 2 * bytes.length := by
  rw [toList_toHex]
  induction bytes with
  | nil => rfl
  | cons byte bytes ih =>
    rw [List.flatMap_cons, List.length_append, ih, hexDigits]
    simp only [List.length_cons, List.length_nil]
    omega

theorem ne_of_mem_toHex {bytes : Bytes} {char : Char} (member : char ∈ (toHex bytes).toList) :
    char ≠ ',' ∧ char ≠ '#' := by
  rw [toList_toHex, List.mem_flatMap] at member
  rcases member with ⟨byte, -, member⟩
  have bound := byte.toNat_lt
  simp only [hexDigits, List.mem_cons, List.not_mem_nil, or_false] at member
  rcases member with rfl | rfl
  · exact digitChar_ne (by omega)
  · exact digitChar_ne (by omega)

theorem toHex_injective : Function.Injective toHex := by
  intro first second same
  have lists_eq := congrArg String.toList same
  rw [toList_toHex, toList_toHex] at lists_eq
  induction first generalizing second with
  | nil =>
    cases second with
    | nil => rfl
    | cons byte second => cases lists_eq
  | cons firstByte first ih =>
    cases second with
    | nil => cases lists_eq
    | cons secondByte second =>
      rcases List.append_inj lists_eq rfl with ⟨digits_eq, rest_eq⟩
      rw [hexDigits_injective digits_eq,
        ih (congrArg String.ofList rest_eq) rest_eq]

variable {env : Externals}

theorem toList_recordKey (record : BanRecord) :
    (recordKey env record).toList = (env.display record.subject).toList ++
      '#' :: (toHex (env.blake3 (env.serializeVersion (versionOf record))).toList).toList := by
  rw [recordKey, String.toList_append, String.toList_append, List.append_assoc]
  rfl

theorem recordKey_congr {first second : BanRecord} (same : versionOf first = versionOf second) :
    recordKey env first = recordKey env second := by
  have subject_eq := congrArg RecordVersion.subject same
  rw [← String.toList_inj, toList_recordKey, toList_recordKey, same]
  exact congrArg (fun net => (env.display net).toList ++ _) subject_eq

/-- Equal keys come from equal hashes. -/
theorem blake3_eq_of_recordKey_eq {first second : BanRecord}
    (same : recordKey env first = recordKey env second) :
    env.blake3 (env.serializeVersion (versionOf first)) =
      env.blake3 (env.serializeVersion (versionOf second)) := by
  have lists_eq := congrArg String.toList same
  rw [toList_recordKey, toList_recordKey] at lists_eq
  have length_eq := congrArg List.length lists_eq
  have hashes_eq := (List.append_inj' lists_eq (by
    simp only [List.length_cons, length_toHex, Vector.length_toList])).2
  exact Vector.toList_inj.mp
    (toHex_injective (String.toList_inj.mp (List.cons.inj hashes_eq).2))

/-! ## Digests -/

/-- The messages that a digest hashes: the version fields of each ban, and the keys. -/
def hashedBytes (env : Externals) (bans : List BanRecord) : Set Bytes :=
  insert (joinedBytes ',' (bans.map (recordKey env)))
    {message | ∃ record ∈ bans, env.serializeVersion (versionOf record) = message}

/-- What the third-party functions are to do on two lists of bans: the text of a network
has neither separator in it, different version fields have different bytes, and the hash
has no collision. -/
structure Distinguishes (env : Externals) (first second : List BanRecord) : Prop where
  texts : ∀ net, ',' ∉ (env.display net).toList ∧ '#' ∉ (env.display net).toList
  versions : Set.InjOn env.serializeVersion
    {version | ∃ record ∈ first ++ second, versionOf record = version}
  hashes : Set.InjOn env.blake3 (hashedBytes env first ∪ hashedBytes env second)

variable {first second : List BanRecord}

theorem Distinguishes.mem_hashedBytes {record : BanRecord} (member : record ∈ first ++ second) :
    env.serializeVersion (versionOf record) ∈ hashedBytes env first ∪ hashedBytes env second := by
  rcases List.mem_append.mp member with member | member
  · exact Or.inl (Or.inr ⟨record, member, rfl⟩)
  · exact Or.inr (Or.inr ⟨record, member, rfl⟩)

theorem recordKey_ne_empty (bans : List BanRecord) : "" ∉ bans.map (recordKey env) := by
  intro member
  rcases List.mem_map.mp member with ⟨record, -, key_eq⟩
  have chars_eq := congrArg String.toList key_eq
  rw [toList_recordKey] at chars_eq
  exact List.append_ne_nil_of_right_ne_nil _ (List.cons_ne_nil _ _) chars_eq

section Lawful

variable (lawful : Distinguishes env first second)

include lawful

/-- A key stands for the version fields. -/
theorem Distinguishes.recordKey_eq_iff {one other : BanRecord} (oneMember : one ∈ first ++ second)
    (otherMember : other ∈ first ++ second) :
    recordKey env one = recordKey env other ↔ versionOf one = versionOf other := by
  constructor
  · intro same
    refine lawful.versions ⟨one, oneMember, rfl⟩ ⟨other, otherMember, rfl⟩ ?_
    exact lawful.hashes (mem_hashedBytes oneMember) (mem_hashedBytes otherMember)
      (blake3_eq_of_recordKey_eq same)
  · exact recordKey_congr

theorem Distinguishes.separates
    (bans : List BanRecord) : Separates ',' (bans.map (recordKey env)) := by
  intro key member
  rcases List.mem_map.mp member with ⟨record, -, rfl⟩
  rw [toList_recordKey, List.mem_append, List.mem_cons]
  rintro (inside | inside | inside)
  · exact (lawful.texts record.subject).1 inside
  · cases inside
  · exact (ne_of_mem_toHex inside).1 rfl

/-- Equal digests mean equal multisets of version fields. -/
theorem Distinguishes.computeDigest_eq_iff :
    computeDigest env first = computeDigest env second ↔
      (first.map versionOf).Perm (second.map versionOf) := by
  have keys_iff : (first.map (recordKey env)).Perm (second.map (recordKey env)) ↔
      (first.map versionOf).Perm (second.map versionOf) := by
    constructor
    · exact perm_map_of_perm_map fun one oneMember two twoMember =>
        (lawful.recordKey_eq_iff oneMember twoMember).mp
    · exact perm_map_of_perm_map fun one _ two _ => recordKey_congr
  rw [← keys_iff, ← joinedBytes_eq_iff_of_notMem (lawful.separates first)
    (lawful.separates second) (recordKey_ne_empty first) (recordKey_ne_empty second),
    computeDigest, computeDigest, Vector.toList_inj]
  exact lawful.hashes.eq_iff (Or.inl (Or.inl rfl)) (Or.inr (Or.inl rfl))

/-! ## Requests -/

/-- The plain subject is never a key. -/
theorem Distinguishes.display_notMem (net : IpNet)
    (bans : List BanRecord) : env.display net ∉ bans.map (recordKey env) := by
  intro member
  rcases List.mem_map.mp member with ⟨record, -, key_eq⟩
  refine (lawful.texts net).2 ?_
  rw [← key_eq, toList_recordKey]
  exact List.mem_append_right _ List.mem_cons_self

theorem Distinguishes.recordKey_mem_iff {ban : BanRecord} (member : ban ∈ second) :
    recordKey env ban ∈ first.map (recordKey env) ↔ versionOf ban ∈ first.map versionOf := by
  rw [List.mem_map, List.mem_map]
  refine exists_congr fun record => and_congr_right fun recordMember => ?_
  exact lawful.recordKey_eq_iff (List.mem_append_left _ recordMember)
    (List.mem_append_right _ member)

/-- The answer to a request with all keys. -/
theorem Distinguishes.handleDiffRequest_eq :
    handleDiffRequest env (first.map (recordKey env)) second =
      second.filter fun ban => decide (versionOf ban ∉ first.map versionOf) := by
  rw [handleDiffRequest]
  refine List.filter_congr fun ban member => ?_
  rw [decide_eq_decide, lawful.recordKey_mem_iff member]
  exact and_iff_left (lawful.display_notMem ban.subject first)

end Lawful

/-- Keys that fit are all sent. -/
theorem takeInventory_eq_self {keys : List String} {inventoryBytes : Nat}
    (fits : inventoryBytes + (keys.map keyCost).sum ≤ maxInventory) :
    takeInventory inventoryBytes keys = keys := by
  induction keys generalizing inventoryBytes with
  | nil => rfl
  | cons key keys ih =>
    rw [List.map_cons, List.sum_cons] at fits
    rw [takeInventory, if_pos (by omega), ih (by omega)]

/-- A digest is equal exactly if the bans have the same version fields.  A node whose keys
fit replies to any other digest with a request of all of them, and the answer to it is exactly
the bans that the node does not have. -/
theorem digests_exact (env : Externals) (requester responder : List BanRecord)
    (lawful : Distinguishes env requester responder) :
    (computeDigest env requester = computeDigest env responder ↔
        (requester.map versionOf).Perm (responder.map versionOf)) ∧
      (((requester.map (recordKey env)).map keyCost).sum ≤ maxInventory →
        ∀ senderId,
          (∀ remoteDigest, remoteDigest ≠ computeDigest env requester →
            handleDigestExchange env remoteDigest requester senderId =
              some (.sendDiffRequest senderId (requester.map (recordKey env)))) ∧
          (handleDigestExchange env (computeDigest env responder) requester senderId = none ↔
            (requester.map versionOf).Perm (responder.map versionOf)) ∧
          ∀ remoteDigest targetId missingKeys,
            handleDigestExchange env remoteDigest requester senderId =
                some (.sendDiffRequest targetId missingKeys) →
              handleDiffRequest env missingKeys responder =
                responder.filter fun ban => decide (versionOf ban ∉ requester.map versionOf)) := by
  refine ⟨lawful.computeDigest_eq_iff, fun fits senderId => ?_⟩
  have whole : takeInventory 0 (requester.map (recordKey env)) = requester.map (recordKey env) :=
    takeInventory_eq_self (by omega)
  have asks : ∀ remoteDigest, remoteDigest ≠ computeDigest env requester →
      handleDigestExchange env remoteDigest requester senderId =
        some (.sendDiffRequest senderId (requester.map (recordKey env))) := by
    intro remoteDigest different
    rw [handleDigestExchange, if_neg different.symm, whole]
  refine ⟨asks, ?_, fun remoteDigest targetId missingKeys request => ?_⟩
  · rw [← lawful.computeDigest_eq_iff, handleDigestExchange, ite_eq_left_iff]
    exact ⟨fun silent => by_contra fun different => Option.some_ne_none _ (silent different),
      fun same different => absurd same different⟩
  · by_cases same : remoteDigest = computeDigest env requester
    · rw [handleDigestExchange, if_pos same.symm] at request
      cases request
    · rw [asks remoteDigest same] at request
      cases request
      exact lawful.handleDiffRequest_eq

namespace Sample

open Net.Sample Library.Text

/-- The first node's ban as the second node has it, with a source of its own. -/
def relayedRecord : BanRecord :=
  { alphaRecord with source := .clusterPeer "alpha" }

def alphaText : String :=
  "8.8.8.8/32#b0e8278b78a5fb0b5461488af4397383e76731efb70eafbfa8c88a635bf6af74"

def betaText : String :=
  "8.8.8.8/32#38dbe5b46027cb32d9965980be4aae31dba21e7ef97a610325cc3e8dbb5cd3b3"

/-- BLAKE3 of the messages hashed for the two nodes, as numbers. -/
def digestHashes : List (Bytes × Nat) :=
  [(Wire.writeVersion (versionOf alphaRecord),
      0xb0e8278b78a5fb0b5461488af4397383e76731efb70eafbfa8c88a635bf6af74),
    (Wire.writeVersion (versionOf betaRecord),
      0x38dbe5b46027cb32d9965980be4aae31dba21e7ef97a610325cc3e8dbb5cd3b3),
    (encode ((String.singleton ',').intercalate [alphaText]).toList,
      0xfa3c03095ea99899537171ce03aa878c4ff4a67f72778d3261b02e3b2ca5c897),
    (encode ((String.singleton ',').intercalate [betaText, alphaText]).toList,
      0x0fef443852d5f9ce2169cb8464c94ec669e25565e4555bdcc451681d8ab1d31e)]

def digestExternals : Externals :=
  { externals with blake3 := Wire.hashOf digestHashes }

theorem notMem_display (net : IpNet) : ',' ∉ (display net).toList ∧ '#' ∉ (display net).toList := by
  rw [display]
  split
  · decide
  · rw [String.toList_ofList, List.mem_replicate, List.mem_replicate]
    exact ⟨fun member => absurd member.2 (by decide), fun member => absurd member.2 (by decide)⟩

theorem requester_keys : [alphaRecord].map (recordKey digestExternals) = [alphaText] := by
  decide +kernel

theorem responder_keys : [relayedRecord, betaRecord].map (recordKey digestExternals) =
    [alphaText, betaText] := by
  decide +kernel

theorem distinguishes_digestExternals :
    Distinguishes digestExternals [alphaRecord] [relayedRecord, betaRecord] where
  texts := notMem_display
  versions := by
    have injective : ∀ first ∈ [alphaRecord, relayedRecord, betaRecord],
        ∀ second ∈ [alphaRecord, relayedRecord, betaRecord],
          Wire.writeVersion (versionOf first) = Wire.writeVersion (versionOf second) →
            versionOf first = versionOf second := by
      decide +kernel
    rintro _ ⟨first, firstMember, rfl⟩ _ ⟨second, secondMember, rfl⟩ same
    exact injective first firstMember second secondMember same
  hashes := by
    have versions : ∀ record ∈ [alphaRecord, relayedRecord, betaRecord],
        Wire.writeVersion (versionOf record) ∈ digestHashes.map Prod.fst := by
      decide +kernel
    have joined : joinedBytes ',' ([alphaRecord].map (recordKey digestExternals)) ∈
          digestHashes.map Prod.fst ∧
        joinedBytes ',' ([relayedRecord, betaRecord].map (recordKey digestExternals)) ∈
          digestHashes.map Prod.fst := by
      have ascending : [betaText, alphaText].Pairwise (· ≤ ·) := by
        decide +kernel
      rw [requester_keys, responder_keys, joinedBytes_of_ascending ascending (.swap _ _ _),
        joinedBytes_of_ascending (List.pairwise_singleton _ alphaText) (.refl _)]
      exact ⟨by simp [digestHashes], by simp [digestHashes]⟩
    have among : hashedBytes digestExternals [alphaRecord] ∪
        hashedBytes digestExternals [relayedRecord, betaRecord] ⊆
          {message | message ∈ digestHashes.map Prod.fst} := by
      rintro message ((rfl | ⟨record, member, rfl⟩) | (rfl | ⟨record, member, rfl⟩))
      · exact joined.1
      · exact versions record (List.mem_append_left [relayedRecord, betaRecord] member)
      · exact joined.2
      · exact versions record (List.mem_cons_of_mem _ member)
    exact fun first firstMember second secondMember =>
      Wire.hashOf_injective (by decide) (by decide) first (among firstMember) second
        (among secondMember)

end Sample

/-- A node that has one of the two bans of a peer, from another source, asks the peer and is
sent the other one. -/
theorem digests_exact_at_two_records :
    handleDigestExchange Sample.digestExternals
        (computeDigest Sample.digestExternals [Sample.relayedRecord, Net.Sample.betaRecord])
        [Net.Sample.alphaRecord] "beta" =
      some (.sendDiffRequest "beta" [Sample.alphaText]) ∧
    handleDiffRequest Sample.digestExternals [Sample.alphaText]
        [Sample.relayedRecord, Net.Sample.betaRecord] =
      [Net.Sample.betaRecord] := by
  obtain ⟨same_iff, exchange⟩ := digests_exact Sample.digestExternals [Net.Sample.alphaRecord]
    [Sample.relayedRecord, Net.Sample.betaRecord] Sample.distinguishes_digestExternals
  obtain ⟨asks, -, answer⟩ := exchange (by rw [Sample.requester_keys]; decide) "beta"
  have different : computeDigest Sample.digestExternals
      [Sample.relayedRecord, Net.Sample.betaRecord] ≠
        computeDigest Sample.digestExternals [Net.Sample.alphaRecord] :=
    fun same => absurd (same_iff.mp same.symm) (by decide +kernel)
  have asked := asks _ different
  rw [Sample.requester_keys] at asked
  refine ⟨asked, (answer _ _ _ asked).trans ?_⟩
  decide +kernel

end GossipEngine

end HiveGuard.Net
