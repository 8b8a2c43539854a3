import HiveGuard.Library.Fifo
import HiveGuard.Net.Quorum

/-!
# Signing with a cache

Signing a record takes a signature and a proof of work, both functions of the record's
bytes.  The cache keeps signed records under the hash of the node, the difficulty and the
bytes, and gives up the oldest one when it is full.
-/

namespace HiveGuard.Net

open HiveGuard.Core Library.Dictionary Library.Encoding Library.Fifo

/-- Who signs: a node with its private key. -/
structure Identity where
  localNodeId : String
  pkcs8KeyBytes : Bytes

structure SignRequest where
  record : BanRecord
  difficulty : Fin 256

section Signing

-- The Ed25519 signature of a message, if the key is a PKCS#8 key.
variable (env : Externals) (signEd25519 : (key message : Bytes) → Option Bytes)
  (identity : Identity)

def SignedBanRecord.signCanonical (request : SignRequest) (canonical : Bytes) :
    Except HiveGuardError SignedBanRecord :=
  match signEd25519 identity.pkcs8KeyBytes canonical with
  | none => .error (.protocol "sign: invalid Ed25519 PKCS#8 key")
  | some signature =>
    match PowStamp.mine env.blake3 canonical request.difficulty (Fin.last _) with
    | none => .error (.protocol "PoW mining exhausted nonce space")
    | some pow => .ok ⟨request.record, identity.localNodeId, signature, pow⟩

/-- Sign a record without a cache. -/
def SignedBanRecord.sign (request : SignRequest) : Except HiveGuardError SignedBanRecord :=
  match env.serializeRecord request.record with
  | .error message => .error (.protocol ("sign: serialize error: " ++ message))
  | .ok canonical => SignedBanRecord.signCanonical env signEd25519 identity request canonical

structure SigningCache where
  entries : Dict (Vector UInt8 32) SignedBanRecord
  capacity : Nat
  insertionOrder : List (Vector UInt8 32)
  hits : Fin (2 ^ 64)
  misses : Fin (2 ^ 64)

namespace SigningCache

def new (capacity : Nat) : SigningCache where
  entries := ∅
  capacity := max capacity 1
  insertionOrder := []
  hits := 0
  misses := 0

/-- The bytes whose hash is the key of a request. -/
def keyMessage (request : SignRequest) (canonical : Bytes) : Bytes :=
  identity.localNodeId.toUTF8.toList ++ [UInt8.ofNat request.difficulty.val] ++ canonical

/-- Give up the oldest entry if the cache is full. -/
def makeRoom (self : SigningCache) : SigningCache :=
  if self.capacity ≤ self.entries.keys.length then
    match self.insertionOrder with
    | [] => self
    | oldest :: order =>
      { self with entries := self.entries.erase oldest, insertionOrder := order }
  else
    self

def store (key : Vector UInt8 32) (signed : SignedBanRecord) (self : SigningCache) :
    SigningCache :=
  { self with
    insertionOrder := self.insertionOrder ++ [key]
    entries := self.entries.insert key signed }

/-- Sign a record, or return it as it was signed before. -/
def sign (self : SigningCache) (request : SignRequest) :
    Except HiveGuardError SignedBanRecord × SigningCache :=
  match env.serializeRecord request.record with
  | .error message => (.error (.protocol ("sign: serialize error: " ++ message)), self)
  | .ok canonical =>
    let key := env.blake3 (keyMessage identity request canonical)
    match self.entries.lookup key with
    | some hit => (.ok hit, { self with hits := self.hits + 1 })
    | none =>
      match SignedBanRecord.signCanonical env signEd25519 identity request canonical with
      | .error error => (.error error, self)
      | .ok signed =>
        (.ok signed, { self with misses := self.misses + 1 }.makeRoom.store key signed)

/-- The answers to a sequence of requests, and the cache after them. -/
def signAll (self : SigningCache) :
    List SignRequest → List (Except HiveGuardError SignedBanRecord) × SigningCache
  | [] => ([], self)
  | request :: requests =>
    let (answer, next) := self.sign env signEd25519 identity request
    let (answers, last) := next.signAll requests
    (answer :: answers, last)

/-- The third-party functions do not confuse the requests: different records have
different bytes, and different messages different hashes. -/
structure Distinguishes (requests : List SignRequest) : Prop where
  records : ∀ first ∈ requests, ∀ second ∈ requests, ∀ canonical,
    env.serializeRecord first.record = .ok canonical →
      env.serializeRecord second.record = .ok canonical → first.record = second.record
  hashes : ∀ first ∈ requests, ∀ second ∈ requests, ∀ firstBytes secondBytes,
    env.serializeRecord first.record = .ok firstBytes →
      env.serializeRecord second.record = .ok secondBytes →
        env.blake3 (keyMessage identity first firstBytes) =
          env.blake3 (keyMessage identity second secondBytes) →
            keyMessage identity first firstBytes = keyMessage identity second secondBytes

/-- Every entry is the signed record of one of the requests. -/
def Correct (requests : List SignRequest) (self : SigningCache) : Prop :=
  ∀ key signed, self.entries.lookup key = some signed →
    ∃ request ∈ requests, ∃ canonical, env.serializeRecord request.record = .ok canonical ∧
      key = env.blake3 (keyMessage identity request canonical) ∧
        SignedBanRecord.signCanonical env signEd25519 identity request canonical = .ok signed

/-- The map and the queue hold the same keys, and no more than the capacity. -/
structure Bounded (limit : Nat) (cache : SigningCache) : Prop where
  inStep : InStep cache.entries cache.insertionOrder
  fits : cache.insertionOrder.length ≤ limit
  positive : 0 < limit
  capacity_eq : cache.capacity = limit

end SigningCache

end Signing

/-! ## The map and the queue -/

namespace SigningCache

section Bounds

variable {limit : Nat} {self : SigningCache}

theorem bounded_new (capacity : Nat) : (new capacity).Bounded (max capacity 1) where
  inStep := inStep_empty
  fits := Nat.zero_le _
  positive := Nat.lt_of_lt_of_le Nat.zero_lt_one (Nat.le_max_right capacity 1)
  capacity_eq := rfl

theorem Bounded.of_counters (bounded : self.Bounded limit) (hits misses : Fin (2 ^ 64)) :
    { self with hits := hits, misses := misses }.Bounded limit :=
  ⟨bounded.inStep, bounded.fits, bounded.positive, bounded.capacity_eq⟩

/-- Making room leaves a place free and forgets entries only. -/
theorem Bounded.makeRoom (bounded : self.Bounded limit) :
    self.makeRoom.Bounded limit ∧ self.makeRoom.insertionOrder.length < limit ∧
      ∀ key, key ∈ self.makeRoom.entries → key ∈ self.entries := by
  have length_eq := bounded.inStep.length_eq
  rw [SigningCache.makeRoom, bounded.capacity_eq, ← length_eq]
  split
  · rename_i full
    split
    · rename_i empty
      rw [empty, List.length_nil] at full
      exact absurd bounded.positive (not_lt.mpr full)
    · rename_i oldest order order_eq
      have inStep := bounded.inStep
      have fits := bounded.fits
      rw [order_eq] at inStep fits
      refine ⟨⟨inStep.erase, Nat.le_of_succ_le fits, bounded.positive, rfl⟩, fits,
        fun key member => ?_⟩
      exact (AList.mem_erase.mp member).2
  · rename_i room
    exact ⟨bounded, not_le.mp room, fun _ member => member⟩

theorem Bounded.store (bounded : self.Bounded limit) {key : Vector UInt8 32}
    (absent : key ∉ self.entries) (signed : SignedBanRecord) :
    (self.makeRoom.store key signed).Bounded limit := by
  rcases bounded.makeRoom with ⟨roomy, room, kept⟩
  refine ⟨roomy.inStep.insert (fun member => absent (kept key member)) signed, ?_,
    bounded.positive, roomy.capacity_eq⟩
  rw [SigningCache.store, List.length_append]
  exact room

theorem Bounded.sign (bounded : self.Bounded limit) (env : Externals)
    (signEd25519 : (key message : Bytes) → Option Bytes) (identity : Identity)
    (request : SignRequest) :
    (self.sign env signEd25519 identity request).2.Bounded limit := by
  rw [SigningCache.sign]
  split
  · exact bounded
  · dsimp only
    split
    · exact bounded.of_counters _ _
    · rename_i absent
      split
      · exact bounded
      · exact (bounded.of_counters self.hits (self.misses + 1)).store
          (AList.lookup_eq_none.mp absent) _

end Bounds

/-! ## The answers -/

section Answers

variable {env : Externals} {signEd25519 : (key message : Bytes) → Option Bytes}
  {identity : Identity} {requests : List SignRequest} {self : SigningCache}

theorem correct_new (capacity : Nat) :
    Correct env signEd25519 identity requests (new capacity) := by
  intro key signed found
  rw [new, AList.lookup_empty] at found
  cases found

/-- Requests with the same key are the same. -/
theorem Distinguishes.eq_of_key (lawful : Distinguishes env identity requests)
    {first second : SignRequest} (firstMember : first ∈ requests) (secondMember : second ∈ requests)
    {firstBytes secondBytes : Bytes}
    (firstSerialized : env.serializeRecord first.record = .ok firstBytes)
    (secondSerialized : env.serializeRecord second.record = .ok secondBytes)
    (sameKey : env.blake3 (keyMessage identity first firstBytes) =
      env.blake3 (keyMessage identity second secondBytes)) :
    first = second ∧ firstBytes = secondBytes := by
  have sameMessage := lawful.hashes first firstMember second secondMember firstBytes secondBytes
    firstSerialized secondSerialized sameKey
  rw [keyMessage, keyMessage, List.append_assoc, List.append_assoc, List.append_cancel_left_eq,
    List.singleton_append, List.singleton_append, List.cons.injEq] at sameMessage
  rcases sameMessage with ⟨sameDifficulty, rfl⟩
  have sameRecord := lawful.records first firstMember second secondMember firstBytes
    firstSerialized secondSerialized
  rcases first with ⟨record, firstDifficulty⟩
  rcases second with ⟨_, secondDifficulty⟩
  cases sameRecord
  have sameByte := congrArg UInt8.toNat sameDifficulty
  rw [UInt8.toNat_ofNat_of_lt' firstDifficulty.isLt,
    UInt8.toNat_ofNat_of_lt' secondDifficulty.isLt] at sameByte
  cases Fin.ext sameByte
  exact ⟨rfl, rfl⟩

theorem lookup_of_makeRoom (self : SigningCache) {key : Vector UInt8 32}
    {signed : SignedBanRecord} (found : self.makeRoom.entries.lookup key = some signed) :
    self.entries.lookup key = some signed := by
  rw [makeRoom] at found
  split at found
  · split at found
    · exact found
    · rename_i oldest order order_eq
      rcases eq_or_ne key oldest with rfl | different
      · rw [AList.lookup_erase] at found
        cases found
      · rwa [AList.lookup_erase_ne different] at found
  · exact found

/-- An answer of the cache is the record signed directly, and the cache stays correct. -/
theorem Correct.sign (correct : Correct env signEd25519 identity requests self)
    (lawful : Distinguishes env identity requests) {request : SignRequest}
    (member : request ∈ requests) :
    (self.sign env signEd25519 identity request).1 =
        SignedBanRecord.sign env signEd25519 identity request ∧
      Correct env signEd25519 identity requests (self.sign env signEd25519 identity request).2 := by
  rw [SigningCache.sign, SignedBanRecord.sign]
  cases serialized : env.serializeRecord request.record with
  | error message => exact ⟨rfl, correct⟩
  | ok canonical =>
    dsimp only
    split
    · rename_i hit found
      rcases correct _ hit found with ⟨earlier, earlierMember, bytes, earlierSerialized,
        sameKey, signed_eq⟩
      rcases lawful.eq_of_key member earlierMember serialized earlierSerialized sameKey with
        ⟨rfl, rfl⟩
      exact ⟨signed_eq.symm, correct⟩
    · split
      · rename_i error signed_eq
        exact ⟨signed_eq.symm, correct⟩
      · rename_i signed signed_eq
        refine ⟨signed_eq.symm, fun key stored found => ?_⟩
        rw [store] at found
        rcases eq_or_ne key (env.blake3 (keyMessage identity request canonical)) with
          rfl | different
        · rw [AList.lookup_insert] at found
          cases found
          exact ⟨request, member, canonical, serialized, rfl, signed_eq⟩
        · rw [AList.lookup_insert_ne different] at found
          exact correct key stored
            (lookup_of_makeRoom { self with misses := self.misses + 1 } found)

/-- What holds of a cache along a sequence of the requests. -/
theorem signAll_spec (lawful : Distinguishes env identity requests)
    (correct : Correct env signEd25519 identity requests self) {limit : Nat}
    (bounded : self.Bounded limit) (asked : List SignRequest) (among : asked ⊆ requests) :
    (self.signAll env signEd25519 identity asked).1 =
        asked.map (SignedBanRecord.sign env signEd25519 identity) ∧
      (self.signAll env signEd25519 identity asked).2.Bounded limit := by
  induction asked generalizing self with
  | nil => exact ⟨rfl, bounded⟩
  | cons request asked ih =>
    rcases List.cons_subset.mp among with ⟨member, among⟩
    rcases correct.sign lawful member with ⟨answer_eq, correctNext⟩
    rcases ih correctNext
      (bounded.sign env signEd25519 identity request) among with ⟨answers_eq, boundedLast⟩
    rw [List.map_cons, ← answer_eq, ← answers_eq]
    exact ⟨rfl, boundedLast⟩

/-- A cache answers every sequence of requests as if each record were signed directly.
After each of them its map and its queue hold the same keys once, and no more than the
capacity. -/
theorem signAll_transparent (env : Externals)
    (signEd25519 : (key message : Bytes) → Option Bytes) (identity : Identity)
    (capacity : Nat) (requests : List SignRequest)
    (lawful : Distinguishes env identity requests) :
    ((new capacity).signAll env signEd25519 identity requests).1 =
        requests.map (SignedBanRecord.sign env signEd25519 identity) ∧
      ∀ asked, asked <+: requests →
        let cache := ((new capacity).signAll env signEd25519 identity asked).2
        cache.insertionOrder.Nodup ∧
          (∀ key, key ∈ cache.insertionOrder ↔ key ∈ cache.entries) ∧
          cache.insertionOrder.length ≤ cache.capacity ∧
          cache.entries.keys.length ≤ cache.capacity ∧ cache.capacity = max capacity 1 := by
  have spec := signAll_spec lawful
    (correct_new capacity : Correct env signEd25519 identity requests (new capacity))
    (bounded_new capacity)
  refine ⟨(spec requests (List.Subset.refl requests)).1, fun asked earlier => ?_⟩
  have bounded := (spec asked earlier.subset).2
  dsimp only
  rw [bounded.capacity_eq, ← bounded.inStep.length_eq]
  exact ⟨bounded.inStep.nodup, fun key => bounded.inStep.mem_iff, bounded.fits, bounded.fits,
    rfl⟩

namespace Sample

open Net.Sample
open HiveGuard.Persistence.Wire (octets)

/-- The node with the key of the seed `01…01`, as PKCS#8. -/
def alpha : Identity where
  localNodeId := "alpha"
  pkcs8KeyBytes := octets 16 0x3053020101300506032b657004220420 ++ List.replicate 32 1 ++
    octets 5 0xa123032100 ++ alphaKey

def alphaSigned : SignedBanRecord :=
  { Net.Sample.alphaSigned with pow := ⟨0, 2⟩ }

def betaSigned : SignedBanRecord where
  record := betaRecord
  signerId := "alpha"
  signature :=
    octets 32 0xb664dfe6442775aba49e5458aa35da54fcb4f1ba9389332304e845fa074364b4 ++
      octets 32 0x5779b8bca91298b28bb65dc2464689e3e0e9ad4c688fb83ec6de4f8fcb4d4108
  pow := ⟨0, 2⟩

def fourRequests : List SignRequest :=
  [⟨alphaRecord, 2⟩, ⟨alphaRecord, 2⟩, ⟨betaRecord, 2⟩, ⟨alphaRecord, 2⟩]

/-- BLAKE3 of the keys of the two records and of their first stamps, as numbers. -/
def signingHashes : List (Bytes × Nat) :=
  [(keyMessage alpha ⟨alphaRecord, 2⟩ (Wire.writeRecord alphaRecord),
      0xc35f5c5426304c548a54beefddb02415bc8960ba499cc5742d2e6f4c2d67fc87),
    (littleEndian 8 0 ++ Wire.writeRecord alphaRecord,
      0x3248dfc4306c7392a6a53d52a5eaa3774d1c2125b7057d9e361ff8949a7d7d3b),
    (keyMessage alpha ⟨betaRecord, 2⟩ (Wire.writeRecord betaRecord),
      0x7d04df0a08cb9f8ab3674e3c3403ff030e25706f10d0f94d66cd485c77f3c350),
    (littleEndian 8 0 ++ Wire.writeRecord betaRecord,
      0x3ba3be4c78d964ac229c839648ae382cd49cfa0047e57ec1e4a797647e38bb86)]

def signingExternals : Externals :=
  { externals with blake3 := Wire.hashOf signingHashes }

/-- The signatures of the two records. -/
def knownSignature (key message : Bytes) : Option Bytes :=
  [((alpha.pkcs8KeyBytes, Wire.writeRecord alphaRecord), alphaSigned.signature),
    ((alpha.pkcs8KeyBytes, Wire.writeRecord betaRecord), betaSigned.signature)].lookup
      (key, message)

theorem distinguishes_signingExternals :
    Distinguishes signingExternals alpha fourRequests where
  records := by
    have injective : ∀ first ∈ fourRequests, ∀ second ∈ fourRequests,
        Wire.writeRecord first.record = Wire.writeRecord second.record →
          first.record = second.record := by
      decide +kernel
    intro first firstMember second secondMember _ firstBytes_eq secondBytes_eq
    exact injective first firstMember second secondMember
      (Except.ok.inj (firstBytes_eq.trans secondBytes_eq.symm))
  hashes := by
    have listed : ∀ request ∈ fourRequests,
        keyMessage alpha request (Wire.writeRecord request.record) ∈
          signingHashes.map Prod.fst := by
      simp [fourRequests, signingHashes]
    rintro first firstMember second secondMember _ _ ⟨⟩ ⟨⟩ same
    exact Wire.hashOf_injective (by decide) (by decide) _ (listed first firstMember) _
      (listed second secondMember) same

end Sample

/-- A cache for one record finds the second request, gives the record up for the third and
signs it again for the fourth. -/
theorem signAll_transparent_at_capacity_one :
    ((new 1).signAll Sample.signingExternals Sample.knownSignature Sample.alpha
        Sample.fourRequests).1 =
      [.ok Sample.alphaSigned, .ok Sample.alphaSigned, .ok Sample.betaSigned,
        .ok Sample.alphaSigned] := by
  rw [(signAll_transparent Sample.signingExternals Sample.knownSignature Sample.alpha 1
    Sample.fourRequests Sample.distinguishes_signingExternals).1]
  decide +kernel

end Answers

end SigningCache

end HiveGuard.Net
