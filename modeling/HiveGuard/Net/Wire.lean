import HiveGuard.Net.SignedRecord
import HiveGuard.Persistence.Wire

/-!
# Records in bincode

The bytes that bincode writes for a record and for a signed record: numbers in
little-endian order, lengths in eight bytes, the variant of an enumeration in
four.
-/

namespace HiveGuard.Net.Wire

open HiveGuard.Core Library.Encoding
open HiveGuard.Library.Postcard (writeBool writeOption)
open HiveGuard.Persistence.Wire

def writeBytes (bytes : Bytes) : Bytes :=
  littleEndian 8 bytes.length ++ bytes

def writeText (text : String) : Bytes :=
  writeBytes text.toUTF8.toList

def writeVariant (index : Nat) : Bytes :=
  littleEndian 4 index

def writeNet : IpNet → Bytes
  | .v4 net => writeVariant 0 ++ octets 4 net.addr.toNat ++ [UInt8.ofNat net.prefixLen]
  | .v6 net => writeVariant 1 ++ octets 16 net.addr.toNat ++ [UInt8.ofNat net.prefixLen]

def writeInstant (instant : DateTime) : Bytes :=
  writeBytes (instantText instant)

def writeSource : BanSource → Bytes
  | .localDetector name => writeVariant 0 ++ writeText name
  | .clusterPeer nodeId => writeVariant 1 ++ writeText nodeId
  | .manualAdmin => writeVariant 2

def writeGeo (info : GeoIpInfo) : Bytes :=
  writeOption writeText info.countryIso ++
    writeOption (fun asn : Fin (2 ^ 32) => littleEndian 4 asn.val) info.asn ++
    writeOption writeText info.asnOrg ++ writeBool info.isDatacenter

def writeRecord (record : BanRecord) : Bytes :=
  writeNet record.subject ++ writeInstant record.createdAt ++
    writeOption writeInstant record.expiresAt ++ [UInt8.ofNat record.severity.val] ++
    writeText record.reason ++ record.evidenceHash.toList ++ writeSource record.source ++
    writeOption writeGeo record.geoInfo

def writeVersion (version : RecordVersion) : Bytes :=
  writeNet version.subject ++ writeInstant version.createdAt ++
    writeOption writeInstant version.expiresAt ++ [UInt8.ofNat version.severity.val] ++
    writeText version.reason ++ version.evidenceHash.toList

def writeSigned (signed : SignedBanRecord) : Bytes :=
  writeRecord signed.record ++ writeText signed.signerId ++ writeBytes signed.signature ++
    littleEndian 8 signed.pow.nonce.val ++ [UInt8.ofNat signed.pow.difficulty.val]

/-- A hash function on the messages of a table, which gives the hashes as numbers. -/
def hashOf (known : List (Bytes × Nat)) (message : Bytes) : Vector UInt8 32 :=
  let hash := octets 32 ((known.lookup message).getD (2 ^ 256 - 1))
  Vector.ofFn fun index => hash.getD index.val 0

theorem toList_hashOf (known : List (Bytes × Nat)) (message : Bytes) :
    (hashOf known message).toList = octets 32 ((known.lookup message).getD (2 ^ 256 - 1)) := by
  rw [hashOf]
  generalize (known.lookup message).getD (2 ^ 256 - 1) = hash
  refine List.ext_getElem (by simp) fun index _ inHash => ?_
  rw [Vector.getElem_toList, Vector.getElem_ofFn, List.getD_eq_getElem _ _ inHash]

/-- Different hashes make a table of them a function without collisions on its messages. -/
theorem hashOf_injective {known : List (Bytes × Nat)} (distinct : (known.map Prod.snd).Nodup)
    (small : ∀ entry ∈ known, entry.2 < 2 ^ 256) :
    ∀ first ∈ known.map Prod.fst, ∀ second ∈ known.map Prod.fst,
      hashOf known first = hashOf known second → first = second := by
  have hashed : ∀ message ∈ known.map Prod.fst, ∃ hash, (message, hash) ∈ known ∧
      fromOctets (hashOf known message).toList = hash := by
    intro message member
    cases found : known.lookup message with
    | none =>
      obtain ⟨entry, stored, rfl⟩ := List.mem_map.mp member
      exact absurd (List.lookup_eq_none_iff.mp found entry stored) (by simp)
    | some hash =>
      obtain ⟨front, back, rfl, -⟩ := List.lookup_eq_some_iff.mp found
      have stored : (message, hash) ∈ front ++ (message, hash) :: back := by simp
      refine ⟨hash, stored, ?_⟩
      rw [toList_hashOf, found, Option.getD_some, fromOctets_octets]
      exact Nat.mod_eq_of_lt (small _ stored)
  intro first firstMember second secondMember same
  obtain ⟨hash, firstStored, rfl⟩ := hashed first firstMember
  obtain ⟨_, secondStored, rfl⟩ := hashed second secondMember
  rw [same] at firstStored
  exact congrArg Prod.fst (List.inj_on_of_nodup_map distinct firstStored secondStored rfl)

end HiveGuard.Net.Wire
