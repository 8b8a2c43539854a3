import HiveGuard.Library.Postcard
import HiveGuard.Persistence.Format

/-!
# Concrete byte formats

The third-party functions as this repository's data meets them: postcard's
encoding of log entries and snapshots, chrono's text form of an instant, and the
CRC-32 checksum.  Sets are written in the only order a set of at most one
element has, larger ones are refused, and so are instants outside the years 0 to
9999.  The two bincode formats of old snapshots are not provided.
-/

namespace HiveGuard.Persistence.Wire

open HiveGuard.Core Library.Encoding Library.Postcard

/-! ## Instants -/

/-- Decimal digits with leading zeros. -/
def digits : Nat → Nat → Bytes
  | 0, _ => []
  | width + 1, value => digits width (value / 10) ++ [UInt8.ofNat (48 + value % 10)]

def readDigits (width : Nat) : Reader Nat := do
  let text ← readBytes width
  if text.all fun byte => 48 ≤ byte.toNat && byte.toNat < 58 then
    pure (text.foldl (fun value byte => 10 * value + (byte.toNat - 48)) 0)
  else
    failure

/-- Year, month and day of a day counted from 1970-01-01. -/
def civilFromDays (days : Int) : Int × Nat × Nat :=
  let shifted := days + 719468
  let era := shifted / 146097
  let dayOfEra := (shifted % 146097).toNat
  let yearOfEra :=
    (dayOfEra - dayOfEra / 1460 + dayOfEra / 36524 - dayOfEra / 146096) / 365
  let dayOfYear := dayOfEra - (365 * yearOfEra + yearOfEra / 4 - yearOfEra / 100)
  let month := (5 * dayOfYear + 2) / 153
  let day := dayOfYear - (153 * month + 2) / 5 + 1
  if month < 10 then (yearOfEra + era * 400, month + 3, day)
  else (yearOfEra + era * 400 + 1, month - 9, day)

def daysFromCivil (year month day : Nat) : Int :=
  let shiftedYear : Int := if month ≤ 2 then year - 1 else year
  let era := shiftedYear / 400
  let yearOfEra := shiftedYear % 400
  let dayOfYear := (153 * (if month > 2 then month - 3 else month + 9) + 2) / 5 + day - 1
  era * 146097 + (yearOfEra * 365 + yearOfEra / 4 - yearOfEra / 100 + dayOfYear) - 719468

/-- Fractional seconds, as many digits as needed in groups of three. -/
def fraction (nanoseconds : Nat) : Bytes :=
  if nanoseconds = 0 then []
  else if nanoseconds % 1000000 = 0 then 46 :: digits 3 (nanoseconds / 1000000)
  else if nanoseconds % 1000 = 0 then 46 :: digits 6 (nanoseconds / 1000)
  else 46 :: digits 9 nanoseconds

/-- RFC 3339 in UTC, for example `1970-01-01T00:00:00Z`. -/
def instantText (instant : DateTime) : Bytes :=
  let secondsOfDay := (instant / 1000000000 % 86400).toNat
  let (year, month, day) := civilFromDays (instant / 1000000000 / 86400)
  digits 4 year.toNat ++ 45 :: digits 2 month ++ 45 :: digits 2 day ++
    84 :: digits 2 (secondsOfDay / 3600) ++ 58 :: digits 2 (secondsOfDay / 60 % 60) ++
    58 :: digits 2 (secondsOfDay % 60) ++ fraction (instant % 1000000000).toNat ++ [90]

def writeInstant (instant : DateTime) : Bytes :=
  writeList (fun byte => [byte]) (instantText instant)

/-- Expect one particular byte. -/
def readMark (mark : UInt8) : Reader Unit := do
  if (← readByte) = mark then pure () else failure

/-- The fraction after a point, in nanoseconds, up to the final mark. -/
def readFraction (width : Nat) : Reader Int := do
  let value ← readDigits width
  readMark 90
  pure (value * 10 ^ (9 - width))

def readInstant : Reader DateTime := do
  let length ← readVarint
  let year ← readDigits 4
  readMark 45
  let month ← readDigits 2
  readMark 45
  let day ← readDigits 2
  readMark 84
  let hour ← readDigits 2
  readMark 58
  let minute ← readDigits 2
  readMark 58
  let second ← readDigits 2
  let whole := (daysFromCivil year month day * 86400 + (hour * 3600 + minute * 60 + second)) *
    1000000000
  match ← readByte with
  | 90 => pure whole
  | 46 => do
      let nanoseconds ← readFraction (length - 21)
      pure (whole + nanoseconds)
  | _ => failure

/-! ## Networks -/

/-- The octets of an address, most significant first. -/
def octets : Nat → Nat → Bytes
  | 0, _ => []
  | count + 1, value => octets count (value / 256) ++ [UInt8.ofNat value]

def fromOctets (bytes : Bytes) : Nat :=
  bytes.foldl (fun value byte => 256 * value + byte.toNat) 0

@[simp]
theorem length_octets (count value : Nat) : (octets count value).length = count := by
  induction count generalizing value with
  | zero => rfl
  | succ count ih => simp [octets, ih]

theorem fromOctets_octets (count value : Nat) :
    fromOctets (octets count value) = value % 256 ^ count := by
  induction count generalizing value with
  | zero => simp [octets, fromOctets, Nat.mod_one]
  | succ count ih =>
    have appended : fromOctets (octets (count + 1) value) =
        256 * fromOctets (octets count (value / 256)) + value % 256 := by
      simp [fromOctets, octets]
    rw [appended, ih, Nat.pow_succ', Nat.mod_mul]
    omega

def writeNet : IpNet → Bytes
  | .v4 net => 0 :: octets 4 net.addr.toNat ++ [UInt8.ofNat net.prefixLen]
  | .v6 net => 1 :: octets 16 net.addr.toNat ++ [UInt8.ofNat net.prefixLen]

def readNet : Reader IpNet := do
  match ← readByte with
  | 0 => do
      let addr ← readBytes 4
      let length ← readByte
      StateT.lift (IpNet.new (.v4 (BitVec.ofNat 32 (fromOctets addr))) length.toNat)
  | 1 => do
      let addr ← readBytes 16
      let length ← readByte
      StateT.lift (IpNet.new (.v6 (BitVec.ofNat 128 (fromOctets addr))) length.toNat)
  | _ => failure

/-! ## Records -/

def writeHash (hash : Vector UInt8 32) : Bytes :=
  hash.toList

def readHash : Reader (Vector UInt8 32) := do
  let bytes ← readBytes 32
  if length_eq : bytes.toArray.size = 32 then pure ⟨bytes.toArray, length_eq⟩ else failure

def writeSource : BanSource → Bytes
  | .localDetector name => 0 :: writeText name
  | .clusterPeer nodeId => 1 :: writeText nodeId
  | .manualAdmin => [2]

def readSource : Reader BanSource := do
  match ← readByte with
  | 0 => .localDetector <$> readText
  | 1 => .clusterPeer <$> readText
  | 2 => pure .manualAdmin
  | _ => failure

def writeGeo (info : GeoIpInfo) : Bytes :=
  writeOption writeText info.countryIso ++
    writeOption (fun asn : Fin (2 ^ 32) => writeVarint asn.val) info.asn ++
    writeOption writeText info.asnOrg ++ writeBool info.isDatacenter

def readGeo : Reader GeoIpInfo := do
  let countryIso ← readOption readText
  let asn ← readOption (readBounded (2 ^ 32) readVarint)
  let asnOrg ← readOption readText
  let isDatacenter ← readBool
  pure ⟨countryIso, asn, asnOrg, isDatacenter⟩

def writeBan (record : BanRecord) : Bytes :=
  writeNet record.subject ++ writeInstant record.createdAt ++
    writeOption writeInstant record.expiresAt ++ [UInt8.ofNat record.severity.val] ++
    writeText record.reason ++ writeHash record.evidenceHash ++ writeSource record.source ++
    writeOption writeGeo record.geoInfo

def readBan : Reader BanRecord := do
  let subject ← readNet
  let createdAt ← readInstant
  let expiresAt ← readOption readInstant
  let severity ← readBounded 256 (UInt8.toNat <$> readByte)
  let reason ← readText
  let evidenceHash ← readHash
  let source ← readSource
  let geoInfo ← readOption readGeo
  pure ⟨subject, createdAt, expiresAt, severity, reason, evidenceHash, source, geoInfo⟩

def writeStamp (stamp : HlcTimestamp) : Bytes :=
  writeVarint stamp.wallTimeMs.val ++ writeVarint stamp.counter.val ++
    writeVarint stamp.nodeIdHash.val

def readStamp : Reader HlcTimestamp := do
  let wallTimeMs ← readBounded (2 ^ 64) readVarint
  let counter ← readBounded (2 ^ 32) readVarint
  let nodeIdHash ← readBounded (2 ^ 32) readVarint
  pure ⟨wallTimeMs, counter, nodeIdHash⟩

/-- The bytes of a list, when its order is the only one its elements have. -/
def writeAtMostOne (names : List String) : Bytes :=
  if names.length ≤ 1 then writeList writeText names else []

def writeNames (names : Finset String) : Bytes :=
  Quotient.liftOn names.val writeAtMostOne <| by
    intro first second perm
    have perm : first.Perm second := perm
    rcases second with _ | ⟨name, _ | ⟨other, rest⟩⟩
    · rw [perm.eq_nil]
    · rw [List.perm_singleton.mp perm]
    · simp [writeAtMostOne, perm.length_eq]

def readNames : Reader (Finset String) :=
  List.toFinset <$> readList readText

def writeCrdt (record : CrdtBanRecord) : Bytes :=
  writeNet record.subject ++ writeStamp record.firstSeen ++ writeStamp record.banUntil ++
    [UInt8.ofNat record.severity.val] ++ writeNames record.reporters ++
    writeHash record.evidenceHash ++ writeText record.reason ++
    writeNames record.tombstoneReporters ++ writeBool record.tombstone ++
    writeStamp record.lastModified

def readCrdt : Reader CrdtBanRecord := do
  let subject ← readNet
  let firstSeen ← readStamp
  let banUntil ← readStamp
  let severity ← readBounded 256 (UInt8.toNat <$> readByte)
  let reporters ← readNames
  let evidenceHash ← readHash
  let reason ← readText
  let tombstoneReporters ← readNames
  let tombstone ← readBool
  let lastModified ← readStamp
  pure ⟨subject, firstSeen, banUntil, severity, reporters, evidenceHash, reason,
    tombstoneReporters, tombstone, lastModified⟩

/-! ## Log entries and snapshots -/

def writeEntry : WalEntry → Bytes
  | .addBan record => 0 :: writeBan record
  | .removeBan subject => 1 :: writeNet subject
  | .addWhitelist net => 2 :: writeNet net
  | .removeWhitelist net => 3 :: writeNet net
  | .addCrdtBan record => 4 :: writeCrdt record
  | .tombstoneCrdtBan subject => 5 :: writeNet subject
  | .revokeBan subject cutoff => 6 :: writeNet subject ++ writeInstant cutoff

def readEntry : Reader WalEntry := do
  match ← readByte with
  | 0 => .addBan <$> readBan
  | 1 => .removeBan <$> readNet
  | 2 => .addWhitelist <$> readNet
  | 3 => .removeWhitelist <$> readNet
  | 4 => .addCrdtBan <$> readCrdt
  | 5 => .tombstoneCrdtBan <$> readNet
  | 6 => do
      let subject ← readNet
      let cutoff ← readInstant
      pure (.revokeBan subject cutoff)
  | _ => failure

def writeRevocation (revocation : IpNet × DateTime) : Bytes :=
  writeNet revocation.1 ++ writeInstant revocation.2

def readRevocation : Reader (IpNet × DateTime) := do
  let subject ← readNet
  let cutoff ← readInstant
  pure (subject, cutoff)

def writeSnapshot (data : SnapshotDataV4) : Bytes :=
  writeList writeBan data.bans ++ (writeList writeNet data.whitelist ++
    (writeList writeCrdt data.crdtBans ++ writeList writeRevocation data.revocations))

def readSnapshotV2 : Reader SnapshotDataV2 := do
  let bans ← readList readBan
  let whitelist ← readList readNet
  let crdtBans ← readList readCrdt
  pure ⟨bans, whitelist, crdtBans⟩

def readSnapshot : Reader SnapshotDataV4 := do
  let older ← readSnapshotV2
  let revocations ← readList readRevocation
  pure ⟨older.bans, older.whitelist, older.crdtBans, revocations⟩

/-! ## Checksum and text -/

/-- One bit of the reflected CRC-32. -/
def crcBit (register : BitVec 32) : BitVec 32 :=
  if register.getLsbD 0 then (register >>> 1) ^^^ 0xEDB88320#32 else register >>> 1

/-- CRC-32 as in zlib. -/
def crc32 (bytes : Bytes) : Fin (2 ^ 32) :=
  (bytes.foldl
    (fun register byte => Nat.repeat crcBit 8 (register ^^^ BitVec.ofNat 32 byte.toNat))
    0xFFFFFFFF#32 ^^^ 0xFFFFFFFF#32).toFin

/-- Dotted or colon-separated text of a network. -/
def display : IpNet → String
  | .v4 net =>
    ".".intercalate ((octets 4 net.addr.toNat).map fun octet => toString octet.toNat) ++
      "/" ++ toString net.prefixLen
  | .v6 net =>
    ":".intercalate ((octets 16 net.addr.toNat).map fun octet => toString octet.toNat) ++
      "/" ++ toString net.prefixLen

/-- The third-party functions with postcard's formats. -/
def externals : Externals where
  wal := Codec.checked writeEntry readEntry.run
  snapshotV4 := Codec.checked writeSnapshot readSnapshot.run
  takeSnapshotV3 bytes :=
    match readSnapshotV2.run bytes with
    | some found => .ok found
    | none => .error "invalid encoding"
  deserializeV2 _ := .error "unsupported format"
  deserializeV1 _ := .error "unsupported format"
  crc32 := crc32
  display := display
  ioErrorText := "failed to fill whole buffer"

end HiveGuard.Persistence.Wire
