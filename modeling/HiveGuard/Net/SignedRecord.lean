import HiveGuard.Core.Hashcash
import HiveGuard.Core.Models

/-!
# Signed ban records

A record travels with an Ed25519 signature and a proof-of-work stamp, both over
its serialised form.  Serialisation, hash function, signature scheme and the text
form of a network come from third-party crates and stay parameters.
-/

namespace HiveGuard.Net

open HiveGuard.Core Library.Encoding

/-- A `BanRecord` with an Ed25519 signature and a proof-of-work stamp. -/
structure SignedBanRecord where
  record : BanRecord
  signerId : String
  signature : Bytes
  pow : PowStamp
  deriving DecidableEq

/-- The fields of a record that make up its version; local provenance is not
among them. -/
structure RecordVersion where
  subject : IpNet
  createdAt : DateTime
  expiresAt : Option DateTime
  severity : Fin 256
  reason : String
  evidenceHash : Vector UInt8 32

/-- The third-party functions behind the gossip protocol: bincode, BLAKE3,
Ed25519 verification of a message under a public key, and the text form of a
network, which determines the network. -/
structure Externals where
  serializeVersion : RecordVersion → Bytes
  serializeRecord : BanRecord → Except String Bytes
  serializeSigned : SignedBanRecord → Except String Bytes
  blake3 : Bytes → Vector UInt8 32
  verifyEd25519 : (publicKey message signature : Bytes) → Bool
  display : IpNet → String
  display_injective : Function.Injective display

namespace SignedBanRecord

variable (env : Externals)

/-- Verify both the Ed25519 signature and the proof-of-work stamp. -/
def verify (self : SignedBanRecord) (publicKeyRaw : Bytes) : Except HiveGuardError Unit :=
  match env.serializeRecord self.record with
  | .error message => .error (.protocol ("verify: serialize error: " ++ message))
  | .ok canonical =>
    if env.verifyEd25519 publicKeyRaw canonical self.signature then
      match self.pow.verify env.blake3 canonical with
      | .error message => .error (.protocol ("PoW verification failed: " ++ message))
      | .ok () => .ok ()
    else
      .error (.protocol ("invalid signature from signer " ++ self.signerId))

end SignedBanRecord

end HiveGuard.Net
