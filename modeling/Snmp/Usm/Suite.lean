/-
  Snmp/Usm/Suite.lean
  ===================
  **The cryptographic functions that the security model calls.**

  The security model is written against a record of functions and nothing else about them; a
  statement that holds for every record, or for every lawful one, does not depend on how a
  digest or a cipher is computed.  `Suite.standard` is the record of the real functions.
-/
import Snmp.Usm.Protocol
import Snmp.Crypto.Md5
import Snmp.Crypto.Sha1
import Snmp.Crypto.Sha256
import Snmp.Crypto.Sha512
import Snmp.Crypto.Des
import Snmp.Crypto.Aes

namespace Snmp.Usm

/-- Digests, keyed digests and ciphers by protocol. -/
structure Suite where
  /-- The digest of a message. -/
  digest : AuthProtocol → Octets → Octets
  /-- The keyed digest of a message, in full length. -/
  mac : AuthProtocol → (key message : Octets) → Octets
  encrypt : PrivProtocol → (key iv plaintext : Octets) → Octets
  decrypt : PrivProtocol → (key iv ciphertext : Octets) → Octets

/-- The hash function of an authentication protocol. -/
def AuthProtocol.hash : AuthProtocol → Crypto.Hash
  | .md5 => Crypto.Md5.hash.toHash
  | .sha1 => Crypto.Sha1.hash.toHash
  | .sha224 => Crypto.Sha256.hash224.toHash
  | .sha256 => Crypto.Sha256.hash256.toHash
  | .sha384 => Crypto.Sha512.hash384.toHash
  | .sha512 => Crypto.Sha512.hash512.toHash

namespace Suite

/-- The functions of the standards. -/
def standard : Suite where
  digest protocol := protocol.hash.digest
  mac protocol := protocol.hash.hmac
  encrypt protocol key iv plaintext :=
    match protocol with
    | .des => Crypto.Des.encrypt key iv plaintext
    | _ => Crypto.Aes.encrypt key iv plaintext
  decrypt protocol key iv ciphertext :=
    match protocol with
    | .des => Crypto.Des.decrypt key iv ciphertext
    | _ => Crypto.Aes.decrypt key iv ciphertext

/-- The digests of the standards have the length of their protocol. -/
theorem length_standard_digest (protocol : AuthProtocol) (message : Octets) :
    (standard.digest protocol message).length = protocol.digestLength := by
  cases protocol with
  | md5 => exact Crypto.Md5.length_digest message
  | sha1 => exact Crypto.Sha1.length_digest message
  | sha224 => exact Crypto.Sha256.length_digest_hash224 message
  | sha256 => exact Crypto.Sha256.length_digest_hash256 message
  | sha384 => exact Crypto.Sha512.length_digest_hash384 message
  | sha512 => exact Crypto.Sha512.length_digest_hash512 message

end Suite

end Snmp.Usm
