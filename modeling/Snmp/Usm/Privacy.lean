/-
  Snmp/Usm/Privacy.lean
  =====================
  **Encrypting and decrypting scoped PDUs.**

  The initialization vector of a message follows from its salt: DES mixes the salt into the
  second half of the key, AES puts the boots and the time of the engine before it.  DES works
  on whole blocks and fills the last one with zeros, which the length of the encrypted element
  makes harmless.
-/
import Snmp.Usm.Key

namespace Snmp.Usm

/-- What the initialization vector of a message follows from. -/
structure IvSeed where
  engineBoots : UInt32
  engineTime : UInt32
  salt : Octets
deriving DecidableEq

namespace PrivProtocol

def blockSize : Nat := 8

/-- Octets filled with zeros to whole DES blocks. -/
def padded (octets : Octets) : Octets :=
  octets ++ Octets.zeros ((blockSize - octets.length % blockSize) % blockSize)

/-- The cipher key and the initialization vector, for a salt of the right length. -/
def keyAndIv (protocol : PrivProtocol) (key : Octets) (seed : IvSeed) :
    Except CipherDefect (Octets × Octets) :=
  if key.length < protocol.keyLength then .error .invalidKeyLength
  else match protocol with
    | .des => .ok (key.take 8, Octets.xor ((key.drop 8).take 8) seed.salt)
    | _ =>
      .ok (key.take protocol.keyLength,
        Octets.ofWord32 seed.engineBoots ++ Octets.ofWord32 seed.engineTime ++ seed.salt)

/-- Fails unless the salt has the length that the protocol asks for. -/
def checkSalt (protocol : PrivProtocol) (salt : Octets) : Except CipherDefect Unit :=
  if salt.length = protocol.saltLength then .ok ()
  else .error (.invalidPrivParamsLength protocol.saltLength salt.length)

def encrypt (suite : Suite) (protocol : PrivProtocol) (key : Octets) (seed : IvSeed)
    (plaintext : Octets) : Except CipherDefect Octets := do
  protocol.checkSalt seed.salt
  let (cipherKey, iv) ← protocol.keyAndIv key seed
  return suite.encrypt protocol cipherKey iv
    (if protocol = .des then padded plaintext else plaintext)

def decrypt (suite : Suite) (protocol : PrivProtocol) (key : Octets) (seed : IvSeed)
    (ciphertext : Octets) : Except CipherDefect Octets := do
  protocol.checkSalt seed.salt
  if protocol = .des ∧ ciphertext.length % blockSize ≠ 0 then
    throw (.invalidCiphertextLength ciphertext.length blockSize)
  let (cipherKey, iv) ← protocol.keyAndIv key seed
  return suite.decrypt protocol cipherKey iv ciphertext

end PrivProtocol

end Snmp.Usm
