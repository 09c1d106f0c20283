/-
  Snmp/Usm/Defect.lean
  ====================
  **Why a message failed authentication or a cipher could not be applied.**
-/

namespace Snmp.Usm

/-- Why a message was not authenticated. -/
inductive AuthDefect where
  /-- The message asks for authentication and no user was given. -/
  | noCredentials
  /-- The user has no authentication protocol. -/
  | noAuthKey
  /-- The user is not the one that the message names. -/
  | userMismatch
  /-- The message asks for more than the user is configured for. -/
  | unsupportedSecurityLevel
  | hmacMismatch
  | wrongMacLength (expected actual : Nat)
  | authParamsNotFound
deriving DecidableEq

def AuthDefect.message : AuthDefect → String
  | .noCredentials => "no credentials supplied"
  | .noAuthKey => "no authentication key available"
  | .userMismatch => "user name does not match credentials"
  | .unsupportedSecurityLevel => "unsupported security level"
  | .hmacMismatch => "HMAC verification failed"
  | .wrongMacLength expected actual => s!"wrong MAC length: expected {expected}, got {actual}"
  | .authParamsNotFound => "could not locate auth params in message"

/-- Why a cipher was not applied. -/
inductive CipherDefect where
  /-- The user has no privacy key. -/
  | noPrivKey
  | invalidKeyLength
  | invalidPrivParamsLength (expected actual : Nat)
  | invalidCiphertextLength (length blockSize : Nat)
  | cipherError
  /-- No salt could be drawn. -/
  | randomUnavailable
deriving DecidableEq

def CipherDefect.message : CipherDefect → String
  | .noPrivKey => "no privacy key available"
  | .invalidKeyLength => "invalid key length"
  | .invalidPrivParamsLength expected actual =>
    s!"invalid privParameters length: expected {expected}, got {actual}"
  | .invalidCiphertextLength length blockSize =>
    s!"ciphertext length {length} not multiple of block size {blockSize}"
  | .cipherError => "cipher operation failed"
  | .randomUnavailable => "random source unavailable"

end Snmp.Usm
