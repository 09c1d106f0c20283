/-
  Snmp/Ber/Defect.lean
  ====================
  **Why octets were refused.**

  A decoding error names a position in the octets that were given and a defect found there.
-/
import Snmp.Text.Hex

namespace Snmp.Ber

/-- What may be wrong with encoded octets. -/
inductive Defect where
  | unexpectedTag (expected actual : UInt8)
  | truncatedData
  | invalidLength
  | indefiniteLength
  | integerOverflow
  | zeroLengthInteger
  | invalidOidEncoding
  | oidTooLong (count max : Nat)
  | unknownPduType (tag : UInt8)
  | unknownValueTag (tag : UInt8)
  | constructedOctetString
  | invalidMsgFlags
  | unknownSecurityModel (model : Int)
  | msgMaxSizeTooSmall (value minimum : Int)
  | invalidNull
  | unexpectedEncryption
  | expectedEncryption
  | invalidIpAddressLength (length : Nat)
  | invalidOpaque
  | lengthTooLong (octets : Nat)
  | integer64TooLong (length : Nat)
  | tlvOverflow
deriving DecidableEq

def Defect.message : Defect → String
  | .unexpectedTag expected actual =>
    s!"expected tag {Text.Hex.tag expected}, got {Text.Hex.tag actual}"
  | .truncatedData => "unexpected end of data"
  | .invalidLength => "invalid length encoding"
  | .indefiniteLength => "indefinite length encoding not supported"
  | .integerOverflow => "integer overflow"
  | .zeroLengthInteger => "zero-length integer"
  | .invalidOidEncoding => "invalid OID encoding"
  | .oidTooLong count max => s!"OID has {count} arcs, exceeds maximum {max}"
  | .unknownPduType tag => s!"unknown PDU type: {Text.Hex.tag tag}"
  | .unknownValueTag tag => s!"unknown value tag: {Text.Hex.tag tag}"
  | .constructedOctetString => "constructed OCTET STRING (0x24) not supported"
  | .invalidMsgFlags => "invalid msgFlags: privacy without authentication"
  | .unknownSecurityModel model => s!"unknown security model: {model}"
  | .msgMaxSizeTooSmall value minimum => s!"msgMaxSize {value} below RFC 3412 minimum {minimum}"
  | .invalidNull => "NULL with non-zero length"
  | .unexpectedEncryption => "expected plaintext scoped PDU"
  | .expectedEncryption => "expected encrypted scoped PDU"
  | .invalidIpAddressLength length => s!"IP address must be 4 bytes, got {length}"
  | .invalidOpaque => "malformed opaque float/double"
  | .lengthTooLong octets => s!"length encoding too long ({octets} octets)"
  | .integer64TooLong length => s!"integer64 too long: {length} bytes"
  | .tlvOverflow => "TLV extends past end of data"

/-- A defect and the position at which it was found. -/
structure Fault where
  offset : Nat
  defect : Defect
deriving DecidableEq

end Snmp.Ber
