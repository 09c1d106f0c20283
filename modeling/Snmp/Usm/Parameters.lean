/-
  Snmp/Usm/Parameters.lean
  ========================
  **The security parameters of a message.**

  The parameters name the engine, its boots and time, and the user, and hold the message
  authentication code and the salt.  Boots and time are 31-bit numbers on the wire: greater
  ones are written as the greatest, negative ones are read as zero.
-/
import Snmp.Ber.Reader
import Snmp.Ber.Writer
import Snmp.Text.Utf8

namespace Snmp.Usm

open Ber

/-- The content of the msgSecurityParameters of a message. -/
structure Parameters where
  engineId : Octets := []
  engineBoots : UInt32 := 0
  engineTime : UInt32 := 0
  userName : Octets := []
  authParams : Octets := []
  privParams : Octets := []
deriving DecidableEq, Inhabited

namespace Parameters

/-- The greatest number of boots or seconds on the wire. -/
def maxCount : UInt32 := 0x7fffffff

/-- A number of boots or seconds as it is written. -/
def wireCount (count : UInt32) : Int32 := Int32.ofNat (min count.toNat maxCount.toNat)

/-- A number of boots or seconds as it is read. -/
def ofWireCount (count : Int32) : UInt32 := UInt32.ofNat count.toInt.toNat

def userNameText (p : Parameters) : String := Text.Utf8.decodeLossy p.userName

/-- The encoded parameters, to be wrapped in an OCTET STRING. -/
def encode (p : Parameters) : Octets :=
  let w := Writer.empty.pushSequence fun w =>
    (((((w.pushOctetString p.privParams).pushOctetString p.authParams).pushOctetString
      p.userName).pushInteger (wireCount p.engineTime)).pushInteger
      (wireCount p.engineBoots)).pushOctetString p.engineId
  w.octets

/-- Reads parameters and the offset of the message authentication code. -/
def decoder : Decoder (Parameters × Nat) :=
  Decoder.sequence do
    let engineId ← Decoder.octetString
    let boots ← Decoder.integer
    let time ← Decoder.integer
    let userName ← Decoder.octetString
    let (authOffset, authParams) ← Decoder.octetStringAt
    let privParams ← Decoder.octetString
    let engineBoots := ofWireCount boots
    let engineTime := ofWireCount time
    return ({ engineId, engineBoots, engineTime, userName, authParams, privParams }, authOffset)

/-- Reads parameters that begin at offset `base`, and the offset of the authentication code. -/
def decodeAt (octets : Octets) (base : Nat) : Except Fault (Parameters × Nat) :=
  decoder.runOn octets base

def decode (octets : Octets) : Except Fault Parameters := (decodeAt octets 0).map (·.1)

end Parameters

end Snmp.Usm
