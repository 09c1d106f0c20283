/-
  Snmp/Pdu/Encoding.lean
  ======================
  **Protocol data units on the wire.**

  A PDU is a constructed element under the tag of its type.  A version 1 trap is written with
  its header, an empty one if none is given, and is read as a PDU whose three numbers are zero
  together with the header; every other PDU has no header.
-/
import Snmp.Pdu.Basic

namespace Snmp

open Ber

def TrapHeader.blank : TrapHeader := ⟨⟨[]⟩, #v[0, 0, 0, 0], 0, 0, 0⟩

def TrapHeader.push (header : TrapHeader) (w : Writer) : Writer :=
  ((((w.pushUnsigned32 Tag.timeTicks header.timeStamp).pushInteger header.specificTrap).pushInteger
    header.genericTrap).pushIpAddress header.agentAddress).pushOid header.enterprise

def TrapHeader.decode : Decoder TrapHeader := do
  let enterprise ← Decoder.oid
  let agentAddress ← Decoder.ipAddress
  let genericTrap ← Decoder.integer
  let specificTrap ← Decoder.integer
  let timeStamp ← Decoder.timeTicks
  return { enterprise, agentAddress, genericTrap, specificTrap, timeStamp }

namespace Pdu

def pushNumbers (pdu : Pdu) (w : Writer) : Writer :=
  ((w.pushInteger pdu.errorIndex).pushInteger pdu.errorStatus).pushInteger pdu.requestId

def push (pdu : Pdu) (trap : Option TrapHeader) (w : Writer) : Writer :=
  w.pushConstructed pdu.type.tag fun w =>
    let w := Binding.pushList pdu.bindings w
    if pdu.type = .trapV1 then (trap.getD .blank).push w else pdu.pushNumbers w

def decodeTrapBody : Decoder (Pdu × Option TrapHeader) := do
  let header ← TrapHeader.decode
  let bindings ← Binding.decodeList
  return ({ type := .trapV1, requestId := 0, bindings }, some header)

def decodeBody (type : PduType) : Decoder (Pdu × Option TrapHeader) := do
  let requestId ← Decoder.integer
  let errorStatus ← Decoder.integer
  let errorIndex ← Decoder.integer
  let bindings ← Binding.decodeList
  return ({ type, requestId, errorStatus, errorIndex, bindings }, none)

def decode : Decoder (Pdu × Option TrapHeader) := do
  let start ← Decoder.offset
  match ← Decoder.peek? with
  | none => Decoder.fail start .truncatedData
  | some tag =>
    match PduType.ofTag? tag with
    | none => Decoder.fail start (.unknownPduType tag)
    | some type =>
      let content ← Decoder.constructed tag
      Decoder.within content (if type = .trapV1 then decodeTrapBody else decodeBody type)

end Pdu

end Snmp
