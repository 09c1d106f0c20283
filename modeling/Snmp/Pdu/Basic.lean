/-
  Snmp/Pdu/Basic.lean
  ===================
  **Protocol data units.**

  Every operation has the shape of a request id, two numbers and a list of bindings.  The two
  numbers are the error status and the error index, and in a GetBulk request the count of
  non-repeaters and the number of repetitions.  The trap of version 1 has a header of its own
  in the place of the three numbers.
-/
import Snmp.Binding.Basic
import Snmp.Pdu.Status

namespace Snmp

/-- The operation that a PDU asks for or answers. -/
inductive PduType where
  | getRequest
  | getNextRequest
  | response
  | setRequest
  | trapV1
  | getBulkRequest
  | informRequest
  | trapV2
  | report
deriving DecidableEq, Inhabited

namespace PduType

def tag : PduType → Ber.Tag
  | .getRequest => 0xA0
  | .getNextRequest => 0xA1
  | .response => 0xA2
  | .setRequest => 0xA3
  | .trapV1 => 0xA4
  | .getBulkRequest => 0xA5
  | .informRequest => 0xA6
  | .trapV2 => 0xA7
  | .report => 0xA8

def all : List PduType :=
  [.getRequest, .getNextRequest, .response, .setRequest, .trapV1, .getBulkRequest,
    .informRequest, .trapV2, .report]

def ofTag? (tag : Ber.Tag) : Option PduType := all.find? (·.tag = tag)

def identifier : PduType → String
  | .getRequest => "GetRequest"
  | .getNextRequest => "GetNextRequest"
  | .response => "Response"
  | .setRequest => "SetRequest"
  | .trapV1 => "TrapV1"
  | .getBulkRequest => "GetBulkRequest"
  | .informRequest => "InformRequest"
  | .trapV2 => "TrapV2"
  | .report => "Report"

def name : PduType → String
  | .trapV1 => "Trap"
  | .trapV2 => "SNMPv2-Trap"
  | type => type.identifier

instance : ToString PduType := ⟨name⟩

def isNotification (type : PduType) : Bool :=
  type = .trapV1 || type = .trapV2 || type = .informRequest

def isTrap (type : PduType) : Bool := type = .trapV1 || type = .trapV2

end PduType

/-- A protocol data unit. -/
structure Pdu where
  type : PduType
  requestId : Int32
  /-- The error status, or the non-repeaters of a GetBulk request. -/
  errorStatus : Int32 := 0
  /-- The error index, or the max-repetitions of a GetBulk request. -/
  errorIndex : Int32 := 0
  bindings : List Binding
deriving DecidableEq, Inhabited

/-- The header of a version 1 trap. -/
structure TrapHeader where
  enterprise : Oid
  agentAddress : Vector UInt8 4
  genericTrap : Int32
  specificTrap : Int32
  timeStamp : UInt32
deriving DecidableEq, Inhabited

namespace Pdu

def getBulk (requestId nonRepeaters maxRepetitions : Int32) (bindings : List Binding) : Pdu :=
  ⟨.getBulkRequest, requestId, nonRepeaters, maxRepetitions, bindings⟩

def toResponse (request : Pdu) (bindings : List Binding) : Pdu :=
  { type := .response, requestId := request.requestId, bindings }

/-- The count of non-repeaters; a negative number counts as none. -/
def nonRepeaters (pdu : Pdu) : Nat := pdu.errorStatus.toInt.toNat

def maxRepetitions (pdu : Pdu) : Nat := pdu.errorIndex.toInt.toNat

def status (pdu : Pdu) : ErrorStatus := .ofCode pdu.errorStatus

def withError (pdu : Pdu) (status : ErrorStatus) (index : Int32) : Pdu :=
  { pdu with errorStatus := status.code, errorIndex := index }

end Pdu

end Snmp
