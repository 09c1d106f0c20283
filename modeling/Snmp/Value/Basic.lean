/-
  Snmp/Value/Basic.lean
  =====================
  **Values of variable bindings.**

  A binding carries one of twelve types of data or one of three exception markers.  The types
  are what a variable may declare; markers have no type and stand in a response for data that
  does not exist.  Floating-point numbers are kept as their bit patterns, so that every pattern
  keeps its identity.
-/
import Snmp.Octets
import Snmp.Oid.Basic

namespace Snmp

/-- The value of a binding. -/
inductive Value where
  | integer (value : Int32)
  | octetString (content : Octets)
  | null
  | objectIdentifier (oid : Oid)
  | ipAddress (address : Vector UInt8 4)
  | counter32 (value : UInt32)
  | gauge32 (value : UInt32)
  /-- Hundredths of a second. -/
  | timeTicks (value : UInt32)
  | opaqueData (content : Octets)
  | counter64 (value : UInt64)
  | float (bits : UInt32)
  | double (bits : UInt64)
  | noSuchObject
  | noSuchInstance
  | endOfMibView
deriving DecidableEq, Inhabited

/-- The declared type of a variable. -/
inductive ValueType where
  | integer
  | octetString
  | null
  | objectIdentifier
  | ipAddress
  | counter32
  | gauge32
  | timeTicks
  | opaqueData
  | counter64
  | float
  | double
deriving DecidableEq, Inhabited

def ValueType.all : List ValueType :=
  [.integer, .octetString, .null, .objectIdentifier, .ipAddress, .counter32, .gauge32,
    .timeTicks, .opaqueData, .counter64, .float, .double]

def ValueType.identifier : ValueType → String
  | .integer => "Integer"
  | .octetString => "OctetString"
  | .null => "Null"
  | .objectIdentifier => "ObjectIdentifier"
  | .ipAddress => "IpAddress"
  | .counter32 => "Counter32"
  | .gauge32 => "Gauge32"
  | .timeTicks => "TimeTicks"
  | .opaqueData => "Opaque"
  | .counter64 => "Counter64"
  | .float => "OpaqueFloat"
  | .double => "OpaqueDouble"

def ValueType.name : ValueType → String
  | .integer => "INTEGER"
  | .octetString => "OCTET STRING"
  | .null => "NULL"
  | .objectIdentifier => "OBJECT IDENTIFIER"
  | .ipAddress => "IpAddress"
  | .counter32 => "Counter32"
  | .gauge32 => "Gauge32"
  | .timeTicks => "TimeTicks"
  | .opaqueData => "Opaque"
  | .counter64 => "Counter64"
  | .float => "Opaque Float"
  | .double => "Opaque Double"

instance : ToString ValueType := ⟨ValueType.name⟩

namespace Value

/-- The type that a value satisfies; exception markers satisfy none. -/
def type? : Value → Option ValueType
  | .integer _ => some .integer
  | .octetString _ => some .octetString
  | .null => some .null
  | .objectIdentifier _ => some .objectIdentifier
  | .ipAddress _ => some .ipAddress
  | .counter32 _ => some .counter32
  | .gauge32 _ => some .gauge32
  | .timeTicks _ => some .timeTicks
  | .opaqueData _ => some .opaqueData
  | .counter64 _ => some .counter64
  | .float _ => some .float
  | .double _ => some .double
  | .noSuchObject | .noSuchInstance | .endOfMibView => none

def isException (value : Value) : Bool := value.type?.isNone

def octets? : Value → Option Octets
  | .octetString content => some content
  | .opaqueData content => some content
  | _ => none

end Value

end Snmp
