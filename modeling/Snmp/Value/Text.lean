/-
  Snmp/Value/Text.lean
  ====================
  **Values as text.**

  `describe` is the form for a reader: octets that are well-formed text without control
  characters, line breaks and the like apart, appear between quotes, all others in hexadecimal.
  `diagnose` is the form for a diagnostic, which names the type of the value and quotes every
  octet; it reaches a manager when a variable yields a value of the wrong type.
-/
import Snmp.Value.Basic
import Snmp.Text.Quoted
import Snmp.Text.Utf8
import Snmp.Decimal.Notation

namespace Snmp.Value

def ofText (text : String) : Value := .octetString (Text.Utf8.encode text)

/-- Control characters that a text may hold: those that only move the position. -/
def isLayout (c : Char) : Bool :=
  let n := c.toNat
  (9 ≤ n && n ≤ 13) || n = 0x85

def isShown (c : Char) : Bool :=
  let n := c.toNat
  let isControl := n < 0x20 || (0x7f ≤ n && n < 0xa0)
  !isControl || isLayout c

def hexText (content : Octets) : String := "0x" ++ Text.Hex.encode content

/-- Octets as quoted text where they can be shown, in hexadecimal where not. -/
def octetText (content : Octets) : String :=
  match Text.Utf8.decode? content with
  | some text =>
    if text.all isShown then String.ofList (['"'] ++ text ++ ['"']) else hexText content
  | none => hexText content

def addressText (address : Vector UInt8 4) : String :=
  ".".intercalate (address.toList.map fun octet => toString octet.toNat)

def describe : Value → String
  | .integer v => toString v.toInt
  | .octetString content => octetText content
  | .null => "NULL"
  | .objectIdentifier oid => oid.dotted
  | .ipAddress address => addressText address
  | .counter32 v => s!"Counter32: {v.toNat}"
  | .gauge32 v => s!"Gauge32: {v.toNat}"
  | .timeTicks v => s!"Timeticks: ({v.toNat})"
  | .opaqueData content => "Opaque: " ++ hexText content
  | .counter64 v => s!"Counter64: {v.toNat}"
  | .float bits => "Opaque: Float: " ++ Decimal.Format.single.plain bits.toNat
  | .double bits => "Opaque: Double: " ++ Decimal.Format.double.plain bits.toNat
  | .noSuchObject => "noSuchObject"
  | .noSuchInstance => "noSuchInstance"
  | .endOfMibView => "endOfMibView"

instance : ToString Value := ⟨describe⟩

def diagnose : Value → String
  | .integer v => s!"Integer({v.toInt})"
  | .octetString content => s!"OctetString({Text.Quoted.octets content})"
  | .null => "Null"
  | .objectIdentifier oid => s!"ObjectIdentifier(Oid({oid.dotted}))"
  | .ipAddress address =>
    let octets := ", ".intercalate (address.toList.map fun octet => toString octet.toNat)
    s!"IpAddress([{octets}])"
  | .counter32 v => s!"Counter32({v.toNat})"
  | .gauge32 v => s!"Gauge32({v.toNat})"
  | .timeTicks v => s!"TimeTicks({v.toNat})"
  | .opaqueData content => s!"Opaque({Text.Quoted.octets content})"
  | .counter64 v => s!"Counter64({v.toNat})"
  | .float bits => s!"OpaqueFloat({Decimal.Format.single.exact bits.toNat})"
  | .double bits => s!"OpaqueDouble({Decimal.Format.double.exact bits.toNat})"
  | .noSuchObject => "NoSuchObject"
  | .noSuchInstance => "NoSuchInstance"
  | .endOfMibView => "EndOfMibView"

end Snmp.Value
