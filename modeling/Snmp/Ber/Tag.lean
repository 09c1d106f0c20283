/-
  Snmp/Ber/Tag.lean
  =================
  **Tag octets.**

  Every tag in use fits in one octet: the universal types, the application types of the
  management protocol and the context-specific tags of exception markers.  The tags of PDUs
  stand with the PDU types.
-/

namespace Snmp.Ber

/-- The identifier octet of an element. -/
abbrev Tag := UInt8

namespace Tag

def integer : Tag := 0x02
def octetString : Tag := 0x04
def null : Tag := 0x05
def objectIdentifier : Tag := 0x06
/-- An OCTET STRING in pieces, which is always refused. -/
def octetStringConstructed : Tag := 0x24
def sequence : Tag := 0x30

def ipAddress : Tag := 0x40
def counter32 : Tag := 0x41
def gauge32 : Tag := 0x42
def timeTicks : Tag := 0x43
def opaqueData : Tag := 0x44
def counter64 : Tag := 0x46

def noSuchObject : Tag := 0x80
def noSuchInstance : Tag := 0x81
def endOfMibView : Tag := 0x82

end Tag

end Snmp.Ber
