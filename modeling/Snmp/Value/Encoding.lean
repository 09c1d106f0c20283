/-
  Snmp/Value/Encoding.lean
  ========================
  **Values on the wire.**

  Each type has a tag of its own, except that floating-point numbers travel inside Opaque
  content: a three-octet mark and then the bits.  Opaque content that begins with a mark but
  has the wrong length is refused.  Exception markers are written without content; content
  that a peer puts there is skipped.
-/
import Snmp.Value.Basic
import Snmp.Ber.Reader
import Snmp.Ber.Writer

namespace Snmp.Value

open Ber

/-- The mark of Opaque content that is a 32-bit floating-point number. -/
def floatMark : Octets := [0x9F, 0x78, 0x04]

/-- The mark of Opaque content that is a 64-bit floating-point number. -/
def doubleMark : Octets := [0x9F, 0x79, 0x08]

def push (value : Value) (w : Writer) : Writer :=
  match value with
  | .integer v => w.pushInteger v
  | .octetString content => w.pushOctetString content
  | .null => w.pushNull
  | .objectIdentifier oid => w.pushOid oid
  | .ipAddress address => w.pushIpAddress address
  | .counter32 v => w.pushUnsigned32 Tag.counter32 v
  | .gauge32 v => w.pushUnsigned32 Tag.gauge32 v
  | .timeTicks v => w.pushUnsigned32 Tag.timeTicks v
  | .opaqueData content => w.pushPrimitive Tag.opaqueData content
  | .counter64 v => w.pushUnsigned64 v
  | .float bits => w.pushPrimitive Tag.opaqueData (floatMark ++ Octets.ofWord32 bits)
  | .double bits => w.pushPrimitive Tag.opaqueData (doubleMark ++ Octets.ofWord64 bits)
  | .noSuchObject => w.pushPrimitive Tag.noSuchObject []
  | .noSuchInstance => w.pushPrimitive Tag.noSuchInstance []
  | .endOfMibView => w.pushPrimitive Tag.endOfMibView []

def encode (value : Value) : Octets := (value.push .empty).octets

/-- The value that Opaque content stands for, if its mark and its length agree. -/
def ofOpaqueContent? (content : Octets) : Option Value :=
  let marked := content.take 3
  let bits := content.drop 3
  if marked = floatMark then
    if bits.length = 4 then some (.float (Octets.toWord32 bits)) else none
  else if marked = doubleMark then
    if bits.length = 8 then some (.double (Octets.toWord64 bits)) else none
  else some (.opaqueData content)

def decodeContent (start : Nat) (tag : Tag) (count : Nat) : Decoder Value := do
  if tag = Tag.integer then
    return .integer (← Decoder.integerContent count)
  else if tag = Tag.octetString then
    return .octetString (← Decoder.octets count)
  else if tag = Tag.octetStringConstructed then
    Decoder.fail start .constructedOctetString
  else if tag = Tag.null then
    if count = 0 then return .null else Decoder.fail start .invalidNull
  else if tag = Tag.objectIdentifier then
    return .objectIdentifier (← Decoder.oidContent count)
  else if tag = Tag.ipAddress then
    return .ipAddress (← Decoder.ipAddressContent start count)
  else if tag = Tag.counter32 then
    return .counter32 (← Decoder.unsigned32Content count)
  else if tag = Tag.gauge32 then
    return .gauge32 (← Decoder.unsigned32Content count)
  else if tag = Tag.timeTicks then
    return .timeTicks (← Decoder.unsigned32Content count)
  else if tag = Tag.opaqueData then
    match ofOpaqueContent? (← Decoder.octets count) with
    | some value => return value
    | none => Decoder.fail start .invalidOpaque
  else if tag = Tag.counter64 then
    return .counter64 (← Decoder.unsigned64Content count)
  else if tag = Tag.noSuchObject then
    let _ ← Decoder.octets count
    return .noSuchObject
  else if tag = Tag.noSuchInstance then
    let _ ← Decoder.octets count
    return .noSuchInstance
  else if tag = Tag.endOfMibView then
    let _ ← Decoder.octets count
    return .endOfMibView
  else
    Decoder.fail start (.unknownValueTag tag)

def decode : Decoder Value := do
  let start ← Decoder.offset
  let tag ← Decoder.tag
  decodeContent start tag (← Decoder.length)

end Snmp.Value
