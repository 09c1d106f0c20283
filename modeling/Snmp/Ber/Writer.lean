/-
  Snmp/Ber/Writer.lean
  ====================
  **Writing elements from back to front.**

  A definite length comes before the content it measures, so a message is written backwards:
  the octet that is last in the message is the first in the buffer.  Each push appends octets in
  reverse, and a constructed element is closed by pushing its length and tag after its body,
  the length being how much the buffer has grown (`pushConstructed`).  No content is copied or
  measured twice; the buffer is turned around once, when the message is finished (`octets`).
-/
import Snmp.Oid.Content
import Snmp.Ber.Tag
import Snmp.Ber.Length
import Snmp.Ber.Integer

namespace Snmp.Ber

/-- A buffer with the octets written so far, the last octet of the message first. -/
structure Writer where
  buffer : Array UInt8

namespace Writer

def empty : Writer := ⟨#[]⟩

/-- The number of octets written so far. -/
def size (w : Writer) : Nat := w.buffer.size

def isEmpty (w : Writer) : Bool := w.buffer.isEmpty

-- irreducible, since a unifier that looks for a first octet would run all of the pushes
/-- The finished message. -/
@[irreducible] def octets (w : Writer) : Octets := w.buffer.toList.reverse

/-- Puts octets in front of the message, in their order. -/
def pushOctets (octets : Octets) (w : Writer) : Writer := ⟨w.buffer ++ octets.reverse⟩

def pushTag (tag : Tag) (w : Writer) : Writer := ⟨w.buffer.push tag⟩

def pushLength (length : Nat) (w : Writer) : Writer := ⟨w.buffer ++ Length.pushed length⟩

def pushPrimitive (tag : Tag) (content : Octets) (w : Writer) : Writer :=
  ((w.pushOctets content).pushLength content.length).pushTag tag

def pushConstructed (tag : Tag) (body : Writer → Writer) (w : Writer) : Writer :=
  -- measured first, so that nothing holds the buffer while the body is pushed
  let before := w.size
  let inner := body w
  (inner.pushLength (inner.size - before)).pushTag tag

def pushSequence (body : Writer → Writer) (w : Writer) : Writer :=
  w.pushConstructed Tag.sequence body

def pushInteger (value : Int32) (w : Writer) : Writer :=
  w.pushPrimitive Tag.integer (Integer.ofInt32 value)

/-- Puts an unsigned 32-bit integer in front, under the tag of its type. -/
def pushUnsigned32 (tag : Tag) (value : UInt32) (w : Writer) : Writer :=
  w.pushPrimitive tag (Integer.ofUInt32 value)

def pushUnsigned64 (value : UInt64) (w : Writer) : Writer :=
  w.pushPrimitive Tag.counter64 (Integer.ofUInt64 value)

def pushOctetString (content : Octets) (w : Writer) : Writer :=
  w.pushPrimitive Tag.octetString content

def pushNull (w : Writer) : Writer := w.pushPrimitive Tag.null []

def pushOid (oid : Oid) (w : Writer) : Writer :=
  w.pushPrimitive Tag.objectIdentifier oid.content

def pushIpAddress (address : Vector UInt8 4) (w : Writer) : Writer :=
  w.pushPrimitive Tag.ipAddress address.toList

end Writer

end Snmp.Ber
