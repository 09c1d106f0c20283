/-
  Snmp/Ber/Reader.lean
  ====================
  **Reading elements from octets.**

  A reader holds the octets that are left and the absolute offset of the first of them.  A
  decoder is a step on readers that yields a result or a fault; a step that fails may have
  consumed octets, and the reader it leaves behind says which.  The content of a constructed
  element is read with a reader of its own, which starts at the offset of that content, while
  the outer reader goes on after the element (`constructed`, `within`).

  The offset only ever advances over octets that are dropped, so the octets left are always
  those of the given data from that offset on.
-/
import Snmp.Oid.Content
import Snmp.Ber.Tag
import Snmp.Ber.Length
import Snmp.Ber.Integer

namespace Snmp.Ber

/-- The octets that are left to read and where they begin. -/
structure Reader where
  offset : Nat
  rest : Octets

namespace Reader

/-- A reader over `data` whose first octet has the offset `base`. -/
def ofOctets (data : Octets) (base : Nat := 0) : Reader := ⟨base, data⟩

def remaining (r : Reader) : Nat := r.rest.length

def isEmpty (r : Reader) : Bool := r.rest.isEmpty

/-- The next octet, which stays unread. -/
def peek? (r : Reader) : Option UInt8 := r.rest.head?

/-- The reader after `count` more octets. -/
def advance (r : Reader) (count : Nat) : Reader := ⟨r.offset + count, r.rest.drop count⟩

end Reader

/-- A step that reads from a reader. -/
abbrev Decoder (α : Type) := EStateM Fault Reader α

namespace Decoder

/-- Applies a decoder to all of `data` and drops the reader it leaves. -/
def runOn (decoder : Decoder α) (data : Octets) (base : Nat := 0) : Except Fault α :=
  match decoder.run (.ofOctets data base) with
  | .ok result _ => .ok result
  | .error fault _ => .error fault

/-! ### Raw steps -/

def offset : Decoder Nat := do return (← get).offset

def fail (offset : Nat) (defect : Defect) : Decoder α := throw ⟨offset, defect⟩

/-- The next octet, which stays unread. -/
def peek? : Decoder (Option UInt8) := do return (← get).peek?

def tag : Decoder Tag := fun r =>
  match r.rest with
  | [] => .error ⟨r.offset, .truncatedData⟩ r
  | octet :: _ => .ok octet (r.advance 1)

/-- Reads length octets; the content they announce must be present.  Length octets that cannot
    be read stay unread, those of a content that is too long are consumed. -/
def length : Decoder Nat := fun r =>
  match Length.decode r.rest with
  | .error defect => .error ⟨r.offset, defect⟩ r
  | .ok (length, used) =>
    let after := r.advance used
    if Octets.covers length after.rest then .ok length after
    else .error ⟨r.offset, .tlvOverflow⟩ after

def octets (count : Nat) : Decoder Octets := fun r =>
  if Octets.covers count r.rest then .ok (r.rest.take count) (r.advance count)
  else .error ⟨r.offset, .truncatedData⟩ r

/-- Reads a tag that must be the expected one; it is consumed either way. -/
def expect (expected : Tag) : Decoder Unit := do
  let start ← offset
  let actual ← tag
  unless actual = expected do fail start (.unexpectedTag expected actual)

/-! ### Constructed elements -/

/-- Reads a constructed element and yields a reader of its content. -/
def constructed (expected : Tag) : Decoder Reader := do
  expect expected
  let count ← length
  let start ← offset
  return ⟨start, ← octets count⟩

/-- Applies a decoder to the content of an element that was read; what it leaves unread is
    ignored. -/
def within (content : Reader) (decoder : Decoder α) : Decoder α := fun r =>
  match decoder content with
  | .ok result _ => .ok result r
  | .error fault _ => .error fault r

def sequence (decoder : Decoder α) : Decoder α := do
  within (← constructed Tag.sequence) decoder

/-! ### Integers -/

/-- Reads a content of `count` octets, one at least, and the number it denotes.  A content that
    denotes none, being too long or out of range, is an overflow. -/
def number (denoted? : Octets → Option α) (count : Nat) : Decoder α := do
  let start ← offset
  if count = 0 then fail start .zeroLengthInteger
  match denoted? (← octets count) with
  | some value => return value
  | none => fail start .integerOverflow

/-- Reads the content of a signed 32-bit integer. -/
def integerContent (count : Nat) : Decoder Int32 := number Integer.toInt32? count

/-- Reads the content of an unsigned integer, at most `maxCount` octets.  The top bit is part of
    the number, whether or not a zero octet comes before it. -/
def unsignedContent (maxCount count : Nat) : Decoder UInt64 :=
  number (Integer.toWord? maxCount) count

def unsigned32Content (count : Nat) : Decoder UInt32 := do
  let start ← offset
  let value ← unsignedContent 5 count
  if value ≤ 0xFFFFFFFF then return value.toUInt32 else fail start .integerOverflow

/-- Reads the content of an unsigned 64-bit integer; more than nine octets are refused
    unread. -/
def unsigned64Content (count : Nat) : Decoder UInt64 := do
  let start ← offset
  if 9 < count then fail start (.integer64TooLong count)
  unsignedContent 9 count

def integer : Decoder Int32 := do
  expect Tag.integer
  integerContent (← length)

def timeTicks : Decoder UInt32 := do
  expect Tag.timeTicks
  unsigned32Content (← length)

/-! ### Other primitive elements -/

def octetStringAt : Decoder (Nat × Octets) := do
  let start ← offset
  let actual ← tag
  if actual = Tag.octetStringConstructed then fail start .constructedOctetString
  unless actual = Tag.octetString do fail start (.unexpectedTag Tag.octetString actual)
  let count ← length
  let position ← offset
  return (position, ← octets count)

def octetString : Decoder Octets := do return (← octetStringAt).2

/-- Reads a NULL; content is refused at the beginning of the element. -/
def null : Decoder Unit := do
  let start ← offset
  expect Tag.null
  unless (← length) = 0 do fail start .invalidNull

def oidContent (count : Nat) : Decoder Oid := do
  let start ← offset
  match Oid.ofContent (← octets count) with
  | .ok oid => return oid
  | .error defect => fail start defect

def oid : Decoder Oid := do
  expect Tag.objectIdentifier
  oidContent (← length)

/-- Reads the content of an IpAddress whose element began at `start`. -/
def ipAddressContent (start count : Nat) : Decoder (Vector UInt8 4) := do
  unless count = 4 do fail start (.invalidIpAddressLength count)
  match ← octets 4 with
  | [a, b, c, d] => return #v[a, b, c, d]
  | _ => fail start (.invalidIpAddressLength count)

def ipAddress : Decoder (Vector UInt8 4) := do
  let start ← offset
  expect Tag.ipAddress
  ipAddressContent start (← length)

end Decoder

end Snmp.Ber
