/-
  Snmp/Ber/Integer.lean
  =====================
  **Contents of integers.**

  The content of an integer is its two's complement, first octet on top.  A word is written by
  its octets without those at the front that only repeat the sign (`dropFill`); an unsigned word
  gets a zero octet in front of it first, so that its top bit does not count as a sign.

  Reading shifts the octets into a word of 64 bits.  A signed number starts from a word that is
  filled with its sign, so that octets which repeat the sign do no harm (`toInt32?`).  The zero
  octets before an unsigned number are taken away first (`toWord?`).
-/
import Snmp.Octets

namespace Snmp.Ber.Integer

/-! ### Writing -/

/-- Drops octets at the front that are all sign, as long as the octet behind has the same sign.
    The last octet always stays. -/
def dropFill (fill : UInt8) : Octets → Octets
  | first :: second :: rest =>
    if first = fill ∧ second &&& 0x80 = fill &&& 0x80 then dropFill fill (second :: rest)
    else first :: second :: rest
  | octets => octets

def ofInt32 (value : Int32) : Octets :=
  dropFill (if 0 ≤ value then 0x00 else 0xFF) (Octets.ofWord32 value.toUInt32)

def ofUInt32 (value : UInt32) : Octets := dropFill 0x00 (0x00 :: Octets.ofWord32 value)

def ofUInt64 (value : UInt64) : Octets := dropFill 0x00 (0x00 :: Octets.ofWord64 value)

/-! ### Reading -/

/-- Shifts octets into a word from below, `index` octets being in it already.  The ninth octet
    is one too many. -/
def shiftIn (value : Int64) (index : Nat) : Octets → Option Int64
  | [] => some value
  | octet :: rest =>
    let shifted := value <<< 8 ||| octet.toUInt64.toInt64
    if 8 ≤ index then none else shiftIn shifted (index + 1) rest

/-- A word filled with the sign of a content. -/
def signWord (content : Octets) : Int64 := if content.headD 0 &&& 0x80 = 0 then 0 else -1

/-- The signed 32-bit integer that a content denotes, if it is in the range of the type.  The
    sign may be repeated at the front up to a length of eight octets. -/
def toInt32? (content : Octets) : Option Int32 :=
  match shiftIn (signWord content) 0 content with
  | none => none
  | some value =>
    if Int32.minValue.toInt64 ≤ value ∧ value ≤ Int32.maxValue.toInt64 then some value.toInt32
    else none

/-- A content without the zero octets at its front; the last octet always stays. -/
def significant (content : Octets) : Octets :=
  content.drop (min (content.takeWhile (· = 0)).length (content.length - 1))

/-- The number that a content of at most `maxCount` octets denotes without a sign, if it is
    below 2^64. -/
def toWord? (maxCount : Nat) (content : Octets) : Option UInt64 :=
  let digits := significant content
  if maxCount < content.length ∨ 8 < digits.length then none else some (Octets.toWord64 digits)

end Snmp.Ber.Integer
