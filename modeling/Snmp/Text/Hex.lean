/-
  Snmp/Text/Hex.lean
  ==================
  **Octets as hexadecimal text.**

  Engine identifiers and octet strings without a readable text are shown as two hexadecimal
  digits per octet.  Reading is the converse and accepts digits of either case.
-/
import Snmp.Octets

namespace Snmp.Text.Hex

/-- The hexadecimal digit of a number below sixteen, in lower case. -/
def digit (n : Nat) : Char :=
  if n < 10 then Char.ofNat (48 + n) else Char.ofNat (87 + n)

def ofOctet (octet : UInt8) : List Char :=
  [digit (octet.toNat / 16), digit (octet.toNat % 16)]

def encode (octets : Octets) : String :=
  String.ofList (octets.flatMap ofOctet)

/-- Two upper-case digits after `0x`, the way a tag is named in a message. -/
def tag (octet : UInt8) : String :=
  String.ofList ('0' :: 'x' :: (ofOctet octet).map Char.toUpper)

def value? (c : Char) : Option Nat :=
  if '0' ≤ c ∧ c ≤ '9' then some (c.toNat - 48)
  else if 'a' ≤ c ∧ c ≤ 'f' then some (c.toNat - 87)
  else if 'A' ≤ c ∧ c ≤ 'F' then some (c.toNat - 55)
  else none

def octets? : List Char → Option Octets
  | [] => some []
  | [_] => none
  | first :: second :: rest => do
    let high ← value? first
    let low ← value? second
    return UInt8.ofNat (16 * high + low) :: (← octets? rest)

def decode? (text : String) : Option Octets := octets? text.toList

end Snmp.Text.Hex
