/-
  Snmp/Text/Quoted.lean
  =====================
  **Quoted forms for diagnostics.**

  A diagnostic shows octets and names between double quotes, on one line.  `octets` writes
  printable ASCII as it is, six characters by a short escape and every other octet as `\x`
  and two digits.  `text` keeps every character that can be shown on its own and escapes the
  quote, the backslash and what is hidden.
-/
import Snmp.Text.Hex
import Snmp.Text.Hidden

namespace Snmp.Text.Quoted

def shortEscape? (code : Nat) : Option (List Char) :=
  match code with
  | 0 => some ['\\', '0']
  | 9 => some ['\\', 't']
  | 10 => some ['\\', 'n']
  | 13 => some ['\\', 'r']
  | 34 => some ['\\', '"']
  | 92 => some ['\\', '\\']
  | _ => none

def octet (value : UInt8) : List Char :=
  match shortEscape? value.toNat with
  | some escape => escape
  | none =>
    if 0x20 ≤ value ∧ value ≤ 0x7e then [Char.ofNat value.toNat]
    else '\\' :: 'x' :: Hex.ofOctet value

def octets (values : Octets) : String :=
  String.ofList (['b', '"'] ++ values.flatMap octet ++ ['"'])

def char (c : Char) : List Char :=
  match shortEscape? c.toNat with
  | some escape => escape
  | none =>
    if isHidden c then ['\\', 'u', '\x7b'] ++ Nat.toDigits 16 c.toNat ++ ['\x7d'] else [c]

def text (s : String) : String :=
  String.ofList (['"'] ++ s.toList.flatMap char ++ ['"'])

end Snmp.Text.Quoted
