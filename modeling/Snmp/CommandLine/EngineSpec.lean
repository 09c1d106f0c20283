/-
  Snmp/CommandLine/EngineSpec.lean
  ================================
  **Engine identifiers as they are written in arguments.**

  An engine identifier is written as pairs of hexadecimal digits, perhaps after `0x`.  Each
  pair is read as a number of its own, which may have a plus in the place of its first digit.
-/
import Snmp.Usm.EngineId

namespace Snmp.CommandLine.EngineSpec

/-- What is wrong with a written engine identifier. -/
inductive Defect where
  | notHex (text : String)
  | oddLength (text : String)
deriving DecidableEq

def Defect.message : Defect → String
  | .notHex text => s!"invalid engine id '{text}': not hex"
  | .oddLength text => s!"invalid engine id '{text}': expected an even number of hex digits"

def withoutMark : List Char → List Char
  | '0' :: 'x' :: rest => rest
  | chars => chars

def octet? (first second : Char) : Option UInt8 :=
  if first = '+' then (Text.Hex.value? second).map UInt8.ofNat
  else do
    let high ← Text.Hex.value? first
    let low ← Text.Hex.value? second
    return UInt8.ofNat (16 * high + low)

def octets? : List Char → Option Octets
  | [] => some []
  | [_] => none
  | first :: second :: rest => do
    let octet ← octet? first second
    return octet :: (← octets? rest)

def parse (text : String) : Except Defect Usm.EngineId :=
  let digits := withoutMark text.toList
  if !digits.all (·.toNat < 128) then .error (.notHex text)
  else if digits.isEmpty || digits.length % 2 ≠ 0 then .error (.oddLength text)
  else match octets? digits with
    | some octets => .ok (.ofOctets octets)
    | none => .error (.notHex text)

end Snmp.CommandLine.EngineSpec
