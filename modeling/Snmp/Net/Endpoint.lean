/-
  Snmp/Net/Endpoint.lean
  ======================
  **Where datagrams come from.**

  An endpoint is an internet address and a port.  Addresses of version 4 are written as four
  decimal octets, addresses of version 6 as groups in hexadecimal of which the longest run of
  zeros, if it has at least two, is left out.  An address of version 6 may belong to a numbered
  zone, whose number follows a percent sign; the zone 0 stands for none and is not written.
-/
import Snmp.Text.Fields
import Snmp.Text.Hex

namespace Snmp.Net

/-- An internet address. -/
inductive Address where
  | v4 (octets : Vector UInt8 4)
  | v6 (groups : Vector UInt16 8) (zone : UInt32)
deriving DecidableEq, Inhabited

/-- An address and a port. -/
structure Endpoint where
  address : Address
  port : UInt16
deriving DecidableEq, Inhabited

namespace Address

def isLoopback : Address → Bool
  | .v4 octets => octets.toList.head? = some 127
  | .v6 groups _ => groups.toList = [0, 0, 0, 0, 0, 0, 0, 1]

/-! ### Writing -/

def dottedText (octets : List UInt8) : String :=
  ".".intercalate (octets.map fun octet => toString octet.toNat)

def groupText (group : UInt16) : String := String.ofList (Nat.toDigits 16 group.toNat)

def groupsText (groups : List UInt16) : String := ":".intercalate (groups.map groupText)

def zeroRun (groups : List UInt16) : Nat := (groups.takeWhile (· == 0)).length

/-- The place and the length of the longest run of zeros, the first one of several. -/
def longestRun : (position : Nat) → List UInt16 → Nat × Nat
  | _, [] => (0, 0)
  | position, group :: rest =>
    let here := zeroRun (group :: rest)
    let later := longestRun (position + 1) rest
    if later.2 ≤ here then (position, here) else later

/-- The text of an address of version 6 without its zone.  The last two groups of an address
    that stands for one of version 4 are written as that one is. -/
def v6Text (groups : List UInt16) : String :=
  match groups with
  | [0, 0, 0, 0, 0, 0xffff, high, low] =>
    let octets (group : UInt16) : List UInt8 := [(group >>> 8).toUInt8, group.toUInt8]
    "::ffff:" ++ dottedText (octets high ++ octets low)
  | groups =>
    let (place, length) := longestRun 0 groups
    if 2 ≤ length then
      groupsText (groups.take place) ++ "::" ++ groupsText (groups.drop (place + length))
    else groupsText groups

def zoneText (zone : UInt32) : String := if zone = 0 then "" else s!"%{zone.toNat}"

def text : Address → String
  | .v4 octets => dottedText octets.toList
  | .v6 groups zone => v6Text groups.toList ++ zoneText zone

/-! ### Reading -/

/-- A numeral without a leading zero that denotes a number up to `max`. -/
def decimal? (max : Nat) (text : List Char) : Option Nat := do
  let n ← Text.numeral? text
  if n ≤ max ∧ (text.length = 1 ∨ text.head? ≠ some '0') then some n else none

def octets? (text : List Char) : Option (List UInt8) := do
  let octets ← (Text.fields '.' text).mapM (decimal? 255)
  if octets.length = 4 then some (octets.map UInt8.ofNat) else none

def group? (text : List Char) : Option UInt16 := do
  let digits ← text.mapM Text.Hex.value?
  if 1 ≤ digits.length ∧ digits.length ≤ 4 then
    some (UInt16.ofNat (digits.foldl (fun n digit => n * 16 + digit) 0))
  else none

def groups? (text : List Char) : Option (List UInt16) :=
  match text with
  | [] => some []
  | _ => (Text.fields ':' text).mapM group?

/-- Groups that end an address, the last two perhaps as four decimal octets. -/
def lastGroups? (text : List Char) : Option (List UInt16) :=
  let fields := Text.fields ':' text
  match fields.getLast?.bind octets? with
  | some [a, b, c, d] => do
    let groups ← fields.dropLast.mapM group?
    some (groups ++ [a.toUInt16 <<< 8 ||| b.toUInt16, c.toUInt16 <<< 8 ||| d.toUInt16])
  | _ => groups? text

def splitGap : List Char → Option (List Char × List Char)
  | ':' :: ':' :: rest => some ([], rest)
  | c :: rest => (splitGap rest).map fun (before, behind) => (c :: before, behind)
  | [] => none

def v6? (text : List Char) : Option (List UInt16) :=
  match splitGap text with
  | none => lastGroups? text
  | some (before, behind) => do
    let before ← groups? before
    let behind ← lastGroups? behind
    if before.length + behind.length < 8 then
      some (before ++ List.replicate (8 - before.length - behind.length) 0 ++ behind)
    else none

/-- The zone that a text names: none, or the numeral after a percent sign. -/
def zone? : List Char → Option UInt32
  | [] => some 0
  | _ :: numeral => Text.word32? numeral

end Address

namespace Endpoint

def text (e : Endpoint) : String :=
  match e.address with
  | .v4 _ => s!"{e.address.text}:{e.port.toNat}"
  | .v6 _ _ => s!"[{e.address.text}]:{e.port.toNat}"

instance : ToString Endpoint := ⟨text⟩

def port? (text : List Char) : Option UInt16 := do
  let n ← Text.numeral? text
  if n < UInt16.size then some (UInt16.ofNat n) else none

def parse? (text : String) : Option Endpoint :=
  match text.toList with
  | '[' :: rest => do
    let host := rest.takeWhile (· != ']')
    let ']' :: ':' :: port := rest.dropWhile (· != ']') | none
    let groups ← Address.v6? (host.takeWhile (· != '%'))
    let zone ← Address.zone? (host.dropWhile (· != '%'))
    if h : groups.length = 8 then
      some ⟨.v6 ⟨groups.toArray, by simpa using h⟩ zone, ← port? port⟩
    else none
  | chars => do
    let [host, port] := Text.fields ':' chars | none
    let octets ← Address.octets? host
    if h : octets.length = 4 then
      some ⟨.v4 ⟨octets.toArray, by simpa using h⟩, ← port? port⟩
    else none

end Endpoint

end Snmp.Net
