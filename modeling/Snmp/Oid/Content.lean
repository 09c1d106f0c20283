/-
  Snmp/Oid/Content.lean
  =====================
  **The content octets of an OBJECT IDENTIFIER.**

  The content is a sequence of subidentifiers, each a number in base 128 with the high bit set
  on all octets but the last.  The first subidentifier carries two arcs: `40 · a + b`, so that
  an identifier survives encoding when its first arc is 0 or 1 and its second below 40, or its
  first arc is 2 (`isEncodable`).  Other identifiers are encoded all the same and are read back
  differently.
-/
import Snmp.Octets
import Snmp.Oid.Basic
import Snmp.Ber.Defect

namespace Snmp.Oid

/-! ### Writing -/

def continued (n : Nat) : Octets :=
  if n < 128 then [UInt8.ofNat (128 + n)]
  else continued (n / 128) ++ [UInt8.ofNat (128 + n % 128)]
termination_by n
decreasing_by omega

def subidentifier (n : Nat) : Octets :=
  if n < 128 then [UInt8.ofNat n] else continued (n / 128) ++ [UInt8.ofNat (n % 128)]

def subidentifierValues (oid : Oid) : List Nat :=
  match oid.arcs with
  | [] => [0]
  | [first] => [first.toNat * 40]
  | first :: second :: rest => (first.toNat * 40 + second.toNat) :: rest.map (·.toNat)

def content (oid : Oid) : Octets :=
  oid.subidentifierValues.flatMap subidentifier

/-- Whether the content octets are read back as the same identifier, its length apart. -/
def isEncodable (oid : Oid) : Bool :=
  match oid.arcs with
  | first :: second :: _ => first = 2 || (first < 2 && second < 40)
  | _ => false

/-! ### Reading -/

/-- The greatest value of a first subidentifier: a first arc of 2 leaves 80 below the second. -/
def maxSubidentifier : Nat := UInt32.size - 1 + 80

def splitFirst (value : Nat) : List UInt32 :=
  if value < 40 then [0, UInt32.ofNat value]
  else if value < 80 then [1, UInt32.ofNat (value - 40)]
  else [2, UInt32.ofNat (value - 80)]

/-- The arcs of a complete subidentifier, after the arcs in `read` (latest first). -/
def appendArcs (read : List UInt32) (value : Nat) : Except Ber.Defect (List UInt32) :=
  match read with
  | [] => .ok (splitFirst value).reverse
  | _ =>
    if value < UInt32.size then .ok (UInt32.ofNat value :: read)
    else .error .invalidOidEncoding

/-- Reads the octets after the arcs in `read` (latest first) and the value that the octets of
    an unfinished subidentifier have so far. -/
def readArcs (read : List UInt32) (unfinished : Option Nat) :
    Octets → Except Ber.Defect (List UInt32)
  | [] =>
    if unfinished.isSome || read.isEmpty then .error .invalidOidEncoding else .ok read.reverse
  | octet :: rest =>
    let value := unfinished.getD 0 * 128 + octet.toNat % 128
    if maxSubidentifier < value then .error .invalidOidEncoding
    else if 128 ≤ octet then readArcs read (some value) rest
    else
      match appendArcs read value with
      | .error defect => .error defect
      | .ok arcs =>
        if maxArcs < arcs.length then .error (.oidTooLong arcs.length maxArcs)
        else readArcs arcs none rest

def ofContent (octets : Octets) : Except Ber.Defect Oid :=
  (readArcs [] none octets).map Oid.mk

end Snmp.Oid
