/-
  Snmp/Oid/Basic.lean
  ===================
  **Object identifiers.**

  An object identifier is a sequence of 32-bit arcs.  Identifiers are ordered arc by arc as
  numbers, a proper beginning of an identifier coming before it; this is the order in which a
  registry is walked.  The dotted form puts a point between the decimal arcs.
-/

namespace Snmp

/-- An object identifier: its arcs from the root down. -/
structure Oid where
  arcs : List UInt32
deriving DecidableEq, Hashable, Inhabited

namespace Oid

/-- The greatest number of arcs that a text or an encoding may name. -/
def maxArcs : Nat := 128

def length (oid : Oid) : Nat := oid.arcs.length

def child (oid : Oid) (arc : UInt32) : Oid := ⟨oid.arcs ++ [arc]⟩

/-! ### Order -/

instance : LT Oid := ⟨fun a b => a.arcs < b.arcs⟩

instance : LE Oid := ⟨fun a b => a.arcs ≤ b.arcs⟩

instance (a b : Oid) : Decidable (a < b) := inferInstanceAs (Decidable (a.arcs < b.arcs))

instance (a b : Oid) : Decidable (a ≤ b) := inferInstanceAs (Decidable (a.arcs ≤ b.arcs))

instance : Ord Oid := ⟨fun a b => compareOfLessAndEq a b⟩

def startsWith (oid ancestor : Oid) : Bool := ancestor.arcs.isPrefixOf oid.arcs

/-! ### Dotted form -/

/-- The decimal arcs with points between them; the identifier without arcs is the empty text. -/
def dotted (oid : Oid) : String :=
  ".".intercalate (oid.arcs.map fun arc => toString arc.toNat)

instance : ToString Oid := ⟨dotted⟩

/-! ### Defects -/

/-- What may be wrong with an object identifier. -/
inductive Defect where
  /-- The text names no arc. -/
  | empty
  /-- An arc is empty, not a numeral or too large. -/
  | invalidArc
  | tooManyArcs (count max : Nat)
  | subidentifierOverflow
  /-- Its encoding would be read back as another identifier. -/
  | notEncodable
deriving DecidableEq

def Defect.message : Defect → String
  | .empty => "empty OID"
  | .invalidArc => "invalid arc value"
  | .tooManyArcs count max => s!"OID has {count} arcs, exceeds maximum {max}"
  | .subidentifierOverflow => "subidentifier overflow"
  | .notEncodable => "OID cannot be BER encoded as written"

end Oid

end Snmp
