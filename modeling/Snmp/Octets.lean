/-
  Snmp/Octets.lean
  ================
  **Octet strings and the numbers they denote.**

  Everything that travels in a datagram is an octet string, here a list of octets read from
  left to right.  A number is written most significant octet first: natural numbers in base
  256 (`toNat`), machine words with their full width (`ofWord32`, `ofWord64`).  `covers`
  compares a length with an octet string without walking further than it has to.
-/

namespace Snmp

/-- A string of octets, first octet first. -/
abbrev Octets := List UInt8

namespace Octets

/-! ### Natural numbers -/

/-- The number that octets denote in base 256, most significant octet first. -/
def toNat (octets : Octets) : Nat :=
  octets.foldl (fun n octet => n * 256 + octet.toNat) 0

/-! ### Machine words -/

/-- The four octets of a 32-bit word. -/
def ofWord32 (w : UInt32) : Octets :=
  [(w >>> 24).toUInt8, (w >>> 16).toUInt8, (w >>> 8).toUInt8, w.toUInt8]

/-- The eight octets of a 64-bit word. -/
def ofWord64 (w : UInt64) : Octets :=
  ofWord32 (w >>> 32).toUInt32 ++ ofWord32 w.toUInt32

/-- The word denoted by octets, its low 32 bits if there are more. -/
def toWord32 (octets : Octets) : UInt32 :=
  octets.foldl (fun w octet => w <<< 8 ||| octet.toUInt32) 0

/-- The word denoted by octets, its low 64 bits if there are more. -/
def toWord64 (octets : Octets) : UInt64 :=
  octets.foldl (fun w octet => w <<< 8 ||| octet.toUInt64) 0

/-! ### Lengths and combinations -/

/-- Whether at least `n` octets are present; looks at no more than `n` of them. -/
def covers : Nat → Octets → Bool
  | 0, _ => true
  | _ + 1, [] => false
  | n + 1, _ :: rest => covers n rest

@[simp] theorem covers_eq_decide (n : Nat) (octets : Octets) :
    covers n octets = decide (n ≤ octets.length) := by
  induction n generalizing octets with
  | zero => simp [covers]
  | succ n ih => cases octets <;> simp [covers, ih]

/-- Octetwise exclusive or, as long as the shorter operand. -/
def xor (a b : Octets) : Octets :=
  List.zipWith (· ^^^ ·) a b

@[simp] theorem length_xor (a b : Octets) : (xor a b).length = min a.length b.length := by
  simp [xor]

abbrev zeros (count : Nat) : Octets := List.replicate count 0

end Octets

end Snmp
