/-
  Snmp/Decimal/Shortest.lean
  ==========================
  **The fewest decimal digits that read back.**

  A finite binary floating-point number is `m · 2^q`.  Reading a decimal rounds to the nearest
  such number, to the even `m` on a tie, so the decimals that read back as `m · 2^q` form an
  interval whose ends belong to it exactly when `m` is even.  `shortest` walks the decimal
  grids `…, 10, 1, 1/10, …` from coarse to fine and stops at the first grid with a point in the
  interval; of two such points it takes the nearer, and the greater when both are as near.

  All arithmetic is exact, on natural numbers: a grid of step `10^j` is reached by scaling the
  number and the ends of its interval, after which the grid consists of the integers.
-/

namespace Snmp.Decimal

/-! ### Binary formats -/

/-- A binary interchange format: the widths of the fraction and of the exponent. -/
structure Format where
  fractionBits : Nat
  exponentBits : Nat

def Format.single : Format := ⟨23, 8⟩

def Format.double : Format := ⟨52, 11⟩

/-- The magnitude of a floating-point number. -/
inductive Magnitude where
  | notANumber
  | infinite
  | zero
  /-- The number `significand · 2^exponent`; `narrowBelow` tells that the next smaller number
      of the format is only half as far away as the next greater one. -/
  | finite (significand : Nat) (exponent : Int) (narrowBelow : Bool)

def Format.isNegative (f : Format) (bits : Nat) : Bool :=
  bits.testBit (f.fractionBits + f.exponentBits)

def Format.magnitude (f : Format) (bits : Nat) : Magnitude :=
  let fraction := bits % (1 <<< f.fractionBits)
  let biased := (bits >>> f.fractionBits) % (1 <<< f.exponentBits)
  let bias := (1 <<< (f.exponentBits - 1)) - 1
  let least : Int := 1 - bias - f.fractionBits
  if biased = (1 <<< f.exponentBits) - 1 then
    if fraction = 0 then .infinite else .notANumber
  else if biased = 0 then
    if fraction = 0 then .zero else .finite fraction least false
  else
    .finite ((1 <<< f.fractionBits) + fraction) (least + biased - 1) (fraction = 0 && 1 < biased)

/-! ### The shortest decimal -/

/-- A decimal number `digits · 10^exponent`. -/
structure Digits where
  digits : Nat
  exponent : Int

/-- The numerators, over one denominator, of a number and of the ends of the interval of
    decimals that read back as it. -/
structure Interval where
  value : Nat
  low : Nat
  high : Nat
  denominator : Nat
  /-- Whether the ends belong to the interval. -/
  closed : Bool

/-- The interval around `significand · 2^exponent`, in units of `10^unit`. -/
def Interval.around (significand : Nat) (exponent : Int) (narrowBelow : Bool) (unit : Int) :
    Interval :=
  let scale := Nat.pow 10 (-unit).toNat <<< (exponent - 2).toNat
  { value := 4 * significand * scale
    low := (4 * significand - (if narrowBelow then 1 else 2)) * scale
    high := (4 * significand + 2) * scale
    denominator := Nat.pow 10 unit.toNat <<< (2 - exponent).toNat
    closed := significand % 2 = 0 }

def Interval.contains (i : Interval) (n : Nat) : Bool :=
  if i.closed then i.low ≤ n * i.denominator && n * i.denominator ≤ i.high
  else i.low < n * i.denominator && n * i.denominator < i.high

/-- The integer of the interval that is nearest to its number, if it holds one. -/
def Interval.nearest? (i : Interval) : Option Nat :=
  let below := i.value / i.denominator
  let above := below + 1
  match i.contains below, i.contains above with
  | false, false => none
  | true, false => some below
  | false, true => some above
  | true, true =>
    if i.value - below * i.denominator < above * i.denominator - i.value then some below
    else some above

/-- Tries the grids of step `10^unit`, `10^(unit - 1)`, … and gives up after `grids` of them. -/
def search (significand : Nat) (exponent : Int) (narrowBelow : Bool) :
    (grids : Nat) → (unit : Int) → Option Digits
  | 0, _ => none
  | grids + 1, unit =>
    match (Interval.around significand exponent narrowBelow unit).nearest? with
    | some digits => some ⟨digits, unit⟩
    | none => search significand exponent narrowBelow grids (unit - 1)

/-- The shortest decimal that reads back as `significand · 2^exponent`.  The first grid is too
    coarse for the number by a factor below one thousand, and twenty grids reach past
    seventeen digits, which always suffice for the 64-bit format. -/
def shortest (significand : Nat) (exponent : Int) (narrowBelow : Bool) : Digits :=
  let magnitude : Int := (exponent + Nat.log2 significand + 1) * 30103 / 100000 + 1
  (search significand exponent narrowBelow 24 magnitude).getD ⟨significand, 0⟩

end Snmp.Decimal
