/-
  Snmp/Decimal/Notation.lean
  ==========================
  **Written forms of floating-point numbers.**

  `plain` is what a value shows to a reader: positional, however many zeros that takes, with no
  point on a whole number.  `exact` is what a diagnostic shows: a whole number keeps `.0`, and a
  number below `10^-4` or from `10^16` on is written with an exponent.  Both start from the
  shortest decimal that reads back.
-/
import Snmp.Decimal.Shortest

namespace Snmp.Decimal

def Digits.text (d : Digits) : List Char := Nat.toDigits 10 d.digits

def Digits.order (d : Digits) : Int := d.exponent + d.text.length - 1

/-- Positional form; `point` is written after the last digit of a whole number. -/
def Digits.positional (d : Digits) (point : String) : String :=
  let text := d.text
  if 0 ≤ d.exponent then
    String.ofList (text ++ List.replicate d.exponent.toNat '0') ++ point
  else
    let places := (-d.exponent).toNat
    if places < text.length then
      let whole := text.length - places
      String.ofList (text.take whole) ++ "." ++ String.ofList (text.drop whole)
    else
      "0." ++ String.ofList (List.replicate (places - text.length) '0' ++ text)

/-- One digit, a point if more follow, the other digits and the exponent. -/
def Digits.scientific (d : Digits) : String :=
  let mantissa := match d.text with
    | [] => "0"
    | [digit] => String.ofList [digit]
    | digit :: more => String.ofList (digit :: '.' :: more)
  mantissa ++ "e" ++ toString d.order

/-- A number with its sign, whole numbers ending in `point`, finite ones written by `write`. -/
def Format.render (f : Format) (point : String) (write : Digits → String) (bits : Nat) : String :=
  let sign := if f.isNegative bits then "-" else ""
  match f.magnitude bits with
  | .notANumber => "NaN"
  | .infinite => sign ++ "inf"
  | .zero => sign ++ "0" ++ point
  | .finite significand exponent narrowBelow =>
    sign ++ write (shortest significand exponent narrowBelow)

def Format.plain (f : Format) (bits : Nat) : String :=
  f.render "" (·.positional "") bits

def Format.exact (f : Format) (bits : Nat) : String :=
  f.render ".0"
    (fun d => if d.order < -4 ∨ 16 ≤ d.order then d.scientific else d.positional ".0") bits

end Snmp.Decimal
