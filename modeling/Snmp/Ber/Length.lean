/-
  Snmp/Ber/Length.lean
  ====================
  **Length octets.**

  A length below 128 is one octet; any other is the octet `0x80 + k` followed by the `k` octets
  of the number.  Writing uses the fewest octets and yields the last of them first, since that
  is how they are pushed.  Reading accepts up to four octets, padded or not, and refuses the
  indefinite form.
-/
import Snmp.Octets
import Snmp.Ber.Defect

namespace Snmp.Ber.Length

/-- The octets of a number, the lowest first, until nothing is left of it. -/
def lowestOctets (n : Nat) : Octets :=
  if n = 0 then [] else UInt8.ofNat (n &&& 0xFF) :: lowestOctets (n >>> 8)
termination_by n
decreasing_by
  rw [Nat.shiftRight_eq_div_pow]
  omega

/-- The length octets of the shortest form in push order: the last one first, the octet that
    counts the others at the end. -/
def pushed (length : Nat) : Octets :=
  if length < 0x80 then [UInt8.ofNat length]
  else
    let number := lowestOctets length
    number ++ [0x80 ||| UInt8.ofNat number.length]

/-- The most octets that a number may have after the first length octet. -/
def maxOctets : Nat := 4

/-- The length at the beginning of `octets` and how many octets it takes. -/
def decode (octets : Octets) : Except Defect (Nat × Nat) :=
  match octets with
  | [] => .error .truncatedData
  | first :: rest =>
    if first < 128 then .ok (first.toNat, 1)
    else if first = 128 then .error .indefiniteLength
    else
      let count := first.toNat - 128
      if maxOctets < count then .error (.lengthTooLong count)
      else if Octets.covers count rest then .ok (Octets.toNat (rest.take count), 1 + count)
      else .error .truncatedData

end Snmp.Ber.Length
