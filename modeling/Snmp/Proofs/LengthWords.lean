/-
  Snmp/Proofs/LengthWords.lean
  ============================
  **Length octets on words.**

  A length is a word of 64 bits.  Written from back to front, its octets are taken off the word,
  the lowest first, and one more octet counts them at the end (`pushOrder`).  An octet that is
  taken off is the last digit of the number and the rest of the word are the digits before it,
  so these are the octets that are pushed for the number (`pushOrder_eq`).

  When a length is read, the octets of a number are shifted into a word.  There are four of them
  at the most, so after each of them the word holds the number exactly.
-/
import Snmp.Proofs.IntegerContent
import Snmp.Proofs.LengthOctets

namespace Snmp.Ber.Length

/-! ### Taking octets off a word -/

theorem toNat_shiftRight_octet (word : UInt64) : (word >>> 8).toNat = word.toNat / 256 := by
  rw [UInt64.toNat_shiftRight, show (8 : UInt64).toNat % 64 = 8 from rfl,
    Nat.shiftRight_eq_div_pow]

/-- The octets of a word, the lowest first, until nothing is left of it. -/
def lowestFirst (word : UInt64) : Octets :=
  if word = 0 then [] else (word &&& 0xFF).toUInt8 :: lowestFirst (word >>> 8)
termination_by word.toNat
decreasing_by
  rename_i hword
  have hpos : word.toNat ≠ 0 := fun hzero => hword (UInt64.toNat_inj.1 hzero)
  rw [toNat_shiftRight_octet]
  omega

/-- By induction on the word, in step with the number. -/
theorem lowestFirst_eq (word : UInt64) : lowestFirst word = lowestOctets word.toNat := by
  fun_induction lowestFirst word with
  | case1 => rw [UInt64.toNat_zero, lowestOctets, if_pos rfl]
  | case2 word hword ih =>
    have hpositive : word.toNat ≠ 0 := fun hzero => hword (UInt64.toNat_inj.1 hzero)
    have hoctet : UInt8.ofNat (word.toNat &&& 0xFF) = (word &&& 0xFF).toUInt8 := by
      have hmask : 0xFF = (0xFF : UInt64).toNat := rfl
      rw [hmask, ← UInt64.toNat_and]
      rfl
    have hrest : word.toNat >>> 8 = (word >>> 8).toNat := by
      rw [toNat_shiftRight_octet, Nat.shiftRight_eq_div_pow]
    rw [lowestOctets, if_neg hpositive, ih, hoctet, hrest]

/-- Length octets as they are pushed, the last one first. -/
def pushOrder (length : UInt64) : Octets :=
  if length < 0x80 then [length.toUInt8]
  else
    let number := lowestFirst length
    number ++ [0x80 ||| UInt8.ofNat number.length]

theorem pushOrder_eq (length : UInt64) : pushOrder length = pushed length.toNat := by
  have hshort : length < 0x80 ↔ length.toNat < 0x80 := UInt64.lt_iff_toNat_lt
  rw [pushOrder, pushed, lowestFirst_eq]
  simp only [hshort]
  rfl

theorem reverse_pushOrder (length : UInt64) :
    (pushOrder length).reverse = encode length.toNat := by
  rw [pushOrder_eq, reverse_pushed]

theorem length_pushOrder (length : UInt64) :
    (pushOrder length).length = (encode length.toNat).length := by
  rw [← reverse_pushOrder, List.length_reverse]

theorem length_pushOrder_le (length : UInt64) : (pushOrder length).length ≤ 9 := by
  rw [length_pushOrder]
  exact length_encode_le (k := 7) length.toNat_lt

/-- A length that is pushed is read back from its octets if it is below 2^32, and refused for
    their number if it is not. -/
theorem decode_reverse_pushOrder (length : UInt64) (rest : Octets) :
    decode ((pushOrder length).reverse ++ rest) =
      if length.toNat < UInt32.size then .ok (length.toNat, (pushOrder length).length)
      else .error (.lengthTooLong ((pushOrder length).length - 1)) := by
  rw [reverse_pushOrder, length_pushOrder]
  split
  · next hfits => exact decode_append hfits rest
  · next hlarge =>
    have hsize : 128 ≤ UInt32.size := by decide
    have hlong : ¬length.toNat < 128 := by omega
    rw [decode_encode_of_long (Nat.not_lt.1 hlarge) length.toNat_lt, encode, if_neg hlong]
    rfl

/-! ### Shifting octets into a word -/

/-- As long as there are few octets, none of them shifts a bit out of the word. -/
theorem toNat_toWord64_of_few {taken : Octets} (hfew : taken.length ≤ 4) :
    (Octets.toWord64 taken).toNat = taken.bits.toNat ∧ taken.bits.toNat < UInt32.size := by
  have hbound : taken.bits.toNat < UInt32.size :=
    Nat.lt_of_lt_of_le taken.bits.isLt (Nat.pow_le_pow_right (by decide) (by omega : _ ≤ 32))
  refine ⟨?_, hbound⟩
  have hsize : UInt32.size ≤ UInt64.size := by decide
  rw [Octets.toNat_toWord64, ← Octets.toNat_bits, Nat.mod_eq_of_lt (by omega)]

/-! ### Length octets -/

theorem decode_counted_append {first : UInt8} {number : Octets} (hleast : 0x81 ≤ first)
    (hmost : first ≤ 0x84) (hcount : number.length = first.toNat - 0x80) (rest : Octets) :
    decode (first :: (number ++ rest)) = .ok (number.bits.toNat, 1 + number.length) := by
  have hlow : 129 ≤ first.toNat := hleast
  have hhigh : first.toNat ≤ 132 := hmost
  have hpresent : number ≠ [] := List.length_pos_iff.1 (by omega)
  have hdefinite : IsDefinite number.bits.toNat (first :: number) :=
    .long (by omega) hpresent (by omega) (Octets.toNat_bits number).symm
  have hfew : (first :: number).length ≤ 1 + maxOctets := by
    rw [List.length_cons, maxOctets]
    omega
  have hread := hdefinite.decode_append hfew rest
  rwa [List.length_cons, Nat.add_comm] at hread

theorem exists_decode_eq_ok_iff (octets : Octets) :
    (∃ found, decode octets = .ok found) ↔ ∃ first rest, octets = first :: rest ∧
      (first < 0x80 ∨
        0x81 ≤ first ∧ first ≤ 0x84 ∧ first.toNat - 0x80 ≤ rest.length) := by
  constructor
  · rintro ⟨⟨length, used⟩, h⟩
    obtain ⟨head, rest, rfl, hdefinite, hused, hfew⟩ := decode_eq_ok_iff.1 h
    have hmax : maxOctets = 4 := rfl
    cases hdefinite with
    | @short octet hshort => exact ⟨octet, rest, rfl, .inl hshort⟩
    | @long count number hcounts hpresent =>
      have hpos := List.length_pos_iff.2 hpresent
      rw [List.length_cons] at hused
      have hleast : 129 ≤ count.toNat := by omega
      have hmost : count.toNat ≤ 132 := by omega
      refine ⟨count, number ++ rest, rfl, .inr ⟨hleast, hmost, ?_⟩⟩
      rw [List.length_append]
      omega
  · rintro ⟨first, rest, rfl, hshort | ⟨hleast, hmost, hpresent⟩⟩
    · exact ⟨_, decode_short hshort rest⟩
    · have hnumber := List.length_take_of_le hpresent
      rw [← List.take_append_drop (first.toNat - 0x80) rest]
      exact ⟨_, decode_counted_append hleast hmost hnumber _⟩

/-- **Lengths are written in their shortest form and read in any form with four octets or
    fewer.**  A word is pushed as the shortest definite form of its length; with anything behind
    it this is read back if the length is below 2^32, and refused for the number of its octets if
    it is not.  Octets are read as a length exactly if they begin with an octet below `0x80`, or
    with `0x81` to `0x84` and as many octets as this counts.  The length is then the number that
    these denote, padded or not; no bit of it is lost on the way, and nothing behind them
    matters.  The indefinite form is never read. -/
theorem lengths_exact :
    (∀ length : UInt64,
      IsShortest length.toNat (pushOrder length).reverse ∧
      encode length.toNat = (pushOrder length).reverse ∧
      (∀ w : Writer,
        (w.pushLength length.toNat).octets = (pushOrder length).reverse ++ w.octets) ∧
      (pushOrder length).length ≤ 9 ∧
      ∀ rest, decode ((pushOrder length).reverse ++ rest) =
        if length.toNat < UInt32.size then .ok (length.toNat, (pushOrder length).length)
        else .error (.lengthTooLong ((pushOrder length).length - 1))) ∧
    (∀ octets : Octets, (∃ found, decode octets = .ok found) ↔
      ∃ first rest, octets = first :: rest ∧
        (first < 0x80 ∨
          0x81 ≤ first ∧ first ≤ 0x84 ∧ first.toNat - 0x80 ≤ rest.length)) ∧
    (∀ (first : UInt8) (rest : Octets), first < 0x80 →
      decode (first :: rest) = .ok (first.toNat, 1)) ∧
    (∀ (first : UInt8) (number rest : Octets), 0x81 ≤ first → first ≤ 0x84 →
      number.length = first.toNat - 0x80 →
      decode (first :: (number ++ rest)) = .ok (number.bits.toNat, 1 + number.length) ∧
      ∀ taken : Octets, taken <+: number →
        (Octets.toWord64 taken).toNat = taken.bits.toNat ∧ taken.bits.toNat < UInt32.size) ∧
    (∀ (octets : Octets) (length used : Nat), decode octets = .ok (length, used) →
      ∀ rest, decode (octets.take used ++ rest) = .ok (length, used)) ∧
    ∀ rest, decode (0x80 :: rest) = .error .indefiniteLength := by
  refine ⟨?_, exists_decode_eq_ok_iff, ?_, ?_, ?_, decode_indefinite⟩
  · intro length
    have hbound : length.toNat < Nat.pow 256 126 := Nat.lt_trans length.toNat_lt (by decide)
    have hwire := reverse_pushOrder length
    refine ⟨hwire ▸ isShortest_encode hbound, hwire.symm, ?_, length_pushOrder_le length, ?_⟩
    · intro w
      rw [hwire, Writer.octets_pushLength]
    · exact decode_reverse_pushOrder length
  · intro first rest hshort
    exact decode_short hshort rest
  · intro first number rest hleast hmost hcount
    refine ⟨decode_counted_append hleast hmost hcount rest, ?_⟩
    intro taken hprefix
    have hhigh : first.toNat ≤ 132 := hmost
    have hle := hprefix.length_le
    exact toNat_toWord64_of_few (by omega)
  · intro octets length used h rest
    exact decode_append_of_eq_ok (decode_take h).2 rest

/-- A number with two octets of padding, and another octet behind it. -/
theorem lengths_exact_paddedNumber :
    let number : Octets := [0, 0, 0x01, 0x2c]
    ((0x81 : UInt8) ≤ 0x84 ∧ number.length = (0x84 : UInt8).toNat - 0x80) ∧
    decode (0x84 :: (number ++ [7])) = .ok (300, 5) ∧
    (Octets.toWord64 number).toNat = 300 ∧
    (∀ rest, decode (0x84 :: (number ++ rest)) = .ok (300, 5)) ∧
    (0x05 : UInt8) < 0x80 ∧ decode [0x05, 7] = .ok (5, 1) := by
  intro number
  have hvalue : number.bits.toNat = 300 := by decide
  obtain ⟨-, -, hshort, hlong, hbehind, -⟩ := lengths_exact
  obtain ⟨hnumber, hwords⟩ := hlong 0x84 number [7] (by decide) (by decide) (by decide)
  obtain ⟨hword, -⟩ := hwords number List.prefix_rfl
  rw [hvalue] at hnumber hword
  have hany := hbehind (0x84 :: (number ++ [7])) 300 5 hnumber
  have htake : (0x84 :: (number ++ [7])).take 5 = 0x84 :: number := rfl
  rw [htake] at hany
  exact ⟨by decide, hnumber, hword, hany, by decide, hshort 0x05 [7] (by decide)⟩

end Snmp.Ber.Length
