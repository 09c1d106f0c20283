/-
  Snmp/Proofs/IntegerWords.lean
  =============================
  **Integers on words.**

  The contents of integers are worked out on machine words.  Octets that only repeat the sign
  are dropped from the front of a word, and what is left is the shortest two's complement of its
  value (`dropFill_eq`).  Octets are shifted into a word of 64 bits that was filled with their
  sign; up to eight of them the word holds the integer they denote, and no bit that matters is
  shifted out (`toInt_shifted`).  Zero octets in front of an unsigned number do not count
  towards the eight octets a word has room for (`toWord?_eq`).

  So the contents that are written and read can be described by the numbers alone.
-/
import Snmp.Ber.Integer
import Snmp.Proofs.Numbers

namespace Snmp

namespace Octets

/-! ### Signs -/

/-- Masking the top bit off an octet tells its sign. -/
theorem and_mark (octet : UInt8) : octet &&& 0x80 = if octet < 128 then 0x00 else 0x80 := by
  have hall : ∀ n : Fin 256,
      UInt8.ofNat n &&& 0x80 = if UInt8.ofNat n < 128 then 0x00 else 0x80 := by
    decide +kernel
  have hoctet := hall ⟨octet.toNat, octet.toNat_lt⟩
  rwa [UInt8.ofNat_toNat] at hoctet

theorem isNegative_eq_decide (octets : Octets) :
    isNegative octets = decide (toInt octets < 0) := by
  have hlt := toNat_lt octets
  rw [toInt_eq]
  cases isNegative octets with
  | false => simp
  | true =>
    rw [if_pos rfl, eq_comm, decide_eq_true_iff]
    omega

/-- The first of two octets says no more than the sign of the second. -/
def RepeatsSign (first second : UInt8) : Prop :=
  first = 0x00 ∧ second < 128 ∨ first = 0xFF ∧ 128 ≤ second

/-- What is compared octet by octet is whether the first one can be spared. -/
theorem repeatsSign_iff {fill first second : UInt8}
    (hfill : fill = if first < 128 then 0x00 else 0xFF) :
    first = fill ∧ second &&& 0x80 = fill &&& 0x80 ↔ RepeatsSign first second := by
  rw [hfill, and_mark second]
  by_cases hsign : first < 128
  · have hother : first ≠ 0xFF := by
      rintro rfl
      contradiction
    rw [if_pos hsign, RepeatsSign, or_iff_left fun h => hother h.1]
    refine and_congr_right fun _ => ?_
    split <;> simp_all
  · have hother : first ≠ 0x00 := by
      rintro rfl
      exact hsign (by decide)
    have hmark : (0xFF : UInt8) &&& 0x80 = 0x80 := rfl
    rw [if_neg hsign, hmark, RepeatsSign, or_iff_right fun h => hother h.1]
    refine and_congr_right fun _ => ?_
    split <;> simp_all

theorem toInt_cons_of_repeatsSign {first second : UInt8} (h : RepeatsSign first second)
    (rest : Octets) : toInt (first :: second :: rest) = toInt (second :: rest) := by
  have hpower : Nat.pow 256 (first :: second :: rest).length =
      Nat.pow 256 (second :: rest).length * 256 := rfl
  rw [toInt, toInt, hpower, toNat_cons first]
  rcases h with ⟨rfl, hsecond⟩ | ⟨rfl, hsecond⟩
  · have hzero : (0x00 : UInt8).toNat = 0 := rfl
    rw [if_pos (by decide), if_pos hsecond, hzero, Nat.zero_mul, Nat.zero_add]
  · have hfull : (0xFF : UInt8).toNat = 255 := rfl
    rw [if_neg (by decide), if_neg (UInt8.not_lt.2 hsecond), hfull]
    omega

theorem ofInt_toInt_singleton (octet : UInt8) : ofInt (toInt [octet]) = [octet] := by
  have hlength := length_ofInt_toInt_le (List.cons_ne_nil octet [])
  have hpos := length_ofInt_pos (toInt [octet])
  rw [List.length_singleton] at hlength
  apply eq_of_toInt_eq
  · rw [List.length_singleton]
    omega
  · exact toInt_ofInt _

/-- A number so close to zero that it fits in the octets behind the first one: then the first
    one is all sign. -/
theorem repeatsSign_of_bounds {first second : UInt8} (rest : Octets)
    (hlow : -((128 * Nat.pow 256 rest.length : Nat) : Int) ≤ toInt (first :: second :: rest))
    (hhigh : toInt (first :: second :: rest) < ((128 * Nat.pow 256 rest.length : Nat) : Int)) :
    RepeatsSign first second := by
  have hpower : Nat.pow 256 (first :: second :: rest).length =
      256 * (256 * Nat.pow 256 rest.length) := by
    rw [List.length_cons, List.length_cons, pow_succ_base, pow_succ_base]
    omega
  have hbehind : Nat.pow 256 (second :: rest).length = 256 * Nat.pow 256 rest.length := by
    rw [List.length_cons, pow_succ_base, Nat.mul_comm]
  have hrest := toNat_lt rest
  have hfirst := first.toNat_lt
  rw [toInt, hpower, toNat_cons, toNat_cons, hbehind] at hlow hhigh
  generalize Nat.pow 256 rest.length = base at hlow hhigh hrest
  by_cases hsign : first < 128
  · rw [if_pos hsign] at hhigh
    left
    constructor
    · apply UInt8.toNat_inj.1
      refine Nat.eq_zero_of_not_pos fun hpos => ?_
      have hlarge := Nat.mul_le_mul_right (256 * base) hpos
      omega
    · apply UInt8.not_le.1
      intro hsecond
      have hlarge : 128 * base ≤ second.toNat * base := Nat.mul_le_mul_right base hsecond
      omega
  · rw [if_neg hsign] at hlow
    right
    constructor
    · apply UInt8.toNat_inj.1
      refine Nat.le_antisymm (Nat.le_of_lt_succ hfirst) (Nat.not_lt.1 fun hsmall => ?_)
      have hproduct : first.toNat * (256 * base) ≤ 254 * (256 * base) :=
        Nat.mul_le_mul_right (256 * base) (Nat.le_of_lt_succ hsmall)
      have hsecond := Nat.mul_le_mul_right base (Nat.le_of_lt_succ second.toNat_lt)
      omega
    · apply UInt8.not_lt.1
      intro hsecond
      have hproduct := Nat.mul_le_mul_right (256 * base) (Nat.le_of_lt_succ hfirst)
      have hsmall : second.toNat * base ≤ 127 * base :=
        Nat.mul_le_mul_right base (Nat.le_of_lt_succ hsecond)
      omega

/-- No octet can be spared if the first one is not all sign. -/
theorem ofInt_toInt_cons_cons {first second : UInt8} (h : ¬RepeatsSign first second)
    (rest : Octets) :
    ofInt (toInt (first :: second :: rest)) = first :: second :: rest := by
  have hle := length_ofInt_toInt_le (List.cons_ne_nil first (second :: rest))
  refine eq_of_toInt_eq (Nat.le_antisymm hle (Nat.not_lt.1 fun hshort => h ?_)) (toInt_ofInt _)
  obtain ⟨top, more, hshape⟩ := List.exists_cons_of_ne_nil
    (ofInt_ne_nil (toInt (first :: second :: rest)))
  obtain ⟨hlow, hhigh⟩ := toInt_cons_bounds top more
  rw [← hshape, toInt_ofInt] at hlow hhigh
  rw [hshape, List.length_cons, List.length_cons, List.length_cons] at hshort
  have hpower : Nat.pow 256 more.length ≤ Nat.pow 256 rest.length :=
    Nat.pow_le_pow_right (by decide) (by omega)
  exact repeatsSign_of_bounds rest (by omega) (by omega)

/-! ### The octets of words -/

theorem isNegative_cons (first : UInt8) (rest : Octets) :
    isNegative (first :: rest) =
      decide (128 * Nat.pow 256 rest.length ≤ toNat (first :: rest)) := by
  have hrest := toNat_lt rest
  rw [toNat_cons, isNegative, decide_eq_decide, UInt8.le_iff_toNat_le]
  have hbound : (128 : UInt8).toNat = 128 := rfl
  rw [hbound]
  constructor
  · intro hlarge
    exact Nat.le_add_right_of_le (Nat.mul_le_mul_right _ hlarge)
  · intro hlarge
    refine Nat.not_lt.1 fun hsmall => ?_
    have hproduct := Nat.mul_le_mul_right (Nat.pow 256 rest.length) (Nat.le_of_lt_succ hsmall)
    omega

theorem toInt_ofWord32 (value : Int32) : toInt (ofWord32 value.toUInt32) = value.toInt := by
  have hnumber := toNat_ofWord32 value.toUInt32
  have hvalue : value.toInt = if 2 * value.toUInt32.toNat < 4294967296
      then (value.toUInt32.toNat : Int) else value.toUInt32.toNat - 4294967296 :=
    BitVec.toInt_eq_toNat_cond value.toBitVec
  have hhalf : 128 * Nat.pow 256 3 = 2147483648 := rfl
  have hsign : isNegative (ofWord32 value.toUInt32) =
      decide (128 * Nat.pow 256 3 ≤ toNat (ofWord32 value.toUInt32)) := isNegative_cons _ _
  rw [hhalf, hnumber] at hsign
  have hpower : Nat.pow 256 4 = 4294967296 := rfl
  rw [toInt_eq, hsign, hnumber, length_ofWord32, hpower, hvalue]
  by_cases hlarge : 2147483648 ≤ value.toUInt32.toNat
  · rw [if_pos (decide_eq_true hlarge), if_neg (by omega)]
    rfl
  · rw [if_neg (by simpa using hlarge), if_pos (by omega)]

theorem toInt_zero_cons (octets : Octets) : toInt (0 :: octets) = toNat octets := by
  have hzero : (0 : UInt8).toNat = 0 := rfl
  rw [toInt, if_pos (by decide), toNat_cons, hzero, Nat.zero_mul, Nat.zero_add]

end Octets

namespace Ber.Integer

open Octets

/-! ### Writing -/

/-- By the octets that are dropped: none of them changes the number, and the first one that
    stays is not all sign. -/
theorem dropFill_eq {fill : UInt8} {content : Octets} (hpresent : content ≠ [])
    (hfill : fill = if isNegative content then 0xFF else 0x00) :
    dropFill fill content = ofInt (toInt content) := by
  have hfirst {first : UInt8} {rest : Octets}
      (h : fill = if isNegative (first :: rest) then 0xFF else 0x00) :
      fill = if first < 128 then 0x00 else 0xFF := by
    rw [h, isNegative]
    by_cases hsign : first < 128
    · rw [if_pos hsign, if_neg (by simpa using hsign)]
    · rw [if_neg hsign, if_pos (by simpa using hsign)]
  fun_induction dropFill fill content with
  | case1 first second rest hspared ih =>
    have hequal := toInt_cons_of_repeatsSign ((repeatsSign_iff (hfirst hfill)).1 hspared) rest
    rw [hequal]
    apply ih (List.cons_ne_nil second rest)
    rw [hfill, isNegative_eq_decide, isNegative_eq_decide, hequal]
  | case2 first second rest hkept =>
    have hminimal := mt (repeatsSign_iff (hfirst hfill)).2 hkept
    exact (ofInt_toInt_cons_cons hminimal rest).symm
  | case3 octets hshort =>
    cases octets with
    | nil => contradiction
    | cons octet rest =>
      cases rest with
      | nil => exact (ofInt_toInt_singleton octet).symm
      | cons second rest => exact absurd rfl (hshort octet second rest)

theorem ofInt32_eq (value : Int32) : ofInt32 value = ofInt value.toInt := by
  have hsign : (if 0 ≤ value then 0x00 else 0xFF : UInt8) =
      if isNegative (ofWord32 value.toUInt32) then 0xFF else 0x00 := by
    have hzero : (0 : Int32).toInt = 0 := rfl
    rw [isNegative_eq_decide, toInt_ofWord32]
    by_cases hnegative : value.toInt < 0
    · rw [if_neg, if_pos (decide_eq_true hnegative)]
      rw [Int32.le_iff_toInt_le, hzero]
      omega
    · rw [if_pos, if_neg (by simpa using hnegative)]
      rw [Int32.le_iff_toInt_le, hzero]
      omega
  have hpresent : ofWord32 value.toUInt32 ≠ [] := List.cons_ne_nil _ _
  rw [ofInt32, dropFill_eq hpresent hsign, toInt_ofWord32]

/-- A zero octet in front makes any octets an unsigned number. -/
theorem dropFill_zero_cons (octets : Octets) :
    dropFill 0x00 (0x00 :: octets) = ofInt (toNat octets) := by
  have hfill : (0x00 : UInt8) = if isNegative (0x00 :: octets) then 0xFF else 0x00 := rfl
  rw [dropFill_eq (List.cons_ne_nil _ _) hfill, toInt_zero_cons]

theorem ofUInt32_eq (value : UInt32) : ofUInt32 value = ofInt value.toNat := by
  rw [ofUInt32, dropFill_zero_cons, toNat_ofWord32]

theorem ofUInt64_eq (value : UInt64) : ofUInt64 value = ofInt value.toNat := by
  rw [ofUInt64, dropFill_zero_cons, toNat_ofWord64]

/-! ### Reading a signed number -/

/-- The word after all of the octets, however many there are. -/
def shifted (value : Int64) (octets : Octets) : Int64 :=
  octets.foldl (fun (w : Int64) octet => w <<< 8 ||| octet.toUInt64.toInt64) value

/-- By induction on the octets; `index` counts those before them. -/
theorem shiftIn_eq {index : Nat} (hindex : index ≤ 8) (value : Int64) (octets : Octets) :
    shiftIn value index octets =
      if index + octets.length ≤ 8 then some (shifted value octets) else none := by
  induction octets generalizing value index with
  | nil =>
    rw [shiftIn, List.length_nil, Nat.add_zero, if_pos hindex]
    rfl
  | cons octet rest ih =>
    rw [shiftIn, List.length_cons]
    by_cases hfull : 8 ≤ index
    · rw [if_pos hfull, if_neg (by omega)]
    · rw [if_neg hfull, ih (by omega), Nat.add_assoc, Nat.add_comm 1]
      rfl

theorem toUInt64_shifted (value : Int64) (octets : Octets) :
    (shifted value octets).toUInt64 =
      octets.foldl (fun (w : UInt64) octet => w <<< 8 ||| octet.toUInt64) value.toUInt64 := by
  induction octets generalizing value with
  | nil => rfl
  | cons octet rest ih => exact ih _

theorem toInt_eq_bmod (value : Int64) :
    value.toInt = (value.toUInt64.toNat : Int).bmod UInt64.size :=
  BitVec.toInt_eq_toNat_bmod value.toBitVec

theorem toNat_signWord (content : Octets) :
    (signWord content).toUInt64.toNat = if isNegative content then UInt64.size - 1 else 0 := by
  cases content with
  | nil => rfl
  | cons first rest =>
    rw [signWord, List.headD_cons, and_mark, isNegative]
    by_cases hsign : first < 128
    · rw [if_pos hsign, if_pos rfl, if_neg (by simpa using hsign)]
      rfl
    · rw [if_neg hsign, if_neg (by decide), if_pos (by simpa using hsign)]
      rfl

/-- Modulo 2^64 the sign in front of the octets takes their power of 256 off. -/
theorem toInt_shifted_eq_bmod (content : Octets) :
    (shifted (signWord content) content).toInt = (toInt content).bmod UInt64.size := by
  rw [toInt_eq_bmod, toUInt64_shifted, foldl_toWord64, foldl_toNat, toNat_signWord, toInt_eq,
    Int.natCast_emod, Int.emod_bmod]
  generalize toNat content = number
  generalize Nat.pow 256 content.length = power
  cases isNegative content with
  | false => simp
  | true =>
    have hsum : (((UInt64.size - 1) * power + number : Nat) : Int) =
        ((number : Int) - power) + UInt64.size * power := by
      have hsize : UInt64.size = 18446744073709551616 := rfl
      rw [hsize]
      omega
    rw [if_pos rfl, if_pos rfl, hsum, Int.add_mul_bmod_self_left]

/-- A word that starts from the sign of up to eight octets holds the integer they denote. -/
theorem toInt_shifted {content : Octets} (hfew : content.length ≤ 8) :
    (shifted (signWord content) content).toInt = toInt content := by
  cases content with
  | nil => rfl
  | cons first rest =>
    obtain ⟨hlow, hhigh⟩ := toInt_cons_bounds first rest
    have hpower : Nat.pow 256 rest.length ≤ Nat.pow 256 7 :=
      Nat.pow_le_pow_right (by decide) (Nat.le_of_succ_le_succ hfew)
    have hhalf : 128 * Nat.pow 256 7 = 9223372036854775808 := rfl
    have hsize : UInt64.size = 18446744073709551616 := rfl
    rw [toInt_shifted_eq_bmod]
    apply Int.bmod_eq_of_le <;> omega

theorem toInt32?_eq (content : Octets) : toInt32? content =
    if content.length ≤ 8 ∧ Int32.minValue.toInt ≤ toInt content ∧
      toInt content ≤ Int32.maxValue.toInt then some (Int32.ofInt (toInt content))
    else none := by
  rw [toInt32?, shiftIn_eq (Nat.zero_le 8), Nat.zero_add]
  by_cases hfew : content.length ≤ 8
  · have hvalue := toInt_shifted hfew
    have hword : (shifted (signWord content) content).toInt32 = Int32.ofInt (toInt content) := by
      rw [← hvalue, ← Int64.toInt32_ofInt, Int64.ofInt_toInt]
    rw [if_pos hfew]
    simp only [Int64.le_iff_toInt_le, Int32.toInt_toInt64, hvalue, hword, hfew, true_and]
  · rw [if_neg hfew, if_neg fun h => hfew h.1]

/-! ### Reading an unsigned number -/

theorem significant_zero_cons (octet : UInt8) (rest : Octets) :
    significant (0 :: octet :: rest) = significant (octet :: rest) := by
  simp [significant, Nat.add_min_add_right]

theorem significant_cons {first : UInt8} (h : first ≠ 0) (rest : Octets) :
    significant (first :: rest) = first :: rest := by
  simp [significant, h]

theorem significant_singleton (octet : UInt8) : significant [octet] = [octet] := by
  simp [significant]

theorem toNat_significant (content : Octets) : toNat (significant content) = toNat content := by
  induction content with
  | nil => rfl
  | cons first rest ih =>
    by_cases hfirst : first = 0
    · cases rest with
      | nil => rw [significant_singleton]
      | cons second rest =>
        have hzero : (0 : UInt8).toNat = 0 := rfl
        rw [hfirst, significant_zero_cons, ih, toNat_cons 0, hzero, Nat.zero_mul, Nat.zero_add]
    · rw [significant_cons hfirst]

/-- The digits of a number that do not fit in a word are those of a number that does not. -/
theorem length_significant_le (content : Octets) :
    (significant content).length ≤ 8 ↔ toNat content < UInt64.size := by
  have hsize : UInt64.size = Nat.pow 256 8 := rfl
  constructor
  · intro hfew
    have hlt := toNat_lt (significant content)
    rw [toNat_significant] at hlt
    rw [hsize]
    exact Nat.lt_of_lt_of_le hlt (Nat.pow_le_pow_right (by decide) hfew)
  · intro hsmall
    induction content with
    | nil => exact Nat.zero_le 8
    | cons first rest ih =>
      by_cases hfirst : first = 0
      · cases rest with
        | nil =>
          rw [significant_singleton]
          exact Nat.le_add_left 1 7
        | cons second rest =>
          have hzero : (0 : UInt8).toNat = 0 := rfl
          rw [hfirst, toNat_cons 0, hzero, Nat.zero_mul, Nat.zero_add] at hsmall
          rw [hfirst, significant_zero_cons]
          exact ih hsmall
      · rw [significant_cons hfirst, List.length_cons]
        refine Nat.not_lt.1 fun hmany => ?_
        have hpos : 1 ≤ first.toNat := by
          refine Nat.pos_of_ne_zero fun hzero => hfirst (UInt8.toNat_inj.1 hzero)
        have hpower : Nat.pow 256 8 ≤ Nat.pow 256 rest.length :=
          Nat.pow_le_pow_right (by decide) (by omega)
        have hproduct := Nat.mul_le_mul_right (Nat.pow 256 rest.length) hpos
        rw [toNat_cons] at hsmall
        omega

theorem toWord?_eq (maxCount : Nat) (content : Octets) : toWord? maxCount content =
    if content.length ≤ maxCount ∧ toNat content < UInt64.size
    then some (UInt64.ofNat (toNat content)) else none := by
  have hword : toWord64 (significant content) = UInt64.ofNat (toNat content) := by
    rw [← UInt64.toNat_inj, toNat_toWord64, toNat_significant, UInt64.toNat_ofNat']
  have hsmall := length_significant_le content
  rw [toWord?, hword]
  by_cases hfits : content.length ≤ maxCount ∧ toNat content < UInt64.size
  · rw [if_pos hfits, if_neg (by omega)]
  · rw [if_neg hfits, if_pos (by omega)]

theorem word_fits_iff (word : UInt64) : word ≤ 0xFFFFFFFF ↔ word.toNat < UInt32.size := by
  have hbound : (0xFFFFFFFF : UInt64).toNat = UInt32.size - 1 := rfl
  rw [UInt64.le_iff_toNat_le, hbound]
  exact Nat.le_sub_one_iff_lt (by decide)

end Ber.Integer

end Snmp
