/-
  Snmp/Proofs/IntegerContent.lean
  ===============================
  **The contents of integers, written and read.**

  Octets are a bit vector, the first octet on top (`bits`), and a bit vector has two readings:
  as a natural number (`unsigned`) and in two's complement (`signed`).  Neither mentions how
  octets are folded into a number or split off one, so both sides of the codec can be held
  against them.

  What is written for an integer is the one shortest content with its signed reading
  (`IsShortest`); for an unsigned number that is the shortest content with its unsigned reading,
  behind a zero octet if the top bit would count as a sign.  What is read from a content is its
  reading, if the content is not too long and the reading is in the range of the type
  (`ReadsNumbers`); a content that is longer than it has to be is read all the same.

  The writer drops octets from the front of a word, and the reader shifts octets into one; what
  these loops come to is known from their equations with `ofInt` and `toInt`.
-/
import Snmp.Proofs.Elements

namespace Snmp

namespace Octets

/-! ### Octets as a bit vector -/

theorem width_cons (octet : UInt8) (rest : Octets) :
    8 + 8 * rest.length = 8 * (octet :: rest).length := by
  rw [List.length_cons, Nat.mul_succ, Nat.add_comm]

def bits : (octets : Octets) → BitVec (8 * octets.length)
  | [] => 0#0
  | octet :: rest => (octet.toBitVec ++ bits rest).cast (width_cons octet rest)

def unsigned (octets : Octets) : Int := octets.bits.toNat

def signed (octets : Octets) : Int := octets.bits.toInt

theorem toNat_bits (octets : Octets) : octets.bits.toNat = toNat octets := by
  induction octets with
  | nil => rfl
  | cons octet rest ih =>
    rw [bits, BitVec.toNat_cast, BitVec.toNat_append,
      ← Nat.shiftLeft_add_eq_or_of_lt (bits rest).isLt, ih, Nat.shiftLeft_eq, Nat.pow_mul,
      toNat_cons]
    rfl

theorem msb_bits (octets : Octets) : octets.bits.msb = isNegative octets := by
  cases octets with
  | nil => rfl
  | cons octet rest =>
    rw [bits, BitVec.msb_cast, BitVec.msb_append, if_neg (by decide), BitVec.msb_eq_decide]
    rfl

theorem unsigned_eq (octets : Octets) : octets.unsigned = toNat octets := by
  rw [unsigned, toNat_bits]

theorem signed_eq (octets : Octets) : octets.signed = toInt octets := by
  rw [signed, BitVec.toInt_eq_msb_cond, msb_bits, toNat_bits, Nat.pow_mul, toInt_eq]
  rfl

/-! ### Shortest contents -/

/-- A content with the given reading; any other content with this reading is longer. -/
structure IsShortest (reading : Octets → Int) (value : Int) (content : Octets) : Prop where
  present : content ≠ []
  denotes : reading content = value
  shorter : ∀ other : Octets, other ≠ [] → reading other = value → other ≠ content →
    content.length < other.length

theorem IsShortest.unique {reading : Octets → Int} {value : Int} {a b : Octets}
    (ha : IsShortest reading value a) (hb : IsShortest reading value b) : a = b := by
  by_cases hequal : a = b
  · exact hequal
  · have hab := ha.shorter b hb.present hb.denotes (Ne.symm hequal)
    have hba := hb.shorter a ha.present ha.denotes hequal
    omega

theorem isShortest_ofInt (z : Int) : IsShortest signed z (ofInt z) where
  present := ofInt_ne_nil z
  denotes := by rw [signed_eq, toInt_ofInt]
  shorter := by
    intro other hother hreading hne
    rw [signed_eq] at hreading
    have hle := length_ofInt_toInt_le hother
    rw [hreading] at hle
    refine Nat.lt_of_le_of_ne hle fun hlength => hne ?_
    exact eq_of_toInt_eq hlength.symm (by rw [hreading, toInt_ofInt])

theorem isShortest_ofNat (n : Nat) : IsShortest unsigned n (ofNat n) where
  present := List.length_pos_iff.1 (length_ofNat_pos n)
  denotes := by rw [unsigned_eq, toNat_ofNat]
  shorter := by
    intro other hother hreading hne
    have hnat : toNat other = n := by
      rw [unsigned_eq] at hreading
      exact_mod_cast hreading
    have hcount : other.length = other.length - 1 + 1 := by
      have := List.length_pos_iff.2 hother
      omega
    have hbound := toNat_lt other
    rw [hnat, hcount] at hbound
    have hle := length_ofNat_le hbound
    rw [← hcount] at hle
    refine Nat.lt_of_le_of_ne hle fun hlength => hne ?_
    exact eq_of_toNat_eq hlength.symm (by rw [hnat, toNat_ofNat])

/-- In two's complement a natural number is its own octets, behind a zero octet if their top bit
    is set; by induction on the number, an octet at its end at a time. -/
theorem ofInt_natCast (n : Nat) :
    ofInt n = if isNegative (ofNat n) then 0 :: ofNat n else ofNat n := by
  induction n using Nat.strongRecOn with
  | _ n ih =>
    have hoctet : UInt8.ofInt n = UInt8.ofNat n := by
      apply UInt8.toNat_inj.1
      have := toNat_ofInt_octet n
      rw [toNat_ofNat_mod]
      omega
    rw [ofInt, ofNat, hoctet]
    by_cases hsmall : n < 256
    · rw [if_pos hsmall]
      have hsign : isNegative [UInt8.ofNat n] = decide (128 ≤ n) := by
        rw [isNegative, decide_eq_decide, UInt8.le_iff_toNat_le, toNat_ofNat_octet hsmall]
        rfl
      by_cases hpositive : n < 128
      · rw [if_pos (by omega), hsign, decide_eq_false (by omega), if_neg Bool.false_ne_true]
      · have hzero : (n : Int) / 256 = 0 := by omega
        rw [if_neg (by omega), hsign, decide_eq_true (by omega), if_pos rfl, hzero,
          ofInt, if_pos (by decide)]
        rfl
    · have hdiv : (n : Int) / 256 = (n / 256 : Nat) := rfl
      have hmore : isNegative (ofNat (n / 256) ++ [UInt8.ofNat n]) =
          isNegative (ofNat (n / 256)) :=
        isNegative_append (List.length_pos_iff.1 (length_ofNat_pos _)) _
      rw [if_neg hsmall, if_neg (by omega), hdiv, ih (n / 256) (by omega), hmore]
      split <;> rfl

/-- The octets of an unsigned number as an integer are written. -/
def padded (digits : Octets) : Octets := if digits.bits.msb then 0 :: digits else digits

theorem ofInt_of_isShortest {n : Nat} {digits : Octets} (h : IsShortest unsigned n digits) :
    ofInt n = padded digits := by
  rw [h.unique (isShortest_ofNat n), padded, msb_bits, ofInt_natCast]

end Octets

namespace Ber.Decoder

variable {α : Type}

/-! ### Readable contents -/

/-- A decoder of contents takes those of one to `maxCount` octets whose reading is in a range and
    yields this reading; it refuses any other content. -/
structure ReadsNumbers (decoder : Nat → Decoder α) (number : α → Int) (reading : Octets → Int)
    (maxCount : Nat) (low high : Int) : Prop where
  reads : ∀ {content : Octets}, 1 ≤ content.length → content.length ≤ maxCount →
    low ≤ reading content → reading content < high →
    ∃ value, number value = reading content ∧ Reads (decoder content.length) content value
  refuses : ∀ {content : Octets},
    ¬(1 ≤ content.length ∧ content.length ≤ maxCount ∧
      low ≤ reading content ∧ reading content < high) →
    ∀ offset rest, ∃ fault left,
      decoder content.length ⟨offset, content ++ rest⟩ = .error fault left

/-- A content is read if it denotes a number; here this comes to a range of its reading. -/
theorem readsNumbers_number {denoted? : Octets → Option α} {number : α → Int}
    {reading : Octets → Int} {maxCount : Nat} {low high : Int}
    (hsome : ∀ content : Octets, content.length ≤ maxCount → low ≤ reading content →
      reading content < high → ∃ value, denoted? content = some value ∧
        number value = reading content)
    (hnone : ∀ content : Octets, ¬(content.length ≤ maxCount ∧ low ≤ reading content ∧
      reading content < high) → denoted? content = none) :
    ReadsNumbers (Decoder.number denoted?) number reading maxCount low high where
  reads := by
    intro content hpos hcount hlow hhigh
    obtain ⟨value, hvalue, hnumber⟩ := hsome content hcount hlow hhigh
    exact ⟨value, hnumber, reads_number (List.length_pos_iff.1 hpos) hvalue⟩
  refuses := by
    intro content hrange offset rest
    rw [Decoder.number, bind_offset]
    by_cases hempty : content.length = 0
    · simp only [if_pos hempty]
      exact ⟨_, _, rfl⟩
    · have hdenoted := hnone content fun h => hrange ⟨Nat.one_le_iff_ne_zero.2 hempty, h⟩
      simp only [if_neg hempty]
      rw [bind_ok (reads_octets content offset rest), hdenoted]
      exact ⟨_, _, rfl⟩

theorem readsNumbers_integerContent :
    ReadsNumbers integerContent Int32.toInt Octets.signed 8 (-2147483648) 2147483648 := by
  have hmin : Int32.minValue.toInt = -2147483648 := rfl
  have hmax : Int32.maxValue.toInt = 2147483647 := rfl
  refine readsNumbers_number ?_ ?_
  · intro content hcount hlow hhigh
    rw [Octets.signed_eq] at hlow hhigh ⊢
    refine ⟨Int32.ofInt (Octets.toInt content), ?_, Int32.toInt_ofInt_of_le hlow hhigh⟩
    rw [Integer.toInt32?_eq, hmin, hmax, if_pos (by omega)]
  · intro content hrange
    rw [Octets.signed_eq] at hrange
    rw [Integer.toInt32?_eq, hmin, hmax, if_neg (by omega)]

/-- The reader of both unsigned types, by its cap on the octets. -/
theorem readsNumbers_unsignedContent (maxCount : Nat) :
    ReadsNumbers (unsignedContent maxCount) (fun value => value.toNat) Octets.unsigned maxCount 0
      UInt64.size := by
  refine readsNumbers_number ?_ ?_
  · intro content hcount hlow hhigh
    rw [Octets.unsigned_eq] at hlow hhigh ⊢
    refine ⟨UInt64.ofNat (Octets.toNat content), ?_, ?_⟩
    · rw [Integer.toWord?_eq, if_pos (by omega)]
    · rw [UInt64.toNat_ofNat_of_lt' (by omega)]
  · intro content hrange
    rw [Octets.unsigned_eq] at hrange
    rw [Integer.toWord?_eq, if_neg (by omega)]

/-- A number is cut to 32 bits if it fits in them. -/
theorem readsNumbers_unsigned32Content :
    ReadsNumbers unsigned32Content (fun value => value.toNat) Octets.unsigned 5 0 UInt32.size where
  reads := by
    intro content hpos hcount hlow hhigh
    have hsizes : UInt32.size < UInt64.size := by decide
    obtain ⟨word, hword, hreads⟩ :=
      (readsNumbers_unsignedContent 5).reads hpos hcount hlow (by omega)
    have hfits : word.toNat < UInt32.size := by omega
    refine ⟨word.toUInt32, ?_, Reads.of_offset ?_⟩
    · rw [← hword, UInt64.toNat_toUInt32]
      exact congrArg Int.ofNat (Nat.mod_eq_of_lt hfits)
    · intro start offset rest
      rw [bind_ok (hreads offset rest), if_pos ((Integer.word_fits_iff word).2 hfits)]
      rfl
  refuses := by
    intro content hrange offset rest
    rw [unsigned32Content, bind_offset]
    by_cases hword : 1 ≤ content.length ∧ content.length ≤ 5 ∧ 0 ≤ content.unsigned ∧
        content.unsigned < UInt64.size
    · obtain ⟨hpos, hcount, hlow, hhigh⟩ := hword
      obtain ⟨word, hword, hreads⟩ :=
        (readsNumbers_unsignedContent 5).reads hpos hcount hlow hhigh
      have hlarge : ¬word.toNat < UInt32.size := by omega
      rw [bind_ok (hreads offset rest), if_neg (mt (Integer.word_fits_iff word).1 hlarge)]
      exact ⟨_, _, rfl⟩
    · obtain ⟨fault, left, herror⟩ :=
        (readsNumbers_unsignedContent 5).refuses hword offset rest
      exact ⟨fault, left, bind_error herror⟩

theorem readsNumbers_unsigned64Content :
    ReadsNumbers unsigned64Content (fun value => value.toNat) Octets.unsigned 9 0 UInt64.size where
  reads := by
    intro content hpos hcount hlow hhigh
    obtain ⟨word, hword, hreads⟩ :=
      (readsNumbers_unsignedContent 9).reads hpos hcount hlow hhigh
    refine ⟨word, hword, Reads.of_offset ?_⟩
    intro start
    simp only [if_neg (Nat.not_lt.2 hcount)]
    exact hreads
  refuses := by
    intro content hrange offset rest
    rw [unsigned64Content, bind_offset]
    by_cases hlong : 9 < content.length
    · simp only [if_pos hlong]
      exact ⟨_, _, rfl⟩
    · simp only [if_neg hlong]
      exact (readsNumbers_unsignedContent 9).refuses hrange offset rest

/-! ### Written and read -/

/-- A push puts a content under a tag in front; the content is the shortest one of the number,
    and a decoder of contents reads it back. -/
structure WritesNumber (push : Writer → Writer) (tag : Tag) (number : Int)
    (decoder : Nat → Decoder α) (value : α) (content : Octets) : Prop where
  octets : ∀ w : Writer, (push w).octets = element tag content ++ w.octets
  shortest : Octets.IsShortest Octets.signed number content
  reads : Reads (decoder content.length) content value

/-- **Integers are written in their shortest form and read by their value.**  A signed integer is
    written as its shortest two's complement, an unsigned one as the shortest octets of the
    number, padded where their top bit would be a sign, which is its shortest two's complement
    too.  Each decoder yields the number that a content denotes, for a signed integer in two's
    complement and for an unsigned one without a sign, padded or not, and refuses exactly the
    contents that are empty, too long or out of range.  The words through which
    the octets are shifted have room for every content that is accepted. -/
theorem integers_exact :
    (∀ value : Int32, ∃ content,
      WritesNumber (Writer.pushInteger value) Tag.integer value.toInt integerContent value
        content) ∧
    (∀ (tag : Tag) (value : UInt32), ∃ digits,
      Octets.IsShortest Octets.unsigned value.toNat digits ∧
      WritesNumber (Writer.pushUnsigned32 tag value) tag value.toNat unsigned32Content value
        (Octets.padded digits)) ∧
    (∀ value : UInt64, ∃ digits, Octets.IsShortest Octets.unsigned value.toNat digits ∧
      WritesNumber (Writer.pushUnsigned64 value) Tag.counter64 value.toNat unsigned64Content value
        (Octets.padded digits)) ∧
    ReadsNumbers integerContent Int32.toInt Octets.signed 8 (-2147483648) 2147483648 ∧
    ReadsNumbers unsigned32Content (fun value => value.toNat) Octets.unsigned 5 0 UInt32.size ∧
    ReadsNumbers unsigned64Content (fun value => value.toNat) Octets.unsigned 9 0 UInt64.size := by
  refine ⟨?_, ?_, ?_, readsNumbers_integerContent, readsNumbers_unsigned32Content,
    readsNumbers_unsigned64Content⟩
  · intro value
    exact ⟨Octets.ofInt value.toInt, Writer.octets_pushInteger value,
      Octets.isShortest_ofInt _, reads_integerContent value⟩
  · intro tag value
    have hdigits := Octets.isShortest_ofNat value.toNat
    refine ⟨Octets.ofNat value.toNat, hdigits, ?_⟩
    rw [← Octets.ofInt_of_isShortest hdigits]
    exact ⟨Writer.octets_pushUnsigned32 tag value, Octets.isShortest_ofInt _,
      reads_unsigned32Content value⟩
  · intro value
    have hdigits := Octets.isShortest_ofNat value.toNat
    refine ⟨Octets.ofNat value.toNat, hdigits, ?_⟩
    rw [← Octets.ofInt_of_isShortest hdigits]
    exact ⟨Writer.octets_pushUnsigned64 value, Octets.isShortest_ofInt _,
      reads_unsigned64Content value⟩

end Ber.Decoder

end Snmp
