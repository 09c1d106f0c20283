/-
  Snmp/Proofs/LengthOctets.lean
  =============================
  **Length octets, written and read.**

  A length has many definite forms (`IsDefinite`), since a number may be padded.  What is written
  is the shortest of them (`encode`), turned around (`reverse_pushed`), and every other one is
  longer (`IsShortest`).  What is read is any of them that has no more than four octets for the
  number, at the beginning of the octets and with anything behind it (`decode_eq_ok_iff`).

  So the two sides meet below 2^32: a shorter length is read back, and of a longer one so many
  octets are written that the reader refuses to count them.
-/
import Snmp.Ber.Length
import Snmp.Proofs.Numbers

namespace Snmp.Ber.Length

/-! ### Writing -/

/-- The shortest definite form of a length, from left to right. -/
def encode (length : Nat) : Octets :=
  if length < 128 then [UInt8.ofNat length]
  else
    let number := Octets.ofNat length
    (0x80 ||| UInt8.ofNat number.length) :: number

/-- By induction on the number: what is left after an octet is the number without its last
    digit. -/
theorem reverse_lowestOctets {n : Nat} (hn : n ≠ 0) :
    (lowestOctets n).reverse = Octets.ofNat n := by
  fun_induction lowestOctets n with
  | case1 => contradiction
  | case2 n _ ih =>
    have hoctet : UInt8.ofNat (n &&& 0xFF) = UInt8.ofNat n := by
      have hmask : 0xFF = 2 ^ 8 - 1 := rfl
      apply UInt8.toNat_inj.1
      rw [hmask, Nat.and_two_pow_sub_one_eq_mod, Octets.toNat_ofNat_mod, Octets.toNat_ofNat_mod]
      exact Nat.mod_mod n 256
    have hdigits : n >>> 8 = n / 256 := Nat.shiftRight_eq_div_pow n 8
    rw [List.reverse_cons, hoctet, Octets.ofNat]
    by_cases hlast : n < 256
    · have hdone : n >>> 8 = 0 := by rw [hdigits, Nat.div_eq_of_lt hlast]
      rw [if_pos hlast, hdone, lowestOctets, if_pos rfl, List.reverse_nil, List.nil_append]
    · rw [if_neg hlast, ih (by omega), hdigits]

/-- What is pushed is the shortest form, the last octet first. -/
theorem reverse_pushed (length : Nat) : (pushed length).reverse = encode length := by
  rw [pushed, encode]
  by_cases hshort : length < 128
  · rw [if_pos hshort, if_pos hshort, List.reverse_singleton]
  · have hnumber := reverse_lowestOctets (n := length) (by omega)
    have hcount : (lowestOctets length).length = (Octets.ofNat length).length := by
      rw [← hnumber, List.length_reverse]
    simp only [if_neg hshort]
    rw [List.reverse_append, List.reverse_singleton, hnumber, hcount, List.singleton_append]

/-- The mark of a number's count does not touch the count. -/
theorem toNat_or_mark {count : Nat} (h : count < 128) :
    (0x80 ||| UInt8.ofNat count).toNat = 128 + count := by
  have hmark : (0x80 : UInt8).toNat = 2 ^ 7 * 1 := rfl
  rw [UInt8.toNat_or, hmark, Octets.toNat_ofNat_octet (by omega), ← Nat.two_pow_add_eq_or_of_lt h]

/-- Octets are a definite form of a length: one octet below 128, or an octet that counts the
    ones that follow, 126 at the most, and these denote the length in base 256. -/
inductive IsDefinite (length : Nat) : Octets → Prop
  | short {octet : UInt8} (short : octet.toNat < 128) (denotes : octet.toNat = length) :
      IsDefinite length [octet]
  | long {count : UInt8} {number : Octets} (counts : count.toNat = 128 + number.length)
      (present : number ≠ []) (unreserved : number.length ≤ 126)
      (denotes : Octets.toNat number = length) : IsDefinite length (count :: number)

structure IsShortest (length : Nat) (octets : Octets) : Prop where
  definite : IsDefinite length octets
  shorter : ∀ other, IsDefinite length other → other ≠ octets → octets.length < other.length

/-- A number is written in no fewer octets than `Octets.ofNat` takes, and in as many only in
    this way. -/
theorem length_ofNat_lt {number : Octets} (hpresent : number ≠ [])
    (hother : number ≠ Octets.ofNat (Octets.toNat number)) :
    (Octets.ofNat (Octets.toNat number)).length < number.length := by
  have hle : (Octets.ofNat (Octets.toNat number)).length ≤ number.length := by
    obtain ⟨k, hk⟩ : ∃ k, number.length = k + 1 :=
      Nat.exists_eq_add_one.2 (List.length_pos_iff.2 hpresent)
    have hlt := Octets.toNat_lt number
    rw [hk] at hlt ⊢
    exact Octets.length_ofNat_le hlt
  refine Nat.lt_of_le_of_ne hle fun hlength => hother ?_
  exact Octets.eq_of_toNat_eq hlength.symm (Octets.toNat_ofNat _).symm

theorem isDefinite_encode {length : Nat} (h : length < Nat.pow 256 126) :
    IsDefinite length (encode length) := by
  rw [encode]
  split
  · next hshort =>
    have hoctet : (UInt8.ofNat length).toNat = length := Octets.toNat_ofNat_octet (by omega)
    exact .short (hoctet.symm ▸ hshort) hoctet
  · have hcount : (Octets.ofNat length).length ≤ 126 := Octets.length_ofNat_le (k := 125) h
    refine .long (toNat_or_mark (by omega)) ?_ hcount (Octets.toNat_ofNat length)
    exact List.length_pos_iff.1 (Octets.length_ofNat_pos length)

/-- By the form of the other octets: a short one is the only one below 128, and a long one has
    more digits. -/
theorem IsDefinite.length_encode_lt {length : Nat} {other : Octets}
    (hother : IsDefinite length other) (hne : other ≠ encode length) :
    (encode length).length < other.length := by
  cases hother with
  | @short octet short denotes =>
    have hshort : length < 128 := denotes ▸ short
    rw [encode, if_pos hshort, ← denotes, UInt8.ofNat_toNat] at hne
    contradiction
  | @long count number counts present unreserved denotes =>
    have hpos := List.length_pos_iff.2 present
    rw [encode] at hne ⊢
    split
    · simp only [List.length_cons, List.length_nil]
      omega
    · next hlong =>
      have hmark : 0x80 ||| UInt8.ofNat number.length = count := by
        apply UInt8.toNat_inj.1
        rw [toNat_or_mark (by omega), counts]
      rw [if_neg hlong, ← denotes] at hne
      rw [← denotes, List.length_cons, List.length_cons]
      refine Nat.add_lt_add_right (length_ofNat_lt present fun heq => hne ?_) 1
      simp only [← heq, hmark]

theorem IsDefinite.length_encode_le {length : Nat} {other : Octets}
    (hother : IsDefinite length other) : (encode length).length ≤ other.length := by
  by_cases hsame : other = encode length
  · exact Nat.le_of_eq (congrArg List.length hsame.symm)
  · exact Nat.le_of_lt (hother.length_encode_lt hsame)

theorem isShortest_encode {length : Nat} (h : length < Nat.pow 256 126) :
    IsShortest length (encode length) where
  definite := isDefinite_encode h
  shorter := fun _ hother hne => hother.length_encode_lt hne

/-! ### Reading -/

variable {octets : Octets} {length used : Nat}

theorem decode_short {first : UInt8} (hshort : first.toNat < 128) (rest : Octets) :
    decode (first :: rest) = .ok (first.toNat, 1) := by
  have hform : first < 128 := UInt8.lt_iff_toNat_lt.2 hshort
  rw [decode, if_pos hform]

theorem decode_indefinite (rest : Octets) : decode (128 :: rest) = .error .indefiniteLength := rfl

/-- A first octet that counts the octets of the number. -/
theorem decode_counted {first : UInt8} {count : Nat} (hfirst : first.toNat = 128 + count)
    (hpos : 0 < count) (rest : Octets) :
    decode (first :: rest) =
      if maxOctets < count then .error (.lengthTooLong count)
      else if count ≤ rest.length then .ok (Octets.toNat (rest.take count), 1 + count)
      else .error .truncatedData := by
  have hmark : (128 : UInt8).toNat = 128 := rfl
  have hlong : ¬first < 128 := by
    rw [UInt8.lt_iff_toNat_lt, hmark]
    omega
  have hdefinite : first ≠ 128 := by
    rw [ne_eq, ← UInt8.toNat_inj, hmark]
    omega
  have hcount : first.toNat - 128 = count := by omega
  simp only [decode, if_neg hlong, if_neg hdefinite, hcount, Octets.covers_eq_decide,
    decide_eq_true_eq]

theorem exists_isDefinite_of_decode (h : decode octets = .ok (length, used)) :
    ∃ head rest, octets = head ++ rest ∧ IsDefinite length head ∧ head.length = used ∧
      used ≤ 1 + maxOctets := by
  have hmax : maxOctets = 4 := rfl
  cases octets with
  | nil => contradiction
  | cons first rest =>
    rcases Nat.lt_trichotomy first.toNat 128 with hshort | hmark | hlong
    · rw [decode_short hshort] at h
      cases h
      exact ⟨[first], rest, rfl, .short hshort rfl, rfl, by omega⟩
    · have hfirst : first = 128 := UInt8.toNat_inj.1 hmark
      rw [hfirst, decode_indefinite] at h
      contradiction
    · obtain ⟨count, hcount⟩ : ∃ count, first.toNat = 128 + count :=
        Nat.exists_eq_add_of_le (Nat.le_of_lt hlong)
      rw [decode_counted hcount (by omega)] at h
      by_cases hmany : maxOctets < count
      · rw [if_pos hmany] at h
        contradiction
      by_cases hpresent : count ≤ rest.length
      · rw [if_neg hmany, if_pos hpresent] at h
        cases h
        have hnumber : (rest.take count).length = count := List.length_take_of_le hpresent
        refine ⟨first :: rest.take count, rest.drop count, ?_, ?_, ?_, by omega⟩
        · rw [List.cons_append, List.take_append_drop]
        · have hnonempty : rest.take count ≠ [] := List.length_pos_iff.1 (by omega)
          exact .long (by rw [hnumber, hcount]) hnonempty (by omega) rfl
        · rw [List.length_cons, hnumber, Nat.add_comm]
      · rw [if_neg hmany, if_neg hpresent] at h
        contradiction

theorem IsDefinite.decode_append {head : Octets} (h : IsDefinite length head)
    (hfew : head.length ≤ 1 + maxOctets) (rest : Octets) :
    decode (head ++ rest) = .ok (length, head.length) := by
  cases h with
  | short hshort hdenotes =>
    rw [List.singleton_append, decode_short hshort, hdenotes, List.length_singleton]
  | long hcounts hpresent _ hdenotes =>
    rw [List.length_cons, Nat.add_comm] at hfew
    rw [List.cons_append, decode_counted hcounts (List.length_pos_iff.2 hpresent),
      if_neg (by omega), if_pos (by simp), List.take_left, hdenotes, List.length_cons,
      Nat.add_comm]

/-- Exactly the definite forms with few enough octets are read, whatever follows them. -/
theorem decode_eq_ok_iff : decode octets = .ok (length, used) ↔
    ∃ head rest, octets = head ++ rest ∧ IsDefinite length head ∧ head.length = used ∧
      used ≤ 1 + maxOctets := by
  refine ⟨exists_isDefinite_of_decode, ?_⟩
  rintro ⟨head, rest, rfl, hdefinite, rfl, hfew⟩
  exact hdefinite.decode_append hfew rest

/-- Octets behind the length octets do not touch the length that is read from them. -/
theorem decode_append_of_eq_ok {number : Octets} {found : Nat × Nat}
    (h : decode number = .ok found) (rest : Octets) : decode (number ++ rest) = .ok found := by
  obtain ⟨head, more, rfl, hdefinite, hused, hfew⟩ := decode_eq_ok_iff.1 h
  rw [List.append_assoc]
  exact decode_eq_ok_iff.2 ⟨head, more ++ rest, rfl, hdefinite, hused, hfew⟩

/-- Only the length octets themselves count for the length that is read from them. -/
theorem decode_take (h : decode octets = .ok (length, used)) :
    (octets.take used).length = used ∧ decode (octets.take used) = .ok (length, used) := by
  obtain ⟨head, rest, rfl, hdefinite, rfl, hfew⟩ := decode_eq_ok_iff.1 h
  rw [List.take_left]
  exact ⟨rfl, decode_eq_ok_iff.2 ⟨head, [], (List.append_nil head).symm, hdefinite, rfl, hfew⟩⟩

theorem length_encode_le_of_decode {number : Octets}
    (h : decode number = .ok (length, number.length)) :
    (encode length).length ≤ number.length := by
  obtain ⟨head, rest, -, hdefinite, hlength, -⟩ := decode_eq_ok_iff.1 h
  exact hlength ▸ hdefinite.length_encode_le

/-! ### Written and read -/

theorem length_encode_le {n k : Nat} (h : n < Nat.pow 256 (k + 1)) :
    (encode n).length ≤ k + 2 := by
  rw [encode]
  split
  · exact Nat.le_add_left 1 (k + 1)
  · exact Nat.succ_le_succ (Octets.length_ofNat_le h)

/-- A length below 2^32 is read back, and only its own octets are looked at. -/
theorem decode_append {n : Nat} (h : n < UInt32.size) (rest : Octets) :
    decode (encode n ++ rest) = .ok (n, (encode n).length) := by
  have hbound : n < Nat.pow 256 126 := Nat.lt_trans h (by decide)
  exact (isDefinite_encode hbound).decode_append (length_encode_le (k := 3) h) rest

/-- A length that is written is not read if it needs more than four octets, as long as it needs
    so few that their number can be written. -/
theorem decode_encode_of_long {n : Nat} (hlong : UInt32.size ≤ n) (hn : n < UInt64.size)
    (rest : Octets) :
    decode (encode n ++ rest) = .error (.lengthTooLong (Octets.ofNat n).length) := by
  have hsize : UInt32.size = Nat.pow 256 4 := rfl
  have hfew : (Octets.ofNat n).length ≤ 8 := Octets.length_ofNat_le (k := 7) hn
  have hmany : maxOctets < (Octets.ofNat n).length := by
    apply Decidable.byContradiction
    intro hshort
    have hlt := Octets.toNat_lt (Octets.ofNat n)
    rw [Octets.toNat_ofNat] at hlt
    have hpow : Nat.pow 256 (Octets.ofNat n).length ≤ Nat.pow 256 4 :=
      Nat.pow_le_pow_right (by decide) (Nat.le_of_not_lt hshort)
    omega
  have hfirst : (0x80 ||| UInt8.ofNat (Octets.ofNat n).length).toNat =
      128 + (Octets.ofNat n).length := toNat_or_mark (by omega)
  have hlarge : ¬n < 128 := by
    have hbound : 128 ≤ UInt32.size := by decide
    omega
  rw [encode, if_neg hlarge, List.cons_append,
    decode_counted hfirst (Octets.length_ofNat_pos n), if_pos hmany]

theorem lt_of_decode_encode {n count used : Nat} {rest : Octets} (hn : n < UInt64.size)
    (h : decode (encode n ++ rest) = .ok (count, used)) : n < UInt32.size := by
  apply Decidable.byContradiction
  intro hlarge
  rw [decode_encode_of_long (Nat.not_lt.1 hlarge) hn] at h
  contradiction

end Snmp.Ber.Length
