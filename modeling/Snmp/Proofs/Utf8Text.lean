/-
  Snmp/Proofs/Utf8Text.lean
  =========================
  **Which octets are text, and what lossy reading makes of the others.**

  The octets of a text are read back as this text (`decodeLossy_encode`), by the number of octets
  that a character takes.  So lossy reading and writing again returns octets unchanged exactly if
  they are the octets of a text (`IsText`).  Other octets come back as others, and as up to three
  times as many: one that is ill-formed becomes a character of three octets.
-/
import Snmp.Proofs.Numbers
import Snmp.Text.Utf8

namespace Snmp.Text.Utf8

/-- The octets are the UTF-8 form of some text. -/
def IsText (octets : Octets) : Prop := ∃ text, encode text = octets

/-! ### Lead octets -/

theorem lead_ofNat {n : Nat} (h : n < 256) : lead (UInt8.ofNat n) =
    if n < 0x80 then .complete (Char.ofNat n)
    else if n < 0xC2 then .illFormed
    else if n < 0xE0 then .incomplete ⟨n - 0xC0, 0, 0x80, 0xBF⟩
    else if n = 0xE0 then .incomplete ⟨0, 1, 0xA0, 0xBF⟩
    else if n = 0xED then .incomplete ⟨0xD, 1, 0x80, 0x9F⟩
    else if n < 0xF0 then .incomplete ⟨n - 0xE0, 1, 0x80, 0xBF⟩
    else if n = 0xF0 then .incomplete ⟨0, 2, 0x90, 0xBF⟩
    else if n < 0xF4 then .incomplete ⟨n - 0xF0, 2, 0x80, 0xBF⟩
    else if n = 0xF4 then .incomplete ⟨4, 2, 0x80, 0x8F⟩
    else .illFormed := by
  simp only [lead, Octets.toNat_ofNat_octet h]

theorem lead_two {bits : Nat} (hleast : 2 ≤ bits) (hbits : bits < 32) :
    lead (UInt8.ofNat (bits + 0xC0)) = .incomplete ⟨bits, 0, 0x80, 0xBF⟩ := by
  rw [lead_ofNat (by omega), if_neg (by omega), if_neg (by omega), if_pos (by omega),
    Nat.add_sub_cancel]

/-- The bounds on the octet after the lead exclude overlong forms and surrogates, so they hold
    for the bits of a character. -/
theorem lead_three (bits second : Nat) (hbits : bits < 16) (hsecond : second < 64)
    (hlong : bits = 0 → 32 ≤ second) (hplain : bits = 13 → second < 32) :
    ∃ least greatest, lead (UInt8.ofNat (bits + 0xE0)) = .incomplete ⟨bits, 1, least, greatest⟩ ∧
      least.toNat ≤ second + 128 ∧ second + 128 ≤ greatest.toNat := by
  by_cases hzero : bits = 0
  · have := hlong hzero
    subst hzero
    exact ⟨0xA0, 0xBF, rfl, show 160 ≤ _ by omega, show _ ≤ 191 by omega⟩
  by_cases hsurrogate : bits = 13
  · have := hplain hsurrogate
    subst hsurrogate
    exact ⟨0x80, 0x9F, rfl, show 128 ≤ _ by omega, show _ ≤ 159 by omega⟩
  refine ⟨0x80, 0xBF, ?_, show 128 ≤ _ by omega, show _ ≤ 191 by omega⟩
  rw [lead_ofNat (by omega), if_neg (by omega), if_neg (by omega), if_neg (by omega),
    if_neg (by omega), if_neg (by omega), if_pos (by omega), Nat.add_sub_cancel]

/-- The bounds on the octet after the lead exclude overlong forms and numbers above U+10FFFF. -/
theorem lead_four (bits second : Nat) (hbits : bits < 5) (hsecond : second < 64)
    (hlong : bits = 0 → 16 ≤ second) (hlast : bits = 4 → second < 16) :
    ∃ least greatest, lead (UInt8.ofNat (bits + 0xF0)) = .incomplete ⟨bits, 2, least, greatest⟩ ∧
      least.toNat ≤ second + 128 ∧ second + 128 ≤ greatest.toNat := by
  by_cases hzero : bits = 0
  · have := hlong hzero
    subst hzero
    exact ⟨0x90, 0xBF, rfl, show 144 ≤ _ by omega, show _ ≤ 191 by omega⟩
  by_cases hfour : bits = 4
  · have := hlast hfour
    subst hfour
    exact ⟨0x80, 0x8F, rfl, show 128 ≤ _ by omega, show _ ≤ 143 by omega⟩
  refine ⟨0x80, 0xBF, ?_, show 128 ≤ _ by omega, show _ ≤ 191 by omega⟩
  rw [lead_ofNat (by omega), if_neg (by omega), if_neg (by omega), if_neg (by omega),
    if_neg (by omega), if_neg (by omega), if_neg (by omega), if_neg (by omega), if_pos (by omega),
    Nat.add_sub_cancel]

/-! ### Characters -/

theorem scan_complete {n : Nat} (h : n < 128) (rest : Octets) :
    scan none (UInt8.ofNat n :: rest) = some (Char.ofNat n) :: scan none rest := by
  rw [scan, lead_ofNat (by omega), if_pos h]

theorem scan_incomplete {octet : UInt8} {p : Partial} (h : lead octet = .incomplete p)
    (rest : Octets) : scan none (octet :: rest) = scan (some p) rest := by
  rw [scan, h]

theorem octet_within {least greatest : UInt8} {more : Nat} (hmore : more < 64)
    (hleast : least.toNat ≤ more + 128) (hgreatest : more + 128 ≤ greatest.toNat) :
    least ≤ UInt8.ofNat (more + 128) ∧ UInt8.ofNat (more + 128) ≤ greatest := by
  rw [UInt8.le_iff_toNat_le, UInt8.le_iff_toNat_le, Octets.toNat_ofNat_octet (by omega)]
  exact ⟨hleast, hgreatest⟩

theorem bits_octet {more : Nat} (hmore : more < 64) :
    (UInt8.ofNat (more + 128)).toNat % 64 = more := by
  rw [Octets.toNat_ofNat_octet (by omega)]
  omega

/-- The last octet of a character. -/
theorem scan_last {bits more : Nat} {least greatest : UInt8} (hmore : more < 64)
    (hleast : least.toNat ≤ more + 128) (hgreatest : more + 128 ≤ greatest.toNat)
    (rest : Octets) :
    scan (some ⟨bits, 0, least, greatest⟩) (UInt8.ofNat (more + 128) :: rest) =
      some (Char.ofNat (bits * 64 + more)) :: scan none rest := by
  simp only [scan, octet_within hmore hleast hgreatest, bits_octet hmore, and_self, if_true]

/-- An octet between the lead octet of a character and its last. -/
theorem scan_later {bits later more : Nat} {least greatest : UInt8} (hmore : more < 64)
    (hleast : least.toNat ≤ more + 128) (hgreatest : more + 128 ≤ greatest.toNat)
    (rest : Octets) :
    scan (some ⟨bits, later + 1, least, greatest⟩) (UInt8.ofNat (more + 128) :: rest) =
      scan (some ⟨bits * 64 + more, later, 0x80, 0xBF⟩) rest := by
  simp only [scan, octet_within hmore hleast hgreatest, bits_octet hmore, and_self, if_true]

/-- The octets of a character are read as this character, whatever follows them.  The cases are
    those of the encoding: one to four octets. -/
theorem scan_utf8EncodeChar (c : Char) (rest : Octets) :
    scan none (String.utf8EncodeChar c ++ rest) = some c :: scan none rest := by
  have hchar : Char.ofNat c.val.toNat = c := Char.ofNat_toNat c
  have hvalid : c.val.toNat < 0xD800 ∨ 0xDFFF < c.val.toNat ∧ c.val.toNat < 0x110000 := c.valid
  simp only [String.utf8EncodeChar]
  generalize c.val.toNat = n at hchar hvalid ⊢
  have hsix (m : Nat) : m % 64 < 64 := Nat.mod_lt m (by decide)
  split
  · rw [List.singleton_append, scan_complete (by omega), hchar]
  split
  · have hlead := lead_two (show 2 ≤ n / 64 % 32 by omega) (by omega)
    have hbits : n / 64 % 32 * 64 + n % 64 = n := by omega
    simp only [List.cons_append, List.nil_append]
    rw [scan_incomplete hlead, scan_last (hsix n) (show 128 ≤ _ by omega) (show _ ≤ 191 by omega),
      hbits, hchar]
  split
  · obtain ⟨least, greatest, hlead, hleast, hgreatest⟩ :=
      lead_three (n / 4096 % 16) (n / 64 % 64) (by omega) (hsix _) (by omega) (by omega)
    have hbits : (n / 4096 % 16 * 64 + n / 64 % 64) * 64 + n % 64 = n := by omega
    simp only [List.cons_append, List.nil_append]
    rw [scan_incomplete hlead, scan_later (hsix _) hleast hgreatest,
      scan_last (hsix n) (show 128 ≤ _ by omega) (show _ ≤ 191 by omega), hbits, hchar]
  · obtain ⟨least, greatest, hlead, hleast, hgreatest⟩ :=
      lead_four (n / 262144 % 8) (n / 4096 % 64) (by omega) (hsix _) (by omega) (by omega)
    have hbits : ((n / 262144 % 8 * 64 + n / 4096 % 64) * 64 + n / 64 % 64) * 64 + n % 64 = n := by
      omega
    simp only [List.cons_append, List.nil_append]
    rw [scan_incomplete hlead, scan_later (hsix _) hleast hgreatest,
      scan_later (hsix _) (show 128 ≤ _ by omega) (show _ ≤ 191 by omega),
      scan_last (hsix n) (show 128 ≤ _ by omega) (show _ ≤ 191 by omega), hbits, hchar]

/-! ### Texts -/

/-- The octets of a text are those of its characters. -/
theorem encode_ofList (characters : List Char) :
    encode (String.ofList characters) = characters.flatMap String.utf8EncodeChar := by
  rw [encode, String.toUTF8_eq_toByteArray, String.toByteArray_ofList, List.utf8Encode]
  simp

theorem scan_flatMap (characters : List Char) :
    scan none (characters.flatMap String.utf8EncodeChar) = characters.map some := by
  induction characters with
  | nil => rfl
  | cons c rest ih => rw [List.flatMap_cons, scan_utf8EncodeChar, ih, List.map_cons]

theorem decodeLossy_encode (text : String) : decodeLossy (encode text) = text := by
  have htext : String.ofList text.toList = text := String.ofList_toList
  have hsome : (fun c? : Option Char => c?.getD '\uFFFD') ∘ some = id := rfl
  rw [← htext, encode_ofList, decodeLossy, scan_flatMap, List.map_map, hsome, List.map_id]

/-- Lossy reading loses nothing exactly if there is a text to read. -/
theorem encode_decodeLossy_iff (octets : Octets) :
    encode (decodeLossy octets) = octets ↔ IsText octets := by
  constructor
  · exact fun h => ⟨decodeLossy octets, h⟩
  · rintro ⟨text, rfl⟩
    rw [decodeLossy_encode]

theorem encode_append (a b : String) : encode (a ++ b) = encode a ++ encode b := by
  simp [encode]

theorem length_encode_le (text : String) : (encode text).length ≤ 4 * text.length := by
  have htext : String.ofList text.toList = text := String.ofList_toList
  rw [← htext, encode_ofList, String.length_ofList]
  induction text.toList with
  | nil => exact Nat.le_refl _
  | cons c rest ih =>
    rw [List.flatMap_cons, List.length_append, String.length_utf8EncodeChar, List.length_cons]
    have hsize := Char.utf8Size_le_four c
    omega

/-! ### How much longer octets become -/

/-- The octets of what was scanned. -/
def written (characters : List (Option Char)) : Octets :=
  (characters.map (·.getD '\uFFFD')).flatMap String.utf8EncodeChar

theorem length_written_cons (c? : Option Char) (rest : List (Option Char)) :
    (written (c? :: rest)).length = (c?.getD '\uFFFD').utf8Size + (written rest).length := by
  rw [written, List.map_cons, List.flatMap_cons, List.length_append,
    String.length_utf8EncodeChar, written]

theorem utf8Size_of_lt {n : Nat} (h : n < 128) : (Char.ofNat n).utf8Size = 1 := by
  have hvalid : n.isValidChar := .inl (by omega)
  rw [Char.utf8Size_eq_one_iff, Char.ofNat, dif_pos hvalid, UInt32.le_iff_toNat_le]
  exact Nat.le_of_lt_succ h

theorem utf8Size_of_complete {octet : UInt8} {c : Char} (h : lead octet = .complete c) :
    c.utf8Size = 1 := by
  simp only [lead] at h
  split at h
  · next hlow =>
    cases h
    exact utf8Size_of_lt hlow
  · repeat' split at h
    all_goals contradiction

/-- An ill-formed octet becomes three, and a character that takes four has not one octet.  By
    induction on the octets; the character that is pending has taken at least one before them. -/
theorem length_written_scan_le (octets : Octets) :
    (written (scan none octets)).length ≤ 3 * octets.length ∧
    ∀ p, (written (scan (some p) octets)).length ≤ 3 * octets.length + 3 := by
  have hreplaced : '\uFFFD'.utf8Size = 3 := by decide
  induction octets with
  | nil =>
    refine ⟨Nat.le_refl _, fun p => ?_⟩
    rw [scan, length_written_cons, Option.getD_none, hreplaced]
    exact Nat.le_refl _
  | cons octet rest ih =>
    obtain ⟨hnone, hsome⟩ := ih
    have hfirst : (written (scan none (octet :: rest))).length ≤ 3 * (octet :: rest).length := by
      rw [scan, List.length_cons]
      cases hlead : lead octet with
      | complete c =>
        simp only [length_written_cons, Option.getD_some, utf8Size_of_complete hlead]
        omega
      | incomplete p =>
        exact hsome p
      | illFormed =>
        simp only [length_written_cons, Option.getD_none, hreplaced]
        omega
    refine ⟨hfirst, fun p => ?_⟩
    by_cases hwithin : p.least ≤ octet ∧ octet ≤ p.greatest
    · rw [scan, if_pos hwithin, List.length_cons]
      have hsize := fun n => Char.utf8Size_le_four (Char.ofNat n)
      cases hlater : p.later with
      | zero =>
        simp only [length_written_cons, Option.getD_some]
        have := hsize (p.bits * 64 + octet.toNat % 64)
        omega
      | succ later =>
        have := hsome ⟨p.bits * 64 + octet.toNat % 64, later, 0x80, 0xBF⟩
        simp only
        omega
    · have hscan : scan (some p) (octet :: rest) = none :: scan none (octet :: rest) := by
        simp only [scan, if_neg hwithin]
      rw [hscan, length_written_cons, Option.getD_none, hreplaced]
      omega

/-- Lossy reading makes of octets at most three times as many. -/
theorem length_encode_decodeLossy_le (octets : Octets) :
    (encode (decodeLossy octets)).length ≤ 3 * octets.length := by
  rw [decodeLossy, encode_ofList]
  exact (length_written_scan_le octets).1

/-- The octet FF is ill-formed anywhere, so octets do become three times as many. -/
theorem length_encode_decodeLossy_replicate (count : Nat) :
    (encode (decodeLossy (List.replicate count 0xFF))).length = 3 * count := by
  have hscan : scan none (List.replicate count 0xFF) = List.replicate count none := by
    induction count with
    | zero => rfl
    | succ count ih =>
      have hlead : lead 0xFF = .illFormed := rfl
      rw [List.replicate_succ, List.replicate_succ, ← ih, scan, hlead]
  have hreplaced : (String.utf8EncodeChar '\uFFFD').length = 3 := by decide
  rw [decodeLossy, encode_ofList, hscan, List.map_replicate, List.flatMap_replicate,
    List.length_flatten, List.map_replicate, List.sum_replicate_nat, Option.getD_none, hreplaced,
    Nat.mul_comm]

end Snmp.Text.Utf8
