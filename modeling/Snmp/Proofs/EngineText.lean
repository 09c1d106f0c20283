/-
  Snmp/Proofs/EngineText.lean
  ===========================
  **The texts that are read as engine identifiers.**

  A text is read by pairs of characters, perhaps behind `0x`.  A pair is two hexadecimal digits
  (`IsHexPair`), but it may also be a plus and one digit (`IsPlusPair`), because each pair is
  read as a number of its own.  Without a plus the texts that are read are the hexadecimal ones;
  with one there are others.  Either way an identifier is read again from the text that it is
  shown as.
-/
import Snmp.CommandLine.EngineSpec

namespace Snmp

namespace Text.Hex

/-! ### Digits -/

/-- A character is the hexadecimal digit of a number, in either case. -/
def IsDigitOf (n : Nat) (c : Char) : Prop :=
  "0123456789abcdef".toList[n]? = some c ∨ "0123456789ABCDEF".toList[n]? = some c

instance (n : Nat) (c : Char) : Decidable (IsDigitOf n c) :=
  inferInstanceAs (Decidable (_ ∨ _))

theorem IsDigitOf.lt_sixteen {n : Nat} {c : Char} (h : IsDigitOf n c) : n < 16 := by
  rcases h with h | h
  · exact (List.getElem?_eq_some_iff.1 h).1
  · exact (List.getElem?_eq_some_iff.1 h).1

theorem toNat_lt_of_value? {c : Char} {n : Nat} (h : value? c = some n) : c.toNat < 128 := by
  have hle {d : Char} (hcd : c ≤ d) (hd : d.toNat < 128) : c.toNat < 128 :=
    Nat.lt_of_le_of_lt hcd hd
  rw [value?] at h
  split at h
  · rename_i hdigit
    exact hle hdigit.2 (by decide)
  · split at h
    · rename_i hdigit
      exact hle hdigit.2 (by decide)
    · split at h
      · rename_i hdigit
        exact hle hdigit.2 (by decide)
      · contradiction

theorem value?_eq_some_iff (c : Char) (n : Nat) : value? c = some n ↔ IsDigitOf n c := by
  constructor
  · intro h
    have hascii : ∀ k < 128, ∀ v ∈ value? (Char.ofNat k), IsDigitOf v (Char.ofNat k) := by decide
    have hc := hascii c.toNat (toNat_lt_of_value? h)
    rw [Char.ofNat_toNat] at hc
    exact hc n h
  · intro h
    have hlower : ∀ n < 16, ("0123456789abcdef".toList[n]?).bind value? = some n := by decide
    have hupper : ∀ n < 16, ("0123456789ABCDEF".toList[n]?).bind value? = some n := by decide
    rcases h with h | h
    · have hn := hlower n (List.getElem?_eq_some_iff.1 h).1
      rwa [h] at hn
    · have hn := hupper n (List.getElem?_eq_some_iff.1 h).1
      rwa [h] at hn

theorem not_isDigitOf {c : Char} (h : value? c = none) (n : Nat) : ¬IsDigitOf n c := by
  intro hdigit
  rw [(value?_eq_some_iff c n).2 hdigit] at h
  contradiction

theorem isDigitOf_digit {n : Nat} (h : n < 16) : IsDigitOf n (digit n) := by
  have hdigits : ∀ n < 16, IsDigitOf n (digit n) := by decide
  exact hdigits n h

end Text.Hex

namespace CommandLine.EngineSpec

open Text.Hex

/-! ### Pairs -/

/-- Two hexadecimal digits, which denote an octet. -/
def IsHexPair (c d : Char) (octet : UInt8) : Prop :=
  ∃ high low, IsDigitOf high c ∧ IsDigitOf low d ∧ octet.toNat = 16 * high + low

/-- A plus and the digit of a number. -/
def IsPlusPair (c d : Char) (octet : UInt8) : Prop := c = '+' ∧ IsDigitOf octet.toNat d

def IsPair (c d : Char) (octet : UInt8) : Prop := IsHexPair c d octet ∨ IsPlusPair c d octet

/-- Characters that are put together from pairs for these octets. -/
inductive Spells (pair : Char → Char → UInt8 → Prop) : List Char → Octets → Prop
  | nil : Spells pair [] []
  | cons {c d : Char} {octet : UInt8} {rest : List Char} {octets : Octets} :
      pair c d octet → Spells pair rest octets → Spells pair (c :: d :: rest) (octet :: octets)

/-- A text of pairs, perhaps behind `0x`, which denote at least one octet. -/
structure IsWritten (pair : Char → Char → UInt8 → Prop) (text : String) (octets : Octets) :
    Prop where
  spelled : ∃ digits, (text.toList = digits ∨ text.toList = '0' :: 'x' :: digits) ∧
    Spells pair digits octets
  present : octets ≠ []

theorem not_isDigitOf_plus (n : Nat) : ¬IsDigitOf n '+' := not_isDigitOf (by decide) n

theorem ofNat_eq_iff {n : Nat} (h : n < 256) (octet : UInt8) :
    UInt8.ofNat n = octet ↔ octet.toNat = n := by
  constructor
  · rintro rfl
    exact UInt8.toNat_ofNat_of_lt' h
  · rintro rfl
    exact UInt8.ofNat_toNat

theorem octet?_eq_some_iff (c d : Char) (octet : UInt8) :
    octet? c d = some octet ↔ IsPair c d octet := by
  rw [octet?, IsPair]
  by_cases hplus : c = '+'
  · subst hplus
    rw [if_pos rfl, Option.map_eq_some_iff]
    simp only [value?_eq_some_iff, IsHexPair, IsPlusPair, not_isDigitOf_plus, false_and,
      exists_false, false_or, true_and]
    constructor
    · rintro ⟨n, hn, h⟩
      rwa [(ofNat_eq_iff (Nat.lt_trans hn.lt_sixteen (by decide)) octet).1 h]
    · intro h
      exact ⟨_, h, UInt8.ofNat_toNat⟩
  · rw [if_neg hplus]
    simp only [Option.bind_eq_bind, Option.bind_eq_some_iff, Option.pure_def, Option.some.injEq,
      value?_eq_some_iff, IsHexPair, IsPlusPair, hplus, false_and, or_false]
    constructor
    · rintro ⟨high, hhigh, low, hlow, h⟩
      have hhigh' := hhigh.lt_sixteen
      have hlow' := hlow.lt_sixteen
      exact ⟨high, low, hhigh, hlow, (ofNat_eq_iff (by omega) octet).1 h⟩
    · rintro ⟨high, low, hhigh, hlow, h⟩
      have hhigh' := hhigh.lt_sixteen
      have hlow' := hlow.lt_sixteen
      exact ⟨high, hhigh, low, hlow, (ofNat_eq_iff (by omega) octet).2 h⟩

/-! ### Reading -/

theorem octets?_eq_some_iff (digits : List Char) (octets : Octets) :
    octets? digits = some octets ↔ Spells IsPair digits octets := by
  fun_induction octets? digits generalizing octets with
  | case1 =>
    constructor
    · rintro ⟨⟩
      exact .nil
    · rintro ⟨⟩
      rfl
  | case2 c =>
    constructor
    · intro h
      contradiction
    · rintro ⟨⟩
  | case3 c d rest ih =>
    simp only [Option.bind_eq_bind, Option.bind_eq_some_iff, Option.pure_def, Option.some.injEq,
      octet?_eq_some_iff, ih]
    constructor
    · rintro ⟨octet, hpair, others, hrest, rfl⟩
      exact .cons hpair hrest
    · rintro ⟨⟩
      rename_i octet others hpair hrest
      exact ⟨octet, hpair, others, hrest, rfl⟩

theorem IsPair.isAscii {c d : Char} {octet : UInt8} (h : IsPair c d octet) :
    c.toNat < 128 ∧ d.toNat < 128 := by
  have hascii {n : Nat} {c : Char} (hc : IsDigitOf n c) : c.toNat < 128 :=
    toNat_lt_of_value? ((value?_eq_some_iff c n).2 hc)
  rcases h with ⟨high, low, hhigh, hlow, -⟩ | ⟨rfl, hlow⟩
  · exact ⟨hascii hhigh, hascii hlow⟩
  · exact ⟨by decide, hascii hlow⟩

/-- Pairs pass the tests that come before they are read: they are ASCII, and an even number. -/
theorem Spells.isAscii {digits : List Char} {octets : Octets} (h : Spells IsPair digits octets) :
    digits.all (·.toNat < 128) = true ∧ digits.length = 2 * octets.length := by
  induction h with
  | nil => exact ⟨rfl, rfl⟩
  | cons hpair _ ih =>
    simp only [List.all_cons, hpair.isAscii, ih.1, decide_true, Bool.and_self, List.length_cons,
      ih.2, true_and]
    omega

/-- The mark is not a pair, so that it is not taken for one. -/
theorem Spells.withoutMark_eq {digits : List Char} {octets : Octets}
    (h : Spells IsPair digits octets) : withoutMark digits = digits := by
  cases h with
  | nil => rfl
  | @cons c d octet rest octets hpair _ =>
    have hd : d ≠ 'x' := by
      rintro rfl
      have hmark : ∀ n, ¬IsDigitOf n 'x' := not_isDigitOf (by decide)
      rcases hpair with ⟨_, low, _, hlow, _⟩ | ⟨_, hlow⟩
      · exact hmark low hlow
      · exact hmark octet.toNat hlow
    rw [withoutMark]
    intro rest' h
    exact hd (List.cons.inj (List.cons.inj h).2).1

theorem eq_withoutMark_or (chars : List Char) :
    chars = withoutMark chars ∨ chars = '0' :: 'x' :: withoutMark chars := by
  rw [withoutMark.eq_def]
  split
  · exact .inr rfl
  · exact .inl rfl

theorem IsWritten.parse_eq {text : String} {octets : Octets} (h : IsWritten IsPair text octets) :
    parse text = .ok (.ofOctets octets) := by
  obtain ⟨⟨digits, htext, hspells⟩, hpresent⟩ := h
  have hdigits : withoutMark text.toList = digits := by
    rcases htext with htext | htext
    · rw [htext, hspells.withoutMark_eq]
    · rw [htext, withoutMark]
  obtain ⟨hascii, hlength⟩ := hspells.isAscii
  have hpos := List.length_pos_iff.2 hpresent
  have hnonempty : digits.isEmpty = false := by
    rw [List.isEmpty_eq_false_iff, ← List.length_pos_iff]
    omega
  have heven : digits.length % 2 = 0 := by omega
  rw [parse, hdigits]
  simp only [hascii, hnonempty, heven, (octets?_eq_some_iff digits octets).2 hspells]
  rfl

/-- A text is read if it is put together from pairs, and to what they denote. -/
theorem parse_eq_ok_iff (text : String) (id : Usm.EngineId) :
    parse text = .ok id ↔
      ∃ octets, IsWritten IsPair text octets ∧ id.octets = octets.take 32 := by
  constructor
  · intro h
    simp only [parse] at h
    split at h
    · contradiction
    · split at h
      · contradiction
      · rename_i hlength
        split at h
        · rename_i octets hoctets
          cases h
          have hspells := (octets?_eq_some_iff _ octets).1 hoctets
          refine ⟨octets, ⟨⟨_, eq_withoutMark_or text.toList, hspells⟩, ?_⟩, rfl⟩
          rintro rfl
          cases hoctets' : withoutMark text.toList with
          | nil => simp [hoctets'] at hlength
          | cons c rest =>
            rw [hoctets'] at hspells
            cases hspells
        · contradiction
  · rintro ⟨octets, hwritten, hid⟩
    rw [hwritten.parse_eq]
    exact congrArg (fun octets => Except.ok (Usm.EngineId.mk octets)) hid.symm

/-! ### Without a plus -/

theorem Spells.mono {pair other : Char → Char → UInt8 → Prop} {digits : List Char} {octets : Octets}
    (h : Spells pair digits octets)
    (hpairs : ∀ c d octet, c ∈ digits → pair c d octet → other c d octet) :
    Spells other digits octets := by
  induction h with
  | nil => exact .nil
  | cons hpair _ ih =>
    refine .cons (hpairs _ _ _ List.mem_cons_self hpair) (ih fun c d octet hc => ?_)
    exact hpairs c d octet (List.mem_cons_of_mem _ (List.mem_cons_of_mem _ hc))

/-- In a text without a plus, the pairs are those of hexadecimal digits. -/
theorem isWritten_hexPair_iff {text : String} (hplus : '+' ∉ text.toList) (octets : Octets) :
    IsWritten IsPair text octets ↔ IsWritten IsHexPair text octets := by
  constructor
  · rintro ⟨⟨digits, htext, hspells⟩, hpresent⟩
    refine ⟨⟨digits, htext, hspells.mono fun c d octet hc hpair => ?_⟩, hpresent⟩
    refine hpair.resolve_right ?_
    rintro ⟨rfl, -⟩
    rcases htext with htext | htext
    · exact hplus (htext ▸ hc)
    · exact hplus (htext ▸ List.mem_cons_of_mem _ (List.mem_cons_of_mem _ hc))
  · rintro ⟨⟨digits, htext, hspells⟩, hpresent⟩
    exact ⟨⟨digits, htext, hspells.mono fun c d octet _ hpair => .inl hpair⟩, hpresent⟩

/-- Pairs of hexadecimal digits have no plus in them, by induction on the pairs. -/
theorem IsWritten.not_plus_mem {text : String} {octets : Octets}
    (h : IsWritten IsHexPair text octets) : '+' ∉ text.toList := by
  obtain ⟨⟨digits, htext, hspells⟩, -⟩ := h
  have hdigits : '+' ∉ digits := by
    clear htext
    induction hspells with
    | nil => exact List.not_mem_nil
    | @cons c d _ _ _ hpair _ ih =>
      obtain ⟨high, low, hhigh, hlow, -⟩ := hpair
      have hfirst : '+' ≠ c := fun h => not_isDigitOf_plus high (h ▸ hhigh)
      have hsecond : '+' ≠ d := fun h => not_isDigitOf_plus low (h ▸ hlow)
      simp only [List.mem_cons, hfirst, hsecond, ih, or_self, not_false_iff]
  rcases htext with htext | htext
  · exact htext ▸ hdigits
  · have hmark : '+' ∉ ['0', 'x'] := by decide
    rw [htext]
    exact fun h => (List.mem_append.1 (show '+' ∈ ['0', 'x'] ++ digits from h)).elim hmark hdigits

/-! ### The text that is shown -/

theorem spells_encode (octets : Octets) :
    Spells IsHexPair (octets.flatMap ofOctet) octets := by
  induction octets with
  | nil => exact .nil
  | cons octet rest ih =>
    have hlt := octet.toNat_lt
    rw [List.flatMap_cons]
    exact .cons ⟨octet.toNat / 16, octet.toNat % 16, isDigitOf_digit (by omega),
      isDigitOf_digit (by omega), (Nat.div_add_mod _ 16).symm⟩ ih

theorem parse_text {id : Usm.EngineId} (hpresent : id.octets ≠ [])
    (hshort : id.octets.length ≤ 32) :
    parse id.text = .ok id := by
  rw [parse_eq_ok_iff]
  refine ⟨id.octets, ⟨⟨_, .inl rfl, ?_⟩, hpresent⟩, (List.take_of_length_le hshort).symm⟩
  rw [Usm.EngineId.text, encode, String.toList_ofList]
  exact (spells_encode id.octets).mono fun c d octet _ hpair => .inl hpair

/-- **Pairs of digits, in which a plus may stand first, are read as an engine identifier.**  The
    identifier is the first 32 octets that the pairs denote.  What is read is what pairs of
    hexadecimal digits, perhaps behind `0x`, denote, and nothing else is read, exactly if the text
    is not one with a plus that is accepted.  Whatever text an identifier was read from, it is
    read again from the one that it is shown as. -/
theorem parse_pairs (text : String) :
    (∀ id, parse text = .ok id ↔
      ∃ octets, IsWritten IsPair text octets ∧ id.octets = octets.take 32) ∧
    ((∀ id, parse text = .ok id ↔
      ∃ octets, IsWritten IsHexPair text octets ∧ id.octets = octets.take 32) ↔
        ('+' ∈ text.toList → ∀ id, parse text ≠ .ok id)) ∧
    ∀ id, parse text = .ok id → parse id.text = .ok id := by
  refine ⟨parse_eq_ok_iff text, ⟨?_, ?_⟩, ?_⟩
  · intro hhex hplus id hid
    obtain ⟨octets, hwritten, -⟩ := (hhex id).1 hid
    exact hwritten.not_plus_mem hplus
  · intro hrefused id
    by_cases hplus : '+' ∈ text.toList
    · constructor
      · intro hid
        exact absurd hid (hrefused hplus id)
      · rintro ⟨octets, hwritten, -⟩
        exact absurd hplus hwritten.not_plus_mem
    · simp only [parse_eq_ok_iff, isWritten_hexPair_iff hplus]
  · intro id h
    obtain ⟨octets, hwritten, hid⟩ := (parse_eq_ok_iff text id).1 h
    have hpos := List.length_pos_iff.2 hwritten.present
    refine parse_text ?_ ?_
    · rw [hid, ← List.length_pos_iff, List.length_take]
      omega
    · rw [hid, List.length_take]
      omega

/-- An identifier in digits of both cases behind the mark. -/
def markedText : String := "0x80001F88aB"

theorem parse_pairs_markedText :
    (∃ octets, IsWritten IsHexPair markedText octets ∧
      [0x80, 0x00, 0x1f, 0x88, 0xab] = octets.take 32) ∧
    parse (Usm.EngineId.text ⟨[0x80, 0x00, 0x1f, 0x88, 0xab]⟩) =
      .ok ⟨[0x80, 0x00, 0x1f, 0x88, 0xab]⟩ := by
  have hplus : '+' ∉ markedText.toList := by decide
  have hparse : parse markedText = .ok ⟨[0x80, 0x00, 0x1f, 0x88, 0xab]⟩ := by rfl
  obtain ⟨-, hhex, hshown⟩ := parse_pairs markedText
  exact ⟨(hhex.2 (fun h => absurd h hplus) _).1 hparse, hshown _ hparse⟩

/-- A plus and a digit are read as an octet, although a plus is not a hexadecimal digit. -/
theorem plus_read :
    parse "+a" = .ok ⟨[0x0a]⟩ ∧ ¬∃ octets, IsWritten IsHexPair "+a" octets := by
  refine ⟨by rfl, ?_⟩
  rintro ⟨octets, hwritten⟩
  exact hwritten.not_plus_mem (by decide)

end CommandLine.EngineSpec

end Snmp
