/-
  Snmp/Proofs/DottedText.lean
  ===========================
  **The texts that are read as object identifiers.**

  A text is read if it is numerals with points between them, perhaps behind one more point, not
  too many numerals and none too great (`IsDotted`).  The reader cuts the text at every point and
  so undoes the putting together; an empty field is not a numeral, which leaves no room for a
  second point anywhere.  Zeros before a numeral do not change its number, so that two texts
  are read as the same identifier if they agree numeral by numeral, and one of the texts that
  are read as an identifier is the one that it is shown as.
-/
import Mathlib.Algebra.Group.Nat.Defs
import Snmp.Oid.Parse

namespace Snmp

namespace Text

/-! ### Fields -/

/-- Cutting at a separator is undone by putting it between the fields. -/
theorem fields_eq_splitOn (separator : Char) (text : List Char) :
    fields separator text = text.splitOn separator := by
  induction text with
  | nil => rfl
  | cons c rest ih =>
    obtain ⟨field, more, hrest⟩ := List.exists_cons_of_ne_nil (List.splitOn_ne_nil separator rest)
    rw [fields, List.splitOn_cons_eq_if_modifyHead, ih, hrest]
    simp only [beq_iff_eq, List.modifyHead_cons]

/-! ### Numerals -/

/-- ASCII digits and nothing else. -/
structure IsNumeral (group : List Char) : Prop where
  present : group ≠ []
  digits : ∀ c ∈ group, '0' ≤ c ∧ c ≤ '9'

/-- The number that digits denote in base ten. -/
def decimal (group : List Char) : Nat := Nat.ofDigitChars 10 group 0

/-- Members are all read if each of them can be, and to the values that they have. -/
theorem mapM_eq_some_iff {α β γ : Type} {f : α → Option β} {Readable : α → Prop} {value : α → γ}
    {number : β → γ} (h : ∀ a b, f a = some b ↔ Readable a ∧ value a = number b)
    (members : List α) (results : List β) :
    members.mapM f = some results ↔
      (∀ a ∈ members, Readable a) ∧ members.map value = results.map number := by
  induction members generalizing results with
  | nil => simp [eq_comm]
  | cons first rest ih =>
    rw [List.mapM_cons, List.forall_mem_cons, List.map_cons]
    simp only [Option.bind_eq_bind, Option.bind_eq_some_iff, Option.pure_def, Option.some.injEq,
      h, ih]
    constructor
    · rintro ⟨result, ⟨hfirst, hvalue⟩, others, ⟨hrest, hvalues⟩, rfl⟩
      exact ⟨⟨hfirst, hrest⟩, by rw [hvalue, hvalues, List.map_cons]⟩
    · rintro ⟨⟨hfirst, hrest⟩, hvalues⟩
      cases results with
      | nil => contradiction
      | cons result others =>
        rw [List.map_cons, List.cons.injEq] at hvalues
        exact ⟨result, ⟨hfirst, hvalues.1⟩, others, ⟨hrest, hvalues.2⟩, rfl⟩

theorem digit?_eq_some_iff (c : Char) (n : Nat) :
    digit? c = some n ↔ ('0' ≤ c ∧ c ≤ '9') ∧ c.toNat - 48 = n := by
  rw [digit?]
  split <;> simp [*]

theorem numeral?_eq_some_iff (group : List Char) (n : Nat) :
    numeral? group = some n ↔ IsNumeral group ∧ decimal group = n := by
  cases group with
  | nil =>
    constructor
    · intro h
      contradiction
    · rintro ⟨h, -⟩
      exact absurd rfl h.present
  | cons first rest =>
    have hfold (digits : List Nat)
        (hdigits : (first :: rest).map (fun c => c.toNat - 48) = digits) :
        digits.foldl (fun n digit => n * 10 + digit) 0 = decimal (first :: rest) := by
      rw [← hdigits, List.foldl_map, decimal, Nat.ofDigitChars_eq_foldl]
      congr 1
      funext n c
      rw [Nat.mul_comm]
      rfl
    have hdigits (digits : List Nat) : (first :: rest).mapM digit? = some digits ↔
        (∀ c ∈ first :: rest, '0' ≤ c ∧ c ≤ '9') ∧
          (first :: rest).map (fun c => c.toNat - 48) = digits.map id :=
      mapM_eq_some_iff digit?_eq_some_iff _ digits
    simp only [numeral?, Option.map_eq_some_iff, hdigits, List.map_id]
    constructor
    · rintro ⟨digits, ⟨hdigits, hvalues⟩, rfl⟩
      exact ⟨⟨List.cons_ne_nil _ _, hdigits⟩, (hfold digits hvalues).symm⟩
    · rintro ⟨h, rfl⟩
      exact ⟨_, ⟨h.digits, rfl⟩, hfold _ rfl⟩

theorem word32?_eq_some_iff (group : List Char) (word : UInt32) :
    word32? group = some word ↔
      (IsNumeral group ∧ decimal group < UInt32.size) ∧ decimal group = word.toNat := by
  rw [word32?, Option.bind_eq_some_iff]
  simp only [numeral?_eq_some_iff]
  constructor
  · rintro ⟨n, ⟨hgroup, rfl⟩, h⟩
    split at h
    · rename_i hsmall
      cases h
      exact ⟨⟨hgroup, hsmall⟩, (UInt32.toNat_ofNat_of_lt' hsmall).symm⟩
    · contradiction
  · rintro ⟨⟨hgroup, hsmall⟩, hvalue⟩
    refine ⟨_, ⟨hgroup, rfl⟩, ?_⟩
    rw [if_pos hsmall, hvalue, UInt32.ofNat_toNat]

theorem isNumeral_toDigits (n : Nat) : IsNumeral (Nat.toDigits 10 n) where
  present := Nat.toDigits_ne_nil
  digits := by
    intro c hc
    have hdigit := Nat.isDigit_of_mem_toDigits (by decide) (by decide) hc
    exact Char.isDigit_iff_toNat.1 hdigit

theorem decimal_toDigits (n : Nat) : decimal (Nat.toDigits 10 n) = n :=
  Nat.ofDigitChars_ten_toDigits

end Text

namespace Oid

open Text

/-! ### Texts -/

/-- Numerals with points between them, which stand for the arcs of an identifier. -/
structure IsDotted (text : String) (groups : List (List Char)) : Prop where
  spelled : text.toList = ['.'].intercalate groups ∨ text.toList = '.' :: ['.'].intercalate groups
  present : 1 ≤ groups.length
  few : groups.length ≤ 128
  numerals : ∀ group ∈ groups, IsNumeral group
  small : ∀ group ∈ groups, decimal group ≤ 2 ^ 32 - 1

/-- A text is read if its fields are, and if there are not too many of them. -/
theorem parse_eq_ok_iff (text : String) (oid : Oid) :
    parse text = .ok oid ↔
      (fields '.' (dropPoint text.toList)).length ≤ maxArcs ∧
      (∀ group ∈ fields '.' (dropPoint text.toList),
        IsNumeral group ∧ decimal group < UInt32.size) ∧
      (fields '.' (dropPoint text.toList)).map decimal = oid.arcs.map (·.toNat) := by
  obtain ⟨arcs⟩ := oid
  rw [parse]
  generalize dropPoint text.toList = body
  cases body with
  | nil =>
    simp only [reduceCtorEq, false_iff]
    rintro ⟨-, hnumerals, -⟩
    exact (hnumerals [] List.mem_cons_self).1.present rfl
  | cons c rest =>
    dsimp only
    generalize fields '.' (c :: rest) = groups
    rw [← mapM_eq_some_iff word32?_eq_some_iff]
    by_cases hfew : groups.length ≤ maxArcs
    · rw [List.take_of_length_le hfew]
      cases groups.mapM word32? with
      | none => simp
      | some words => simp [hfew]
    · simp only [hfew, if_false, false_and, iff_false]
      split <;> simp only [reduceCtorEq, not_false_iff]

theorem not_point_mem {group : List Char} (h : IsNumeral group) : '.' ∉ group := by
  intro hpoint
  exact absurd (h.digits '.' hpoint) (by decide)

/-- Numerals do not begin with a point, so that the point before them is the one to drop. -/
theorem IsDotted.fields_eq {text : String} {groups : List (List Char)} (h : IsDotted text groups) :
    fields '.' (dropPoint text.toList) = groups := by
  have hne : groups ≠ [] := List.length_pos_iff.1 h.present
  obtain ⟨first, others, rfl⟩ := List.exists_cons_of_ne_nil hne
  have hfirst := h.numerals first List.mem_cons_self
  obtain ⟨c, rest, rfl⟩ := List.exists_cons_of_ne_nil hfirst.present
  have hbody : dropPoint text.toList = ['.'].intercalate ((c :: rest) :: others) := by
    rcases h.spelled with hplain | hpoint
    · have hc : c ≠ '.' := by
        rintro rfl
        exact not_point_mem hfirst List.mem_cons_self
      rw [hplain, List.intercalate_cons_cons_left, dropPoint]
      exact fun _ h => hc (List.cons.inj h).1
    · rw [hpoint, dropPoint]
  have hpoints : ∀ group ∈ (c :: rest) :: others, '.' ∉ group :=
    fun group hgroup => not_point_mem (h.numerals group hgroup)
  rw [fields_eq_splitOn, hbody]
  exact List.splitOn_intercalate '.' hpoints hne

theorem IsDotted.exists_parse {text : String} {groups : List (List Char)}
    (h : IsDotted text groups) :
    ∃ oid, parse text = .ok oid ∧ oid.arcs.map (·.toNat) = groups.map decimal := by
  have hsmall : ∀ group ∈ groups, decimal group < UInt32.size :=
    fun group hgroup => Nat.lt_succ_of_le (h.small group hgroup)
  have hnumbers : (groups.map fun group => UInt32.ofNat (decimal group)).map (·.toNat) =
      groups.map decimal := by
    rw [List.map_map]
    exact List.map_congr_left fun group hgroup => UInt32.toNat_ofNat_of_lt' (hsmall group hgroup)
  refine ⟨⟨groups.map fun group => UInt32.ofNat (decimal group)⟩, ?_, hnumbers⟩
  rw [parse_eq_ok_iff, h.fields_eq]
  exact ⟨h.few, fun group hgroup => ⟨h.numerals group hgroup, hsmall group hgroup⟩, hnumbers.symm⟩

theorem eq_dropPoint_or (text : List Char) :
    text = dropPoint text ∨ text = '.' :: dropPoint text := by
  rw [dropPoint.eq_def]
  split
  · exact .inr rfl
  · exact .inl rfl

theorem exists_isDotted {text : String} {oid : Oid} (h : parse text = .ok oid) :
    ∃ groups, IsDotted text groups := by
  obtain ⟨hfew, hgroups, -⟩ := (parse_eq_ok_iff text oid).1 h
  have hbody : ['.'].intercalate (fields '.' (dropPoint text.toList)) = dropPoint text.toList := by
    rw [fields_eq_splitOn, List.intercalate_splitOn]
  refine ⟨fields '.' (dropPoint text.toList), ?_, ?_, hfew,
    fun group hgroup => (hgroups group hgroup).1,
    fun group hgroup => Nat.le_of_lt_succ (hgroups group hgroup).2⟩
  · rw [hbody]
    exact eq_dropPoint_or text.toList
  · exact List.length_pos_iff.2 (fields_ne_nil '.' _)

/-! ### The text that is shown -/

/-- The numerals of the arcs, as they are shown. -/
def shownGroups (oid : Oid) : List (List Char) := oid.arcs.map fun arc => Nat.toDigits 10 arc.toNat

theorem toList_dotted (oid : Oid) : oid.dotted.toList = ['.'].intercalate oid.shownGroups := by
  have hnumeral (arc : UInt32) : (toString arc.toNat).toList = Nat.toDigits 10 arc.toNat := by
    rw [Nat.toString_eq_ofList_toDigits, String.toList_ofList]
  rw [dotted, String.toList_intercalate, List.map_map, shownGroups]
  congr 1
  exact List.map_congr_left fun arc _ => hnumeral arc

theorem map_decimal_shownGroups (oid : Oid) :
    oid.shownGroups.map decimal = oid.arcs.map (·.toNat) := by
  rw [shownGroups, List.map_map]
  exact List.map_congr_left fun arc _ => decimal_toDigits arc.toNat

theorem isDotted_of_shown {oid : Oid} {text : String} (hpresent : 1 ≤ oid.length)
    (hfew : oid.length ≤ 128)
    (hspelled : text.toList = oid.dotted.toList ∨ text.toList = '.' :: oid.dotted.toList) :
    IsDotted text oid.shownGroups := by
  have hlength : oid.shownGroups.length = oid.length := List.length_map _
  rw [toList_dotted] at hspelled
  refine ⟨hspelled, hlength ▸ hpresent, hlength ▸ hfew, ?_, ?_⟩
  · intro group hgroup
    obtain ⟨arc, -, rfl⟩ := List.mem_map.1 hgroup
    exact isNumeral_toDigits arc.toNat
  · intro group hgroup
    obtain ⟨arc, -, rfl⟩ := List.mem_map.1 hgroup
    rw [decimal_toDigits]
    exact Nat.le_of_lt_succ arc.toNat_lt

theorem eq_of_map_toNat_eq {a b : Oid} (h : a.arcs.map (·.toNat) = b.arcs.map (·.toNat)) :
    a = b := by
  obtain ⟨as⟩ := a
  obtain ⟨bs⟩ := b
  exact congrArg Oid.mk ((List.map_inj_right fun _ _ => UInt32.toNat_inj.1).1 h)

theorem parse_of_shown {oid : Oid} {text : String} (h : IsDotted text oid.shownGroups) :
    parse text = .ok oid := by
  obtain ⟨read, hread, harcs⟩ := h.exists_parse
  rw [map_decimal_shownGroups] at harcs
  rw [hread, eq_of_map_toNat_eq harcs]

/-- **Exactly the dotted texts are read.**  A text is read if it is one to 128 numerals with points
    between them, perhaps behind a point, each of a number of 32 bits, however many zeros come
    first; the arcs are the numbers.  So an identifier is read from the text that it is shown
    as, with a point before it or without, and two texts are read as one identifier if they
    agree number by number. -/
theorem parse_exact :
    (∀ text, (∃ oid, parse text = .ok oid) ↔ ∃ groups, IsDotted text groups) ∧
    (∀ text groups, IsDotted text groups →
      ∃ oid, parse text = .ok oid ∧ oid.arcs.map (·.toNat) = groups.map decimal) ∧
    (∀ oid : Oid, 1 ≤ oid.length → oid.length ≤ 128 →
      parse oid.dotted = .ok oid ∧ parse ("." ++ oid.dotted) = .ok oid) ∧
    (∀ text other groups others, IsDotted text groups → IsDotted other others →
      (parse text = parse other ↔ groups.map decimal = others.map decimal)) := by
  refine ⟨fun text => ⟨?_, ?_⟩, fun text groups h => h.exists_parse, ?_, ?_⟩
  · rintro ⟨oid, h⟩
    exact exists_isDotted h
  · rintro ⟨groups, h⟩
    obtain ⟨oid, hoid, -⟩ := h.exists_parse
    exact ⟨oid, hoid⟩
  · intro oid hpresent hfew
    refine ⟨parse_of_shown (isDotted_of_shown hpresent hfew (.inl rfl)),
      parse_of_shown (isDotted_of_shown hpresent hfew (.inr ?_))⟩
    rw [String.toList_append]
    rfl
  · intro text other groups others htext hother
    obtain ⟨a, ha, harcs⟩ := htext.exists_parse
    obtain ⟨b, hb, hbarcs⟩ := hother.exists_parse
    rw [ha, hb, ← harcs, ← hbarcs, Except.ok.injEq]
    exact ⟨fun h => by rw [h], eq_of_map_toNat_eq⟩

/-- `1.3.6` behind a point and with zeros that do not count. -/
def paddedText : String := ".1.003.06"

def paddedNumerals : List (List Char) := [['1'], ['0', '0', '3'], ['0', '6']]

theorem parse_exact_paddedText :
    IsDotted paddedText paddedNumerals ∧
    (∃ oid, parse paddedText = .ok oid ∧
      oid.arcs.map (·.toNat) = paddedNumerals.map decimal) ∧
    parse (⟨[1, 3, 6]⟩ : Oid).dotted = .ok ⟨[1, 3, 6]⟩ ∧
    parse paddedText = parse (⟨[1, 3, 6]⟩ : Oid).dotted := by
  have htext : IsDotted paddedText paddedNumerals := by
    refine ⟨.inr rfl, by decide, by decide, ?_, by decide⟩
    simp only [paddedNumerals, List.forall_mem_cons]
    exact ⟨⟨by decide, by simp⟩, ⟨by decide, by simp⟩, ⟨by decide, by simp⟩,
      List.forall_mem_nil _⟩
  have hshown : IsDotted (⟨[1, 3, 6]⟩ : Oid).dotted (shownGroups ⟨[1, 3, 6]⟩) :=
    isDotted_of_shown (by decide) (by decide) (.inl rfl)
  exact ⟨htext, parse_exact.2.1 _ _ htext, (parse_exact.2.2.1 _ (by decide) (by decide)).1,
    (parse_exact.2.2.2 _ _ _ _ htext hshown).2 (by decide)⟩

end Oid

end Snmp
