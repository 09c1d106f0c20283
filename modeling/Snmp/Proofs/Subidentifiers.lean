/-
  Snmp/Proofs/Subidentifiers.lean
  ===============================
  **The contents that are read as object identifiers.**

  Octets fall apart into subidentifiers, each up to the next octet without the high bit, and
  perhaps octets after the last of these.  The reader takes one subidentifier at a time and what
  it makes of it depends on its value alone (`readArcs_group`), since a value that is too great
  on the way stays too great.  So the contents that are read are those that are put together
  from complete subidentifiers, not too many and not too great (`IsContent`); no reader, no
  state and no limit on the padding occurs in this.

  What is read is written without the padding, each subidentifier by itself.  The values on the
  way stay far below a 64-bit word: the loop over words (`readWords`) keeps a record of every
  octet that is shifted in, and none of them loses a bit.
-/
import Mathlib.Data.List.Forall2
import Mathlib.Data.List.Induction
import Mathlib.Data.Nat.Digits.Defs
import Snmp.Proofs.RegisteredNames

namespace Snmp.Oid

/-! ### Subidentifiers -/

/-- Octets of which the last one, and no other, is without the high bit. -/
def IsSubidentifier (group : Octets) : Prop :=
  ∃ leading last, group = leading ++ [last] ∧ (∀ octet ∈ leading, 128 ≤ octet) ∧ last < 128

/-- The number that the low seven bits of octets denote in base 128. -/
def base128 (octets : Octets) : Nat :=
  Nat.ofDigits 128 (octets.map fun octet => octet.toNat % 128).reverse

/-- Octets that are put together from the subidentifiers of an identifier. -/
structure IsContent (groups : List Octets) (octets : Octets) : Prop where
  whole : groups.flatten = octets
  complete : ∀ group ∈ groups, IsSubidentifier group
  present : 1 ≤ groups.length
  few : groups.length ≤ 127
  first : ∀ group ∈ groups.head?, base128 group ≤ 2 ^ 32 - 1 + 80
  later : ∀ group ∈ groups.tail, base128 group ≤ 2 ^ 32 - 1

theorem base128_append_singleton (octets : Octets) (octet : UInt8) :
    base128 (octets ++ [octet]) = base128 octets * 128 + octet.toNat % 128 := by
  rw [base128, List.map_append, List.reverse_append, List.map_singleton, List.reverse_singleton,
    List.singleton_append, Nat.ofDigits_cons, base128]
  omega

/-- Shifting octets into a value one by one puts their digits behind it. -/
theorem foldl_base128 (octets : Octets) :
    octets.foldl (fun n octet => n * 128 + octet.toNat % 128) 0 = base128 octets := by
  rw [base128, Nat.ofDigits_eq_foldr, List.foldr_reverse, List.foldl_map]
  congr 1
  funext n octet
  exact (Nat.add_comm _ _).trans (congrArg (_ + ·) (Nat.mul_comm _ _))

/-- Any octets are complete subidentifiers and some octets with the high bit after them. -/
theorem exists_groups (octets : Octets) : ∃ (groups : List Octets) (unfinished : Octets),
    octets = groups.flatten ++ unfinished ∧ (∀ group ∈ groups, IsSubidentifier group) ∧
      ∀ octet ∈ unfinished, 128 ≤ octet := by
  induction octets with
  | nil => exact ⟨[], [], rfl, by simp, by simp⟩
  | cons octet rest ih =>
    obtain ⟨groups, unfinished, rfl, hcomplete, hhigh⟩ := ih
    by_cases hlast : octet < 128
    · refine ⟨[octet] :: groups, unfinished, by simp, ?_, hhigh⟩
      rw [List.forall_mem_cons]
      exact ⟨⟨[], octet, rfl, by simp, hlast⟩, hcomplete⟩
    · have hmark : 128 ≤ octet := UInt8.not_lt.1 hlast
      cases groups with
      | nil =>
        refine ⟨[], octet :: unfinished, rfl, by simp, ?_⟩
        rw [List.forall_mem_cons]
        exact ⟨hmark, hhigh⟩
      | cons group groups =>
        rw [List.forall_mem_cons] at hcomplete
        obtain ⟨⟨leading, last, rfl, hleading, hend⟩, hothers⟩ := hcomplete
        refine ⟨(octet :: (leading ++ [last])) :: groups, unfinished, by simp, ?_, hhigh⟩
        rw [List.forall_mem_cons]
        refine ⟨⟨octet :: leading, last, rfl, ?_, hend⟩, hothers⟩
        rw [List.forall_mem_cons]
        exact ⟨hmark, hleading⟩

/-! ### Reading -/

/-- What the reader does with a complete subidentifier of some value. -/
def afterValue (read : List UInt32) (value : Nat) (rest : Octets) :
    Except Ber.Defect (List UInt32) :=
  if maxSubidentifier < value then .error .invalidOidEncoding
  else
    match appendArcs read value with
    | .error defect => .error defect
    | .ok arcs =>
      if maxArcs < arcs.length then .error (.oidTooLong arcs.length maxArcs)
      else readArcs arcs none rest

theorem le_foldl_base128 (octets : Octets) (n : Nat) :
    n ≤ octets.foldl (fun n octet => n * 128 + octet.toNat % 128) n := by
  induction octets generalizing n with
  | nil => exact Nat.le_refl n
  | cons octet rest ih =>
    rw [List.foldl_cons]
    exact Nat.le_trans (by omega) (ih _)

/-- The octets of a subidentifier from some point on, by induction on those with the high bit: a
    value that is refused early would have been refused at the end. -/
theorem readArcs_leading {last : UInt8} (hlast : last < 128) (read : List UInt32) (rest : Octets)
    {leading : Octets} (hleading : ∀ octet ∈ leading, 128 ≤ octet) (unfinished : Option Nat) :
    readArcs read unfinished (leading ++ last :: rest) =
      afterValue read ((leading ++ [last]).foldl (fun n octet => n * 128 + octet.toNat % 128)
        (unfinished.getD 0)) rest := by
  induction leading generalizing unfinished with
  | nil =>
    rw [List.nil_append, readArcs]
    simp only [if_neg (UInt8.not_le.2 hlast)]
    rfl
  | cons octet leading ih =>
    rw [List.forall_mem_cons] at hleading
    rw [List.cons_append, readArcs]
    simp only [if_pos hleading.1]
    by_cases hmax : maxSubidentifier < unfinished.getD 0 * 128 + octet.toNat % 128
    · have hgreat := Nat.lt_of_lt_of_le hmax (le_foldl_base128 (leading ++ [last]) _)
      rw [if_pos hmax, afterValue, List.cons_append, List.foldl_cons, if_pos hgreat]
    · rw [if_neg hmax, ih hleading.2]
      rfl

theorem readArcs_group {group : Octets} (h : IsSubidentifier group) (read : List UInt32)
    (rest : Octets) :
    readArcs read none (group ++ rest) = afterValue read (base128 group) rest := by
  obtain ⟨leading, last, rfl, hleading, hlast⟩ := h
  rw [List.append_assoc, List.singleton_append, readArcs_leading hlast read rest hleading,
    ← foldl_base128]
  rfl

/-- Octets that end with the high bit are refused, sooner or later. -/
theorem readArcs_unfinished {octets : Octets} (hhigh : ∀ octet ∈ octets, 128 ≤ octet)
    {read : List UInt32} {unfinished : Option Nat} (h : unfinished.isSome ∨ octets ≠ []) :
    ∃ defect, readArcs read unfinished octets = .error defect := by
  induction octets generalizing unfinished with
  | nil =>
    have hsome : unfinished.isSome = true := h.resolve_right fun hne => hne rfl
    exact ⟨.invalidOidEncoding, by rw [readArcs, hsome, Bool.true_or, if_pos rfl]⟩
  | cons octet rest ih =>
    rw [List.forall_mem_cons] at hhigh
    rw [readArcs]
    simp only [if_pos hhigh.1]
    split
    · exact ⟨_, rfl⟩
    · exact ih hhigh.2 (.inl rfl)

theorem afterValue_later {read : List UInt32} (hread : read ≠ []) (value : Nat) (rest : Octets)
    (arcs : List UInt32) :
    afterValue read value rest = .ok arcs ↔ value < UInt32.size ∧ read.length < maxArcs ∧
      readArcs (UInt32.ofNat value :: read) none rest = .ok arcs := by
  have hsize : UInt32.size ≤ maxSubidentifier := by decide
  obtain ⟨last, more, rfl⟩ := List.exists_cons_of_ne_nil hread
  simp only [afterValue, appendArcs]
  by_cases hvalue : value < UInt32.size
  · rw [if_neg (by omega), if_pos hvalue]
    simp only [List.length_cons, hvalue, true_and]
    by_cases hroom : more.length + 1 < maxArcs
    · rw [if_neg (by omega)]
      simp only [hroom, true_and]
    · rw [if_pos (by omega)]
      simp [hroom]
  · rw [if_neg hvalue]
    split <;> simp [hvalue]

/-- Subidentifiers after the first are read, and nothing after them, if their values are arcs and
    there is room for them. -/
theorem readArcs_later {groups : List Octets} (hcomplete : ∀ group ∈ groups, IsSubidentifier group)
    {unfinished : Octets} (hhigh : ∀ octet ∈ unfinished, 128 ≤ octet) {read : List UInt32}
    (hread : read ≠ []) (hroom : read.length ≤ maxArcs) (arcs : List UInt32) :
    readArcs read none (groups.flatten ++ unfinished) = .ok arcs ↔
      unfinished = [] ∧ (∀ group ∈ groups, base128 group < UInt32.size) ∧
      read.length + groups.length ≤ maxArcs ∧
      read.reverse ++ groups.map (fun group => UInt32.ofNat (base128 group)) = arcs := by
  induction groups generalizing read with
  | nil =>
    by_cases hnone : unfinished = []
    · subst hnone
      have hcomplete : ((none : Option Nat).isSome || read.isEmpty) = false := by
        simpa using hread
      rw [List.flatten_nil, List.append_nil, readArcs, hcomplete]
      simp [hroom]
    · obtain ⟨defect, herror⟩ : ∃ defect, readArcs read none unfinished = .error defect :=
        readArcs_unfinished hhigh (.inr hnone)
      rw [List.flatten_nil, List.nil_append, herror]
      simp [hnone]
  | cons group groups ih =>
    rw [List.forall_mem_cons] at hcomplete
    rw [List.flatten_cons, List.append_assoc, readArcs_group hcomplete.1, afterValue_later hread,
      List.forall_mem_cons]
    constructor
    · rintro ⟨hvalue, hmore, h⟩
      rw [ih hcomplete.2 (List.cons_ne_nil _ _) hmore] at h
      obtain ⟨hnone, hvalues, hcount, rfl⟩ := h
      refine ⟨hnone, ⟨hvalue, hvalues⟩, ?_, by simp⟩
      rw [List.length_cons] at hcount ⊢
      omega
    · rintro ⟨hnone, ⟨hvalue, hvalues⟩, hcount, rfl⟩
      rw [List.length_cons] at hcount
      have hmore : read.length < maxArcs := by omega
      refine ⟨hvalue, hmore, ?_⟩
      rw [ih hcomplete.2 (List.cons_ne_nil _ _) hmore]
      refine ⟨hnone, hvalues, ?_, by simp⟩
      rw [List.length_cons]
      omega

/-- What is read of octets, by the subidentifiers that they fall apart into. -/
theorem readArcs_flatten {groups : List Octets}
    (hcomplete : ∀ group ∈ groups, IsSubidentifier group) {unfinished : Octets}
    (hhigh : ∀ octet ∈ unfinished, 128 ≤ octet) (arcs : List UInt32) :
    readArcs [] none (groups.flatten ++ unfinished) = .ok arcs ↔
      unfinished = [] ∧ ∃ first later, groups = first :: later ∧
        base128 first ≤ maxSubidentifier ∧ (∀ group ∈ later, base128 group < UInt32.size) ∧
        2 + later.length ≤ maxArcs ∧
        splitFirst (base128 first) ++ later.map (fun group => UInt32.ofNat (base128 group)) =
          arcs := by
  cases groups with
  | nil =>
    have herror : ∃ defect, readArcs [] none ([].flatten ++ unfinished) = .error defect := by
      by_cases hnone : unfinished = []
      · rw [hnone]
        exact ⟨_, rfl⟩
      · exact readArcs_unfinished hhigh (.inr hnone)
    obtain ⟨defect, herror⟩ := herror
    rw [herror]
    simp
  | cons first later =>
    rw [List.forall_mem_cons] at hcomplete
    have hcount := length_splitFirst (base128 first)
    have hroom : ¬maxArcs < (splitFirst (base128 first)).reverse.length := by
      rw [List.length_reverse, hcount]
      decide
    have hpresent : (splitFirst (base128 first)).reverse ≠ [] := by
      intro hnone
      rw [List.reverse_eq_nil_iff.1 hnone] at hcount
      contradiction
    rw [List.flatten_cons, List.append_assoc, readArcs_group hcomplete.1, afterValue]
    by_cases hmax : maxSubidentifier < base128 first
    · rw [if_pos hmax]
      simp [hmax]
    · rw [if_neg hmax, appendArcs]
      simp only [if_neg hroom]
      rw [readArcs_later hcomplete.2 hhigh hpresent (Nat.not_lt.1 hroom), List.length_reverse,
        hcount, List.reverse_reverse]
      simp [Nat.not_lt.1 hmax]

/-! ### Arcs -/

/-- The two arcs that the value of a first subidentifier stands for. -/
def twoArcs (value : Nat) : Nat × Nat :=
  if value < 40 then (0, value) else if value < 80 then (1, value - 40) else (2, value - 80)

/-- The numbers of the arcs that the values of subidentifiers stand for. -/
def arcNumbers : List Nat → List Nat
  | [] => []
  | first :: later => (twoArcs first).1 :: (twoArcs first).2 :: later

theorem fold_twoArcs (value : Nat) : (twoArcs value).1 * 40 + (twoArcs value).2 = value := by
  rw [twoArcs]
  split
  · simp
  · split <;> dsimp only <;> omega

theorem map_toNat_splitFirst {value : Nat} (h : value ≤ maxSubidentifier) :
    (splitFirst value).map (·.toNat) = [(twoArcs value).1, (twoArcs value).2] := by
  have hsize : maxSubidentifier = UInt32.size - 1 + 80 := rfl
  have hpos : 80 < UInt32.size := by decide
  have hword {n : Nat} (hn : n < UInt32.size) : (UInt32.ofNat n).toNat = n :=
    UInt32.toNat_ofNat_of_lt' hn
  rw [splitFirst, twoArcs]
  split
  · rw [List.map_cons, List.map_singleton, hword (by omega)]
    rfl
  · split
    · rw [List.map_cons, List.map_singleton, hword (by omega)]
      rfl
    · rw [List.map_cons, List.map_singleton, hword (by omega)]
      rfl

/-- Contents of this form are read, as the arcs that the values stand for. -/
theorem IsContent.exists_ofContent {groups : List Octets} {octets : Octets}
    (h : IsContent groups octets) :
    ∃ oid, ofContent octets = .ok oid ∧
      oid.arcs.map (·.toNat) = arcNumbers (groups.map base128) := by
  obtain ⟨rfl, hcomplete, hpresent, hfew, hfirst, hlater⟩ := h
  obtain ⟨first, later, rfl⟩ := List.exists_cons_of_length_pos hpresent
  have hmax : base128 first ≤ maxSubidentifier := hfirst first rfl
  have hvalues : ∀ group ∈ later, base128 group < UInt32.size := by
    intro group hgroup
    exact Nat.lt_succ_of_le (hlater group hgroup)
  have hroom : 2 + later.length ≤ maxArcs := by
    rw [List.length_cons] at hfew
    rw [maxArcs]
    omega
  have hread := (readArcs_flatten hcomplete (List.forall_mem_nil fun octet => 128 ≤ octet) _).2
    ⟨rfl, first, later, rfl, hmax, hvalues, hroom, rfl⟩
  rw [List.append_nil] at hread
  refine ⟨⟨_⟩, by rw [ofContent, hread]; rfl, ?_⟩
  have hwords : later.map (fun group => (UInt32.ofNat (base128 group)).toNat) =
      later.map base128 :=
    List.map_congr_left fun group hgroup => UInt32.toNat_ofNat_of_lt' (hvalues group hgroup)
  rw [List.map_append, map_toNat_splitFirst hmax, List.map_map]
  exact congrArg ([_, _] ++ ·) hwords

theorem exists_isContent {octets : Octets} {oid : Oid} (h : ofContent octets = .ok oid) :
    ∃ groups, IsContent groups octets := by
  obtain ⟨groups, unfinished, rfl, hcomplete, hhigh⟩ := exists_groups octets
  rw [ofContent] at h
  cases hread : readArcs [] none (groups.flatten ++ unfinished) with
  | error defect =>
    rw [hread] at h
    contradiction
  | ok arcs =>
    obtain ⟨rfl, first, later, rfl, hmax, hvalues, hroom, -⟩ :=
      (readArcs_flatten hcomplete hhigh arcs).1 hread
    refine ⟨first :: later, (List.append_nil _).symm, hcomplete, ?_, ?_, ?_, ?_⟩
    · exact Nat.le_add_left 1 later.length
    · rw [maxArcs] at hroom
      rw [List.length_cons]
      omega
    · intro group hgroup
      cases hgroup
      exact hmax
    · intro group hgroup
      exact Nat.le_of_lt_succ (hvalues group hgroup)

/-! ### Writing -/

/-- A subidentifier without the octets `0x80` at its beginning, which are digits zero. -/
structure IsShortened (group short : Octets) : Prop where
  complete : IsSubidentifier short
  value : base128 short = base128 group
  unpadded : short.head? ≠ some 0x80
  padding : ∃ count, group = List.replicate count 0x80 ++ short

/-- The numbers of the arcs tell the values that they are written as. -/
theorem subidentifierValues_eq {oid : Oid} {values : List Nat} (hvalues : values ≠ [])
    (h : oid.arcs.map (·.toNat) = arcNumbers values) : oid.subidentifierValues = values := by
  obtain ⟨first, later, rfl⟩ := List.exists_cons_of_ne_nil hvalues
  obtain ⟨arcs⟩ := oid
  match arcs, h with
  | [_], h => simp [arcNumbers] at h
  | a :: b :: rest, h =>
    simp only [arcNumbers, List.map_cons, List.cons.injEq] at h
    simp only [subidentifierValues]
    rw [h.1, h.2.1, h.2.2, fold_twoArcs]

theorem base128_padded (group : Octets) : base128 (0x80 :: group) = base128 group := by
  rw [base128, List.map_cons]
  exact Nat.ofDigits_reverse_zero_cons _

/-- Octets with the high bit that do not begin with a digit zero denote a positive number. -/
theorem base128_pos {first : UInt8} {leading : Octets}
    (hhigh : ∀ octet ∈ first :: leading, 128 ≤ octet) (hunpadded : first ≠ 0x80) :
    0 < base128 (first :: leading) := by
  have hdigit : 0 < first.toNat % 128 := by
    have hlow : 128 ≤ first.toNat := hhigh first List.mem_cons_self
    have hlt := first.toNat_lt
    have hmark : first.toNat ≠ 128 := fun h => hunpadded (UInt8.toNat_inj.1 h)
    omega
  have hpower : 0 < 128 ^ (leading.map fun octet => octet.toNat % 128).reverse.length :=
    Nat.pow_pos (by decide)
  rw [base128, List.map_cons, List.reverse_cons, Nat.ofDigits_append, Nat.ofDigits_singleton]
  exact Nat.add_pos_right _ (Nat.mul_pos hpower hdigit)

theorem ofNat_high {octet : UInt8} (hhigh : 128 ≤ octet) :
    UInt8.ofNat (128 + octet.toNat % 128) = octet := by
  have hlow : 128 ≤ octet.toNat := hhigh
  have hlt := octet.toNat_lt
  apply UInt8.toNat_inj.1
  rw [Octets.toNat_ofNat_octet (by omega)]
  omega

theorem continued_base128 {leading : Octets} (hhigh : ∀ octet ∈ leading, 128 ≤ octet)
    (hpresent : leading ≠ []) (hunpadded : leading.head? ≠ some 0x80) :
    continued (base128 leading) = leading := by
  induction leading using List.reverseRecOn with
  | nil => exact absurd rfl hpresent
  | append_singleton leading octet ih =>
    have hoctet : 128 ≤ octet := hhigh octet (by simp)
    have hdigit : octet.toNat % 128 < 128 := Nat.mod_lt _ (by decide)
    rw [base128_append_singleton, continued]
    cases leading with
    | nil =>
      have hvalue : base128 [] * 128 + octet.toNat % 128 = octet.toNat % 128 := Nat.zero_add _
      rw [hvalue, if_pos hdigit, ofNat_high hoctet]
      rfl
    | cons first leading =>
      have hhigh' : ∀ octet ∈ first :: leading, 128 ≤ octet :=
        fun o ho => hhigh o (List.mem_append_left _ ho)
      have hpos := base128_pos hhigh' fun h => hunpadded (congrArg some h)
      have hdiv : (base128 (first :: leading) * 128 + octet.toNat % 128) / 128 =
          base128 (first :: leading) := by omega
      have hmod : (base128 (first :: leading) * 128 + octet.toNat % 128) % 128 =
          octet.toNat % 128 := by omega
      rw [if_neg (by omega), hdiv, hmod, ofNat_high hoctet,
        ih hhigh' (List.cons_ne_nil _ _) hunpadded]

/-- A subidentifier without padding is how its value is written. -/
theorem subidentifier_base128 {group : Octets} (h : IsSubidentifier group)
    (hunpadded : group.head? ≠ some 0x80) : subidentifier (base128 group) = group := by
  obtain ⟨leading, last, rfl, hhigh, hlast⟩ := h
  have hlow : last.toNat < 128 := hlast
  have hdigit : last.toNat % 128 = last.toNat := Nat.mod_eq_of_lt hlow
  rw [base128_append_singleton, hdigit, subidentifier]
  cases leading with
  | nil =>
    have hvalue : base128 [] * 128 + last.toNat = last.toNat := Nat.zero_add _
    rw [hvalue, if_pos hlow, UInt8.ofNat_toNat]
    rfl
  | cons first leading =>
    have hpos := base128_pos hhigh fun h => hunpadded (congrArg some h)
    have hdiv : (base128 (first :: leading) * 128 + last.toNat) / 128 =
        base128 (first :: leading) := by omega
    have hmod : (base128 (first :: leading) * 128 + last.toNat) % 128 = last.toNat := by omega
    rw [if_neg (by omega), hdiv, hmod, UInt8.ofNat_toNat,
      continued_base128 hhigh (List.cons_ne_nil _ _) hunpadded]

/-- The value of a subidentifier is written as the subidentifier without its padding, by
    induction on the octets before the last. -/
theorem isShortened_subidentifier {group : Octets} (h : IsSubidentifier group) :
    IsShortened group (subidentifier (base128 group)) := by
  obtain ⟨leading, last, rfl, hhigh, hlast⟩ := h
  induction leading with
  | nil =>
    have hunpadded : ([] ++ [last]).head? ≠ some 0x80 := by
      intro h
      rw [Option.some.inj h] at hlast
      exact absurd hlast (by decide)
    have hsingle : IsSubidentifier ([] ++ [last]) := ⟨[], last, rfl, hhigh, hlast⟩
    rw [subidentifier_base128 hsingle hunpadded]
    exact ⟨hsingle, rfl, hunpadded, 0, rfl⟩
  | cons first leading ih =>
    by_cases hpadded : first = 0x80
    · rw [List.forall_mem_cons] at hhigh
      obtain ⟨hcomplete, hvalue, hunpadded, count, hcount⟩ := ih hhigh.2
      rw [hpadded, List.cons_append, base128_padded]
      refine ⟨hcomplete, by rw [hvalue, base128_padded], hunpadded, count + 1, ?_⟩
      rw [List.replicate_succ, List.cons_append, ← hcount]
    · have hunpadded : (first :: leading ++ [last]).head? ≠ some 0x80 := by
        intro h
        exact hpadded (Option.some.inj h)
      have hcomplete : IsSubidentifier (first :: leading ++ [last]) :=
        ⟨first :: leading, last, rfl, hhigh, hlast⟩
      rw [subidentifier_base128 hcomplete hunpadded]
      exact ⟨hcomplete, rfl, hunpadded, 0, rfl⟩

/-- Padding is what makes the difference in length, for one subidentifier. -/
theorem IsShortened.length_le {group short : Octets} (h : IsShortened group short) :
    short.length ≤ group.length ∧ (short = group ↔ group.head? ≠ some 0x80) := by
  obtain ⟨-, -, hunpadded, count, rfl⟩ := h
  cases count with
  | zero => exact ⟨Nat.le_refl _, fun _ => hunpadded, fun _ => rfl⟩
  | succ count =>
    refine ⟨by simp, ?_, fun h => absurd rfl h⟩
    intro h
    have := congrArg List.length h
    simp only [List.length_append, List.length_replicate] at this
    omega

/-- The same of all subidentifiers, by induction on them. -/
theorem length_flatten_le {groups shorts : List Octets}
    (h : List.Forall₂ IsShortened groups shorts) :
    shorts.flatten.length ≤ groups.flatten.length ∧
      (shorts.flatten = groups.flatten ↔ ∀ group ∈ groups, group.head? ≠ some 0x80) := by
  induction h with
  | nil => simp
  | @cons group short groups shorts hfirst hrest ih =>
    obtain ⟨hlength, hsame⟩ := hfirst.length_le
    simp only [List.flatten_cons, List.length_append, List.forall_mem_cons]
    refine ⟨by omega, ?_⟩
    rw [← hsame, ← ih.2]
    constructor
    · intro h
      have hlengths := congrArg List.length h
      simp only [List.length_append] at hlengths
      exact List.append_inj h (by omega)
    · rintro ⟨rfl, hothers⟩
      rw [hothers]

/-- What an identifier has to do with the subidentifiers that it is read from. -/
structure IsReadFrom (groups : List Octets) (octets : Octets) (oid : Oid) : Prop where
  arcs : oid.arcs.map (·.toNat) = arcNumbers (groups.map base128)
  encodable : oid.checkEncodable = .ok ()
  written : ∃ shorts, oid.content = shorts.flatten ∧ List.Forall₂ IsShortened groups shorts
  same : oid.content = octets ↔ ∀ group ∈ groups, group.head? ≠ some 0x80
  shorter : oid.content.length ≤ octets.length

theorem IsContent.exists_isReadFrom {groups : List Octets} {octets : Octets}
    (h : IsContent groups octets) :
    ∃ oid, ofContent octets = .ok oid ∧ IsReadFrom groups octets oid := by
  obtain ⟨oid, hoid, harcs⟩ := h.exists_ofContent
  have hpresent : groups.map base128 ≠ [] := by
    intro hnone
    have := h.present
    rw [List.map_eq_nil_iff.1 hnone] at this
    contradiction
  have hcontent : oid.content =
      (groups.map fun group => subidentifier (base128 group)).flatten := by
    rw [content, subidentifierValues_eq hpresent harcs, List.flatMap_def, List.map_map]
    rfl
  have hshorts : List.Forall₂ IsShortened groups
      (groups.map fun group => subidentifier (base128 group)) := by
    rw [List.forall₂_map_right_iff, List.forall₂_same]
    exact fun group hgroup => isShortened_subidentifier (h.complete group hgroup)
  obtain ⟨hlength, hsame⟩ := length_flatten_le hshorts
  rw [← hcontent, h.whole] at hlength hsame
  exact ⟨oid, hoid, harcs, (checkEncodable_eq_ok_iff oid).2 (ofContent_eq_ok hoid).1.encodable,
    ⟨_, hcontent, hshorts⟩, hsame, hlength⟩

/-! ### Words -/

/-- An octet that is shifted into a word. -/
structure Accumulation where
  before : UInt64
  octet : UInt8

namespace Accumulation

def after (a : Accumulation) : UInt64 := a.before <<< 7 ||| (a.octet &&& 0x7f).toUInt64

/-- The number that comes out where there is no bound. -/
def exact (a : Accumulation) : Nat := a.before.toNat * 128 + a.octet.toNat % 128

theorem toNat_after {a : Accumulation} (h : a.before.toNat ≤ maxSubidentifier) :
    a.after.toNat = a.exact := by
  have hlow : (a.octet &&& 0x7f).toNat = a.octet.toNat % 128 := by
    rw [UInt8.toNat_and]
    exact Nat.and_two_pow_sub_one_eq_mod _ 7
  have hshift : a.before.toNat <<< 7 % 2 ^ 64 = 2 ^ 7 * a.before.toNat := by
    have hmax : maxSubidentifier = 4294967375 := rfl
    rw [Nat.shiftLeft_eq, Nat.mod_eq_of_lt (by omega), Nat.mul_comm]
  have hdigit : a.octet.toNat % 128 < 2 ^ 7 := Nat.mod_lt _ (by decide)
  rw [after, UInt64.toNat_or, UInt64.toNat_shiftLeft, UInt8.toNat_toUInt64, hlow,
    show (7 : UInt64).toNat % 64 = 7 from rfl, hshift, ← Nat.two_pow_add_eq_or_of_lt hdigit, exact]
  omega

end Accumulation

/-- The loop as it runs on words: the value in 64 bits, and whether it is unfinished.  It keeps a
    record of the octets that it shifts in. -/
def readWords (read : List UInt32) (value : UInt64) (unfinished : Bool) :
    Octets → List Accumulation × Except Ber.Defect (List UInt32)
  | [] => ([], if unfinished || read.isEmpty then .error .invalidOidEncoding else .ok read.reverse)
  | octet :: rest =>
    let step : Accumulation := ⟨value, octet⟩
    let onward :=
      if UInt64.ofNat maxSubidentifier < step.after then ([], .error .invalidOidEncoding)
      else if 128 ≤ octet then readWords read step.after true rest
      else
        match appendArcs read step.after.toNat with
        | .error defect => ([], .error defect)
        | .ok arcs =>
          if maxArcs < arcs.length then ([], .error (.oidTooLong arcs.length maxArcs))
          else readWords arcs 0 false rest
    (step :: onward.1, onward.2)

/-- Words do what numbers do, and no bit is shifted out of them, by induction on the octets: a
    value that is kept is not too great. -/
theorem readWords_spec (octets : Octets) : ∀ (read : List UInt32) (value : UInt64)
    (unfinished : Option Nat), value.toNat ≤ maxSubidentifier → unfinished.getD 0 = value.toNat →
    (readWords read value unfinished.isSome octets).2 = readArcs read unfinished octets ∧
      ∀ step ∈ (readWords read value unfinished.isSome octets).1,
        step.after.toNat = step.exact := by
  induction octets with
  | nil =>
    intro read value unfinished _ _
    exact ⟨rfl, by simp [readWords]⟩
  | cons octet rest ih =>
    intro read value unfinished hmax hvalue
    have hexact := Accumulation.toNat_after (a := ⟨value, octet⟩) hmax
    have hnumber : (⟨value, octet⟩ : Accumulation).exact =
        unfinished.getD 0 * 128 + octet.toNat % 128 := by rw [hvalue, Accumulation.exact]
    have hbound : (UInt64.ofNat maxSubidentifier).toNat = maxSubidentifier := rfl
    rw [readWords, readArcs]
    simp only [List.forall_mem_cons, UInt64.lt_iff_toNat_lt, hbound, hexact, hnumber, true_and]
    by_cases hgreat : maxSubidentifier < unfinished.getD 0 * 128 + octet.toNat % 128
    · rw [if_pos hgreat, if_pos hgreat]
      exact ⟨rfl, by simp⟩
    · rw [if_neg hgreat, if_neg hgreat]
      by_cases hhigh : 128 ≤ octet
      · rw [if_pos hhigh, if_pos hhigh]
        exact ih read _ (some _) (by omega) (by rw [hexact, hnumber]; rfl)
      · rw [if_neg hhigh, if_neg hhigh]
        cases appendArcs read (unfinished.getD 0 * 128 + octet.toNat % 128) with
        | error defect => exact ⟨rfl, by simp⟩
        | ok arcs =>
          dsimp only
          by_cases hlong : maxArcs < arcs.length
          · rw [if_pos hlong, if_pos hlong]
            exact ⟨rfl, by simp⟩
          · rw [if_neg hlong, if_neg hlong]
            exact ih arcs 0 none (Nat.zero_le _) rfl

/-! ### Contents -/

/-- **Exactly the contents of their format are read.**  A content is read if it is put together
    from one to 127 complete subidentifiers of values in range, padded or not; the arcs are their
    values, the first split in two.  The identifier passes the check of the registry and is
    written as the same values without padding, which is the content itself if it has no padding
    and shorter if it has.  No octet that is shifted in on the way overflows 64 bits. -/
theorem ofContent_exact (octets : Octets) :
    ((∃ oid, ofContent octets = .ok oid) ↔ ∃ groups, IsContent groups octets) ∧
    (∀ groups, IsContent groups octets →
      ∃ oid, ofContent octets = .ok oid ∧ IsReadFrom groups octets oid) ∧
    (readWords [] 0 false octets).2.map Oid.mk = ofContent octets ∧
    ∀ step ∈ (readWords [] 0 false octets).1,
      step.exact < 2 ^ 64 ∧ step.after.toNat = step.exact := by
  obtain ⟨hresult, hsteps⟩ := readWords_spec octets [] 0 none (Nat.zero_le _) rfl
  refine ⟨⟨?_, ?_⟩, ?_, ?_, ?_⟩
  · rintro ⟨oid, h⟩
    exact exists_isContent h
  · rintro ⟨groups, h⟩
    obtain ⟨oid, hoid, -⟩ := h.exists_isReadFrom
    exact ⟨oid, hoid⟩
  · exact fun groups h => h.exists_isReadFrom
  · exact congrArg (Except.map Oid.mk) hresult
  · intro step hstep
    have hexact := hsteps step hstep
    exact ⟨hexact ▸ step.after.toNat_lt, hexact⟩

/-- The subidentifiers of `1.3.6.311`, two of them padded. -/
def paddedGroups : List Octets := [[0x80, 0x2b], [0x80, 0x80, 0x06], [0x82, 0x37]]

theorem ofContent_exact_paddedGroups :
    IsContent paddedGroups paddedGroups.flatten ∧
      ∃ oid, ofContent paddedGroups.flatten = .ok oid ∧
        IsReadFrom paddedGroups paddedGroups.flatten oid := by
  have hcomplete : ∀ group ∈ paddedGroups, IsSubidentifier group := by
    simp only [paddedGroups, List.forall_mem_cons]
    exact ⟨⟨[0x80], 0x2b, rfl, by simp⟩, ⟨[0x80, 0x80], 0x06, rfl, by simp⟩,
      ⟨[0x82], 0x37, rfl, by simp⟩, List.forall_mem_nil _⟩
  have hcontent : IsContent paddedGroups paddedGroups.flatten :=
    ⟨rfl, hcomplete, by decide, by decide, by decide, by decide⟩
  exact ⟨hcontent, (ofContent_exact _).2.1 _ hcontent⟩

end Snmp.Oid
