/-
  Snmp/Proofs/OidContent.lean
  ===========================
  **Object identifiers survive their encoding.**

  A subidentifier is read back as its value: its leading octets leave the value of what was
  read so far, by induction on the base-128 digits, and its last octet completes it.  The first
  subidentifier folds two arcs into one number, which is undone exactly on the identifiers that
  pass the check of the registry, as long as there are not more arcs than a reader takes.
-/
import Snmp.Oid.Content
import Snmp.Proofs.Numbers

namespace Snmp.Oid

/-- An identifier that is read back from its encoding as itself. -/
structure Transmissible (oid : Oid) : Prop where
  encodable : oid.isEncodable = true
  short : oid.length ≤ maxArcs

/-! ### Subidentifiers -/

/-- The octet of a digit that is not the last has its high bit set. -/
theorem toNat_continued_octet {d : Nat} (h : d < 128) : (UInt8.ofNat (128 + d)).toNat = 128 + d :=
  Octets.toNat_ofNat_octet (by omega)

theorem le_continued_octet {d : Nat} (h : d < 128) : 128 ≤ UInt8.ofNat (128 + d) := by
  rw [UInt8.le_iff_toNat_le, toNat_continued_octet h]
  exact Nat.le_add_right 128 d

/-- A digit that is not the last is shifted into the value read so far. -/
theorem readArcs_continued_octet {read : List UInt32} {unfinished : Option Nat} {d : Nat}
    (hd : d < 128) (hmax : unfinished.getD 0 * 128 + d ≤ maxSubidentifier) (rest : Octets) :
    readArcs read unfinished (UInt8.ofNat (128 + d) :: rest) =
      readArcs read (some (unfinished.getD 0 * 128 + d)) rest := by
  have hdigit : (128 + d) % 128 = d := by omega
  rw [readArcs]
  simp only [toNat_continued_octet hd, hdigit, if_neg (Nat.not_lt.2 hmax),
    if_pos (le_continued_octet hd)]

/-- The leading digits of a subidentifier leave their value, by induction on the digits. -/
theorem readArcs_continued {read : List UInt32} {n : Nat} (hmax : n ≤ maxSubidentifier)
    (rest : Octets) :
    readArcs read none (continued n ++ rest) = readArcs read (some n) rest := by
  induction n using Nat.strongRecOn generalizing rest with
  | _ n ih =>
    rw [continued]
    by_cases h : n < 128
    · rw [if_pos h, List.singleton_append,
        readArcs_continued_octet h (by simpa using hmax)]
      simp
    · have hvalue : n / 128 * 128 + n % 128 = n := Nat.div_add_mod' n 128
      rw [if_neg h, List.append_assoc, ih (n / 128) (by omega) (by omega), List.singleton_append,
        readArcs_continued_octet (Nat.mod_lt n (by decide)) (by simpa [hvalue] using hmax)]
      simp only [Option.getD_some, hvalue]

/-- The last digit completes a value, which becomes one arc or two. -/
theorem readArcs_last_octet {read arcs : List UInt32} {unfinished : Option Nat} {d : Nat}
    (hd : d < 128) (hmax : unfinished.getD 0 * 128 + d ≤ maxSubidentifier)
    (happend : appendArcs read (unfinished.getD 0 * 128 + d) = .ok arcs)
    (hshort : arcs.length ≤ maxArcs) (rest : Octets) :
    readArcs read unfinished (UInt8.ofNat d :: rest) = readArcs arcs none rest := by
  have hoctet : (UInt8.ofNat d).toNat = d := Octets.toNat_ofNat_octet (by omega)
  have hmark : (128 : UInt8).toNat = 128 := rfl
  have hlast : ¬128 ≤ UInt8.ofNat d := by
    rw [UInt8.le_iff_toNat_le, hoctet, hmark]
    omega
  rw [readArcs]
  simp only [hoctet, Nat.mod_eq_of_lt hd, if_neg (Nat.not_lt.2 hmax), if_neg hlast, happend,
    if_neg (Nat.not_lt.2 hshort)]

theorem readArcs_subidentifier {read arcs : List UInt32} {n : Nat} (hmax : n ≤ maxSubidentifier)
    (happend : appendArcs read n = .ok arcs) (hshort : arcs.length ≤ maxArcs) (rest : Octets) :
    readArcs read none (subidentifier n ++ rest) = readArcs arcs none rest := by
  rw [subidentifier]
  by_cases h : n < 128
  · rw [if_pos h, List.singleton_append]
    apply readArcs_last_octet h (by simpa using hmax) (by simpa using happend) hshort
  · have hvalue : n / 128 * 128 + n % 128 = n := Nat.div_add_mod' n 128
    rw [if_neg h, List.append_assoc, readArcs_continued (by omega), List.singleton_append]
    apply readArcs_last_octet (Nat.mod_lt n (by decide)) (by simpa [hvalue] using hmax)
      (by simpa [hvalue] using happend) hshort

/-! ### Arcs -/

theorem le_maxSubidentifier (arc : UInt32) : arc.toNat ≤ maxSubidentifier := by
  have := arc.toNat_lt
  simp only [maxSubidentifier, UInt32.size]
  omega

theorem appendArcs_cons (last : UInt32) (read : List UInt32) (arc : UInt32) :
    appendArcs (last :: read) arc.toNat = .ok (arc :: last :: read) := by
  have harc : arc.toNat < UInt32.size := arc.toNat_lt
  simp only [appendArcs, UInt32.ofNat_toNat, if_pos harc]

/-- The subidentifiers after the first are the arcs after the second. -/
theorem readArcs_arcs {arcs : List UInt32} : ∀ {read : List UInt32}, read ≠ [] →
    read.length + arcs.length ≤ maxArcs →
    readArcs read none ((arcs.map (·.toNat)).flatMap subidentifier) =
      .ok (read.reverse ++ arcs) := by
  induction arcs with
  | nil =>
    intro read hne _
    cases read with
    | nil => exact absurd rfl hne
    | cons last read => simp [readArcs]
  | cons arc arcs ih =>
    intro read hne hshort
    cases read with
    | nil => exact absurd rfl hne
    | cons last read =>
      simp only [List.length_cons] at hshort
      rw [List.map_cons, List.flatMap_cons,
        readArcs_subidentifier (le_maxSubidentifier arc) (appendArcs_cons last read arc)
          (by simp only [List.length_cons]; omega),
        ih (List.cons_ne_nil _ _) (by simp only [List.length_cons]; omega)]
      simp

/-- What the check of the registry says of the first two arcs. -/
theorem arcs_of_isEncodable {first second : UInt32} {rest : List UInt32}
    (h : isEncodable ⟨first :: second :: rest⟩ = true) :
    (first = 0 ∧ second.toNat < 40) ∨ (first = 1 ∧ second.toNat < 40) ∨ first = 2 := by
  simp only [isEncodable, Bool.or_eq_true, Bool.and_eq_true, decide_eq_true_eq,
    UInt32.lt_iff_toNat_lt] at h
  rcases h with htwo | ⟨hfirst, hsecond⟩
  · exact .inr (.inr htwo)
  · have hdigit : first.toNat = 0 ∨ first.toNat = 1 := by
      have hlt : first.toNat < 2 := hfirst
      omega
    rcases hdigit with hzero | hone
    · exact .inl ⟨UInt32.toNat_inj.1 hzero, hsecond⟩
    · exact .inr (.inl ⟨UInt32.toNat_inj.1 hone, hsecond⟩)

/-- The first subidentifier is split into the arcs that were folded into it. -/
theorem splitFirst_fold {first second : UInt32} {rest : List UInt32}
    (h : isEncodable ⟨first :: second :: rest⟩ = true) :
    splitFirst (first.toNat * 40 + second.toNat) = [first, second] := by
  rcases arcs_of_isEncodable h with ⟨hzero, hlt⟩ | ⟨hone, hlt⟩ | htwo
  · simp [splitFirst, hzero, hlt]
  · have hlow : ¬40 + second.toNat < 40 := by omega
    have hhigh : 40 + second.toNat < 80 := by omega
    simp [splitFirst, hone, hlow, hhigh]
  · have hlow : ¬80 + second.toNat < 40 := by omega
    have hhigh : ¬80 + second.toNat < 80 := by omega
    simp [splitFirst, htwo, hlow, hhigh]

theorem fold_le_maxSubidentifier {first second : UInt32} {rest : List UInt32}
    (h : isEncodable ⟨first :: second :: rest⟩ = true) :
    first.toNat * 40 + second.toNat ≤ maxSubidentifier := by
  have hsecond := second.toNat_lt
  have hfirst : first.toNat ≤ 2 := by
    rcases arcs_of_isEncodable h with ⟨rfl, _⟩ | ⟨rfl, _⟩ | rfl
    · decide
    · decide
    · decide
  simp only [maxSubidentifier, UInt32.size]
  omega

theorem ofContent_content {oid : Oid} (h : oid.Transmissible) :
    ofContent oid.content = .ok oid := by
  obtain ⟨arcs⟩ := oid
  match arcs, h with
  | [], h => exact absurd h.encodable (by simp [isEncodable])
  | [_], h => exact absurd h.encodable (by simp [isEncodable])
  | first :: second :: rest, h =>
    have hshort : rest.length + 1 + 1 ≤ maxArcs := h.short
    have happend : appendArcs [] (first.toNat * 40 + second.toNat) = .ok [second, first] := by
      simp [appendArcs, splitFirst_fold h.encodable]
    have hread : readArcs [] none (content ⟨first :: second :: rest⟩) =
        .ok (first :: second :: rest) := by
      rw [content, subidentifierValues, List.flatMap_cons,
        readArcs_subidentifier (fold_le_maxSubidentifier h.encodable) happend (by simp [maxArcs]),
        readArcs_arcs (List.cons_ne_nil _ _)
          (by simp only [List.length_cons, List.length_nil]; omega)]
      simp
    rw [ofContent, hread]
    rfl

end Snmp.Oid
