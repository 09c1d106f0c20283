/-
  Snmp/Proofs/PlacelessDecoding.lean
  ==================================
  **A decoder looks at octets, not at where they stand.**

  A reader knows the offset of its octets, and decoders name offsets in their faults.  That is
  all they do with them: a decoder that succeeds on some octets succeeds on the same octets at
  any other place, yields the same and leaves the same (`Placeless`).  A decoder may be given a
  place to name in a fault, so the property is one of a family of decoders, indexed by that
  place; it composes along a sequence of steps.

  The content of a constructed element is decoded as if it were all there is.  With a head that
  announces the content, in whatever form, it is therefore read on its own, wherever the element
  stands and whatever follows it; and there is one way only to take an element off octets.
-/
import Snmp.Value.Encoding
import Snmp.Proofs.Consumption

namespace Snmp

namespace Ber

/-! ### One way to take an element off -/

namespace Announces

variable {tag tag' : Tag} {count count' : Nat} {head head' : Octets}

/-- Two heads at the beginning of the same octets are one head. -/
theorem unique (h : Announces tag count head) (h' : Announces tag' count' head') {a b : Octets}
    (hequal : head ++ a = head' ++ b) : head = head' ∧ count = count' := by
  obtain ⟨number, rfl, hnumber⟩ := h
  obtain ⟨number', rfl, hnumber'⟩ := h'
  obtain ⟨rfl, hrest⟩ : tag = tag' ∧ number ++ a = number' ++ b := List.cons.inj hequal
  have hfound := Length.decode_append_of_eq_ok hnumber a
  rw [hrest, Length.decode_append_of_eq_ok hnumber' b] at hfound
  obtain ⟨rfl, hlength⟩ := Prod.mk.inj (Except.ok.inj hfound)
  exact ⟨congrArg _ (List.append_inj_left hrest hlength.symm), rfl⟩

end Announces

/-- Of two elements at the beginning of the same octets neither leaves more than the other. -/
theorem IsElement.unique {tag tag' : Tag} {content content' used used' a b : Octets}
    (h : IsElement tag content used) (h' : IsElement tag' content' used')
    (hequal : used ++ a = used' ++ b) : used = used' := by
  obtain ⟨head, hhead, rfl⟩ := h
  obtain ⟨head', hhead', rfl⟩ := h'
  rw [List.append_assoc, List.append_assoc] at hequal
  obtain ⟨rfl, hlength⟩ := hhead.unique hhead' hequal
  have hrest := List.append_cancel_left hequal
  rw [List.append_inj_left hrest hlength]

namespace Decoder

variable {α β : Type}

/-! ### Elements with any head -/

theorem constructed_announced {tag : Tag} {head content : Octets}
    (h : Announces tag content.length head) (offset : Nat) (rest : Octets) :
    constructed tag ⟨offset, head ++ content ++ rest⟩ =
      .ok ⟨offset + head.length, content⟩ ⟨offset + (head ++ content).length, rest⟩ := by
  obtain ⟨number, rfl, hnumber⟩ := h
  have htag : Decoder.tag ⟨offset, tag :: number ++ content ++ rest⟩ =
      .ok tag ⟨offset + 1, number ++ (content ++ rest)⟩ := by
    rw [List.append_assoc]
    rfl
  have hexpect : expect tag ⟨offset, tag :: number ++ content ++ rest⟩ =
      .ok () ⟨offset + 1, number ++ (content ++ rest)⟩ := by
    rw [expect, bind_offset, bind_ok htag, if_pos rfl]
    rfl
  have hlength : length ⟨offset + 1, number ++ (content ++ rest)⟩ =
      .ok content.length ⟨offset + 1 + number.length, content ++ rest⟩ := by
    simp [length, Length.decode_append_of_eq_ok hnumber, Reader.advance]
  rw [constructed, bind_ok hexpect, bind_ok hlength, bind_offset,
    bind_ok (reads_octets content _ rest), Nat.add_assoc offset 1, Nat.add_comm 1,
    ← List.length_cons, Nat.add_assoc, ← List.length_append]
  rfl

/-- What a SEQUENCE is read as depends on its content only, wherever it stands and whatever
    follows it. -/
theorem sequence_announced {decoder : Decoder α} {head content : Octets}
    (h : Announces Tag.sequence content.length head) (offset : Nat) (rest : Octets) :
    sequence decoder ⟨offset, head ++ content ++ rest⟩ =
      within ⟨offset + head.length, content⟩ decoder
        ⟨offset + (head ++ content).length, rest⟩ := by
  rw [sequence, bind_ok (constructed_announced h offset rest)]

theorem reads_sequence_announced {decoder : Decoder α} {head content : Octets} {a : α}
    (hhead : Announces Tag.sequence content.length head) (h : Accepts decoder content a) :
    Reads (sequence decoder) (head ++ content) a := by
  intro offset rest
  obtain ⟨left, hleft⟩ := h (offset + head.length)
  rw [sequence_announced hhead, within, hleft]

/-! ### Steps that look at octets only -/

/-- A decoder that succeeds does so on the same octets at any place, with the same result and
    the same octets left, whatever place it was to name in a fault. -/
def Placeless (decoder : Nat → Decoder α) : Prop :=
  ∀ (start other : Nat) (r s left : Reader) (a : α), r.rest = s.rest →
    decoder start r = .ok a left → ∃ after, decoder other s = .ok a after ∧ left.rest = after.rest

namespace Placeless

variable {decoder : Nat → Decoder α}

theorem accepts (h : Placeless decoder) (start other : Nat) {r left : Reader} {a : α}
    (hrun : decoder start r = .ok a left) : Accepts (decoder other) r.rest a := by
  intro offset
  obtain ⟨after, hafter, -⟩ := h start other r ⟨offset, r.rest⟩ left a rfl hrun
  exact ⟨after, hafter⟩

theorem pure (a : α) : Placeless fun _ => (Pure.pure a : Decoder α) := by
  intro start other r s left result hrest hrun
  cases hrun
  exact ⟨s, rfl, hrest⟩

theorem fail {position : Nat → Nat} {defect : Nat → Defect} :
    Placeless fun start => (Decoder.fail (position start) (defect start) : Decoder α) := by
  intro start other r s left result hrest hrun
  contradiction

theorem bind {next : Nat → α → Decoder β} (h : Placeless decoder)
    (k : ∀ a, Placeless fun start => next start a) :
    Placeless fun start => decoder start >>= next start := by
  intro start other r s left b hrest hrun
  obtain ⟨a, middle, hfirst, hsecond⟩ := bind_eq_ok hrun
  obtain ⟨after, hafter, hmiddle⟩ := h start other r s middle a hrest hfirst
  obtain ⟨final, hfinal, hleft⟩ := k a start other middle after left b hmiddle hsecond
  exact ⟨final, (bind_ok hafter).trans hfinal, hleft⟩

theorem map (f : α → β) (h : Placeless decoder) :
    Placeless fun start => (do return f (← decoder start)) :=
  h.bind fun a => .pure (f a)

/-- A place may be noted for a fault. -/
theorem noting (h : Placeless decoder) : Placeless fun _ => offset >>= decoder :=
  fun _ _ r s left a hrest hrun => h r.offset s.offset r s left a hrest hrun

theorem ite {p : Prop} [Decidable p] {a b : Nat → Decoder α} (ha : Placeless a)
    (hb : Placeless b) : Placeless fun start => if p then a start else b start := by
  by_cases hp : p
  · simp only [if_pos hp]
    exact ha
  · simp only [if_neg hp]
    exact hb

/-- What comes after a condition that is refused, if it holds. -/
theorem refusing {p : Prop} [Decidable p] {defect : Defect} {next : Nat → PUnit → Decoder α}
    (h : ∀ done, Placeless fun start => next start done) :
    Placeless fun start => if p then Decoder.fail start defect >>= next start else next start ⟨⟩ :=
  .ite (bind .fail h) (h ⟨⟩)

/-- What comes after a condition that is refused, unless it holds. -/
theorem requiring {p : Prop} [Decidable p] {defect : Defect} {next : Nat → PUnit → Decoder α}
    (h : ∀ done, Placeless fun start => next start done) :
    Placeless fun start => if p then next start ⟨⟩ else Decoder.fail start defect >>= next start :=
  .ite (h ⟨⟩) (bind .fail h)

end Placeless

/-! ### Raw steps -/

theorem placeless_tag : Placeless fun _ => tag := by
  intro start other r s left octet hrest hrun
  obtain ⟨offset, rest⟩ := r
  obtain ⟨place, rest'⟩ := s
  cases hrest
  cases rest with
  | nil => contradiction
  | cons first rest =>
    cases hrun
    exact ⟨_, rfl, rfl⟩

theorem placeless_length : Placeless fun _ => length := by
  intro start other r s left count hrest hrun
  simp only [length, Reader.advance, hrest] at hrun ⊢
  cases hdecode : Length.decode s.rest with
  | error defect =>
    simp only [hdecode] at hrun
    contradiction
  | ok found =>
    simp only [hdecode] at hrun ⊢
    split at hrun
    · cases hrun
      rename_i hcovers
      exact ⟨_, if_pos hcovers, rfl⟩
    · contradiction

theorem placeless_octets (count : Nat) : Placeless fun _ => octets count := by
  intro start other r s left content hrest hrun
  simp only [octets, Reader.advance, hrest] at hrun ⊢
  split at hrun
  · cases hrun
    rename_i hcovers
    exact ⟨_, if_pos hcovers, rfl⟩
  · contradiction

theorem placeless_expect (expected : Tag) : Placeless fun _ => expect expected :=
  .noting (placeless_tag.bind fun _ => .ite (.pure _) .fail)

/-! ### Primitive contents -/

theorem placeless_number (denoted? : Octets → Option α) (count : Nat) :
    Placeless fun _ => number denoted? count := by
  refine .noting (.refusing fun _ => (placeless_octets count).bind fun content => ?_)
  cases denoted? content with
  | none => exact .fail
  | some value => exact .pure value

theorem placeless_integerContent (count : Nat) : Placeless fun _ => integerContent count :=
  placeless_number Integer.toInt32? count

theorem placeless_unsignedContent (maxCount count : Nat) :
    Placeless fun _ => unsignedContent maxCount count :=
  placeless_number (Integer.toWord? maxCount) count

theorem placeless_unsigned32Content (count : Nat) : Placeless fun _ => unsigned32Content count :=
  .noting ((placeless_unsignedContent 5 count).bind fun _ => .ite (.pure _) .fail)

theorem placeless_unsigned64Content (count : Nat) : Placeless fun _ => unsigned64Content count :=
  .noting (.refusing fun _ => placeless_unsignedContent 9 count)

theorem placeless_oidContent (count : Nat) : Placeless fun _ => oidContent count := by
  refine .noting ((placeless_octets count).bind fun content => ?_)
  cases Oid.ofContent content with
  | ok oid => exact .pure oid
  | error defect => exact .fail

theorem placeless_oid : Placeless fun _ => Decoder.oid :=
  (placeless_expect Tag.objectIdentifier).bind fun _ =>
    placeless_length.bind fun count => placeless_oidContent count

theorem placeless_ipAddressContent (count : Nat) :
    Placeless fun start => ipAddressContent start count := by
  refine .requiring fun _ => (placeless_octets 4).bind fun content => ?_
  split
  · exact .pure _
  · exact .fail

end Decoder

end Ber

open Ber Decoder

/-! ### Values -/

namespace Value

theorem placeless_decodeContent (tag : Tag) (count : Nat) :
    Placeless fun start => decodeContent start tag count := by
  unfold decodeContent
  refine .ite ((placeless_integerContent count).map _) ?_
  refine .ite ((placeless_octets count).map _) ?_
  refine .ite .fail ?_
  refine .ite (.ite (.pure _) .fail) ?_
  refine .ite ((placeless_oidContent count).map _) ?_
  refine .ite ((placeless_ipAddressContent count).map _) ?_
  refine .ite ((placeless_unsigned32Content count).map _) ?_
  refine .ite ((placeless_unsigned32Content count).map _) ?_
  refine .ite ((placeless_unsigned32Content count).map _) ?_
  refine .ite ((placeless_octets count).bind fun content => ?_) ?_
  · cases ofOpaqueContent? content with
    | none => exact .fail
    | some value => exact .pure value
  refine .ite ((placeless_unsigned64Content count).map _) ?_
  refine .ite ((placeless_octets count).map _) ?_
  refine .ite ((placeless_octets count).map _) ?_
  refine .ite ((placeless_octets count).map _) ?_
  exact .fail

theorem placeless_decode : Placeless fun _ => decode :=
  .noting (placeless_tag.bind fun tag =>
    placeless_length.bind fun count => placeless_decodeContent tag count)

end Value

end Snmp
