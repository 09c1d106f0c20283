/-
  Snmp/Proofs/BindingLists.lean
  =============================
  **A list of bindings splits into its elements.**

  The loop that reads a list has no measure of its own: it goes on until no octet is left, and
  comes to an end because every binding that is accepted takes octets off, seven at least, and
  exactly those of one element.  Octets are a *piece* for a binding if they are one element that
  is accepted as this binding on its own (`IsPiece`).  A content is read as a list of bindings
  just if it is put together from pieces for them (`SplitsInto`), which says nothing about
  readers, offsets or what stands around the content; so contents that are put together are
  read as the lists put together.
-/
import Mathlib.Data.List.Forall2
import Snmp.Proofs.PlacelessDecoding
import Snmp.Proofs.ReadValues

namespace Snmp

open Ber Decoder

/-! ### Values -/

/-- A value is one element, whatever its type. -/
theorem Value.element_of_decode {r left : Reader} {value : Value}
    (h : decode r = .ok value left) :
    ∃ tag content used, IsElement tag content used ∧ r.Consumes used left := by
  rw [decode, bind_offset] at h
  rcases bind_eq_ok h with ⟨tag, s, htag, h⟩
  rcases bind_eq_ok h with ⟨count, t, hcount, h⟩
  rcases length_eq_ok hcount with ⟨number, hnumber, huse⟩
  rcases recovers_decodeContent _ _ _ _ _ _ h with ⟨content, rfl, hcontent, -⟩
  exact ⟨tag, content, (tag :: number) ++ content, ⟨tag :: number, ⟨number, rfl, hnumber⟩, rfl⟩,
    ((tag_eq_ok htag).trans huse).trans hcontent⟩

theorem Ber.IsElement.add_two_le {tag : Tag} {content octets : Octets}
    (h : IsElement tag content octets) : content.length + 2 ≤ octets.length := by
  obtain ⟨head, hhead, rfl⟩ := h
  have := hhead.two_le_length
  rw [List.length_append]
  omega

/-- An identifier is not read from an element without content. -/
theorem Ber.Decoder.three_le_of_oid {r left : Reader} {oid : Oid}
    (h : Decoder.oid r = .ok oid left) : ∃ used, r.Consumes used left ∧ 3 ≤ used.length := by
  rcases head_eq_ok h with ⟨count, head, s, hhead, huse, h⟩
  rcases oidContent_eq_ok h with ⟨content, rfl, hcontent, hoid⟩
  have hnonempty : content ≠ [] := by
    rintro rfl
    contradiction
  have hpos := List.length_pos_iff.2 hnonempty
  have hhead := hhead.two_le_length
  refine ⟨head ++ content, huse.trans hcontent, ?_⟩
  rw [List.length_append]
  omega

namespace Binding

variable {r left : Reader} {binding : Binding}

/-! ### Pieces -/

/-- One element, accepted as a binding on its own. -/
structure IsPiece (piece : Octets) (binding : Binding) : Prop where
  element : ∃ tag content, IsElement tag content piece
  accepted : decode.runOn piece = .ok binding

/-- What is put together from pieces for these bindings, in this order. -/
def SplitsInto (content : Octets) (bindings : List Binding) : Prop :=
  ∃ pieces : List Octets, pieces.flatten = content ∧ List.Forall₂ IsPiece pieces bindings

/-- A binding is one element, which is read as this binding wherever it stands.  A name takes three
    octets at least, and a value two. -/
theorem element_of_decode (h : decode r = .ok binding left) :
    ∃ content used, IsElement Tag.sequence content used ∧ r.Consumes used left ∧
      5 ≤ content.length ∧ Reads decode used binding := by
  rcases sequence_eq_ok h with ⟨head, content, unread, hhead, hconsumes, h⟩
  have haccepts : Accepts (do let oid ← Decoder.oid; return ⟨oid, ← Value.decode⟩) content
      binding :=
    (placeless_oid.bind fun oid => Value.placeless_decode.map (Binding.mk oid)).accepts 0 0 h
  refine ⟨content, head ++ content, ⟨head, hhead, rfl⟩, hconsumes, ?_,
    reads_sequence_announced hhead haccepts⟩
  rcases bind_eq_ok h with ⟨oid, s, hoid, h⟩
  rcases bind_eq_ok h with ⟨value, t, hvalue, h⟩
  rcases three_le_of_oid hoid with ⟨name, huse, hname⟩
  rcases Value.element_of_decode hvalue with ⟨_, _, valueOctets, hvalueElement, huse'⟩
  have hvalueOctets := hvalueElement.add_two_le
  have hlength := congrArg List.length (huse.trans huse').rest
  simp only [List.length_append] at hlength
  omega

/-- The element that a piece is accepted as is the whole piece. -/
theorem IsPiece.reads {piece : Octets} (h : IsPiece piece binding) :
    7 ≤ piece.length ∧ Reads decode piece binding := by
  obtain ⟨left, hleft⟩ := runOn_eq_ok h.accepted
  obtain ⟨content, used, hused, hconsumes, hfive, hreads⟩ := element_of_decode hleft
  obtain ⟨tag, whole, hwhole⟩ := h.element
  have hequal : piece ++ [] = used ++ left.rest := by
    rw [List.append_nil]
    exact hconsumes.rest
  have hlength := hused.add_two_le
  rw [hwhole.unique hused hequal]
  exact ⟨by omega, hreads⟩

/-- A binding that is read, wherever that is, takes a piece off its reader. -/
theorem piece_of_decode (h : decode r = .ok binding left) :
    ∃ piece, IsPiece piece binding ∧ r.Consumes piece left := by
  obtain ⟨content, used, hused, hconsumes, -, hreads⟩ := element_of_decode h
  refine ⟨used, ⟨⟨_, _, hused⟩, ?_⟩, hconsumes⟩
  rw [runOn, EStateM.run, Reader.ofOctets, hreads.alone 0]

theorem remaining_of_decode (h : decode r = .ok binding left) :
    left.remaining + 7 ≤ r.remaining := by
  obtain ⟨piece, hpiece, hconsumes⟩ := piece_of_decode h
  have hseven := hpiece.reads.1
  rw [Reader.remaining, Reader.remaining, hconsumes.rest, List.length_append]
  omega

theorem seven_mul_length_le {content : Octets} {bindings : List Binding}
    (h : SplitsInto content bindings) : 7 * bindings.length ≤ content.length := by
  obtain ⟨pieces, rfl, hpieces⟩ := h
  induction hpieces with
  | nil => simp
  | cons hpiece _ ih =>
    have := hpiece.reads.1
    simp only [List.flatten_cons, List.length_append, List.length_cons]
    omega

/-! ### The loop -/

theorem decodeUpTo_of_remaining (limit : Nat) (h : r.remaining = 0) :
    decodeUpTo limit r = .ok [] r := by
  have hempty : r.isEmpty = true := List.isEmpty_iff.2 (List.eq_nil_of_length_eq_zero h)
  cases limit with
  | zero => rfl
  | succ limit =>
    rw [decodeUpTo, bind_get, if_pos hempty]
    rfl

/-- Limits that leave room for all the bindings do not show in the result, by induction on one
    of them: what is left for the rest of the loop is seven octets less. -/
theorem decodeUpTo_eq {limit : Nat} : ∀ {other : Nat} {r : Reader}, r.remaining ≤ 7 * limit →
    r.remaining ≤ 7 * other → decodeUpTo limit r = decodeUpTo other r := by
  induction limit with
  | zero =>
    intro other r hlimit _
    have hnone : r.remaining = 0 := Nat.eq_zero_of_le_zero hlimit
    rw [decodeUpTo_of_remaining _ hnone, decodeUpTo_of_remaining _ hnone]
  | succ limit ih =>
    intro other r hlimit hother
    cases other with
    | zero =>
      have hnone : r.remaining = 0 := Nat.eq_zero_of_le_zero hother
      rw [decodeUpTo_of_remaining _ hnone, decodeUpTo_of_remaining _ hnone]
    | succ other =>
      rw [decodeUpTo, decodeUpTo, bind_get, bind_get]
      by_cases hempty : r.isEmpty
      · rw [if_pos hempty, if_pos hempty]
      · rw [if_neg hempty, if_neg hempty]
        cases hdecode : decode r with
        | error fault after => rw [bind_error hdecode, bind_error hdecode]
        | ok binding after =>
          have := remaining_of_decode hdecode
          rw [bind_ok hdecode, bind_ok hdecode]
          have hrest : decodeUpTo limit after = decodeUpTo other after := ih (by omega) (by omega)
          simp only [bind, EStateM.bind, hrest]

theorem decodeUpTo_eq_decodeAll {limit : Nat} (h : r.remaining ≤ 7 * limit) :
    decodeUpTo limit r = decodeAll r := by
  rw [decodeAll, bind_get]
  exact decodeUpTo_eq h (by omega)

/-- The loop takes a binding and goes on with what is left. -/
theorem decodeAll_eq (r : Reader) : decodeAll r =
    (if r.isEmpty then return [] else do
      let binding ← decode
      return binding :: (← decodeAll) : Decoder (List Binding)) r := by
  have hlimit : decodeUpTo (r.remaining + 1) r = decodeAll r := decodeUpTo_eq_decodeAll (by omega)
  rw [← hlimit, decodeUpTo, bind_get]
  by_cases hempty : r.isEmpty
  · rw [if_pos hempty, if_pos hempty]
  · rw [if_neg hempty, if_neg hempty]
    cases hdecode : decode r with
    | error fault after => rw [bind_error hdecode, bind_error hdecode]
    | ok binding after =>
      have := remaining_of_decode hdecode
      rw [bind_ok hdecode, bind_ok hdecode]
      have hrest : decodeUpTo r.remaining after = decodeAll after :=
        decodeUpTo_eq_decodeAll (by omega)
      simp only [bind, EStateM.bind, hrest]

/-! ### Contents -/

/-- Behind what was put together from pieces the loop goes on as if it began there; by induction
    on the pieces. -/
theorem decodeAll_append {content : Octets} {bindings : List Binding}
    (h : SplitsInto content bindings) (offset : Nat) (rest : Octets) :
    decodeAll ⟨offset, content ++ rest⟩ =
      (do return bindings ++ (← decodeAll)) ⟨offset + content.length, rest⟩ := by
  obtain ⟨pieces, rfl, hpieces⟩ := h
  induction hpieces generalizing offset with
  | nil =>
    cases hrest : decodeAll ⟨offset, rest⟩ with
    | error fault after => exact hrest.trans (bind_error hrest).symm
    | ok more after => exact hrest.trans (bind_ok hrest).symm
  | @cons piece binding pieces bindings hpiece _ ih =>
    obtain ⟨hseven, hreads⟩ := hpiece.reads
    have hnonempty : ¬(Reader.mk offset (piece ++ (pieces.flatten ++ rest))).isEmpty := by
      intro hempty
      have hnil := List.append_eq_nil_iff.1 (List.isEmpty_iff.1 hempty)
      rw [hnil.1] at hseven
      contradiction
    have hmore := ih (offset + piece.length)
    rw [List.flatten_cons, List.append_assoc, decodeAll_eq, if_neg hnonempty,
      bind_ok (hreads offset _), List.length_append, ← Nat.add_assoc]
    cases hrest : decodeAll ⟨offset + piece.length + pieces.flatten.length, rest⟩ with
    | error fault after => rw [bind_error (hmore.trans (bind_error hrest)), bind_error hrest]
    | ok more after =>
      rw [bind_ok (hmore.trans (bind_ok hrest)), bind_ok hrest]
      rfl

theorem decodeAll_of_splitsInto {content : Octets} {bindings : List Binding}
    (h : SplitsInto content bindings) (offset : Nat) :
    decodeAll ⟨offset, content⟩ = .ok bindings ⟨offset + content.length, []⟩ := by
  have happend := decodeAll_append h offset []
  rw [List.append_nil] at happend
  rw [happend, bind_ok (decodeAll_eq ⟨offset + content.length, []⟩)]
  exact congrArg (EStateM.Result.ok · _) (List.append_nil bindings)

/-- The loop comes to the end of the octets piece by piece, by induction on their number. -/
theorem splitsInto_of_decodeAll {bindings : List Binding} (h : decodeAll r = .ok bindings left) :
    SplitsInto r.rest bindings := by
  induction hcount : r.remaining using Nat.strongRecOn generalizing r bindings with
  | _ count ih =>
    rw [decodeAll_eq] at h
    by_cases hempty : r.isEmpty
    · rw [if_pos hempty] at h
      cases h
      rw [List.isEmpty_iff.1 hempty]
      exact ⟨[], rfl, .nil⟩
    · rw [if_neg hempty] at h
      rcases bind_eq_ok h with ⟨binding, s, hbinding, h⟩
      rcases bind_eq_ok h with ⟨more, t, hmore, h⟩
      cases h
      have hless := remaining_of_decode hbinding
      obtain ⟨piece, hpiece, hconsumes⟩ := piece_of_decode hbinding
      obtain ⟨pieces, hflatten, hpieces⟩ := ih s.remaining (by omega) hmore rfl
      refine ⟨piece :: pieces, ?_, .cons hpiece hpieces⟩
      rw [List.flatten_cons, hflatten, hconsumes.rest]

theorem SplitsInto.append {a b : Octets} {as bs : List Binding} (ha : SplitsInto a as)
    (hb : SplitsInto b bs) : SplitsInto (a ++ b) (as ++ bs) := by
  obtain ⟨pieces, rfl, hpieces⟩ := ha
  obtain ⟨others, rfl, hothers⟩ := hb
  exact ⟨pieces ++ others, List.flatten_append, List.rel_append hpieces hothers⟩

/-! ### Lists -/

/-- A list is read just if a SEQUENCE stands first whose content splits, and this SEQUENCE is
    taken off. -/
theorem decodeList_eq_ok_iff {bindings : List Binding} :
    decodeList r = .ok bindings left ↔ ∃ head content,
      Announces Tag.sequence content.length head ∧ r.Consumes (head ++ content) left ∧
        SplitsInto content bindings := by
  constructor
  · intro h
    rcases sequence_eq_ok h with ⟨head, content, unread, hhead, hconsumes, h⟩
    exact ⟨head, content, hhead, hconsumes, splitsInto_of_decodeAll h⟩
  · rintro ⟨head, content, hhead, hconsumes, hsplits⟩
    have hreads : Reads decodeList (head ++ content) bindings :=
      reads_sequence_announced hhead fun offset => ⟨_, decodeAll_of_splitsInto hsplits offset⟩
    obtain ⟨hrest, hoffset⟩ := hconsumes
    have hread := hreads r.offset left.rest
    rwa [← hrest, ← hoffset] at hread

/-- A SEQUENCE is read as these bindings just if its content splits into them. -/
theorem reads_decodeList_iff {head content : Octets} {bindings : List Binding}
    (hhead : Announces Tag.sequence content.length head) :
    Reads decodeList (head ++ content) bindings ↔ SplitsInto content bindings := by
  constructor
  · intro h
    obtain ⟨head', content', hhead', hconsumes, hsplits⟩ := decodeList_eq_ok_iff.1 (h 0 [])
    have hequal : head ++ (content ++ []) = head' ++ (content' ++ []) := by
      rw [← List.append_assoc, ← List.append_assoc]
      exact hconsumes.rest
    obtain ⟨rfl, -⟩ := hhead.unique hhead' hequal
    rw [List.append_nil, List.append_nil, List.append_cancel_left_eq] at hequal
    rwa [hequal]
  · intro h
    exact reads_sequence_announced hhead fun offset => ⟨_, decodeAll_of_splitsInto h offset⟩

/-- **Lists of bindings split exactly.**  The loop goes on binding by binding and has come to its
    end after one turn for each seven octets at the most.  A list is read just if a SEQUENCE
    stands first whose content is put together from elements that are accepted as bindings on
    their own; the result is these bindings in order, and this one element is taken off, as it is
    for a value and for a binding.  Nothing but the content decides what a SEQUENCE is read as;
    contents put together are read as the lists put together. -/
theorem decodeList_splits :
    (∀ (r : Reader) (limit : Nat), r.remaining ≤ 7 * limit → decodeUpTo limit r = decodeAll r) ∧
    (∀ r : Reader, decodeAll r =
      (if r.isEmpty then return [] else do
        let binding ← decode
        return binding :: (← decodeAll) : Decoder (List Binding)) r) ∧
    (∀ (r left : Reader) (bindings : List Binding),
      decodeList r = .ok bindings left ↔ ∃ head content,
        Announces Tag.sequence content.length head ∧ r.Consumes (head ++ content) left ∧
          SplitsInto content bindings) ∧
    (∀ (content : Octets) (bindings : List Binding),
      SplitsInto content bindings → 7 * bindings.length ≤ content.length) ∧
    (∀ head content : Octets, Announces Tag.sequence content.length head →
      ∀ (offset : Nat) (rest : Octets), decodeList ⟨offset, head ++ content ++ rest⟩ =
        within ⟨offset + head.length, content⟩ decodeAll
          ⟨offset + (head ++ content).length, rest⟩) ∧
    (∀ (r left : Reader) (value : Value), Value.decode r = .ok value left →
      ∃ tag content used, IsElement tag content used ∧ r.Consumes used left) ∧
    (∀ (r left : Reader) (binding : Binding), decode r = .ok binding left →
      ∃ content used, IsElement Tag.sequence content used ∧ r.Consumes used left) ∧
    (∀ (head head' head'' a b : Octets) (as bs : List Binding),
      Announces Tag.sequence a.length head → Announces Tag.sequence b.length head' →
      Announces Tag.sequence (a ++ b).length head'' →
      Reads decodeList (head ++ a) as → Reads decodeList (head' ++ b) bs →
      Reads decodeList (head'' ++ (a ++ b)) (as ++ bs)) := by
  refine ⟨fun r limit => decodeUpTo_eq_decodeAll, decodeAll_eq, fun r left bindings =>
    decodeList_eq_ok_iff, fun content bindings => seven_mul_length_le,
    fun head content hhead => sequence_announced hhead, fun r left value =>
    Value.element_of_decode, ?_, ?_⟩
  · intro r left binding h
    obtain ⟨content, used, hused, hconsumes, -⟩ := element_of_decode h
    exact ⟨content, used, hused, hconsumes⟩
  · intro head head' head'' a b as bs hhead hhead' hhead'' ha hb
    rw [reads_decodeList_iff hhead] at ha
    rw [reads_decodeList_iff hhead'] at hb
    rw [reads_decodeList_iff hhead'']
    exact ha.append hb

/-- The shortest binding: the name 1.3 and NULL. -/
def shortestPiece : Octets := [48, 5, 6, 1, 43, 5, 0]

theorem isPiece_shortestPiece : IsPiece shortestPiece (unset ⟨[1, 3]⟩) where
  element := ⟨Tag.sequence, _, [48, 5], ⟨[5], rfl, rfl⟩, rfl⟩
  accepted := by decide +kernel

theorem splitsInto_shortestPiece : SplitsInto shortestPiece [unset ⟨[1, 3]⟩] :=
  ⟨[shortestPiece], rfl, .cons isPiece_shortestPiece .nil⟩

/-- A list with a length that is longer than it has to be, put together with one that is not. -/
theorem reads_two_shortest : Reads decodeList ([48, 14] ++ (shortestPiece ++ shortestPiece))
    [unset ⟨[1, 3]⟩, unset ⟨[1, 3]⟩] := by
  have hpadded : Announces Tag.sequence shortestPiece.length [48, 129, 7] :=
    ⟨[129, 7], rfl, by decide⟩
  have hshort : Announces Tag.sequence shortestPiece.length [48, 7] := ⟨_, rfl, rfl⟩
  have hboth : Announces Tag.sequence (shortestPiece ++ shortestPiece).length [48, 14] :=
    ⟨_, rfl, rfl⟩
  obtain ⟨-, -, -, -, -, -, -, happend⟩ := decodeList_splits
  exact happend _ _ _ _ _ _ _ hpadded hshort hboth
    ((reads_decodeList_iff hpadded).2 splitsInto_shortestPiece)
    ((reads_decodeList_iff hshort).2 splitsInto_shortestPiece)

end Binding

end Snmp
