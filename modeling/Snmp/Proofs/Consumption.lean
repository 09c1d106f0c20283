/-
  Snmp/Proofs/Consumption.lean
  ============================
  **What a decoder that succeeds has consumed.**

  A reader accepts more than a writer produces: padded lengths, and octets behind the last
  field.  These lemmas say, for each decoder, which octets it has taken off its reader, in
  terms that do not mention readers: a head that announces so many octets (`Announces`), an
  element of a tag around a content (`IsElement`).  Offsets follow from lengths, so whatever a
  decoder notes about a position can be checked against the octets themselves.
-/
import Snmp.Proofs.Elements
import Snmp.Proofs.Results

namespace Snmp

namespace Ber

/-! ### Elements in any encoding that is read -/

/-- A tag and length octets that announce `count` octets of content. -/
def Announces (tag : Tag) (count : Nat) (head : Octets) : Prop :=
  ∃ number, head = tag :: number ∧ Length.decode number = .ok (count, number.length)

def IsElement (tag : Tag) (content octets : Octets) : Prop :=
  ∃ head, Announces tag content.length head ∧ octets = head ++ content

def IsInteger (value : Int32) (octets : Octets) : Prop :=
  ∃ content, IsElement Tag.integer content octets ∧ Octets.toInt content = value.toInt

/-! ### Raw steps -/

/-- What is left of a reader after octets were taken off. -/
structure Reader.Consumes (r : Reader) (used : Octets) (left : Reader) : Prop where
  rest : r.rest = used ++ left.rest
  offset : left.offset = r.offset + used.length

theorem Reader.Consumes.trans {r s t : Reader} {first second : Octets}
    (h : r.Consumes first s) (k : s.Consumes second t) : r.Consumes (first ++ second) t where
  rest := by rw [h.rest, k.rest, List.append_assoc]
  offset := by rw [k.offset, h.offset, List.length_append, Nat.add_assoc]

theorem Reader.consumes_advance {r : Reader} {count : Nat}
    (h : (r.rest.take count).length = count) :
    r.Consumes (r.rest.take count) (r.advance count) where
  rest := (List.take_append_drop count r.rest).symm
  offset := by rw [h, Reader.advance]

namespace Decoder

variable {α β : Type} {r left : Reader}

theorem runOn_eq_ok {decoder : Decoder α} {data : Octets} {base : Nat} {a : α}
    (h : decoder.runOn data base = .ok a) : ∃ left, decoder ⟨base, data⟩ = .ok a left := by
  rw [runOn] at h
  split at h
  · rename_i left hrun
    cases h
    exact ⟨left, hrun⟩
  · contradiction

theorem tag_eq_ok {octet : Tag} (h : tag r = .ok octet left) : r.Consumes [octet] left := by
  obtain ⟨offset, rest⟩ := r
  cases rest with
  | nil => contradiction
  | cons first rest =>
    cases h
    exact ⟨rfl, rfl⟩

theorem length_eq_ok {count : Nat} (h : length r = .ok count left) :
    ∃ number, Length.decode number = .ok (count, number.length) ∧ r.Consumes number left := by
  rw [length] at h
  cases hdecode : Length.decode r.rest with
  | error defect => simp [hdecode] at h
  | ok found =>
    obtain ⟨announced, used⟩ := found
    obtain ⟨hused, hnumber⟩ := Length.decode_take hdecode
    simp only [hdecode] at h
    split at h
    · cases h
      exact ⟨r.rest.take used, by rw [hnumber, hused], Reader.consumes_advance hused⟩
    · contradiction

theorem octets_eq_ok {count : Nat} {content : Octets} (h : octets count r = .ok content left) :
    content.length = count ∧ r.Consumes content left := by
  simp only [octets, Octets.covers_eq_decide, decide_eq_true_eq] at h
  by_cases hcovers : count ≤ r.rest.length
  · rw [if_pos hcovers] at h
    cases h
    have hlength : (r.rest.take count).length = count := List.length_take_of_le hcovers
    exact ⟨hlength, Reader.consumes_advance hlength⟩
  · rw [if_neg hcovers] at h
    contradiction

theorem expect_eq_ok {expected : Tag} (h : expect expected r = .ok () left) :
    r.Consumes [expected] left := by
  rw [expect, bind_offset] at h
  rcases bind_eq_ok h with ⟨actual, s, htag, h⟩
  by_cases hactual : actual = expected
  · rw [if_pos hactual] at h
    cases h
    exact hactual ▸ tag_eq_ok htag
  · rw [if_neg hactual] at h
    contradiction

theorem head_eq_ok {next : Nat → Decoder α} {tag : Tag} {a : α}
    (h : (do expect tag; next (← length) : Decoder α) r = .ok a left) :
    ∃ count head s, Announces tag count head ∧ r.Consumes head s ∧ next count s = .ok a left := by
  rcases bind_eq_ok h with ⟨_, s, hexpect, h⟩
  rcases bind_eq_ok h with ⟨count, t, hlength, h⟩
  rcases length_eq_ok hlength with ⟨number, hnumber, hconsumes⟩
  exact ⟨count, tag :: number, t, ⟨number, rfl, hnumber⟩, (expect_eq_ok hexpect).trans hconsumes, h⟩

/-! ### Elements -/

theorem constructed_eq_ok {tag : Tag} {inner : Reader} (h : constructed tag r = .ok inner left) :
    ∃ head, Announces tag inner.rest.length head ∧ r.Consumes (head ++ inner.rest) left ∧
      inner.offset = r.offset + head.length := by
  rcases head_eq_ok h with ⟨count, head, s, hhead, hconsumes, h⟩
  rw [bind_offset] at h
  rcases bind_eq_ok h with ⟨content, t, hcontent, h⟩
  rcases octets_eq_ok hcontent with ⟨hlength, hrest⟩
  cases h
  exact ⟨head, by rwa [hlength], hconsumes.trans hrest, hconsumes.offset⟩

theorem within_eq_ok {content : Reader} {decoder : Decoder α} {a : α}
    (h : within content decoder r = .ok a left) :
    left = r ∧ ∃ unread, decoder content = .ok a unread := by
  rw [within] at h
  cases hdecoder : decoder content with
  | error fault unread => simp [hdecoder] at h
  | ok result unread =>
    simp only [hdecoder] at h
    cases h
    exact ⟨rfl, unread, rfl⟩

/-- The content of a SEQUENCE is read from where it begins. -/
theorem sequence_eq_ok {decoder : Decoder α} {a : α} (h : sequence decoder r = .ok a left) :
    ∃ head content unread, Announces Tag.sequence content.length head ∧
      r.Consumes (head ++ content) left ∧
      decoder ⟨r.offset + head.length, content⟩ = .ok a unread := by
  rcases bind_eq_ok h with ⟨inner, s, hconstructed, h⟩
  rcases constructed_eq_ok hconstructed with ⟨head, hhead, hconsumes, hoffset⟩
  rcases within_eq_ok h with ⟨rfl, unread, hdecoder⟩
  refine ⟨head, inner.rest, unread, hhead, hconsumes, ?_⟩
  rwa [← hoffset]

theorem number_eq_ok {denoted? : Octets → Option α} {count : Nat} {value : α}
    (h : number denoted? count r = .ok value left) :
    ∃ content, content ≠ [] ∧ content.length = count ∧ r.Consumes content left ∧
      denoted? content = some value := by
  rw [number, bind_offset] at h
  by_cases hempty : count = 0
  · simp only [if_pos hempty] at h
    contradiction
  · simp only [if_neg hempty] at h
    rcases bind_eq_ok h with ⟨content, t, hcontent, h⟩
    rcases octets_eq_ok hcontent with ⟨hlength, hrest⟩
    have hpresent : content ≠ [] := by
      rintro rfl
      exact hempty hlength.symm
    cases hvalue : denoted? content with
    | none =>
      simp only [hvalue] at h
      contradiction
    | some found =>
      simp only [hvalue] at h
      cases h
      exact ⟨content, hpresent, hlength, hrest, hvalue⟩

theorem integerContent_eq_ok {count : Nat} {value : Int32}
    (h : integerContent count r = .ok value left) :
    ∃ content, content ≠ [] ∧ content.length = count ∧ r.Consumes content left ∧
      value.toInt = Octets.toInt content := by
  rcases number_eq_ok h with ⟨content, hpresent, hlength, hrest, hvalue⟩
  refine ⟨content, hpresent, hlength, hrest, ?_⟩
  rw [Integer.toInt32?_eq] at hvalue
  by_cases hbounds : content.length ≤ 8 ∧ Int32.minValue.toInt ≤ Octets.toInt content ∧
      Octets.toInt content ≤ Int32.maxValue.toInt
  · rw [if_pos hbounds] at hvalue
    cases hvalue
    exact Int32.toInt_ofInt_of_le hbounds.2.1 (Int.lt_add_one_of_le hbounds.2.2)
  · rw [if_neg hbounds] at hvalue
    contradiction

theorem integer_eq_ok {value : Int32} (h : integer r = .ok value left) :
    ∃ used, IsInteger value used ∧ r.Consumes used left := by
  rcases head_eq_ok h with ⟨count, head, s, hhead, hconsumes, h⟩
  rcases integerContent_eq_ok h with ⟨content, -, hlength, hrest, hvalue⟩
  exact ⟨head ++ content, ⟨content, ⟨head, by rwa [hlength], rfl⟩, hvalue.symm⟩,
    hconsumes.trans hrest⟩

/-- The position that comes with an OCTET STRING is where its content begins. -/
theorem octetStringAt_eq_ok {position : Nat} {content : Octets}
    (h : octetStringAt r = .ok (position, content) left) :
    ∃ head, Announces Tag.octetString content.length head ∧ r.Consumes (head ++ content) left ∧
      position = r.offset + head.length := by
  rw [octetStringAt, bind_offset] at h
  rcases bind_eq_ok h with ⟨actual, s, htag, h⟩
  by_cases hconstructed : actual = Tag.octetStringConstructed
  · simp only [if_pos hconstructed] at h
    contradiction
  · simp only [if_neg hconstructed] at h
    by_cases hactual : actual = Tag.octetString
    · simp only [if_pos hactual] at h
      rcases bind_eq_ok h with ⟨count, t, hcount, h⟩
      rcases length_eq_ok hcount with ⟨number, hnumber, hconsumes⟩
      rw [bind_offset] at h
      rcases bind_eq_ok h with ⟨_, u, hcontent, h⟩
      rcases octets_eq_ok hcontent with ⟨hlength, hrest⟩
      cases h
      have hhead := (tag_eq_ok htag).trans hconsumes
      exact ⟨actual :: number, ⟨number, by rw [hactual], by rwa [hlength]⟩, hhead.trans hrest,
        hhead.offset⟩
    · simp only [if_neg hactual] at h
      contradiction

theorem octetString_eq_ok {content : Octets} (h : octetString r = .ok content left) :
    ∃ used, IsElement Tag.octetString content used ∧ r.Consumes used left := by
  rcases bind_eq_ok h with ⟨⟨position, found⟩, s, hat, h⟩
  cases h
  rcases octetStringAt_eq_ok hat with ⟨head, hhead, hconsumes, _⟩
  exact ⟨head ++ found, ⟨head, hhead, rfl⟩, hconsumes⟩

end Decoder

end Ber

end Snmp
