/-
  Snmp/Proofs/ReaderConfinement.lean
  ==================================
  **A decoder stays within what it is given.**

  Whatever the octets, and whether it succeeds or fails, a decoder leaves a reader that stands
  further on in the same octets (`Reader.Advances`): it drops as many octets as it moves its
  offset.  A fault points between the place where the decoder began and the end of the octets
  (`Confined`).  Both are said of one decoder relative to a place `start` that it may name in a
  fault although octets behind that place were read since, so that they compose along a sequence
  of steps; the content of a constructed element lies within the octets of the outer reader, and
  so do the faults that are found there.
-/
import Snmp.Pdu.Encoding
import Snmp.Proofs.Consumption

namespace Snmp

namespace Ber

namespace Reader

/-- Where the octets of a reader end. -/
def stop (r : Reader) : Nat := r.offset + r.remaining

/-- A reader stands further on in the same octets. -/
def Advances (r left : Reader) : Prop := ∃ used, r.Consumes used left

namespace Advances

variable {r s t : Reader}

theorem refl (r : Reader) : r.Advances r := ⟨[], rfl, rfl⟩

theorem trans (h : r.Advances s) (k : s.Advances t) : r.Advances t := by
  obtain ⟨first, hfirst⟩ := h
  obtain ⟨second, hsecond⟩ := k
  exact ⟨first ++ second, hfirst.trans hsecond⟩

theorem offset_le (h : r.Advances s) : r.offset ≤ s.offset := by
  obtain ⟨used, hused⟩ := h
  rw [hused.offset]
  exact Nat.le_add_right ..

theorem stop_eq (h : r.Advances s) : s.stop = r.stop := by
  obtain ⟨used, hused⟩ := h
  rw [stop, stop, remaining, remaining, hused.offset, hused.rest, List.length_append,
    Nat.add_assoc]

end Advances

theorem offset_le_stop (r : Reader) : r.offset ≤ r.stop := Nat.le_add_right ..

theorem advances_advance {r : Reader} {count : Nat} (h : count ≤ r.remaining) :
    r.Advances (r.advance count) :=
  ⟨_, consumes_advance (List.length_take_of_le h)⟩

end Reader

namespace Decoder

variable {α β : Type}

/-- A decoder that begins at `start` or behind it stays within its reader, and so do its
    faults. -/
def Confined (start : Nat) (decoder : Decoder α) : Prop :=
  ∀ r : Reader, start ≤ r.offset →
    match decoder r with
    | .ok _ left => r.Advances left
    | .error fault left => r.Advances left ∧ start ≤ fault.offset ∧ fault.offset ≤ r.stop

namespace Confined

variable {start : Nat} {decoder : Decoder α}

theorem of_ok (h : ∀ start, Confined start decoder) {r left : Reader} {a : α}
    (hrun : decoder r = .ok a left) : r.Advances left := by
  have := h r.offset r (Nat.le_refl _)
  rwa [hrun] at this

theorem of_error (h : ∀ start, Confined start decoder) {r left : Reader} {fault : Fault}
    (hrun : decoder r = .error fault left) :
    r.Advances left ∧ r.offset ≤ fault.offset ∧ fault.offset ≤ r.stop := by
  have := h r.offset r (Nat.le_refl _)
  rwa [hrun] at this

/-! ### Steps in sequence -/

theorem pure (a : α) : Confined start (Pure.pure a : Decoder α) := fun r _ => .refl r

theorem fail (defect : Defect) : Confined start (Decoder.fail start defect : Decoder α) :=
  fun r hstart => ⟨.refl r, Nat.le_refl _, Nat.le_trans hstart r.offset_le_stop⟩

theorem bind {next : α → Decoder β} (h : Confined start decoder)
    (k : ∀ a, Confined start (next a)) : Confined start (decoder >>= next) := by
  intro r hstart
  have hfirst := h r hstart
  cases hrun : decoder r with
  | error fault left =>
    rw [hrun] at hfirst
    rw [bind_error hrun]
    exact hfirst
  | ok a middle =>
    rw [hrun] at hfirst
    have hsecond := k a middle (Nat.le_trans hstart hfirst.offset_le)
    rw [bind_ok hrun]
    cases hrest : next a middle with
    | ok b left =>
      rw [hrest] at hsecond
      exact hfirst.trans hsecond
    | error fault left =>
      rw [hrest] at hsecond
      obtain ⟨hadvances, hlow, hhigh⟩ := hsecond
      exact ⟨hfirst.trans hadvances, hlow, hfirst.stop_eq ▸ hhigh⟩

theorem map (f : α → β) (h : Confined start decoder) :
    Confined start (do return f (← decoder)) :=
  h.bind fun a => .pure (f a)

/-- A place that is noted for a fault is not before the place where the decoder began. -/
theorem noting {next : Nat → Decoder β}
    (h : ∀ position, start ≤ position → Confined position (next position)) :
    Confined start (offset >>= next) := by
  intro r hstart
  have hnext := h r.offset hstart r (Nat.le_refl _)
  rw [bind_offset]
  cases hrun : next r.offset r with
  | ok b left =>
    rw [hrun] at hnext
    exact hnext
  | error fault left =>
    rw [hrun] at hnext
    exact ⟨hnext.1, Nat.le_trans hstart hnext.2.1, hnext.2.2⟩

/-- The same where the place is noted for something else than a fault. -/
theorem at_offset {next : Nat → Decoder β} (h : ∀ position, Confined start (next position)) :
    Confined start (offset >>= next) :=
  fun r hstart => h r.offset r hstart

theorem looking {next : Reader → Decoder β} (h : ∀ s, Confined start (next s)) :
    Confined start ((get : Decoder Reader) >>= next) :=
  fun r hstart => h r r hstart

theorem peeking {next : Option UInt8 → Decoder β} (h : ∀ octet?, Confined start (next octet?)) :
    Confined start (peek? >>= next) :=
  fun r hstart => h r.peek? r hstart

theorem ite {p : Prop} [Decidable p] {a b : Decoder α} (ha : p → Confined start a)
    (hb : ¬p → Confined start b) : Confined start (if p then a else b) := by
  by_cases hp : p
  · rw [if_pos hp]
    exact ha hp
  · rw [if_neg hp]
    exact hb hp

/-- What comes after a condition that is refused, if it holds. -/
theorem refusing {p : Prop} [Decidable p] {defect : Defect} {next : PUnit → Decoder α}
    (h : ∀ done, Confined start (next done)) :
    Confined start (if p then Decoder.fail start defect >>= next else next ⟨⟩) :=
  .ite (fun _ => (fail defect).bind h) fun _ => h ⟨⟩

/-- What comes after a condition that is refused, unless it holds. -/
theorem requiring {p : Prop} [Decidable p] {defect : Defect} {next : PUnit → Decoder α}
    (h : ∀ done, Confined start (next done)) :
    Confined start (if p then next ⟨⟩ else Decoder.fail start defect >>= next) :=
  .ite (fun _ => h ⟨⟩) fun _ => (fail defect).bind h

end Confined

/-! ### Raw steps -/

variable {start : Nat}

theorem confined_peek? : Confined start peek? := Confined.peeking fun octet? => .pure octet?

theorem confined_tag : Confined start tag := by
  intro r hstart
  obtain ⟨place, rest⟩ := r
  cases rest with
  | nil => exact ⟨.refl _, hstart, Nat.le_refl _⟩
  | cons octet rest => exact Reader.advances_advance (Nat.le_add_left 1 rest.length)

theorem confined_length : Confined start length := by
  intro r hstart
  have hend := r.offset_le_stop
  rw [length]
  cases hdecode : Length.decode r.rest with
  | error defect => exact ⟨.refl r, hstart, hend⟩
  | ok found =>
    obtain ⟨announced, used⟩ := found
    obtain ⟨hused, -⟩ := Length.decode_take hdecode
    have hadvances : r.Advances (r.advance used) := ⟨_, Reader.consumes_advance hused⟩
    by_cases hcovers : Octets.covers announced (r.advance used).rest
    · simp only [if_pos hcovers]
      exact hadvances
    · simp only [if_neg hcovers]
      exact ⟨hadvances, hstart, hend⟩

theorem confined_octets (count : Nat) : Confined start (octets count) := by
  intro r hstart
  simp only [octets, Octets.covers_eq_decide, decide_eq_true_eq]
  by_cases hcovers : count ≤ r.rest.length
  · rw [if_pos hcovers]
    exact Reader.advances_advance hcovers
  · rw [if_neg hcovers]
    exact ⟨.refl r, hstart, r.offset_le_stop⟩

theorem confined_expect (expected : Tag) : Confined start (expect expected) := by
  refine Confined.noting fun position _ => confined_tag.bind fun actual => ?_
  exact .ite (fun _ => .pure _) fun _ => .fail _

/-! ### Constructed elements -/

theorem confined_constructed (expected : Tag) : Confined start (constructed expected) :=
  (confined_expect expected).bind fun _ => confined_length.bind fun count =>
    Confined.at_offset fun _ => (confined_octets count).bind fun _ => .pure _

/-- The reader outside goes on where the content ends. -/
theorem stop_of_constructed {expected : Tag} {r inner left : Reader}
    (h : constructed expected r = .ok inner left) : inner.stop = left.offset := by
  obtain ⟨head, -, hconsumes, hoffset⟩ := constructed_eq_ok h
  rw [Reader.stop, Reader.remaining, hconsumes.offset, hoffset, List.length_append, Nat.add_assoc]

/-- The content of a constructed element lies within the octets of the outer reader. -/
theorem confined_within {decoder : Decoder α} (expected : Tag)
    (h : ∀ start, Confined start decoder) :
    Confined start (constructed expected >>= fun content => within content decoder) := by
  intro r hstart
  have houter := confined_constructed expected r hstart
  cases hrun : constructed expected r with
  | error fault left =>
    rw [hrun] at houter
    rw [bind_error hrun]
    exact houter
  | ok inner left =>
    rw [hrun] at houter
    obtain ⟨head, -, -, hoffset⟩ := constructed_eq_ok hrun
    rw [bind_ok hrun, within]
    cases hinner : decoder inner with
    | ok a unread => exact houter
    | error fault unread =>
      obtain ⟨-, hlow, hhigh⟩ := Confined.of_error h hinner
      have hend := stop_of_constructed hrun
      have hstop := houter.stop_eq ▸ left.offset_le_stop
      exact ⟨houter, by omega, by omega⟩

theorem confined_sequence {decoder : Decoder α} (h : ∀ start, Confined start decoder) :
    Confined start (sequence decoder) :=
  confined_within Tag.sequence h

/-! ### Primitive elements -/

theorem confined_number (denoted? : Octets → Option α) (count : Nat) :
    Confined start (number denoted? count) := by
  refine Confined.noting fun position _ => Confined.refusing fun _ => ?_
  refine (confined_octets count).bind fun content => ?_
  cases denoted? content with
  | none => exact .fail _
  | some value => exact .pure value

theorem confined_integerContent (count : Nat) : Confined start (integerContent count) :=
  confined_number Integer.toInt32? count

theorem confined_unsignedContent (maxCount count : Nat) :
    Confined start (unsignedContent maxCount count) :=
  confined_number (Integer.toWord? maxCount) count

theorem confined_unsigned32Content (count : Nat) : Confined start (unsigned32Content count) :=
  Confined.noting fun _ _ => (confined_unsignedContent 5 count).bind fun _ =>
    .ite (fun _ => .pure _) fun _ => .fail _

theorem confined_unsigned64Content (count : Nat) : Confined start (unsigned64Content count) :=
  Confined.noting fun _ _ => Confined.refusing fun _ => confined_unsignedContent 9 count

/-- An element with a tag of its own, whose content is read by its length. -/
theorem confined_element {next : Nat → Decoder α} (expected : Tag)
    (h : ∀ count, Confined start (next count)) :
    Confined start (do expect expected; next (← length)) :=
  (confined_expect expected).bind fun _ => confined_length.bind h

theorem confined_integer : Confined start integer :=
  confined_element Tag.integer confined_integerContent

theorem confined_timeTicks : Confined start timeTicks :=
  confined_element Tag.timeTicks confined_unsigned32Content

theorem confined_octetStringAt : Confined start octetStringAt := by
  refine Confined.noting fun position _ => confined_tag.bind fun actual => ?_
  refine Confined.refusing fun _ => Confined.requiring fun _ => confined_length.bind fun count => ?_
  exact Confined.at_offset fun place => (confined_octets count).map _

theorem confined_octetString : Confined start octetString := confined_octetStringAt.map _

theorem confined_null : Confined start null := by
  refine Confined.noting fun position _ => (confined_expect Tag.null).bind fun _ => ?_
  exact confined_length.bind fun count => .ite (fun _ => .pure _) fun _ => .fail _

theorem confined_oidContent (count : Nat) : Confined start (oidContent count) := by
  refine Confined.noting fun position _ => (confined_octets count).bind fun content => ?_
  cases Oid.ofContent content with
  | ok oid => exact .pure oid
  | error defect => exact .fail defect

theorem confined_oid : Confined start oid :=
  confined_element Tag.objectIdentifier confined_oidContent

theorem confined_ipAddressContent (count : Nat) :
    Confined start (ipAddressContent start count) := by
  refine Confined.requiring fun _ => (confined_octets 4).bind fun content => ?_
  split
  · exact .pure _
  · exact .fail _

theorem confined_ipAddress : Confined start ipAddress :=
  Confined.noting fun _ _ => confined_element Tag.ipAddress confined_ipAddressContent

end Decoder

end Ber

open Ber Decoder

variable {start : Nat}

/-! ### Values, bindings and PDUs -/

namespace Value

theorem confined_decodeContent (tag : Tag) (count : Nat) :
    Confined start (decodeContent start tag count) := by
  unfold decodeContent
  refine .ite (fun _ => (confined_integerContent count).map _) fun _ => ?_
  refine .ite (fun _ => (confined_octets count).map _) fun _ => ?_
  refine .ite (fun _ => .fail _) fun _ => ?_
  refine .ite (fun _ => .ite (fun _ => .pure _) fun _ => .fail _) fun _ => ?_
  refine .ite (fun _ => (confined_oidContent count).map _) fun _ => ?_
  refine .ite (fun _ => (confined_ipAddressContent count).map _) fun _ => ?_
  refine .ite (fun _ => (confined_unsigned32Content count).map _) fun _ => ?_
  refine .ite (fun _ => (confined_unsigned32Content count).map _) fun _ => ?_
  refine .ite (fun _ => (confined_unsigned32Content count).map _) fun _ => ?_
  refine .ite (fun _ => (confined_octets count).bind fun content => ?_) fun _ => ?_
  · cases ofOpaqueContent? content with
    | some value => exact .pure value
    | none => exact .fail _
  refine .ite (fun _ => (confined_unsigned64Content count).map _) fun _ => ?_
  refine .ite (fun _ => (confined_octets count).map _) fun _ => ?_
  refine .ite (fun _ => (confined_octets count).map _) fun _ => ?_
  refine .ite (fun _ => (confined_octets count).map _) fun _ => ?_
  exact .fail _

theorem confined_decode : Confined start decode :=
  Confined.noting fun _ _ => confined_tag.bind fun tag =>
    confined_length.bind (confined_decodeContent tag)

end Value

namespace Binding

theorem confined_decode : Confined start decode :=
  confined_sequence fun _ => confined_oid.bind fun _ => Value.confined_decode.map _

theorem confined_decodeUpTo (limit : Nat) : Confined start (decodeUpTo limit) := by
  induction limit with
  | zero => exact .pure _
  | succ limit ih =>
    exact Confined.looking fun _ => .ite (fun _ => .pure _) fun _ =>
      confined_decode.bind fun binding => ih.map (binding :: ·)

theorem confined_decodeList : Confined start decodeList :=
  confined_sequence fun _ => Confined.looking fun s => confined_decodeUpTo s.remaining

end Binding

theorem TrapHeader.confined_decode : Confined start decode :=
  confined_oid.bind fun _ => confined_ipAddress.bind fun _ => confined_integer.bind fun _ =>
    confined_integer.bind fun _ => confined_timeTicks.map _

namespace Pdu

theorem confined_decodeTrapBody : Confined start decodeTrapBody :=
  TrapHeader.confined_decode.bind fun _ => Binding.confined_decodeList.map _

theorem confined_decodeBody (type : PduType) : Confined start (decodeBody type) :=
  confined_integer.bind fun _ => confined_integer.bind fun _ => confined_integer.bind fun _ =>
    Binding.confined_decodeList.map _

theorem confined_decode : Confined start decode := by
  refine Confined.noting fun position _ => Confined.peeking fun octet? => ?_
  cases octet? with
  | none => exact .fail _
  | some tag =>
    simp only []
    cases PduType.ofTag? tag with
    | none => exact .fail _
    | some type =>
      exact confined_within tag fun _ =>
        .ite (fun _ => confined_decodeTrapBody) fun _ => confined_decodeBody type

end Pdu

end Snmp
