/-
  Snmp/Proofs/Elements.lean
  =========================
  **Elements as octets, written and read.**

  A writer puts elements in front of what it holds, so what it writes is known without running
  it: an element is a tag, length octets and a content (`element`), and each push puts such an
  element in front.  A decoder *reads* octets as a result if it consumes exactly these octets
  wherever they stand and whatever follows them (`Reads`), and *accepts* a content if it yields
  the result on that content alone (`Accepts`).  The first composes along a sequence of steps,
  the second is what the content of a constructed element needs.

  Length octets are read back up to four octets of length, so the statements ask that a content
  fits (`Fits`).  A part of something that fits fits too.
-/
import Snmp.Ber.Reader
import Snmp.Ber.Writer
import Snmp.Proofs.IntegerWords
import Snmp.Proofs.LengthOctets

namespace Snmp.Ber

/-! ### Elements -/

def element (tag : Tag) (content : Octets) : Octets :=
  tag :: (Length.encode content.length ++ content)

/-- The octets of an element before a content of the given length. -/
def elementHeader (tag : Tag) (length : Nat) : Octets := tag :: Length.encode length

/-- The number of octets before the content of an element. -/
def headerSize (content : Octets) : Nat := 1 + (Length.encode content.length).length

theorem element_eq (tag : Tag) (content : Octets) :
    element tag content = elementHeader tag content.length ++ content := rfl

theorem length_elementHeader (tag : Tag) (content : Octets) :
    (elementHeader tag content.length).length = headerSize content := by
  simp only [elementHeader, headerSize, List.length_cons]
  omega

theorem length_element (tag : Tag) (content : Octets) :
    (element tag content).length = headerSize content + content.length := by
  rw [element_eq, List.length_append, length_elementHeader]

/-- Whether a length is one that length octets can announce to a reader. -/
def Fits (octets : Octets) : Prop := octets.length < UInt32.size

namespace Fits

variable {a b content : Octets} {tag : Tag}

theorem left (h : Fits (a ++ b)) : Fits a := by
  simp only [Fits, List.length_append] at *
  omega

theorem right (h : Fits (a ++ b)) : Fits b := by
  simp only [Fits, List.length_append] at *
  omega

theorem of_element (h : Fits (element tag content)) : Fits content := by
  simp only [Fits, length_element] at *
  omega

theorem of_le (hb : Fits b) (h : a.length ≤ b.length) : Fits a := Nat.lt_of_le_of_lt h hb

end Fits

/-! ### Writing -/

namespace Writer

@[simp] theorem octets_empty : empty.octets = [] := by
  rw [octets]
  rfl

theorem size_eq (w : Writer) : w.size = w.octets.length := by
  rw [size, octets, List.length_reverse, Array.length_toList]

theorem toList_buffer (w : Writer) : w.buffer.toList = w.octets.reverse := by
  rw [octets, List.reverse_reverse]

/-- What is put behind the buffer in reverse is in front of the finished message. -/
@[simp] theorem octets_pushOctets (octets : Octets) (w : Writer) :
    (w.pushOctets octets).octets = octets ++ w.octets := by
  rw [pushOctets, Writer.octets, Writer.octets, Array.toList_appendList, List.reverse_append,
    List.reverse_reverse]

@[simp] theorem octets_pushTag (tag : Tag) (w : Writer) :
    (w.pushTag tag).octets = tag :: w.octets := by
  rw [pushTag, octets, octets, Array.toList_push, List.reverse_append]
  rfl

@[simp] theorem octets_pushLength (length : Nat) (w : Writer) :
    (w.pushLength length).octets = Length.encode length ++ w.octets := by
  rw [pushLength, octets, octets, Array.toList_appendList, List.reverse_append,
    Length.reverse_pushed]

theorem octets_pushPrimitive (tag : Tag) (content : Octets) (w : Writer) :
    (w.pushPrimitive tag content).octets = element tag content ++ w.octets := by
  simp [pushPrimitive, element]

/-- A constructed element has as content what its body puts in front. -/
theorem octets_pushConstructed {tag : Tag} {body : Writer → Writer} {content : Octets}
    (w : Writer) (h : (body w).octets = content ++ w.octets) :
    (w.pushConstructed tag body).octets = element tag content ++ w.octets := by
  have hsize : (body w).size - w.size = content.length := by
    rw [size_eq, size_eq, h, List.length_append, Nat.add_sub_cancel]
  simp [pushConstructed, element, h, hsize]

theorem octets_pushSequence {body : Writer → Writer} {content : Octets} (w : Writer)
    (h : (body w).octets = content ++ w.octets) :
    (w.pushSequence body).octets = element Tag.sequence content ++ w.octets :=
  octets_pushConstructed w h

/-- What is one sequence on an empty writer is that sequence. -/
theorem octets_sequence {body : Writer → Writer} {content : Octets}
    (h : (body empty).octets = content) :
    (empty.pushSequence body).octets = element Tag.sequence content := by
  have hbody : (body empty).octets = content ++ empty.octets := by
    rw [h, octets_empty, List.append_nil]
  rw [octets_pushSequence empty hbody, octets_empty, List.append_nil]

@[simp] theorem octets_pushInteger (value : Int32) (w : Writer) :
    (w.pushInteger value).octets =
      element Tag.integer (Octets.ofInt value.toInt) ++ w.octets := by
  rw [pushInteger, octets_pushPrimitive, Integer.ofInt32_eq]

@[simp] theorem octets_pushUnsigned32 (tag : Tag) (value : UInt32) (w : Writer) :
    (w.pushUnsigned32 tag value).octets =
      element tag (Octets.ofInt value.toNat) ++ w.octets := by
  rw [pushUnsigned32, octets_pushPrimitive, Integer.ofUInt32_eq]

@[simp] theorem octets_pushUnsigned64 (value : UInt64) (w : Writer) :
    (w.pushUnsigned64 value).octets =
      element Tag.counter64 (Octets.ofInt value.toNat) ++ w.octets := by
  rw [pushUnsigned64, octets_pushPrimitive, Integer.ofUInt64_eq]

@[simp] theorem octets_pushOctetString (content : Octets) (w : Writer) :
    (w.pushOctetString content).octets = element Tag.octetString content ++ w.octets :=
  octets_pushPrimitive _ _ w

@[simp] theorem octets_pushOid (oid : Oid) (w : Writer) :
    (w.pushOid oid).octets = element Tag.objectIdentifier oid.content ++ w.octets :=
  octets_pushPrimitive _ _ w

@[simp] theorem octets_pushIpAddress (address : Vector UInt8 4) (w : Writer) :
    (w.pushIpAddress address).octets = element Tag.ipAddress address.toList ++ w.octets :=
  octets_pushPrimitive _ _ w

end Writer

/-! ### Reading -/

namespace Decoder

variable {α β : Type}

/-- A decoder consumes exactly these octets, wherever they stand and whatever follows, and
    yields the result. -/
def Reads (decoder : Decoder α) (octets : Octets) (result : α) : Prop :=
  ∀ offset rest, decoder ⟨offset, octets ++ rest⟩ = .ok result ⟨offset + octets.length, rest⟩

/-- A decoder yields the result on this content; it may leave some of it unread. -/
def Accepts (decoder : Decoder α) (content : Octets) (result : α) : Prop :=
  ∀ offset, ∃ left, decoder ⟨offset, content⟩ = .ok result left

/-- What is read may be all that there is. -/
theorem Reads.alone {decoder : Decoder α} {octets : Octets} {result : α}
    (h : Reads decoder octets result) (offset : Nat) :
    decoder ⟨offset, octets⟩ = .ok result ⟨offset + octets.length, []⟩ := by
  have hall := h offset []
  rwa [List.append_nil] at hall

theorem Reads.accepts {decoder : Decoder α} {octets : Octets} {result : α}
    (h : Reads decoder octets result) : Accepts decoder octets result :=
  fun offset => ⟨_, h.alone offset⟩

/-! ### Steps in sequence -/

theorem bind_ok {decoder : Decoder α} {next : α → Decoder β} {r s : Reader} {a : α}
    (h : decoder r = .ok a s) : (decoder >>= next) r = next a s := by
  simp only [bind, EStateM.bind, h]

theorem bind_error {decoder : Decoder α} {next : α → Decoder β} {r s : Reader} {fault : Fault}
    (h : decoder r = .error fault s) : (decoder >>= next) r = .error fault s := by
  simp only [bind, EStateM.bind, h]

theorem bind_eq_ok {decoder : Decoder α} {next : α → Decoder β} {r t : Reader} {b : β}
    (h : (decoder >>= next) r = .ok b t) :
    ∃ a s, decoder r = .ok a s ∧ next a s = .ok b t := by
  simp only [bind, EStateM.bind] at h
  split at h
  · exact ⟨_, _, by assumption, h⟩
  · contradiction

theorem bind_offset {next : Nat → Decoder β} {r : Reader} :
    (Decoder.offset >>= next) r = next r.offset r := rfl

theorem bind_get {next : Reader → Decoder β} {r : Reader} :
    ((get : Decoder Reader) >>= next) r = next r r := rfl

theorem bind_pure {next : α → Decoder β} {a : α} {r : Reader} :
    (Pure.pure a >>= next) r = next a r := rfl

theorem bind_peek? {next : Option UInt8 → Decoder β} {r : Reader} :
    (peek? >>= next) r = next r.peek? r := rfl

theorem Reads.pure (a : α) : Reads (Pure.pure a) [] a := fun _ _ => rfl

theorem Reads.bind {decoder : Decoder α} {next : α → Decoder β} {first second : Octets}
    {a : α} {b : β} (h : Reads decoder first a) (k : Reads (next a) second b) :
    Reads (decoder >>= next) (first ++ second) b := by
  intro offset rest
  rw [List.append_assoc, bind_ok (h offset _), k _ rest, List.length_append, Nat.add_assoc]

theorem Reads.map {decoder : Decoder α} {octets : Octets} {a : α} (f : α → β)
    (h : Reads decoder octets a) : Reads (do return f (← decoder)) octets (f a) := by
  intro offset rest
  exact bind_ok (h offset rest)

/-- The offset may be noted for a fault that does not occur. -/
theorem Reads.of_offset {next : Nat → Decoder β} {octets : Octets} {b : β}
    (h : ∀ start, Reads (next start) octets b) : Reads (Decoder.offset >>= next) octets b :=
  fun start rest => h start start rest

theorem Accepts.bind {decoder : Decoder α} {next : α → Decoder β} {first content : Octets}
    {a : α} {b : β} (h : Reads decoder first a) (k : Accepts (next a) content b) :
    Accepts (decoder >>= next) (first ++ content) b := by
  intro offset
  obtain ⟨left, hleft⟩ := k (offset + first.length)
  exact ⟨left, by rw [bind_ok (h offset content), hleft]⟩

theorem Accepts.map {decoder : Decoder α} {content : Octets} {a : α} (f : α → β)
    (h : Accepts decoder content a) : Accepts (do return f (← decoder)) content (f a) := by
  intro offset
  rcases h offset with ⟨left, hleft⟩
  exact ⟨left, bind_ok hleft⟩

/-! ### Raw steps -/

theorem reads_octets (content : Octets) : Reads (octets content.length) content content := by
  intro offset rest
  simp [octets, Reader.advance]

/-- The first step into an element takes its tag. -/
theorem tag_element (octet : Tag) (content : Octets) (offset : Nat) (rest : Octets) :
    tag ⟨offset, element octet content ++ rest⟩ =
      .ok octet ⟨offset + 1, Length.encode content.length ++ (content ++ rest)⟩ := by
  rw [element, List.cons_append, List.append_assoc]
  rfl

theorem expect_element (expected : Tag) (content : Octets) (offset : Nat) (rest : Octets) :
    expect expected ⟨offset, element expected content ++ rest⟩ =
      .ok () ⟨offset + 1, Length.encode content.length ++ (content ++ rest)⟩ := by
  rw [expect, bind_offset, bind_ok (tag_element expected content offset rest), if_pos rfl]
  rfl

/-- The second step takes the length octets and stands before the content. -/
theorem length_content {content : Octets} (hfits : Fits content) (offset : Nat) (rest : Octets) :
    length ⟨offset + 1, Length.encode content.length ++ (content ++ rest)⟩ =
      .ok content.length ⟨offset + headerSize content, content ++ rest⟩ := by
  simp [length, Length.decode_append hfits, Reader.advance, headerSize, Nat.add_assoc]

theorem reads_element {next : Nat → Decoder β} {tag : Tag} {content : Octets} {b : β}
    (hfits : Fits content) (h : Reads (next content.length) content b) :
    Reads (do expect tag; next (← length)) (element tag content) b := by
  intro offset rest
  rw [bind_ok (expect_element tag content offset rest), bind_ok (length_content hfits offset rest),
    h, length_element, Nat.add_assoc]

/-! ### Constructed elements -/

theorem constructed_element {tag : Tag} {content : Octets} (hfits : Fits content)
    (offset : Nat) (rest : Octets) :
    constructed tag ⟨offset, element tag content ++ rest⟩ =
      .ok ⟨offset + headerSize content, content⟩
        ⟨offset + (element tag content).length, rest⟩ := by
  rw [constructed, bind_ok (expect_element tag content offset rest),
    bind_ok (length_content hfits offset rest), bind_offset, bind_ok (reads_octets content _ _),
    length_element, ← Nat.add_assoc]
  rfl

theorem constructed_element_alone {tag : Tag} {content : Octets} (hfits : Fits content)
    (offset : Nat) :
    constructed tag ⟨offset, element tag content⟩ =
      .ok ⟨offset + headerSize content, content⟩ ⟨offset + (element tag content).length, []⟩ := by
  have hall : constructed tag ⟨offset, element tag content ++ []⟩ = _ :=
    constructed_element hfits offset []
  rwa [List.append_nil] at hall

/-- The content of a constructed element is read on its own. -/
theorem reads_constructed {decoder : Decoder α} {tag : Tag} {content : Octets} {a : α}
    (hfits : Fits content) (h : Accepts decoder content a) :
    Reads (do within (← constructed tag) decoder) (element tag content) a := by
  intro offset rest
  rcases h (offset + headerSize content) with ⟨left, hleft⟩
  rw [bind_ok (constructed_element hfits offset rest), within, hleft]

theorem reads_sequence {decoder : Decoder α} {content : Octets} {a : α}
    (hfits : Fits content) (h : Accepts decoder content a) :
    Reads (sequence decoder) (element Tag.sequence content) a :=
  reads_constructed hfits h

/-! ### Integers -/

theorem int32_bounds (value : Int32) :
    Int32.minValue.toInt ≤ value.toInt ∧ value.toInt ≤ Int32.maxValue.toInt :=
  ⟨value.minValue_le_toInt, value.toInt_le⟩

theorem length_ofInt_int32 (value : Int32) : (Octets.ofInt value.toInt).length ≤ 4 := by
  have hlow : -2147483648 ≤ value.toInt := (int32_bounds value).1
  have hhigh : value.toInt ≤ 2147483647 := (int32_bounds value).2
  have hbound : 128 * Nat.pow 256 3 = 2147483648 := rfl
  apply Octets.length_ofInt_le (k := 3)
  · rw [hbound]
    exact hlow
  · rw [hbound]
    exact Int.lt_of_le_sub_one hhigh

theorem length_ofInt_uint32 (value : UInt32) : (Octets.ofInt value.toNat).length ≤ 5 := by
  have hhigh := value.toNat_lt
  have hbound : 128 * Nat.pow 256 4 = 549755813888 := rfl
  apply Octets.length_ofInt_le (k := 4)
  · omega
  · omega

theorem length_ofInt_uint64 (value : UInt64) : (Octets.ofInt value.toNat).length ≤ 9 := by
  have hhigh := value.toNat_lt
  have hbound : 128 * Nat.pow 256 8 = 2361183241434822606848 := rfl
  apply Octets.length_ofInt_le (k := 8)
  · omega
  · omega

theorem fits_of_length_le {content : Octets} {count : Nat} (h : content.length ≤ count)
    (hcount : count ≤ 128 := by decide) : Fits content :=
  Nat.lt_of_le_of_lt (Nat.le_trans h hcount) (by decide)

/-- A content is read as the number it denotes. -/
theorem reads_number {denoted? : Octets → Option α} {content : Octets} {value : α}
    (hpresent : content ≠ []) (hvalue : denoted? content = some value) :
    Reads (number denoted? content.length) content value := by
  have hcount : content.length ≠ 0 := mt List.length_eq_zero_iff.1 hpresent
  apply Reads.of_offset
  intro start offset rest
  simp only [if_neg hcount]
  rw [bind_ok (reads_octets content offset rest), hvalue]
  rfl

theorem reads_integerContent (value : Int32) :
    Reads (integerContent (Octets.ofInt value.toInt).length) (Octets.ofInt value.toInt) value := by
  have hcount := length_ofInt_int32 value
  obtain ⟨hlow, hhigh⟩ := int32_bounds value
  apply reads_number (Octets.ofInt_ne_nil value.toInt)
  rw [Integer.toInt32?_eq, Octets.toInt_ofInt, if_pos ⟨by omega, hlow, hhigh⟩, Int32.ofInt_toInt]

/-- An unsigned number is read back, with or without a leading zero octet. -/
theorem reads_unsignedContent {maxCount n : Nat} (hcount : (Octets.ofInt n).length ≤ maxCount)
    (hbound : n < UInt64.size) :
    Reads (unsignedContent maxCount (Octets.ofInt n).length) (Octets.ofInt n)
      (UInt64.ofNat n) := by
  apply reads_number (Octets.ofInt_ne_nil n)
  rw [Integer.toWord?_eq, Octets.toNat_ofInt_natCast, if_pos ⟨hcount, hbound⟩]

theorem reads_unsigned32Content (value : UInt32) :
    Reads (unsigned32Content (Octets.ofInt value.toNat).length) (Octets.ofInt value.toNat)
      value := by
  have hbound : value.toNat < UInt64.size := Nat.lt_trans value.toNat_lt (by decide)
  have hfits : UInt64.ofNat value.toNat ≤ 0xFFFFFFFF := by
    rw [Integer.word_fits_iff, UInt64.toNat_ofNat_of_lt' hbound]
    exact value.toNat_lt
  apply Reads.of_offset
  intro start offset rest
  rw [bind_ok (reads_unsignedContent (length_ofInt_uint32 value) hbound offset rest),
    if_pos hfits, UInt64.toUInt32_ofNat', UInt32.ofNat_toNat]
  rfl

theorem reads_unsigned64Content (value : UInt64) :
    Reads (unsigned64Content (Octets.ofInt value.toNat).length) (Octets.ofInt value.toNat)
      value := by
  have hcount := length_ofInt_uint64 value
  rw [unsigned64Content]
  apply Reads.of_offset
  intro start
  simp only [if_neg (Nat.not_lt.2 hcount)]
  have h := reads_unsignedContent hcount value.toNat_lt
  rwa [UInt64.ofNat_toNat] at h

theorem reads_integer (value : Int32) :
    Reads integer (element Tag.integer (Octets.ofInt value.toInt)) value :=
  reads_element (fits_of_length_le (length_ofInt_int32 value)) (reads_integerContent value)

theorem reads_timeTicks (value : UInt32) :
    Reads timeTicks (element Tag.timeTicks (Octets.ofInt value.toNat)) value :=
  reads_element (fits_of_length_le (length_ofInt_uint32 value)) (reads_unsigned32Content value)

/-! ### Other primitive elements -/

theorem octetStringAt_element {content : Octets} (hfits : Fits content) (offset : Nat)
    (rest : Octets) :
    octetStringAt ⟨offset, element Tag.octetString content ++ rest⟩ =
      .ok (offset + headerSize content, content)
        ⟨offset + (element Tag.octetString content).length, rest⟩ := by
  have hpieces : Tag.octetString ≠ Tag.octetStringConstructed := by decide
  rw [octetStringAt, bind_offset, bind_ok (tag_element Tag.octetString content offset rest)]
  simp only [if_neg hpieces, if_true]
  rw [bind_ok (length_content hfits offset rest), bind_offset, bind_ok (reads_octets content _ _),
    length_element, ← Nat.add_assoc]
  rfl

theorem reads_octetString {content : Octets} (hfits : Fits content) :
    Reads octetString (element Tag.octetString content) content :=
  fun offset rest => bind_ok (octetStringAt_element hfits offset rest)

theorem reads_oidContent {content : Octets} {oid : Oid} (h : Oid.ofContent content = .ok oid) :
    Reads (oidContent content.length) content oid := by
  rw [oidContent]
  apply Reads.of_offset
  intro start offset rest
  rw [bind_ok (reads_octets content offset rest), h]
  rfl

theorem reads_oid {content : Octets} {oid : Oid} (hfits : Fits content)
    (h : Oid.ofContent content = .ok oid) :
    Reads Decoder.oid (element Tag.objectIdentifier content) oid :=
  reads_element hfits (reads_oidContent h)

theorem reads_ipAddressContent (start : Nat) (address : Vector UInt8 4) :
    Reads (ipAddressContent start address.toList.length) address.toList address := by
  obtain ⟨⟨octets⟩, hsize⟩ := address
  match octets, hsize with
  | [a, b, c, d], _ => exact fun offset rest => rfl

theorem reads_ipAddress (address : Vector UInt8 4) :
    Reads ipAddress (element Tag.ipAddress address.toList) address :=
  Reads.of_offset fun start =>
    reads_element (fits_of_length_le (Nat.le_of_eq address.length_toList))
      (reads_ipAddressContent start address)

end Decoder

end Snmp.Ber
