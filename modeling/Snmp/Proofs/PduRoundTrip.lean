/-
  Snmp/Proofs/PduRoundTrip.lean
  =============================
  **Values, bindings and PDUs are read back as they were written.**

  Each layer is stated in the same way: what it writes is an element whose content is known,
  and the decoder of the layer reads that element as the data it was written for.  A layer
  needs only the statement of the layer below, so a change to the wire form of one type of
  value stays inside its case.

  What has to be excluded is what the wire form cannot tell apart: identifiers that are read
  back differently, Opaque content that begins with the mark of a floating-point number, and a
  trap of version 1 that carries numbers or lacks its header.
-/
import Snmp.Pdu.Encoding
import Snmp.Proofs.Elements
import Snmp.Proofs.OidContent

namespace Snmp

open Ber Decoder

/-! ### Values -/

namespace Value

def tag : Value → Tag
  | .integer _ => Tag.integer
  | .octetString _ => Tag.octetString
  | .null => Tag.null
  | .objectIdentifier _ => Tag.objectIdentifier
  | .ipAddress _ => Tag.ipAddress
  | .counter32 _ => Tag.counter32
  | .gauge32 _ => Tag.gauge32
  | .timeTicks _ => Tag.timeTicks
  | .opaqueData _ | .float _ | .double _ => Tag.opaqueData
  | .counter64 _ => Tag.counter64
  | .noSuchObject => Tag.noSuchObject
  | .noSuchInstance => Tag.noSuchInstance
  | .endOfMibView => Tag.endOfMibView

def content : Value → Octets
  | .integer v => Octets.ofInt v.toInt
  | .octetString content | .opaqueData content => content
  | .objectIdentifier oid => oid.content
  | .ipAddress address => address.toList
  | .counter32 v | .gauge32 v | .timeTicks v => Octets.ofInt v.toNat
  | .counter64 v => Octets.ofInt v.toNat
  | .float bits => floatMark ++ Octets.ofWord32 bits
  | .double bits => doubleMark ++ Octets.ofWord64 bits
  | .null | .noSuchObject | .noSuchInstance | .endOfMibView => []

/-- A value that the wire form does not confuse with another. -/
def Transmissible : Value → Prop
  | .objectIdentifier oid => oid.Transmissible
  | .opaqueData content => ¬floatMark <+: content ∧ ¬doubleMark <+: content
  | _ => True

theorem octets_push (value : Value) (w : Writer) :
    (value.push w).octets = element value.tag value.content ++ w.octets := by
  cases value with
  | integer v => exact Writer.octets_pushInteger v w
  | counter32 v => exact Writer.octets_pushUnsigned32 _ v w
  | gauge32 v => exact Writer.octets_pushUnsigned32 _ v w
  | timeTicks v => exact Writer.octets_pushUnsigned32 _ v w
  | counter64 v => exact Writer.octets_pushUnsigned64 v w
  | _ => exact Writer.octets_pushPrimitive _ _ w

theorem ofOpaqueContent?_of_unmarked {content : Octets}
    (h : (opaqueData content).Transmissible) :
    ofOpaqueContent? content = some (.opaqueData content) := by
  have hfloat : ¬content.take 3 = floatMark := fun heq => h.1 (heq ▸ List.take_prefix 3 content)
  have hdouble : ¬content.take 3 = doubleMark := fun heq => h.2 (heq ▸ List.take_prefix 3 content)
  simp only [ofOpaqueContent?, if_neg hfloat, if_neg hdouble]

theorem ofOpaqueContent?_float (bits : UInt32) :
    ofOpaqueContent? (floatMark ++ Octets.ofWord32 bits) = some (.float bits) := by
  have htake : (floatMark ++ Octets.ofWord32 bits).take 3 = floatMark := rfl
  have hdrop : (floatMark ++ Octets.ofWord32 bits).drop 3 = Octets.ofWord32 bits := rfl
  simp only [ofOpaqueContent?, htake, hdrop, if_true, Octets.length_ofWord32,
    Octets.toWord32_ofWord32]

theorem ofOpaqueContent?_double (bits : UInt64) :
    ofOpaqueContent? (doubleMark ++ Octets.ofWord64 bits) = some (.double bits) := by
  have htake : (doubleMark ++ Octets.ofWord64 bits).take 3 = doubleMark := rfl
  have hdrop : (doubleMark ++ Octets.ofWord64 bits).drop 3 = Octets.ofWord64 bits := rfl
  have hmark : doubleMark ≠ floatMark := by decide
  simp only [ofOpaqueContent?, htake, hdrop, if_true, if_neg hmark, Octets.length_ofWord64,
    Octets.toWord64_ofWord64]

/-- Opaque content is read as the value that it stands for. -/
theorem reads_opaqueContent {content : Octets} {value : Value} (start : Nat)
    (h : ofOpaqueContent? content = some value) :
    Reads (decodeContent start Tag.opaqueData content.length) content value := by
  intro offset rest
  exact (bind_ok (reads_octets content offset rest)).trans (by rw [h]; rfl)

theorem reads_content {value : Value} (h : value.Transmissible) (start : Nat) :
    Reads (decodeContent start value.tag value.content.length) value.content value := by
  cases value with
  | integer v => exact Reads.map Value.integer (reads_integerContent v)
  | octetString content => exact Reads.map Value.octetString (reads_octets content)
  | null => exact Reads.pure Value.null
  | objectIdentifier oid =>
    exact Reads.map Value.objectIdentifier (reads_oidContent (Oid.ofContent_content h))
  | ipAddress address =>
    exact Reads.map Value.ipAddress (reads_ipAddressContent start address)
  | counter32 v => exact Reads.map Value.counter32 (reads_unsigned32Content v)
  | gauge32 v => exact Reads.map Value.gauge32 (reads_unsigned32Content v)
  | timeTicks v => exact Reads.map Value.timeTicks (reads_unsigned32Content v)
  | opaqueData content => exact reads_opaqueContent start (ofOpaqueContent?_of_unmarked h)
  | counter64 v => exact Reads.map Value.counter64 (reads_unsigned64Content v)
  | float bits => exact reads_opaqueContent start (ofOpaqueContent?_float bits)
  | double bits => exact reads_opaqueContent start (ofOpaqueContent?_double bits)
  | noSuchObject => exact Reads.map (fun _ => Value.noSuchObject) (reads_octets [])
  | noSuchInstance => exact Reads.map (fun _ => Value.noSuchInstance) (reads_octets [])
  | endOfMibView => exact Reads.map (fun _ => Value.endOfMibView) (reads_octets [])

theorem reads_decode {value : Value} (h : value.Transmissible) (hfits : Fits value.content) :
    Reads decode (element value.tag value.content) value := by
  intro offset rest
  rw [decode, bind_offset, bind_ok (tag_element value.tag value.content offset rest),
    bind_ok (length_content hfits offset rest), reads_content h, length_element, Nat.add_assoc]

end Value

/-! ### Bindings -/

namespace Binding

def content (binding : Binding) : Octets :=
  element Tag.objectIdentifier binding.oid.content
    ++ element binding.value.tag binding.value.content

def wire (binding : Binding) : Octets := element Tag.sequence binding.content

/-- A binding that the wire form does not confuse with another. -/
structure Transmissible (binding : Binding) : Prop where
  oid : binding.oid.Transmissible
  value : binding.value.Transmissible

theorem octets_push (binding : Binding) (w : Writer) :
    (binding.push w).octets = binding.wire ++ w.octets := by
  apply Writer.octets_pushSequence
  rw [Writer.octets_pushOid, Value.octets_push, content, List.append_assoc]

theorem octets_pushAll (bindings : List Binding) (w : Writer) :
    (pushAll bindings w).octets = bindings.flatMap wire ++ w.octets := by
  induction bindings with
  | nil => rfl
  | cons binding rest ih =>
    rw [List.flatMap_cons, List.append_assoc, ← ih, ← octets_push]
    rfl

theorem octets_pushList (bindings : List Binding) (w : Writer) :
    (pushList bindings w).octets =
      element Tag.sequence (bindings.flatMap wire) ++ w.octets :=
  Writer.octets_pushSequence w (octets_pushAll bindings w)

theorem reads_decode {binding : Binding} (h : binding.Transmissible) (hfits : Fits binding.wire) :
    Reads decode binding.wire binding := by
  have hcontent : Fits binding.content := hfits.of_element
  apply reads_sequence hcontent
  apply Accepts.bind (reads_oid hcontent.left.of_element (Oid.ofContent_content h.oid))
  exact (Reads.map (Binding.mk binding.oid)
    (Value.reads_decode h.value hcontent.right.of_element)).accepts

theorem wire_ne_nil (binding : Binding) : binding.wire ≠ [] := List.cons_ne_nil _ _

/-- A list of bindings is read to its end as long as the limit counts them all, by induction on
    the list. -/
theorem decodeUpTo_flatMap {bindings : List Binding} : ∀ {limit : Nat},
    bindings.length ≤ limit → (∀ b ∈ bindings, b.Transmissible) →
    Fits (bindings.flatMap wire) →
    ∀ offset, ∃ left,
      decodeUpTo limit ⟨offset, bindings.flatMap wire⟩ = .ok bindings left := by
  induction bindings with
  | nil =>
    intro limit _ _ _ offset
    cases limit <;> exact ⟨_, rfl⟩
  | cons binding rest ih =>
    intro limit hlimit h hfits offset
    cases limit with
    | zero => simp at hlimit
    | succ limit =>
      rw [List.flatMap_cons] at hfits ⊢
      have hnonempty : (binding.wire ++ rest.flatMap wire).isEmpty = false := by
        simp [wire_ne_nil]
      have hfirst := reads_decode (h binding (by simp)) hfits.left offset (rest.flatMap wire)
      rcases ih (by simpa using hlimit) (fun b hb => h b (by simp [hb]))
        hfits.right (offset + binding.wire.length) with ⟨left, hrest⟩
      refine ⟨left, ?_⟩
      rw [decodeUpTo, bind_get]
      simp only [Reader.isEmpty, hnonempty, Bool.false_eq_true, if_false]
      rw [bind_ok hfirst, bind_ok hrest]
      rfl

theorem length_le_length_flatMap (bindings : List Binding) :
    bindings.length ≤ (bindings.flatMap wire).length := by
  induction bindings with
  | nil => exact Nat.zero_le _
  | cons binding rest ih =>
    have := List.length_pos_iff.2 binding.wire_ne_nil
    simp only [List.flatMap_cons, List.length_cons, List.length_append]
    omega

theorem reads_decodeList {bindings : List Binding} (h : ∀ b ∈ bindings, b.Transmissible)
    (hfits : Fits (bindings.flatMap wire)) :
    Reads decodeList (element Tag.sequence (bindings.flatMap wire)) bindings :=
  reads_sequence hfits fun offset =>
    decodeUpTo_flatMap (length_le_length_flatMap bindings) h hfits offset

end Binding

/-! ### Trap headers -/

namespace TrapHeader

def wire (header : TrapHeader) : Octets :=
  element Tag.objectIdentifier header.enterprise.content
    ++ (element Tag.ipAddress header.agentAddress.toList
    ++ (element Tag.integer (Octets.ofInt header.genericTrap.toInt)
    ++ (element Tag.integer (Octets.ofInt header.specificTrap.toInt)
    ++ element Tag.timeTicks (Octets.ofInt header.timeStamp.toNat))))

theorem octets_push (header : TrapHeader) (w : Writer) :
    (header.push w).octets = header.wire ++ w.octets := by
  simp only [push, wire, Writer.octets_pushOid, Writer.octets_pushIpAddress,
    Writer.octets_pushInteger, Writer.octets_pushUnsigned32, List.append_assoc]

theorem reads_decode {header : TrapHeader} (h : header.enterprise.Transmissible)
    (hfits : Fits header.wire) : Reads decode header.wire header := by
  apply Reads.bind (reads_oid hfits.left.of_element (Oid.ofContent_content h))
  apply Reads.bind (reads_ipAddress header.agentAddress)
  apply Reads.bind (reads_integer header.genericTrap)
  apply Reads.bind (reads_integer header.specificTrap)
  exact Reads.map _ (reads_timeTicks header.timeStamp)

end TrapHeader

/-! ### PDUs -/

namespace Pdu

/-- The octets of the three numbers of a PDU. -/
def numbersWire (pdu : Pdu) : Octets :=
  element Tag.integer (Octets.ofInt pdu.requestId.toInt)
    ++ (element Tag.integer (Octets.ofInt pdu.errorStatus.toInt)
    ++ element Tag.integer (Octets.ofInt pdu.errorIndex.toInt))

def content (pdu : Pdu) (trap? : Option TrapHeader) : Octets :=
  (if pdu.type = .trapV1 then (trap?.getD .blank).wire else pdu.numbersWire)
    ++ element Tag.sequence (pdu.bindings.flatMap Binding.wire)

def wire (pdu : Pdu) (trap? : Option TrapHeader) : Octets :=
  element pdu.type.tag (pdu.content trap?)

/-- A PDU, with the header of a trap, that the wire form does not confuse with another. -/
structure Transmissible (pdu : Pdu) (trap? : Option TrapHeader) : Prop where
  bindings : ∀ b ∈ pdu.bindings, b.Transmissible
  /-- A trap of version 1 has a header in the place of the three numbers. -/
  trap : pdu.type = .trapV1 →
    pdu.requestId = 0 ∧ pdu.errorStatus = 0 ∧ pdu.errorIndex = 0 ∧
      ∃ header, trap? = some header ∧ header.enterprise.Transmissible
  plain : pdu.type ≠ .trapV1 → trap? = none

theorem octets_push (pdu : Pdu) (trap? : Option TrapHeader) (w : Writer) :
    (pdu.push trap? w).octets = pdu.wire trap? ++ w.octets := by
  apply Writer.octets_pushConstructed
  rw [content]
  split
  · rw [TrapHeader.octets_push, Binding.octets_pushList, List.append_assoc]
  · simp only [pushNumbers, numbersWire, Writer.octets_pushInteger, Binding.octets_pushList,
      List.append_assoc]

theorem ofTag?_tag (type : PduType) : PduType.ofTag? type.tag = some type := by
  cases type <;> rfl

theorem accepts_decodeTrapBody {bindings : List Binding} {header : TrapHeader}
    (hheader : header.enterprise.Transmissible) (hbindings : ∀ b ∈ bindings, b.Transmissible)
    (hfits : Fits (header.wire ++ element Tag.sequence (bindings.flatMap Binding.wire))) :
    Accepts decodeTrapBody (header.wire ++ element Tag.sequence (bindings.flatMap Binding.wire))
      ({ type := .trapV1, requestId := 0, bindings }, some header) := by
  apply Accepts.bind (TrapHeader.reads_decode hheader hfits.left)
  exact (Reads.map _ (Binding.reads_decodeList hbindings hfits.right.of_element)).accepts

theorem accepts_decodeBody {pdu : Pdu} (hbindings : ∀ b ∈ pdu.bindings, b.Transmissible)
    (hfits : Fits (pdu.numbersWire ++ element Tag.sequence (pdu.bindings.flatMap Binding.wire))) :
    Accepts (decodeBody pdu.type)
      (pdu.numbersWire ++ element Tag.sequence (pdu.bindings.flatMap Binding.wire))
      (pdu, none) := by
  rw [numbersWire, List.append_assoc, List.append_assoc]
  apply Accepts.bind (reads_integer pdu.requestId)
  apply Accepts.bind (reads_integer pdu.errorStatus)
  apply Accepts.bind (reads_integer pdu.errorIndex)
  exact (Reads.map _ (Binding.reads_decodeList hbindings hfits.right.of_element)).accepts

theorem accepts_content {pdu : Pdu} {trap? : Option TrapHeader}
    (h : pdu.Transmissible trap?) (hfits : Fits (pdu.content trap?)) :
    Accepts (if pdu.type = .trapV1 then decodeTrapBody else decodeBody pdu.type)
      (pdu.content trap?) (pdu, trap?) := by
  by_cases htype : pdu.type = .trapV1
  · obtain ⟨hid, hstatus, hindex, header, rfl, hheader⟩ := h.trap htype
    rw [content, if_pos htype, Option.getD_some] at hfits ⊢
    rw [if_pos htype]
    have haccepts := accepts_decodeTrapBody hheader h.bindings hfits
    obtain ⟨type, requestId, errorStatus, errorIndex, bindings⟩ := pdu
    cases htype; cases hid; cases hstatus; cases hindex
    exact haccepts
  · cases h.plain htype
    rw [content, if_neg htype] at hfits ⊢
    rw [if_neg htype]
    exact accepts_decodeBody h.bindings hfits

theorem reads_decode {pdu : Pdu} {trap? : Option TrapHeader} (h : pdu.Transmissible trap?)
    (hfits : Fits (pdu.wire trap?)) : Reads decode (pdu.wire trap?) (pdu, trap?) := by
  intro offset rest
  have hread := (reads_constructed hfits.of_element
    (accepts_content h hfits.of_element) : Reads _ (element pdu.type.tag _) _) offset rest
  have hpeek : (Reader.mk offset (pdu.wire trap? ++ rest)).peek? = some pdu.type.tag := rfl
  rw [decode, bind_offset, bind_peek?, hpeek]
  simp only [ofTag?_tag]
  exact hread

end Pdu

end Snmp
