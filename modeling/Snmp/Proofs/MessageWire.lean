/-
  Snmp/Proofs/MessageWire.lean
  ============================
  **The frames of messages on the wire.**

  Everything around the PDU, as octets and as what opening a datagram makes of them.  A version
  3 message is cut at its authentication code; what stands before and after the code depends on
  the length of the code alone, so putting a code into its place gives the message that would
  have been written with that code (`patch_encodeV3`).
-/
import Snmp.Message.Encoding
import Snmp.Proofs.ParametersRoundTrip
import Snmp.Proofs.PduRoundTrip

namespace Snmp

open Ber Decoder Usm

theorem Version.ofNumber?_number (version : Version) :
    Version.ofNumber? version.number = some version := by
  cases version <;> rfl

theorem MsgFlags.ofOctet_toOctet (flags : MsgFlags) : MsgFlags.ofOctet flags.toOctet = flags := by
  obtain ⟨auth, privacy, reportable⟩ := flags
  cases auth <;> cases privacy <;> cases reportable <;> rfl

namespace Message

/-! ### Contents -/

def communityContent (m : Message) : Octets :=
  element Tag.integer (Octets.ofInt m.version.number.toInt)
    ++ (element Tag.octetString m.community ++ m.pdu.wire m.trap?)

def scopedContent (m : Message) : Octets :=
  element Tag.octetString m.contextEngineId
    ++ (element Tag.octetString m.contextName ++ m.pdu.wire m.trap?)

def headerContent (header : MsgHeader) : Octets :=
  element Tag.integer (Octets.ofInt header.msgId.toInt)
    ++ (element Tag.integer (Octets.ofInt header.maxSize.toInt)
    ++ (element Tag.octetString [header.flags.toOctet]
    ++ element Tag.integer (Octets.ofInt usmSecurityModel.toInt)))

/-- The octets of a version 3 message between its own header and the security parameters. -/
def v3Front (header : MsgHeader) : Octets :=
  element Tag.integer (Octets.ofInt Version.v3.number.toInt)
    ++ element Tag.sequence (headerContent header)

def v3Content (header : MsgHeader) (security : Parameters) (data : Octets) : Octets :=
  v3Front header ++ (element Tag.octetString security.encode ++ data)

theorem v3Content_eq (header : MsgHeader) (security : Parameters) (data : Octets) :
    v3Content header security data = element Tag.integer (Octets.ofInt Version.v3.number.toInt)
      ++ (element Tag.sequence (headerContent header)
      ++ (element Tag.octetString security.encode ++ data)) := by
  rw [v3Content, v3Front, List.append_assoc]

theorem encodeCommunity_eq (m : Message) :
    m.encodeCommunity = element Tag.sequence m.communityContent := by
  apply Writer.octets_sequence
  simp only [Writer.octets_pushInteger, Writer.octets_pushOctetString, Pdu.octets_push,
    Writer.octets_empty, List.append_nil, communityContent]

theorem encodeScoped_eq (m : Message) :
    m.encodeScoped = element Tag.sequence m.scopedContent := by
  apply Writer.octets_sequence
  simp only [Writer.octets_pushOctetString, Pdu.octets_push, Writer.octets_empty,
    List.append_nil, scopedContent]

theorem octets_pushHeader (header : MsgHeader) (w : Writer) :
    (pushHeader header w).octets = element Tag.sequence (headerContent header) ++ w.octets := by
  apply Writer.octets_pushSequence
  simp only [Writer.octets_pushInteger, Writer.octets_pushOctetString, headerContent,
    List.append_assoc]

theorem encodeV3_eq_element (header : MsgHeader) (security : Parameters) (data : Octets) :
    encodeV3 header security data = element Tag.sequence (v3Content header security data) := by
  apply Writer.octets_sequence
  simp only [Writer.octets_pushInteger, Writer.octets_pushOctetString, Writer.octets_pushOctets,
    octets_pushHeader, Writer.octets_empty, List.append_nil, v3Content, v3Front,
    List.append_assoc]

theorem fits_v3Content {header : MsgHeader} {security : Parameters} {data : Octets}
    (h : Fits (encodeV3 header security data)) : Fits (v3Content header security data) := by
  rw [encodeV3_eq_element] at h
  exact h.of_element

theorem fits_of_encodeV3 {header : MsgHeader} {security : Parameters} {data : Octets}
    (h : Fits (encodeV3 header security data)) : Fits data :=
  (fits_v3Content h).right.right

/-! ### Around the authentication code -/

/-- The octets of a version 3 message before its authentication code. -/
def beforeCode (header : MsgHeader) (security : Parameters) (data : Octets) : Octets :=
  elementHeader Tag.sequence (v3Content header security data).length
    ++ (v3Front header
    ++ (elementHeader Tag.octetString security.encode.length ++ security.beforeCode))

def afterCode (security : Parameters) (data : Octets) : Octets := security.afterCode ++ data

theorem encodeV3_eq (header : MsgHeader) (security : Parameters) (data : Octets) :
    encodeV3 header security data =
      beforeCode header security data ++ (security.authParams ++ afterCode security data) := by
  rw [encodeV3_eq_element, element_eq, beforeCode, afterCode]
  simp only [v3Content, element_eq Tag.octetString security.encode, List.append_assoc]
  rw [security.encode_eq]
  simp only [List.append_assoc]

/-- The offset of the authentication code, counted element by element as a reader does. -/
theorem length_beforeCode (header : MsgHeader) (security : Parameters) (data : Octets) :
    (beforeCode header security data).length =
      0 + headerSize (v3Content header security data)
        + (element Tag.integer (Octets.ofInt Version.v3.number.toInt)).length
        + (element Tag.sequence (headerContent header)).length
        + headerSize security.encode + security.beforeCode.length := by
  simp only [beforeCode, v3Front, List.length_append, length_elementHeader]
  omega

theorem length_encode_withCode (security : Parameters) {code other : Octets}
    (h : code.length = other.length) :
    (security.withCode code).encode.length = (security.withCode other).encode.length := by
  simp only [Parameters.encode_eq_element, length_element, headerSize,
    security.length_content_withCode h]

theorem length_v3Content_withCode (header : MsgHeader) (security : Parameters) (data : Octets)
    {code other : Octets} (h : code.length = other.length) :
    (v3Content header (security.withCode code) data).length =
      (v3Content header (security.withCode other) data).length := by
  simp only [v3Content, List.length_append, length_element, headerSize,
    length_encode_withCode security h]

theorem beforeCode_withCode (header : MsgHeader) (security : Parameters) (data : Octets)
    {code other : Octets} (h : code.length = other.length) :
    beforeCode header (security.withCode code) data =
      beforeCode header (security.withCode other) data := by
  rw [beforeCode, beforeCode, length_v3Content_withCode header security data h,
    length_encode_withCode security h, security.beforeCode_withCode h]

theorem length_encodeV3_withCode (header : MsgHeader) (security : Parameters) (data : Octets)
    {code other : Octets} (h : code.length = other.length) :
    (encodeV3 header (security.withCode code) data).length =
      (encodeV3 header (security.withCode other) data).length := by
  rw [encodeV3_eq, encodeV3_eq, beforeCode_withCode header security data h]
  simp only [List.length_append, Parameters.withCode, afterCode, Parameters.afterCode, h]

theorem patch_append {before old new after : Octets} (h : old.length = new.length) :
    patch (before ++ (old ++ after)) before.length new = before ++ (new ++ after) := by
  rw [patch, List.take_left, List.drop_append, ← h]
  simp

/-- Replacing the code of an encoded message gives the encoding with the new code. -/
theorem patch_encodeV3 (header : MsgHeader) (security : Parameters) (data : Octets)
    {old new : Octets} (h : old.length = new.length) :
    patch (encodeV3 header (security.withCode old) data)
        (beforeCode header (security.withCode old) data).length new =
      encodeV3 header (security.withCode new) data := by
  rw [encodeV3_eq, encodeV3_eq, ← beforeCode_withCode header security data h]
  exact patch_append h

end Message

/-! ### Reading the frame -/

/-- A header that a reader accepts. -/
structure MsgHeader.Valid (header : MsgHeader) : Prop where
  size : minMessageSize ≤ header.maxSize
  flags : header.flags.privacy = true → header.flags.auth = true

namespace Envelope

theorem reads_decodeHeader {header : MsgHeader} (h : header.Valid)
    (hfits : Fits (Message.headerContent header)) :
    Reads decodeHeader (element Tag.sequence (Message.headerContent header)) header := by
  have hflag : Fits [header.flags.toOctet] := hfits.right.right.left.of_element
  apply reads_sequence hfits
  apply Accepts.bind (reads_integer header.msgId)
  apply Accepts.bind (reads_integer header.maxSize)
  intro offset
  have hsize : ¬header.maxSize < minMessageSize := Int32.not_lt.2 h.size
  have hlevel : (header.flags.privacy && !header.flags.auth) = false := by
    cases hprivacy : header.flags.privacy with
    | false => rfl
    | true => simp [h.flags hprivacy]
  rw [bind_offset]
  simp only [if_neg hsize]
  rw [bind_ok (reads_octetString hflag _ _)]
  simp only [MsgFlags.ofOctet_toOctet]
  rw [bind_pure]
  simp only [hlevel, Bool.false_eq_true, if_false]
  rw [bind_offset, bind_ok ((reads_integer usmSecurityModel).alone _)]
  simp only [if_true]
  exact ⟨_, rfl⟩

theorem ofDatagram_encodeCommunity {m : Message} (hversion : m.version.usesCommunity = true)
    (hpdu : m.pdu.Transmissible m.trap?) (hfits : Fits m.encodeCommunity) :
    ofDatagram m.encodeCommunity = .ok (.community
      { version := m.version, community := m.community, pdu := m.pdu, trap? := m.trap? }) := by
  rw [Message.encodeCommunity_eq] at hfits ⊢
  have hcontent : Fits m.communityContent := hfits.of_element
  have hcommunity : Fits m.community := hcontent.right.left.of_element
  rw [ofDatagram]
  simp only [runOn, EStateM.run, Reader.ofOctets]
  rw [bind_ok (constructed_element_alone hcontent 0)]
  simp only [within, Message.communityContent]
  rw [bind_ok (reads_integer m.version.number _ _), bind_get]
  simp only [pure, EStateM.pure, Version.ofNumber?_number, hversion, if_true, decodeCommunity]
  rw [bind_ok (reads_octetString hcommunity _ _),
    bind_ok ((Pdu.reads_decode hpdu hcontent.right.right).alone _)]
  rfl

/-- What follows the version of a version 3 message, read from any offset. -/
theorem decodeV3_frame {header : MsgHeader} (hheader : header.Valid) {security : Parameters}
    (hheaderContent : Fits (Message.headerContent header)) (hsecurity : Fits security.encode)
    (offset : Nat) (data : Octets) :
    ∃ position, decodeV3 ⟨offset, element Tag.sequence (Message.headerContent header)
        ++ (element Tag.octetString security.encode ++ data)⟩ =
      .ok (.v3 header security.capped
        (offset + (element Tag.sequence (Message.headerContent header)).length
          + headerSize security.encode + security.beforeCode.length) ⟨position, data⟩)
        ⟨position, data⟩ := by
  refine ⟨offset + (element Tag.sequence (Message.headerContent header)).length
    + (element Tag.octetString security.encode).length, ?_⟩
  rw [decodeV3, bind_ok (reads_decodeHeader hheader hheaderContent _ _),
    bind_ok (octetStringAt_element hsecurity _ _)]
  simp only [Parameters.decodeAt_encode hsecurity]
  rfl

/-- A version 3 message is opened as its header, its parameters as they are on the wire, the
    offset of its authentication code and the data around which it was written. -/
theorem ofDatagram_encodeV3 {header : MsgHeader} (hheader : header.Valid) (security : Parameters)
    (data : Octets) (hcontent : Fits (Message.v3Content header security data)) :
    ∃ position, ofDatagram (Message.encodeV3 header security data) =
      .ok (.v3 header security.capped (Message.beforeCode header security data).length
        ⟨position, data⟩) := by
  rw [Message.encodeV3_eq_element]
  have hsecurity : Fits security.encode := hcontent.right.left.of_element
  obtain ⟨position, hread⟩ := decodeV3_frame hheader hcontent.left.right.of_element hsecurity
    (0 + headerSize (Message.v3Content header security data)
      + (element Tag.integer (Octets.ofInt Version.v3.number.toInt)).length) data
  refine ⟨position, ?_⟩
  have hversion : Version.ofNumber? Version.v3.number = some .v3 := Version.ofNumber?_number .v3
  have hcommunity : Version.v3.usesCommunity = false := rfl
  rw [ofDatagram, Message.length_beforeCode]
  simp only [runOn, EStateM.run, Reader.ofOctets]
  rw [bind_ok (constructed_element_alone hcontent 0)]
  simp only [within, Message.v3Content_eq] at hread ⊢
  rw [bind_ok (reads_integer Version.v3.number _ _), bind_get]
  simp only [pure, EStateM.pure, hversion, hcommunity, Bool.false_eq_true, if_false, hread]

theorem locateAuthParams_encodeV3 (header : MsgHeader) (security : Parameters) (data : Octets)
    (hcontent : Fits (Message.v3Content header security data)) :
    Message.locateAuthParams (Message.encodeV3 header security data) =
      .ok (Message.beforeCode header security data).length := by
  rw [Message.encodeV3_eq_element]
  have hsecurity : Fits security.encode := hcontent.right.left.of_element
  rw [Message.locateAuthParams, Message.length_beforeCode]
  simp only [runOn, EStateM.run, Reader.ofOctets, Decoder.sequence]
  rw [bind_ok (constructed_element_alone hcontent 0)]
  simp only [within, Message.v3Content_eq]
  rw [bind_ok (reads_integer Version.v3.number _ _),
    bind_ok (constructed_element hcontent.left.right.of_element _ _),
    octetStringAt_element hsecurity]
  simp only [Parameters.decodeAt_encode hsecurity]

end Envelope

end Snmp
