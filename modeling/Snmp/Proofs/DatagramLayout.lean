/-
  Snmp/Proofs/DatagramLayout.lean
  ===============================
  **Where the fields of a version 3 datagram stand.**

  A layout cuts a datagram into its elements, in the order of the message format and in any
  encoding that a reader takes, with what may follow the last field at each depth.  Whatever
  is opened as a version 3 message has such a layout, and the offset that was noted for the
  authentication code is the number of octets before it: nested readers count from the
  beginning of the datagram, not of the element that they read.
-/
import Snmp.Message.Encoding
import Snmp.Proofs.Consumption

namespace Snmp

open Ber Decoder Usm

/-! ### Security parameters -/

namespace Usm.Parameters

/-- Octets as security parameters. -/
structure Layout (p : Parameters) where
  head : Octets
  engineId : Octets
  engineBoots : Octets
  engineTime : Octets
  userName : Octets
  codeHead : Octets
  salt : Octets
  /-- What follows the last field. -/
  more : Octets
  /-- What follows the SEQUENCE. -/
  rest : Octets
  announced : Announces Tag.sequence
    (engineId ++ engineBoots ++ engineTime ++ userName ++ codeHead ++ p.authParams ++ salt
      ++ more).length head
  engineId_eq : IsElement Tag.octetString p.engineId engineId
  engineBoots_eq : ∃ count, IsInteger count engineBoots ∧ p.engineBoots = ofWireCount count
  engineTime_eq : ∃ count, IsInteger count engineTime ∧ p.engineTime = ofWireCount count
  userName_eq : IsElement Tag.octetString p.userName userName
  codeHead_eq : Announces Tag.octetString p.authParams.length codeHead
  salt_eq : IsElement Tag.octetString p.privParams salt

namespace Layout

variable {p : Parameters}

def front (l : p.Layout) : Octets :=
  l.head ++ l.engineId ++ l.engineBoots ++ l.engineTime ++ l.userName ++ l.codeHead

def back (l : p.Layout) : Octets := l.salt ++ l.more ++ l.rest

def octets (l : p.Layout) : Octets := l.front ++ p.authParams ++ l.back

end Layout

/-- Parameters that are read have a layout, and the offset that is noted is that of the code. -/
theorem decodeAt_eq_ok {octets : Octets} {base authOffset : Nat} {p : Parameters}
    (h : decodeAt octets base = .ok (p, authOffset)) :
    ∃ layout : p.Layout, octets = layout.octets ∧ authOffset = base + layout.front.length := by
  obtain ⟨left, hrun⟩ := runOn_eq_ok h
  rcases sequence_eq_ok hrun with ⟨head, content, unread, hhead, hconsumes, hrun⟩
  rcases bind_eq_ok hrun with ⟨engineId, s1, hengineId, hrun⟩
  rcases bind_eq_ok hrun with ⟨boots, s2, hboots, hrun⟩
  rcases bind_eq_ok hrun with ⟨time, s3, htime, hrun⟩
  rcases bind_eq_ok hrun with ⟨userName, s4, huserName, hrun⟩
  rcases bind_eq_ok hrun with ⟨⟨offset, authParams⟩, s5, hcode, hrun⟩
  rcases bind_eq_ok hrun with ⟨privParams, s6, hsalt, hrun⟩
  cases hrun
  rcases octetString_eq_ok hengineId with ⟨engineIdOctets, hengineId, huse1⟩
  rcases integer_eq_ok hboots with ⟨bootsOctets, hboots, huse2⟩
  rcases integer_eq_ok htime with ⟨timeOctets, htime, huse3⟩
  rcases octetString_eq_ok huserName with ⟨userNameOctets, huserName, huse4⟩
  rcases octetStringAt_eq_ok hcode with ⟨codeHead, hcodeHead, huse5, hoffset⟩
  rcases octetString_eq_ok hsalt with ⟨salt, hsalt, huse6⟩
  have hbefore := ((huse1.trans huse2).trans huse3).trans huse4
  have hcontent : content = engineIdOctets ++ bootsOctets ++ timeOctets ++ userNameOctets
      ++ codeHead ++ authParams ++ salt ++ unread.rest := by
    simpa only [List.append_assoc] using ((hbefore.trans huse5).trans huse6).rest
  refine ⟨⟨head, engineIdOctets, bootsOctets, timeOctets, userNameOctets, codeHead, salt,
    unread.rest, left.rest, hcontent ▸ hhead, hengineId, ⟨boots, hboots, rfl⟩,
    ⟨time, htime, rfl⟩, huserName, hcodeHead, hsalt⟩, ?_, ?_⟩
  · have hoctets := hconsumes.rest
    rw [hcontent] at hoctets
    simpa only [Layout.octets, Layout.front, Layout.back,
      List.append_assoc] using hoctets
  · rw [hoffset, hbefore.offset]
    simp only [Layout.front, List.length_append, Nat.add_assoc]

end Usm.Parameters

/-! ### The header -/

/-- Octets that are the header of a message, with the bounds that a reader checks. -/
def MsgHeader.IsHeader (header : MsgHeader) (octets : Octets) : Prop :=
  ∃ msgId maxSize flags model more flag,
    IsElement Tag.sequence (msgId ++ maxSize ++ flags ++ model ++ more) octets ∧
    IsInteger header.msgId msgId ∧ IsInteger header.maxSize maxSize ∧
    IsElement Tag.octetString [flag] flags ∧ header.flags = .ofOctet flag ∧
    IsInteger usmSecurityModel model ∧
    minMessageSize ≤ header.maxSize ∧ (header.flags.privacy = true → header.flags.auth = true)

namespace Envelope

variable {r left : Reader}

theorem decodeHeader_eq_ok {header : MsgHeader} (h : decodeHeader r = .ok header left) :
    ∃ used, header.IsHeader used ∧ r.Consumes used left := by
  rcases sequence_eq_ok h with ⟨head, content, unread, hhead, hconsumes, h⟩
  rcases bind_eq_ok h with ⟨msgId, s1, hmsgId, h⟩
  rcases bind_eq_ok h with ⟨maxSize, s2, hmaxSize, h⟩
  rw [bind_offset] at h
  by_cases hsmall : maxSize < minMessageSize
  · simp only [if_pos hsmall] at h
    contradiction
  simp only [if_neg hsmall] at h
  rcases bind_eq_ok h with ⟨octets, s3, hoctets, h⟩
  obtain ⟨flag, rfl⟩ : ∃ flag, octets = [flag] := by
    match octets, h with
    | [flag], _ => exact ⟨flag, rfl⟩
    | [], h => contradiction
    | _ :: _ :: _, h => contradiction
  simp only [bind_pure] at h
  by_cases hflags : ((MsgFlags.ofOctet flag).privacy && !(MsgFlags.ofOctet flag).auth) = true
  · simp only [if_pos hflags] at h
    contradiction
  simp only [if_neg hflags] at h
  rw [bind_offset] at h
  rcases bind_eq_ok h with ⟨model, s4, hmodel, h⟩
  by_cases husm : model = usmSecurityModel
  · simp only [if_pos husm] at h
    cases h
    rcases integer_eq_ok hmsgId with ⟨msgIdOctets, hmsgId, huse1⟩
    rcases integer_eq_ok hmaxSize with ⟨maxSizeOctets, hmaxSize, huse2⟩
    rcases octetString_eq_ok hoctets with ⟨flagsOctets, hflagsOctets, huse3⟩
    rcases integer_eq_ok hmodel with ⟨modelOctets, hmodel, huse4⟩
    have hcontent : content =
        msgIdOctets ++ maxSizeOctets ++ flagsOctets ++ modelOctets ++ unread.rest :=
      (((huse1.trans huse2).trans huse3).trans huse4).rest
    refine ⟨head ++ content, ⟨msgIdOctets, maxSizeOctets, flagsOctets, modelOctets, unread.rest,
      flag, ?_, hmsgId, hmaxSize, hflagsOctets, rfl, husm ▸ hmodel, Int32.not_lt.1 hsmall, ?_⟩,
      hconsumes⟩
    · rw [← hcontent]
      exact ⟨head, hhead, rfl⟩
    · simpa using hflags
  · simp only [if_neg husm] at h
    contradiction

/-! ### Datagrams -/

/-- Octets as a version 3 message with this header and these security parameters. -/
structure Layout (header : MsgHeader) (security : Parameters) where
  head : Octets
  version : Octets
  headerOctets : Octets
  parametersHead : Octets
  parameters : security.Layout
  /-- The scoped PDU, in plain or encrypted, and what follows it in the message. -/
  content : Octets
  /-- What follows the message. -/
  rest : Octets
  announced : Announces Tag.sequence
    (version ++ headerOctets ++ parametersHead ++ parameters.octets ++ content).length head
  version_eq : IsInteger Version.v3.number version
  headerOctets_eq : header.IsHeader headerOctets
  parametersHead_eq : Announces Tag.octetString parameters.octets.length parametersHead

namespace Layout

variable {header : MsgHeader} {security : Parameters}

def front (l : Layout header security) : Octets :=
  l.head ++ l.version ++ l.headerOctets ++ l.parametersHead ++ l.parameters.front

def back (l : Layout header security) : Octets := l.parameters.back ++ l.content ++ l.rest

def octets (l : Layout header security) : Octets := l.front ++ security.authParams ++ l.back

end Layout

theorem decodeV3_eq_ok {envelope : Envelope} (h : decodeV3 r = .ok envelope left) :
    ∃ header security authOffset headerOctets parametersHead parameters,
      envelope = .v3 header security authOffset left ∧ header.IsHeader headerOctets ∧
      Announces Tag.octetString parameters.length parametersHead ∧
      r.Consumes (headerOctets ++ (parametersHead ++ parameters)) left ∧
      Parameters.decodeAt parameters (r.offset + (headerOctets ++ parametersHead).length) =
        .ok (security, authOffset) := by
  rcases bind_eq_ok h with ⟨header, s1, hheader, h⟩
  rcases bind_eq_ok h with ⟨⟨offset, parameters⟩, s2, hparameters, h⟩
  rcases decodeHeader_eq_ok hheader with ⟨headerOctets, hheader, huse1⟩
  rcases octetStringAt_eq_ok hparameters with ⟨parametersHead, hhead, huse2, hoffset⟩
  cases hdecode : Parameters.decodeAt parameters offset with
  | error fault =>
    simp only [hdecode] at h
    contradiction
  | ok found =>
    obtain ⟨security, authOffset⟩ := found
    simp only [hdecode, bind_get] at h
    cases h
    refine ⟨header, security, authOffset, headerOctets, parametersHead, parameters, rfl, hheader,
      hhead, huse1.trans huse2, ?_⟩
    rw [List.length_append, ← Nat.add_assoc, ← huse1.offset, ← hoffset, hdecode]

/-- Reads the version, and notes where the rest begins. -/
def opening : Decoder (Int32 × Reader) := do
  let content ← Decoder.constructed Tag.sequence
  Decoder.within content do return (← Decoder.integer, ← get)

theorem opening_eq_ok {datagram : Octets} {number : Int32} {body : Reader}
    (h : opening.runOn datagram = .ok (number, body)) :
    ∃ head version rest, Announces Tag.sequence (version ++ body.rest).length head ∧
      IsInteger number version ∧ datagram = head ++ version ++ body.rest ++ rest ∧
      body.offset = (head ++ version).length := by
  obtain ⟨left, hrun⟩ := runOn_eq_ok h
  rcases bind_eq_ok hrun with ⟨inner, s, hconstructed, hrun⟩
  rcases within_eq_ok hrun with ⟨rfl, unread, hrun⟩
  rcases bind_eq_ok hrun with ⟨_, s2, hnumber, hrun⟩
  rw [bind_get] at hrun
  cases hrun
  rcases constructed_eq_ok hconstructed with ⟨head, hhead, huse, hoffset⟩
  rcases integer_eq_ok hnumber with ⟨version, hversion, huseVersion⟩
  have hdatagram := huse.rest
  rw [huseVersion.rest] at hhead hdatagram
  refine ⟨head, version, left.rest, hhead, hversion, ?_, ?_⟩
  · simpa only [List.append_assoc] using hdatagram
  · rw [huseVersion.offset, hoffset, List.length_append]
    rw [Nat.zero_add]

theorem ofDatagram_eq_ok {datagram : Octets} {envelope : Envelope}
    (h : ofDatagram datagram = .ok envelope) :
    ∃ (version : Version) (body left : Reader),
      opening.runOn datagram = .ok (version.number, body) ∧
      (if version.usesCommunity then decodeCommunity version else decodeV3) body =
        .ok envelope left := by
  simp only [ofDatagram] at h
  split at h
  · contradiction
  rename_i number body hopening
  split at h
  · contradiction
  rename_i version hversion
  have hnumber : version.number = number := by simpa using List.find?_some hversion
  split at h
  · contradiction
  rename_i left hread
  cases h
  exact ⟨version, body, left, hnumber ▸ hopening, hread⟩

theorem decodeCommunity_eq_ok {version : Version} {envelope : Envelope}
    (h : decodeCommunity version r = .ok envelope left) :
    ∃ message, envelope = .community message ∧ message.version = version ∧
      message.header? = none := by
  rcases bind_eq_ok h with ⟨community, s1, _, h⟩
  rcases bind_eq_ok h with ⟨⟨pdu, trap?⟩, s2, _, h⟩
  cases h
  exact ⟨_, rfl, rfl, rfl⟩

/-- A community message has no header, and is not of version 3. -/
theorem ofDatagram_eq_community {datagram : Octets} {message : Message}
    (h : ofDatagram datagram = .ok (.community message)) :
    message.header? = none ∧ message.version ≠ .v3 := by
  rcases ofDatagram_eq_ok h with ⟨version, body, left, _, hread⟩
  by_cases hversion : version.usesCommunity = true
  · rw [if_pos hversion] at hread
    rcases decodeCommunity_eq_ok hread with ⟨found, hfound, hsame, hheader⟩
    cases hfound
    refine ⟨hheader, ?_⟩
    rintro hv3
    rw [hsame] at hv3
    rw [hv3] at hversion
    contradiction
  · rw [if_neg hversion] at hread
    obtain ⟨_, _, _, _, _, _, hsame, _⟩ := decodeV3_eq_ok hread
    contradiction

/-- What is opened as a version 3 message has the version 3 in front of what that is read from. -/
theorem decodeV3_of_ofDatagram {datagram : Octets} {header : MsgHeader} {security : Parameters}
    {authOffset : Nat} {content : Reader}
    (h : ofDatagram datagram = .ok (.v3 header security authOffset content)) :
    ∃ body left, opening.runOn datagram = .ok (Version.v3.number, body) ∧
      decodeV3 body = .ok (.v3 header security authOffset content) left := by
  rcases ofDatagram_eq_ok h with ⟨version, body, left, hopening, hread⟩
  by_cases hversion : version.usesCommunity = true
  · rw [if_pos hversion] at hread
    rcases decodeCommunity_eq_ok hread with ⟨_, hsame, _⟩
    contradiction
  · rw [if_neg hversion] at hread
    cases version with
    | v1 => exact absurd rfl hversion
    | v2c => exact absurd rfl hversion
    | v3 => exact ⟨body, left, hopening, hread⟩

/-- A datagram that is opened as a version 3 message has a layout, and the offset that is noted
    is that of the authentication code in the datagram. -/
theorem ofDatagram_eq_v3 {datagram : Octets} {header : MsgHeader} {security : Parameters}
    {authOffset : Nat} {content : Reader}
    (h : ofDatagram datagram = .ok (.v3 header security authOffset content)) :
    ∃ layout : Layout header security, datagram = layout.octets ∧
      authOffset = layout.front.length ∧ content.rest = layout.content := by
  rcases decodeV3_of_ofDatagram h with ⟨body, left, hopening, hread⟩
  obtain ⟨head, versionOctets, rest, hhead, hversionOctets, hdatagram, hoffset⟩ :=
    opening_eq_ok hopening
  obtain ⟨_, _, _, headerOctets, parametersHead, parameters, hsame, hheader, hparametersHead, huse,
    hparameters⟩ := decodeV3_eq_ok hread
  cases hsame
  rcases Parameters.decodeAt_eq_ok hparameters with ⟨layout, hlayout, hauthOffset⟩
  have hbody := huse.rest
  rw [hlayout] at hbody hparametersHead
  rw [hbody] at hhead hdatagram
  refine ⟨⟨head, versionOctets, headerOctets, parametersHead, layout, content.rest, rest, ?_,
    hversionOctets, hheader, hparametersHead⟩, ?_, ?_, rfl⟩
  · simpa only [List.append_assoc] using hhead
  · rw [hdatagram]
    simp only [Layout.octets, Layout.front, Layout.back, Parameters.Layout.octets,
      List.append_assoc]
  · rw [hauthOffset, hoffset]
    simp only [Layout.front, List.length_append, Nat.add_assoc]

end Envelope

end Snmp
