/-
  Snmp/Proofs/Reencoding.lean
  ===========================
  **What is decoded is encoded again.**

  A datagram may be written in many ways and still be decoded.  The message that it is decoded
  as is well-formed in any case, so it can be encoded by the user who has decoded it, and the
  new datagram, in the one way in which a writer writes it, is decoded as the same message.
  Only the authentication code may be another one, since it belongs to the octets and not to
  the message.

  An encoder needs to know that nothing becomes too long for its length octets.  What is read
  from a datagram becomes at most eight times as long, and what was encrypted is as long as its
  ciphertext: a cipher that can be undone and keeps lengths is a bijection on the strings of
  each length, so that undoing it keeps lengths too (`length_decipher`).
-/
import Mathlib.Data.Fintype.EquivFin
import Mathlib.Data.Fintype.Vector
import Snmp.Proofs.MessageRoundTrip
import Snmp.Proofs.ReadValues
import Snmp.Proofs.Unlocking

namespace Snmp

open Ber Decoder Usm

variable {suite : Suite}

/-! ### Deciphering -/

namespace Usm

instance finite_octet : Finite UInt8 :=
  Finite.of_injective UInt8.toFin (fun _ _ h => UInt8.toFin_inj.1 h)

theorem length_decipher (hsuite : suite.Lawful) {protocol : PrivProtocol}
    {key iv ciphertext : Octets} (hkey : key.length = protocol.cipherKeyLength)
    (hiv : iv.length = protocol.ivLength) (htakes : protocol.TakesLength ciphertext.length) :
    (suite.decrypt protocol key iv ciphertext).length = ciphertext.length := by
  let encipher (plaintext : List.Vector UInt8 ciphertext.length) :
      List.Vector UInt8 ciphertext.length :=
    ⟨suite.encrypt protocol key iv plaintext.1, by
      rw [hsuite.length_encrypt protocol key iv _ hkey hiv (plaintext.2.symm ▸ htakes),
        plaintext.2]⟩
  have hinjective : Function.Injective encipher := by
    intro first second hsame
    have hcipher : suite.encrypt protocol key iv first.1 = suite.encrypt protocol key iv second.1 :=
      congrArg Subtype.val hsame
    apply Subtype.ext
    rw [← hsuite.decrypt_encrypt protocol key iv first.1 hkey hiv (first.2.symm ▸ htakes), hcipher,
      hsuite.decrypt_encrypt protocol key iv second.1 hkey hiv (second.2.symm ▸ htakes)]
  obtain ⟨plaintext, hplaintext⟩ :=
    Finite.surjective_of_injective hinjective ⟨ciphertext, rfl⟩
  have hcipher : suite.encrypt protocol key iv plaintext.1 = ciphertext :=
    congrArg Subtype.val hplaintext
  calc (suite.decrypt protocol key iv ciphertext).length
      = (suite.decrypt protocol key iv (suite.encrypt protocol key iv plaintext.1)).length := by
        rw [hcipher]
    _ = plaintext.1.length := by
        rw [hsuite.decrypt_encrypt protocol key iv _ hkey hiv (plaintext.2.symm ▸ htakes)]
    _ = ciphertext.length := plaintext.2

namespace PrivProtocol

variable {protocol : PrivProtocol} {key ciphertext plaintext : Octets} {seed : IvSeed}

theorem length_prepared_le (protocol : PrivProtocol) (plaintext : Octets) :
    (protocol.prepared plaintext).length ≤ plaintext.length + 8 := by
  rw [prepared]
  split
  · simp only [padded, blockSize, List.length_append, List.length_replicate]
    omega
  · omega

theorem salt_of_decrypt (h : protocol.decrypt suite key seed ciphertext = .ok plaintext) :
    seed.salt.length = 8 := by
  rcases Except.bind_eq_ok h with ⟨_, hsalt, _⟩
  rw [checkSalt] at hsalt
  split at hsalt
  · assumption
  · contradiction

theorem length_decrypt (hsuite : suite.Lawful) (hkey : protocol.keyLength ≤ key.length)
    (h : protocol.decrypt suite key seed ciphertext = .ok plaintext) :
    plaintext.length = ciphertext.length := by
  obtain ⟨cipherKey, iv, hkeyAndIv, hcipherKey, hiv⟩ := keyAndIv_of_length hkey (salt_of_decrypt h)
  rcases Except.bind_eq_ok h with ⟨_, _, h⟩
  split at h
  · contradiction
  · rename_i hwhole
    simp only [hkeyAndIv, bind, Except.bind, pure, Except.pure, Except.ok.injEq] at h
    rw [← h]
    apply length_decipher hsuite hcipherKey hiv
    intro hdes
    exact Decidable.not_not.1 fun hpartial => hwhole ⟨hdes, hpartial⟩

end PrivProtocol

/-! ### Parameters that were read -/

namespace Parameters

theorem ofWireCount_le (count : Int32) : ofWireCount count ≤ maxCount := by
  have hhigh : count.toInt ≤ 2147483647 := count.toInt_le
  have hmax : maxCount.toNat = 2147483647 := rfl
  rw [UInt32.le_iff_toNat_le, ofWireCount,
    UInt32.toNat_ofNat_of_lt' (by simp only [UInt32.size]; omega), hmax]
  omega

theorem length_le_of_isElement {tag : Tag} {content octets : Octets}
    (h : IsElement tag content octets) : content.length ≤ octets.length := by
  obtain ⟨head, _, rfl⟩ := h
  simp

namespace Layout

variable {p : Parameters}

theorem engineBoots_le (l : p.Layout) : p.engineBoots ≤ maxCount := by
  obtain ⟨count, _, hcount⟩ := l.engineBoots_eq
  rw [hcount]
  exact ofWireCount_le count

theorem engineTime_le (l : p.Layout) : p.engineTime ≤ maxCount := by
  obtain ⟨count, _, hcount⟩ := l.engineTime_eq
  rw [hcount]
  exact ofWireCount_le count

theorem length_fields_le (l : p.Layout) :
    p.engineId.length + p.userName.length + p.authParams.length + p.privParams.length ≤
      l.octets.length := by
  have hengineId := length_le_of_isElement l.engineId_eq
  have huserName := length_le_of_isElement l.userName_eq
  have hsalt := length_le_of_isElement l.salt_eq
  simp only [octets, front, back, List.length_append]
  omega

end Layout

end Parameters

end Usm

/-! ### Messages that were read -/

namespace Envelope

variable {header : MsgHeader} {security : Parameters} {content inner left : Reader}
  {datagram : Octets} {user? used? : Option User} {m : Message}

theorem decodeScoped_message (h : decodeScoped header security inner = .ok m left) :
    m.community = [] ∧ m.pdu.Transmissible m.trap? ∧ Eightfold inner.rest m.scopedContent := by
  rcases bind_eq_ok h with ⟨engineId, s1, hengineId, h⟩
  rcases bind_eq_ok h with ⟨name, s2, hname, h⟩
  rcases bind_eq_ok h with ⟨⟨pdu, trap?⟩, s3, hpdu, h⟩
  cases h
  rcases octetString_eq_ok hengineId with ⟨_, hengineId, huse1⟩
  rcases octetString_eq_ok hname with ⟨_, hname, huse2⟩
  rcases Pdu.decode_eq_ok hpdu with ⟨_, huse3, hpdu, hsize⟩
  refine ⟨rfl, hpdu, Eightfold.of_consumes (huse1.trans (huse2.trans huse3)) ?_⟩
  exact (Eightfold.octetString hengineId).append ((Eightfold.octetString hname).append hsize)

/-- A community message carries nothing that its datagram does not hold. -/
theorem ofDatagram_community_message (h : ofDatagram datagram = .ok (.community m)) :
    m.version.usesCommunity = true ∧ m.WellFormed user? ∧
      Eightfold datagram m.encodeCommunity := by
  rcases ofDatagram_eq_ok h with ⟨version, body, left, hopening, hread⟩
  by_cases hversion : version.usesCommunity = true
  · rw [if_pos hversion] at hread
    rcases bind_eq_ok hread with ⟨community, s1, hcommunity, hread⟩
    rcases bind_eq_ok hread with ⟨⟨pdu, trap?⟩, s2, hpdu, hread⟩
    cases hread
    rcases opening_eq_ok hopening with ⟨head, number, rest, hhead, hnumber, rfl, _⟩
    rcases octetString_eq_ok hcommunity with ⟨_, hcommunity, huse1⟩
    rcases Pdu.decode_eq_ok hpdu with ⟨_, huse2, hpdu, hsize⟩
    refine ⟨hversion, ⟨hpdu, fun _ => ⟨rfl, rfl, rfl, rfl⟩, ?_⟩, ?_⟩
    · intro hv3
      rw [hversion] at hv3
      contradiction
    · rw [Message.encodeCommunity_eq]
      have hbody := Eightfold.of_consumes (huse1.trans huse2)
        ((Eightfold.octetString hcommunity).append hsize)
      have hall : Eightfold (head ++ (number ++ body.rest)) (element Tag.sequence
          (Message.communityContent { version, community, pdu, trap? })) :=
        Eightfold.constructed hhead ((Eightfold.integer hnumber).append hbody)
      apply hall.of_le
      simp only [List.length_append]
      omega
  · rw [if_neg hversion] at hread
    obtain ⟨_, _, _, _, _, _, hsame, _⟩ := decodeV3_eq_ok hread
    contradiction

/-- The scoped PDU of a message is not shorter on the wire than what is read of it, in plain or
    decrypted. -/
theorem openScoped_message (hsuite : suite.Lawful)
    (hvalid : header.flags.privacy = true → header.flags.auth = true)
    (huser : decodingUser header.flags.level security user? = .ok used?)
    (hopen : openScoped suite header security used? content = .ok inner)
    (hread : decodeScoped header security inner = .ok m left) :
    Eightfold content.rest m.scopedContent ∧
      (header.flags.level = .authPriv → security.privParams.length = 8) := by
  cases hprivacy : header.flags.privacy with
  | false =>
    constructor
    · simp only [openScoped, hprivacy] at hopen
      split at hopen
      · contradiction
      cases hconstructed : constructed Tag.sequence content with
      | error fault unread =>
        simp only [hconstructed] at hopen
        contradiction
      | ok found unread =>
        simp only [hconstructed] at hopen
        cases hopen
        rcases constructed_eq_ok hconstructed with ⟨head, _, huse, _⟩
        apply (decodeScoped_message hread).2.2.of_le
        simp only [huse.rest, List.length_append]
        omega
    · intro hlevel
      rw [MsgFlags.privacy_of_level hlevel] at hprivacy
      contradiction
  | true =>
    have hlevel := MsgFlags.level_eq_authPriv hvalid hprivacy
    have hauth : header.flags.level ≠ .noAuthNoPriv := by rw [hlevel]; decide
    obtain ⟨user, _, rfl, _, hle⟩ := decodingUser_eq_ok hauth huser
    rw [hlevel] at hle
    obtain ⟨protocol, key, cipher, plaintext, encrypted, more, hkey, hcontent, hencrypted, hdecrypt,
      found, unread, hfound, hreadFound⟩ := openScoped_eq_ok hprivacy hopen hread
    refine ⟨?_, fun _ => PrivProtocol.salt_of_decrypt hdecrypt⟩
    obtain ⟨_, _, hsame, hlength⟩ := User.privKey_of_level hsuite.sized hle security.engineId
    rw [hkey] at hsame
    cases hsame
    have hplaintext := PrivProtocol.length_decrypt hsuite hlength hdecrypt
    have hcipher := Parameters.length_le_of_isElement hencrypted
    apply (decodeScoped_message hreadFound).2.2.of_le
    obtain ⟨unread, hconstructed⟩ := runOn_eq_ok hfound
    rcases constructed_eq_ok hconstructed with ⟨head, _, huse, _⟩
    have hrest : plaintext = head ++ found.rest ++ unread.rest := huse.rest
    have hsize := congrArg List.length hrest
    have hsize' := congrArg List.length hcontent
    simp only [List.length_append] at hsize hsize'
    omega

end Envelope

namespace Message

variable {datagram : Octets} {header : MsgHeader} {security : Parameters} {user? : Option User}
  {m : Message}

/-- A message that is decoded is well-formed, and can be protected by the user who has decoded
    it. -/
theorem wellFormed_of_decode (hsuite : suite.Lawful)
    (h : Message.decode suite datagram user? = .ok m) : m.WellFormed user? := by
  rcases Message.decode_eq_ok h with ⟨envelope, hopen, hunlock⟩
  cases envelope with
  | community found =>
    cases hunlock
    exact (Envelope.ofDatagram_community_message hopen).2.1
  | v3 header security authOffset content =>
    obtain ⟨layout, _, _, _⟩ := Envelope.ofDatagram_eq_v3 hopen
    obtain ⟨_, _, _, _, _, _, _, _, _, _, _, _, hsize, hflags⟩ := layout.headerOctets_eq
    obtain ⟨used?, inner, left, huser, _, hscoped, hread⟩ := Envelope.unlock_eq_ok hunlock
    obtain ⟨hversion, hheader?, hsecurity?⟩ := Envelope.decodeScoped_eq_ok hread
    obtain ⟨hcommunity, hpdu, _⟩ := Envelope.decodeScoped_message hread
    obtain ⟨_, hsalt⟩ := Envelope.openScoped_message hsuite hflags huser hscoped hread
    refine ⟨hpdu, ?_, fun _ => ⟨hcommunity, header, security, hheader?, hsecurity?,
      ⟨hsize, hflags⟩, layout.parameters.engineBoots_le, layout.parameters.engineTime_le, ?_,
      hsalt⟩⟩
    · intro hcommunity
      rw [hversion] at hcommunity
      contradiction
    · intro hlevel
      obtain ⟨user, huser?, _, hname, hle⟩ := Envelope.decodingUser_eq_ok hlevel huser
      exact ⟨user, huser?, hname, hle⟩

/-! ### How long a message becomes -/

/-- A message holds its fields and fourteen heads, apart from its own and from those inside the
    scoped PDU. -/
theorem length_v3Content_le (header : MsgHeader) (security : Parameters) (data : Octets)
    {n k : Nat} (hhead : ∀ content : Octets, content.length ≤ n + 25 + 14 * k →
      headerSize content ≤ k)
    (hsize : security.engineId.length + security.userName.length + security.authParams.length
      + security.privParams.length + data.length ≤ n) :
    (v3Content header security data).length ≤ n + 25 + 14 * k := by
  have helement (tag : Tag) (content : Octets) (hle : content.length ≤ n + 25 + 14 * k) :
      (element tag content).length ≤ content.length + k := by
    have := hhead content hle
    rw [length_element]
    omega
  have hinteger (value : Int32) :
      (element Tag.integer (Octets.ofInt value.toInt)).length ≤ 4 + k := by
    have hshort := length_ofInt_int32 value
    have := helement Tag.integer (Octets.ofInt value.toInt) (by omega)
    omega
  have hflags := helement Tag.octetString [header.flags.toOctet] (by
    rw [List.length_singleton]
    omega)
  rw [List.length_singleton] at hflags
  have hmsgId := hinteger header.msgId
  have hmaxSize := hinteger header.maxSize
  have hmodel := hinteger usmSecurityModel
  have hversion := hinteger Version.v3.number
  have hboots := hinteger (Parameters.wireCount security.engineBoots)
  have htime := hinteger (Parameters.wireCount security.engineTime)
  have hcontent : (headerContent header).length ≤ 13 + 4 * k := by
    simp only [headerContent, List.length_append]
    omega
  have hheader := helement Tag.sequence (headerContent header) (by omega)
  have hengineId := helement Tag.octetString security.engineId (by omega)
  have huserName := helement Tag.octetString security.userName (by omega)
  have hauthParams := helement Tag.octetString security.authParams (by omega)
  have hprivParams := helement Tag.octetString security.privParams (by omega)
  have hparameters : security.content.length ≤ n - data.length + 8 + 6 * k := by
    simp only [Parameters.content, Parameters.fieldsBefore, List.length_append]
    omega
  have hencode := helement Tag.sequence security.content (by omega)
  rw [← Parameters.encode_eq_element] at hencode
  have hwrapped := helement Tag.octetString security.encode (by omega)
  simp only [v3Content, v3Front, List.length_append]
  omega

theorem length_encodeV3_le (header : MsgHeader) (security : Parameters) (data : Octets) {n : Nat}
    (hsize : security.engineId.length + security.userName.length + security.authParams.length
      + security.privParams.length + data.length ≤ n) (hn : n ≤ 8388608) :
    (encodeV3 header security data).length ≤ n + 100 := by
  have hhead (content : Octets) (hle : content.length ≤ n + 25 + 14 * 5) :
      headerSize content ≤ 5 := by
    have hbound : content.length < 16777216 := by omega
    have := Length.length_encode_le (k := 2) hbound
    rw [headerSize]
    omega
  have hall := length_v3Content_le header security data hhead hsize
  rw [encodeV3_eq_element]
  exact length_element_le hall (by omega)

/-- A cipher adds a block at most, and its element a head. -/
theorem length_encodeScopedData_le (hsuite : suite.Lawful) (hheader : header.Valid)
    (hprotected : Protected header security user?) {data : Octets} {n : Nat}
    (hsize : m.scopedContent.length ≤ n) (hn : n ≤ 8388608)
    (h : encodeScopedData suite m header security (keyUser header.flags.level user?) = .ok data) :
    data.length ≤ n + 20 := by
  have hscoped : m.encodeScoped.length ≤ n + 5 := by
    rw [encodeScoped_eq]
    exact length_element_le hsize (by omega)
  cases hprivacy : header.flags.privacy with
  | false =>
    simp only [encodeScopedData, hprivacy] at h
    cases h
    omega
  | true =>
    obtain ⟨user, protocol, key, huser, _, hencrypts⟩ :=
      hprotected.encrypts hsuite hheader hprivacy
    obtain ⟨cipher, hdata, hcipher, _⟩ := hencrypts m
    have hprepared := protocol.length_prepared_le m.encodeScoped
    rw [huser, hdata] at h
    cases h
    exact length_element_le (by omega) (by omega)

theorem encodeUnsigned_eq_ok (hversion : m.version.usesCommunity = false)
    (hheader? : m.header? = some header) (hsecurity? : m.security? = some security)
    (hprotected : Protected header security user?) {octets : Octets}
    (h : m.encodeUnsigned suite user? = .ok octets) :
    ∃ data code, encodeScopedData suite m header security (keyUser header.flags.level user?) =
        .ok data ∧
      octets = encodeV3 header (security.withCode code) data ∧
      (header.flags.level = .noAuthNoPriv → code = security.authParams) ∧
      (header.flags.level ≠ .noAuthNoPriv → code.length ≤ 48) := by
  have hnot : ¬m.version.usesCommunity = true := by simp [hversion]
  simp only [encodeUnsigned, if_neg hnot, hheader?, hsecurity?, hprotected.encodingUser] at h
  rcases Except.bind_eq_ok h with ⟨used?, hused, h⟩
  cases hused
  rcases Except.bind_eq_ok h with ⟨data, hdata, h⟩
  by_cases hlevel : header.flags.level = .noAuthNoPriv
  · have huser : keyUser header.flags.level user? = none := if_pos hlevel
    simp only [huser] at h
    refine ⟨data, security.authParams, hdata, (Except.ok.inj h).symm, fun _ => rfl, ?_⟩
    exact fun hsigned => absurd hlevel hsigned
  · obtain ⟨user, huser?, _, _⟩ := hprotected.user hlevel
    have huser : keyUser header.flags.level user? = some user := (if_neg hlevel).trans huser?
    simp only [huser] at h
    rcases Except.bind_eq_ok h with ⟨key, _, h⟩
    have hmac : key.protocol.macLength ≤ 48 := by cases key.protocol <;> decide
    refine ⟨data, Octets.zeros key.protocol.macLength, hdata, (Except.ok.inj h).symm, ?_, ?_⟩
    · exact fun hplain => absurd hplain hlevel
    · intro _
      rw [List.length_replicate]
      exact hmac

/-- A message of a few million octets is far from being too long for its length octets. -/
theorem fits_of_length_le (hsuite : suite.Lawful) (hversion : m.version.usesCommunity = false)
    (hheader? : m.header? = some header) (hsecurity? : m.security? = some security)
    (hheader : header.Valid) (hprotected : Protected header security user?)
    (hscoped : m.scopedContent.length ≤ 4000000)
    (hfields : security.engineId.length + security.userName.length
      + security.privParams.length ≤ 1000000)
    (hcode : header.flags.level = .noAuthNoPriv → security.authParams.length ≤ 1000000)
    {octets : Octets} (hunsigned : m.encodeUnsigned suite user? = .ok octets) : Fits octets := by
  have hbound : UInt32.size = 4294967296 := rfl
  obtain ⟨data, code, hdata, rfl, hplain, hsigned⟩ :=
    encodeUnsigned_eq_ok hversion hheader? hsecurity? hprotected hunsigned
  have hdataSize := length_encodeScopedData_le hsuite hheader hprotected hscoped (by decide) hdata
  have hcodeSize : code.length ≤ 1000000 := by
    by_cases hlevel : header.flags.level = .noAuthNoPriv
    · rw [hplain hlevel]
      exact hcode hlevel
    · exact Nat.le_trans (hsigned hlevel) (by decide)
  have hlength := length_encodeV3_le header (security.withCode code) data (n := 8000000)
    (by simp only [Parameters.withCode]; omega) (by decide)
  rw [Fits]
  omega

/-- The encoding of a message that was decoded is far from being too long for its length
    octets. -/
theorem fits_encodeUnsigned (hsuite : suite.Lawful) (hsize : datagram.length ≤ maxDatagram)
    (h : Message.decode suite datagram user? = .ok m) {octets : Octets}
    (hunsigned : m.encodeUnsigned suite user? = .ok octets) : Fits octets := by
  have hmax : maxDatagram = 65535 := rfl
  have hbound : UInt32.size = 4294967296 := rfl
  have hwell := wellFormed_of_decode hsuite h
  rcases Message.decode_eq_ok h with ⟨envelope, hopen, hunlock⟩
  cases envelope with
  | community found =>
    cases hunlock
    have hmessage : m.version.usesCommunity = true ∧ m.WellFormed user? ∧
        Eightfold datagram m.encodeCommunity := Envelope.ofDatagram_community_message hopen
    obtain ⟨hversion, _, heightfold⟩ := hmessage
    rw [encodeUnsigned, if_pos hversion] at hunsigned
    cases hunsigned
    have := heightfold hsize
    rw [Fits]
    omega
  | v3 header security authOffset content =>
    obtain ⟨layout, rfl, _, hcontent⟩ := Envelope.ofDatagram_eq_v3 hopen
    obtain ⟨used?, inner, left, huser, _, hscoped, hread⟩ := Envelope.unlock_eq_ok hunlock
    obtain ⟨hversion, hheader?, hsecurity?⟩ := Envelope.decodeScoped_eq_ok hread
    have hv3 : m.version.usesCommunity = false := by rw [hversion]; rfl
    obtain ⟨_, _, _, hsame, hsame', hheader, hprotected⟩ := hwell.v3 hv3
    rw [hheader?] at hsame
    rw [hsecurity?] at hsame'
    cases hsame
    cases hsame'
    obtain ⟨heightfold, _⟩ :=
      Envelope.openScoped_message hsuite hheader.flags huser hscoped hread
    have hfields := layout.parameters.length_fields_le
    have hparts : layout.parameters.octets.length + layout.content.length ≤
        layout.octets.length := by
      simp only [Envelope.Layout.octets, Envelope.Layout.front, Envelope.Layout.back,
        Parameters.Layout.octets, List.length_append]
      omega
    rw [hcontent] at heightfold
    have hscopedSize := heightfold (by omega)
    exact fits_of_length_le hsuite hv3 hheader? hsecurity? hheader hprotected (by omega) (by omega)
      (fun _ => by omega) hunsigned

/-! ### Encoding again -/

/-- The same message with another authentication code. -/
def withCode (m : Message) (code : Octets) : Message :=
  { m with security? := m.security?.map (·.withCode code) }

/-- What a message may come back as: itself, or with another authentication code if it is
    signed. -/
def SameButCode (m other : Message) : Prop :=
  other = m ∨ m.securityLevel ≠ .noAuthNoPriv ∧ ∃ code, other = m.withCode code

/-- A well-formed message that is not too long comes back, whichever way it is protected. -/
theorem WellFormed.exists_encode_decode (hsuite : suite.Lawful) (hm : m.WellFormed user?)
    (hsize : ∀ octets, m.encodeUnsigned suite user? = .ok octets → Fits octets) :
    ∃ datagram other, m.encode suite user? = .ok datagram ∧
      Message.decode suite datagram user? = .ok other ∧ m.SameButCode other := by
  cases hversion : m.version.usesCommunity with
  | true =>
    have hfits : Fits m.encodeCommunity := hsize _ (by rw [encodeUnsigned, if_pos hversion])
    exact ⟨m.encodeCommunity, m, if_pos hversion, decode_encodeCommunity hm hversion hfits,
      .inl rfl⟩
  | false =>
    obtain ⟨_, header, security, hheader?, hsecurity?, hheader, hprotected⟩ := hm.v3 hversion
    by_cases hauth : header.flags.level = .noAuthNoPriv
    · obtain ⟨datagram, hencode, hdecode⟩ := decode_encode_plain hsuite hm hversion hheader?
        hsecurity? hheader hprotected hauth hsize
      exact ⟨datagram, m, hencode, hdecode, .inl rfl⟩
    · obtain ⟨datagram, user, key, unsigned, hencode, _, _, _, hdecode⟩ :=
        decode_encode_signed hsuite hm hversion hheader? hsecurity? hheader hprotected hauth hsize
      refine ⟨datagram, _, hencode, hdecode, .inr ⟨?_, key.sign suite unsigned, ?_⟩⟩
      · simp only [securityLevel, hheader?]
        exact hauth
      · rw [withCode, hsecurity?, Option.map_some]

/-- Whatever is decoded from a datagram, in any of the forms that a reader tolerates, is encoded
    again by the user who has decoded it, and decoded as the same message. -/
theorem exists_encode_decode_of_decode (hsuite : suite.Lawful)
    (hsize : datagram.length ≤ maxDatagram) (h : Message.decode suite datagram user? = .ok m) :
    ∃ again other, m.encode suite user? = .ok again ∧
      Message.decode suite again user? = .ok other ∧ m.SameButCode other := by
  apply WellFormed.exists_encode_decode hsuite (wellFormed_of_decode hsuite h)
  intro octets hunsigned
  exact fits_encodeUnsigned hsuite hsize h hunsigned

/-- A response in forms that no writer produces: lengths and numbers with leading zero octets, a
    subidentifier that begins with an empty digit, a counter whose top bit looks like a sign, an
    exception marker with content, and octets behind the message. -/
def paddedResponse : Octets :=
  [48, 129, 45, 2, 2, 0, 1, 4, 129, 1, 99, 162, 35, 2, 1, 5, 2, 1, 0, 2, 1, 0, 48, 24,
    48, 12, 6, 4, 43, 6, 128, 1, 65, 4, 255, 0, 0, 0, 48, 8, 6, 2, 43, 6, 128, 2, 170, 187, 0, 1]

/-- The response is decoded, and comes back from a datagram that is written in another way. -/
theorem exists_encode_decode_of_decode_paddedResponse :
    ∃ m again, Message.decode .standard paddedResponse none = .ok m ∧
      m.pdu.bindings = [⟨⟨[1, 3, 6, 1]⟩, .counter32 4278190080⟩, ⟨⟨[1, 3, 6]⟩, .noSuchObject⟩] ∧
      m.encode .standard none = .ok again ∧
      Message.decode .standard again none = .ok m ∧ again.length < paddedResponse.length := by
  have hbindings : (Message.decode .standard paddedResponse none).toOption.map
      (fun m => (m.pdu.bindings, m.version, (m.encode .standard none).toOption.map List.length)) =
      some ([⟨⟨[1, 3, 6, 1]⟩, .counter32 4278190080⟩, ⟨⟨[1, 3, 6]⟩, .noSuchObject⟩], .v2c,
        some 43) := by
    decide +kernel
  obtain ⟨m, hdecode, hfacts⟩ := Except.eq_ok_of_toOption_map hbindings
  simp only [Prod.mk.injEq] at hfacts
  obtain ⟨hbindings, hversion, hlength⟩ := hfacts
  obtain ⟨again, other, hencode, hagain, hsame⟩ :=
    exists_encode_decode_of_decode Suite.standard_lawful (by decide) hdecode
  have hheader? : m.header? = none :=
    ((wellFormed_of_decode Suite.standard_lawful hdecode).community (by rw [hversion]; rfl)).1
  rcases hsame with rfl | ⟨hsigned, _⟩
  · refine ⟨other, again, hdecode, hbindings, hencode, hagain, ?_⟩
    rw [hencode] at hlength
    simp only [Except.toOption, Option.map_some, Option.some.injEq] at hlength
    rw [hlength]
    decide
  · rw [securityLevel, hheader?] at hsigned
    contradiction

end Message

end Snmp
