/-
  Snmp/Proofs/MessageRoundTrip.lean
  =================================
  **What is encoded is decoded again.**

  A well-formed message of any version, with any PDU and at any security level, is encoded, and
  the datagram is decoded as the same message.  An authenticated message comes back with the
  authentication code that was computed for it in the place of whatever it had there: the code
  is that of the message written with zeros in its place (`encodeUnsigned`), which is also what
  the receiver computes it over.

  The three stages are taken one by one: the scoped PDU, in plain or encrypted; the code; the
  frame around both.
-/
import Snmp.Proofs.MessageWire
import Snmp.Proofs.Results
import Snmp.Proofs.StandardCiphers

namespace Snmp

open Ber Decoder Usm

variable {suite : Suite}

namespace Message

/-! ### Well-formed messages -/

/-- Parameters that are read back as they were written, and a user who can protect a message
    with this header. -/
structure Protected (header : MsgHeader) (security : Parameters) (user? : Option User) : Prop where
  boots : security.engineBoots ≤ Parameters.maxCount
  time : security.engineTime ≤ Parameters.maxCount
  user : header.flags.level ≠ .noAuthNoPriv →
    ∃ user, user? = some user ∧ user.name = security.userName ∧
      header.flags.level ≤ user.securityLevel
  salt : header.flags.level = .authPriv → security.privParams.length = 8

/-- A message without anything that the wire form does not carry, and a user who can protect
    it. -/
structure WellFormed (m : Message) (user? : Option User) : Prop where
  pdu : m.pdu.Transmissible m.trap?
  community : m.version.usesCommunity = true →
    m.header? = none ∧ m.security? = none ∧ m.contextEngineId = [] ∧ m.contextName = []
  v3 : m.version.usesCommunity = false →
    m.community = [] ∧ ∃ header security, m.header? = some header ∧
      m.security? = some security ∧ header.Valid ∧ Protected header security user?

/-- The encoding of a message before it is signed: an authenticated message has zeros in the
    place of its code. -/
def encodeUnsigned (suite : Suite) (m : Message) (user? : Option User) : Except Error Octets :=
  if m.version.usesCommunity then .ok m.encodeCommunity
  else match m.header?, m.security? with
    | some header, some security => do
      let user? ← encodingUser header.flags.level user?
      let data ← encodeScopedData suite m header security user?
      match user? with
      | none => return encodeV3 header security data
      | some user =>
        let key ← (user.authKey suite security.engineId).mapError .authenticationFailed
        return encodeV3 header (security.withCode (Octets.zeros key.protocol.macLength)) data
    | _, _ => .error (.encode .missingSecurityParams)

end Message

/-! ### The scoped PDU -/

namespace MsgFlags

theorem level_eq_authPriv {flags : MsgFlags} (hvalid : flags.privacy = true → flags.auth = true)
    (hprivacy : flags.privacy = true) : flags.level = .authPriv := by
  simp [level, hprivacy, hvalid hprivacy]

end MsgFlags

namespace Envelope

theorem accepts_decodeScoped {m : Message} (header : MsgHeader) (security : Parameters)
    (hpdu : m.pdu.Transmissible m.trap?) (hfits : Fits m.scopedContent) :
    Accepts (decodeScoped header security) m.scopedContent
      { version := .v3, header? := some header, security? := some security
        contextEngineId := m.contextEngineId, contextName := m.contextName
        pdu := m.pdu, trap? := m.trap? } := by
  apply Accepts.bind (reads_octetString hfits.left.of_element)
  apply Accepts.bind (reads_octetString hfits.right.left.of_element)
  intro offset
  exact ⟨_, bind_ok ((Pdu.reads_decode hpdu hfits.right.right).alone offset)⟩

theorem openScoped_plain (m : Message) {header : MsgHeader}
    (hprivacy : header.flags.privacy = false) (security : Parameters) (user? : Option User)
    (hfits : Fits m.encodeScoped) (position : Nat) :
    ∃ offset, openScoped suite header security user? ⟨position, m.encodeScoped⟩ =
      .ok ⟨offset, m.scopedContent⟩ := by
  rw [Message.encodeScoped_eq] at hfits ⊢
  have hpeek : ¬(Reader.mk position (element Tag.sequence m.scopedContent)).peek? =
      some Tag.octetString := by
    simp [Reader.peek?, element, Tag.sequence, Tag.octetString]
  refine ⟨position + headerSize m.scopedContent, ?_⟩
  simp only [openScoped, hprivacy, if_neg hpeek,
    constructed_element_alone hfits.of_element position]

/-- An encrypted scoped PDU is found again with the key that it was encrypted with.  The fill of
    the last block follows it and is ignored. -/
theorem openScoped_encrypted (m : Message) {header : MsgHeader}
    (hprivacy : header.flags.privacy = true) {security : Parameters} {user : User}
    {protocol : PrivProtocol} {key : LocalizedKey} {cipher : Octets}
    (hkey : user.privKey suite security.engineId = .ok (protocol, key))
    (hdecrypt : protocol.decrypt suite key.octets
      ⟨security.engineBoots, security.engineTime, security.privParams⟩ cipher =
        .ok (protocol.prepared m.encodeScoped))
    (hcipher : Fits cipher) (hscoped : Fits m.encodeScoped) (position : Nat) :
    ∃ offset, openScoped suite header security (some user)
        ⟨position, element Tag.octetString cipher⟩ = .ok ⟨offset, m.scopedContent⟩ := by
  have hpeek : (Reader.mk position (element Tag.octetString cipher)).peek? =
      some Tag.octetString := rfl
  obtain ⟨fill, hfill⟩ := protocol.prefix_prepared m.encodeScoped
  rw [Message.encodeScoped_eq] at hscoped hfill
  have hinner : (constructed Tag.sequence).runOn (protocol.prepared m.encodeScoped) =
      .ok ⟨0 + headerSize m.scopedContent, m.scopedContent⟩ := by
    rw [Message.encodeScoped_eq, ← hfill]
    simp only [runOn, EStateM.run, Reader.ofOctets, constructed_element hscoped.of_element]
  refine ⟨0 + headerSize m.scopedContent, ?_⟩
  simp only [openScoped, hprivacy, if_pos hpeek, decryptScoped, hkey, Except.mapError_ok, bind,
    Except.bind, (reads_octetString hcipher).alone, hdecrypt, hinner]

end Envelope

namespace Message

/-- The user whose keys take part at a level. -/
def keyUser (level : SecurityLevel) (user? : Option User) : Option User :=
  if level = .noAuthNoPriv then none else user?

variable {header : MsgHeader} {security : Parameters} {user? : Option User}

theorem Protected.encodingUser (h : Protected header security user?) :
    encodingUser header.flags.level user? = .ok (keyUser header.flags.level user?) := by
  by_cases hlevel : header.flags.level = .noAuthNoPriv
  · simp only [Message.encodingUser, keyUser, if_pos hlevel]
  · obtain ⟨user, rfl, _, hle⟩ := h.user hlevel
    simp only [Message.encodingUser, keyUser, if_neg hlevel, if_pos hle]

theorem Protected.decodingUser (h : Protected header security user?) (code : Octets) :
    Envelope.decodingUser header.flags.level (security.withCode code) user? =
      .ok (keyUser header.flags.level user?) := by
  by_cases hlevel : header.flags.level = .noAuthNoPriv
  · simp only [Envelope.decodingUser, keyUser, if_pos hlevel]
  · obtain ⟨user, rfl, hname, hle⟩ := h.user hlevel
    have hnot : ¬user.securityLevel < header.flags.level := Nat.not_lt.2 hle
    simp only [Envelope.decodingUser, keyUser, if_neg hlevel, Parameters.withCode, hname,
      ne_eq, not_true, if_false, if_neg hnot]

/-- A user who can protect an encrypted message encrypts any scoped PDU, and the same key undoes
    it. -/
theorem Protected.encrypts (hsuite : suite.Lawful) (hheader : header.Valid)
    (h : Protected header security user?) (hprivacy : header.flags.privacy = true) :
    ∃ user protocol key, keyUser header.flags.level user? = some user ∧
      user.privKey suite security.engineId = .ok (protocol, key) ∧
      ∀ m : Message, ∃ cipher,
        encodeScopedData suite m header security (some user) =
          .ok (element Tag.octetString cipher) ∧
        cipher.length = (protocol.prepared m.encodeScoped).length ∧
        protocol.decrypt suite key.octets
          ⟨security.engineBoots, security.engineTime, security.privParams⟩ cipher =
            .ok (protocol.prepared m.encodeScoped) := by
  have hlevel := MsgFlags.level_eq_authPriv hheader.flags hprivacy
  have hauth : header.flags.level ≠ .noAuthNoPriv := by rw [hlevel]; decide
  obtain ⟨user, huser?, _, hle⟩ := h.user hauth
  rw [hlevel] at hle
  obtain ⟨protocol, key, hkey, hlength⟩ := User.privKey_of_level hsuite.sized hle security.engineId
  refine ⟨user, protocol, key, (if_neg hauth).trans huser?, hkey, ?_⟩
  intro m
  obtain ⟨cipher, hencrypt, hcipher, hdecrypt⟩ := PrivProtocol.encrypt_decrypt hsuite hlength
    ⟨security.engineBoots, security.engineTime, security.privParams⟩ (h.salt hlevel)
    m.encodeScoped
  refine ⟨cipher, ?_, hcipher, hdecrypt⟩
  simp only [encodeScopedData, hprivacy, hkey, Except.mapError_ok, bind, Except.bind, hencrypt,
    pure, Except.pure, Writer.octets_pushOctetString, Writer.octets_empty, List.append_nil]

/-- A scoped PDU is written at every level, and is found again behind any code. -/
theorem encodeScopedData_openScoped (hsuite : suite.Lawful) (m : Message) (hheader : header.Valid)
    (h : Protected header security user?) :
    ∃ data, encodeScopedData suite m header security (keyUser header.flags.level user?) = .ok data ∧
      m.encodeScoped.length ≤ data.length ∧
      (Fits data → ∀ code position, ∃ offset,
        Envelope.openScoped suite header (security.withCode code)
          (keyUser header.flags.level user?) ⟨position, data⟩ = .ok ⟨offset, m.scopedContent⟩) := by
  cases hprivacy : header.flags.privacy with
  | false =>
    refine ⟨m.encodeScoped, ?_, Nat.le_refl _, ?_⟩
    · simp only [encodeScopedData, hprivacy]
      rfl
    · intro hfits code position
      exact Envelope.openScoped_plain m hprivacy _ _ hfits position
  | true =>
    obtain ⟨user, protocol, key, huser, hkey, hencrypts⟩ := h.encrypts hsuite hheader hprivacy
    obtain ⟨cipher, hdata, hcipher, hdecrypt⟩ := hencrypts m
    have hscoped : m.encodeScoped.length ≤ cipher.length := by
      rw [hcipher]
      exact protocol.length_le_prepared _
    rw [huser]
    refine ⟨element Tag.octetString cipher, hdata, ?_, ?_⟩
    · rw [length_element]
      omega
    · intro hfits code position
      exact Envelope.openScoped_encrypted m hprivacy hkey hdecrypt hfits.of_element
        (hfits.of_element.of_le hscoped) position

/-! ### The authentication code -/

/-- Signing puts the code of a message into its place. -/
theorem authenticate_encodeV3 (hsuite : suite.Sized) (key : LocalizedKey) {data unsigned : Octets}
    (hunsigned : unsigned =
      encodeV3 header (security.withCode (Octets.zeros key.protocol.macLength)) data)
    (hcontent : Fits (v3Content header
      (security.withCode (Octets.zeros key.protocol.macLength)) data)) :
    authenticate suite key unsigned =
      .ok (encodeV3 header (security.withCode (key.sign suite unsigned)) data) := by
  have hlength : (Octets.zeros key.protocol.macLength).length =
      (key.sign suite unsigned).length := by
    rw [LocalizedKey.length_sign hsuite, List.length_replicate]
  have hlocate : locateAuthParams unsigned = .ok (beforeCode header
      (security.withCode (Octets.zeros key.protocol.macLength)) data).length := by
    rw [hunsigned]
    exact Envelope.locateAuthParams_encodeV3 header _ data hcontent
  have hcovers : (beforeCode header
      (security.withCode (Octets.zeros key.protocol.macLength)) data).length
      + (key.sign suite unsigned).length ≤ unsigned.length := by
    rw [← hlength, hunsigned, encodeV3_eq]
    simp only [List.length_append, Parameters.withCode]
    omega
  have hpatch := patch_encodeV3 header security data hlength
  rw [← hunsigned] at hpatch
  simp only [authenticate, hlocate, bind, Except.bind, Octets.covers_eq_decide, hcovers,
    decide_true, if_true, pure, Except.pure, hpatch]

/-- The receiver computes the code over the octets that were signed. -/
theorem checkCode_encodeV3 {key : LocalizedKey} {user : User} {data unsigned code : Octets}
    (hkey : user.authKey suite security.engineId = .ok key)
    (hunsigned : unsigned =
      encodeV3 header (security.withCode (Octets.zeros key.protocol.macLength)) data)
    (hlength : code.length = key.protocol.macLength) (hcode : code = key.sign suite unsigned) :
    Envelope.checkCode suite (encodeV3 header (security.withCode code) data)
      (beforeCode header (security.withCode code) data).length (security.withCode code)
      (some user) = .ok () := by
  have hblank : Envelope.unsigned (encodeV3 header (security.withCode code) data)
      (beforeCode header (security.withCode code) data).length (security.withCode code) =
      unsigned := by
    have hzeros : (security.withCode code).authParams.length = key.protocol.macLength := hlength
    rw [Envelope.unsigned, hzeros, hunsigned]
    exact patch_encodeV3 header security data (hlength.trans List.length_replicate.symm)
  have hsame : (security.withCode code).engineId = security.engineId := rfl
  have hnew : (security.withCode code).authParams = code := rfl
  simp only [Envelope.checkCode, hsame, hkey, bind, Except.bind, hblank]
  rw [hnew, hcode]
  exact key.verify_sign _

end Message

/-! ### Whole messages -/

theorem Message.decode_of_stages {datagram : Octets} {user? used? : Option User}
    {header : MsgHeader} {security : Parameters} {authOffset : Nat} {content inner : Reader}
    {message : Message}
    (hopen : Envelope.ofDatagram datagram = .ok (.v3 header security authOffset content))
    (huser : Envelope.decodingUser header.flags.level security user? = .ok used?)
    (hcode : Envelope.checkCode suite datagram authOffset security used? = .ok ())
    (hscoped : Envelope.openScoped suite header security used? content = .ok inner)
    (hread : ∃ left, Envelope.decodeScoped header security inner = .ok message left) :
    Message.decode suite datagram user? = .ok message := by
  obtain ⟨left, hleft⟩ := hread
  simp only [Message.decode, hopen, Envelope.unlock, huser, hcode, hscoped, Except.mapError_ok,
    bind, Except.bind, hleft, pure, Except.pure]

namespace Message

variable {m : Message} {header : MsgHeader} {security : Parameters} {user? : Option User}

theorem Protected.capped_withCode (h : Protected header security user?) (code : Octets) :
    (security.withCode code).capped = security.withCode code :=
  Parameters.capped_of_le h.boots h.time

/-- A version 3 message around a scoped PDU is decoded with any code that passes the check. -/
theorem decode_encodeV3 (hpdu : m.pdu.Transmissible m.trap?) (hheader : header.Valid)
    (h : Protected header security user?) {data code : Octets}
    (hfits : Fits (encodeV3 header (security.withCode code) data))
    (hscoped : Fits m.encodeScoped)
    (hopen : ∀ position, ∃ offset, Envelope.openScoped suite header (security.withCode code)
      (keyUser header.flags.level user?) ⟨position, data⟩ = .ok ⟨offset, m.scopedContent⟩)
    (hcode : Envelope.checkCode suite (encodeV3 header (security.withCode code) data)
      (beforeCode header (security.withCode code) data).length (security.withCode code)
      (keyUser header.flags.level user?) = .ok ()) :
    Message.decode suite (encodeV3 header (security.withCode code) data) user? = .ok
      { version := .v3, header? := some header, security? := some (security.withCode code)
        contextEngineId := m.contextEngineId, contextName := m.contextName
        pdu := m.pdu, trap? := m.trap? } := by
  obtain ⟨position, henvelope⟩ :=
    Envelope.ofDatagram_encodeV3 hheader (security.withCode code) data (fits_v3Content hfits)
  rw [h.capped_withCode] at henvelope
  obtain ⟨offset, hinner⟩ := hopen position
  rw [encodeScoped_eq] at hscoped
  exact decode_of_stages henvelope (h.decodingUser code) hcode hinner
    (Envelope.accepts_decodeScoped header _ hpdu hscoped.of_element offset)

theorem decode_encodeCommunity (hm : m.WellFormed user?)
    (hversion : m.version.usesCommunity = true) (hfits : Fits m.encodeCommunity) :
    Message.decode suite m.encodeCommunity user? = .ok m := by
  obtain ⟨hheader, hsecurity, hengine, hname⟩ := hm.community hversion
  have hopen := Envelope.ofDatagram_encodeCommunity hversion hm.pdu hfits
  simp only [Message.decode, hopen, Envelope.unlock, Except.mapError_ok]
  obtain ⟨version, community, header?, security?, contextEngineId, contextName, pdu, trap?⟩ := m
  cases hheader; cases hsecurity; cases hengine; cases hname
  rfl

theorem WellFormed.eq_v3 (hm : m.WellFormed user?) (hversion : m.version.usesCommunity = false)
    (hheader : m.header? = some header) (hsecurity : m.security? = some security) :
    m = { version := .v3, header? := some header, security? := some security
          contextEngineId := m.contextEngineId, contextName := m.contextName
          pdu := m.pdu, trap? := m.trap? } := by
  obtain ⟨hcommunity, _⟩ := hm.v3 hversion
  obtain ⟨version, community, _, _, contextEngineId, contextName, pdu, trap?⟩ := m
  cases hheader; cases hsecurity; cases hcommunity
  cases version with
  | v1 => contradiction
  | v2c => contradiction
  | v3 => rfl

/-- A message that is not authenticated is written as it stands and comes back. -/
theorem decode_encode_plain (hsuite : suite.Lawful) (hm : m.WellFormed user?)
    (hversion : m.version.usesCommunity = false)
    (hheader? : m.header? = some header) (hsecurity? : m.security? = some security)
    (hheader : header.Valid) (hprotected : Protected header security user?)
    (hlevel : header.flags.level = .noAuthNoPriv)
    (hsize : ∀ octets, m.encodeUnsigned suite user? = .ok octets → Fits octets) :
    ∃ datagram, m.encode suite user? = .ok datagram ∧
      Message.decode suite datagram user? = .ok m := by
  have hnot : ¬m.version.usesCommunity = true := by simp [hversion]
  have huser : keyUser header.flags.level user? = none := if_pos hlevel
  obtain ⟨data, hdata, hscoped, hopen⟩ := encodeScopedData_openScoped hsuite m hheader hprotected
  have hunsigned : m.encodeUnsigned suite user? = .ok (encodeV3 header security data) := by
    simp only [encodeUnsigned, if_neg hnot, hheader?, hsecurity?, hprotected.encodingUser, bind,
      Except.bind, hdata]
    rw [huser]
    rfl
  have hfits : Fits (encodeV3 header security data) := hsize _ hunsigned
  have hdatafits : Fits data := fits_of_encodeV3 hfits
  refine ⟨encodeV3 header security data, ?_, ?_⟩
  · simp only [encode, if_neg hnot, hheader?, hsecurity?, hprotected.encodingUser, bind,
      Except.bind, hdata]
    rw [huser]
    rfl
  · rw [hm.eq_v3 hversion hheader? hsecurity?]
    have hown : Fits (encodeV3 header (security.withCode security.authParams) data) := hfits
    exact decode_encodeV3 hm.pdu hheader hprotected hown
      (hdatafits.of_le hscoped) (hopen hdatafits _) (by rw [huser]; rfl)

/-- An authenticated message is signed, and comes back with the code that it was signed with. -/
theorem decode_encode_signed (hsuite : suite.Lawful) (hm : m.WellFormed user?)
    (hversion : m.version.usesCommunity = false)
    (hheader? : m.header? = some header) (hsecurity? : m.security? = some security)
    (hheader : header.Valid) (hprotected : Protected header security user?)
    (hlevel : header.flags.level ≠ .noAuthNoPriv)
    (hsize : ∀ octets, m.encodeUnsigned suite user? = .ok octets → Fits octets) :
    ∃ datagram user key unsigned, m.encode suite user? = .ok datagram ∧ user? = some user ∧
      user.authKey suite security.engineId = .ok key ∧
      m.encodeUnsigned suite user? = .ok unsigned ∧
      Message.decode suite datagram user? =
        .ok { m with security? := some (security.withCode (key.sign suite unsigned)) } := by
  have hnot : ¬m.version.usesCommunity = true := by simp [hversion]
  obtain ⟨user, huser?, _, hle⟩ := hprotected.user hlevel
  obtain ⟨key, hkey⟩ := User.authKey_of_level hlevel hle suite security.engineId
  have huser : keyUser header.flags.level user? = some user := by
    rw [keyUser, if_neg hlevel, huser?]
  obtain ⟨data, hdata, hscoped, hopen⟩ := encodeScopedData_openScoped hsuite m hheader hprotected
  let unsigned := encodeV3 header (security.withCode (Octets.zeros key.protocol.macLength)) data
  have hunsigned : m.encodeUnsigned suite user? = .ok unsigned := by
    simp only [encodeUnsigned, if_neg hnot, hheader?, hsecurity?, hprotected.encodingUser, bind,
      Except.bind, hdata]
    rw [huser]
    simp only [hkey, Except.mapError_ok]
    rfl
  have hfits : Fits unsigned := hsize _ hunsigned
  have hdatafits : Fits data := fits_of_encodeV3 hfits
  have hcode : (key.sign suite unsigned).length = key.protocol.macLength :=
    LocalizedKey.length_sign hsuite.sized key unsigned
  have hsigned : Fits (encodeV3 header (security.withCode (key.sign suite unsigned)) data) :=
    hfits.of_le (Nat.le_of_eq (length_encodeV3_withCode header security data
      (hcode.trans List.length_replicate.symm)))
  refine ⟨encodeV3 header (security.withCode (key.sign suite unsigned)) data,
    user, key, unsigned, ?_, huser?, hkey, hunsigned, ?_⟩
  · simp only [encode, if_neg hnot, hheader?, hsecurity?, hprotected.encodingUser, bind,
      Except.bind, hdata]
    rw [huser]
    simp only [hkey, Except.mapError_ok]
    exact authenticate_encodeV3 hsuite.sized key rfl (fits_v3Content hfits)
  · rw [hm.eq_v3 hversion hheader? hsecurity?]
    exact decode_encodeV3 hm.pdu hheader hprotected hsigned (hdatafits.of_le hscoped)
      (hopen hdatafits _) (by rw [huser]; exact checkCode_encodeV3 hkey rfl hcode rfl)

/-- Every well-formed message is encoded and decoded again: as itself if it is not
    authenticated, and otherwise with the authentication code of its unsigned encoding. -/
theorem decode_encode (hsuite : suite.Lawful) (m : Message) (user? : Option User)
    (hm : m.WellFormed user?)
    (hsize : ∀ octets, m.encodeUnsigned suite user? = .ok octets → octets.length < UInt32.size) :
    ∃ datagram, m.encode suite user? = .ok datagram ∧
      (m.securityLevel = .noAuthNoPriv → Message.decode suite datagram user? = .ok m) ∧
      (m.securityLevel ≠ .noAuthNoPriv →
        ∃ user security key unsigned,
          user? = some user ∧ m.security? = some security ∧
          user.authKey suite security.engineId = .ok key ∧
          m.encodeUnsigned suite user? = .ok unsigned ∧
          Message.decode suite datagram user? =
            .ok { m with security? := some (security.withCode (key.sign suite unsigned)) }) := by
  cases hversion : m.version.usesCommunity with
  | true =>
    have hlevel : m.securityLevel = .noAuthNoPriv := by
      simp only [securityLevel, (hm.community hversion).1]
    have hfits : Fits m.encodeCommunity :=
      hsize _ (by rw [encodeUnsigned, if_pos hversion])
    refine ⟨m.encodeCommunity, if_pos hversion, ?_, ?_⟩
    · intro _
      exact decode_encodeCommunity hm hversion hfits
    · intro hauth
      exact absurd hlevel hauth
  | false =>
    obtain ⟨_, header, security, hheader?, hsecurity?, hheader, hprotected⟩ := hm.v3 hversion
    have hlevel : m.securityLevel = header.flags.level := by
      simp only [securityLevel, hheader?]
    rw [hlevel]
    by_cases hauth : header.flags.level = .noAuthNoPriv
    · obtain ⟨datagram, hencode, hdecode⟩ := decode_encode_plain hsuite hm hversion hheader?
        hsecurity? hheader hprotected hauth hsize
      exact ⟨datagram, hencode, fun _ => hdecode, fun h => absurd hauth h⟩
    · obtain ⟨datagram, user, key, unsigned, hencode, huser?, hkey, hunsigned, hdecode⟩ :=
        decode_encode_signed hsuite hm hversion hheader? hsecurity? hheader hprotected hauth hsize
      exact ⟨datagram, hencode, fun h => absurd h hauth,
        fun _ => ⟨user, security, key, unsigned, huser?, hsecurity?, hkey, hunsigned, hdecode⟩⟩

def exampleUser : User :=
  (({ name := [111, 112] } : User).withAuth .md5 [97]).withPrivacy .des [98]

/-- A request for sysUpTime.0 that is signed and encrypted. -/
def exampleRequest : Message where
  version := .v3
  header? := some ⟨7, maxMessageSize, .ofLevel .authPriv true⟩
  security? := some {
    engineId := [128, 0, 0, 0, 1], engineBoots := 2, engineTime := 300
    userName := [111, 112], privParams := [1, 2, 3, 4, 5, 6, 7, 8] }
  contextEngineId := [128, 0, 0, 0, 1]
  pdu := ⟨.getRequest, -5, 0, 0, [.unset ⟨[1, 3, 6, 1, 2, 1, 1, 3, 0]⟩]⟩

theorem length_encodeUnsigned_exampleRequest (octets : Octets)
    (h : exampleRequest.encodeUnsigned .standard (some exampleUser) = .ok octets) :
    octets.length < UInt32.size := by
  have hlength : (exampleRequest.encodeUnsigned .standard (some exampleUser)).toOption.map
      List.length = some 109 := by decide +kernel
  obtain ⟨unsigned, hunsigned, hcount⟩ := Except.eq_ok_of_toOption_map hlength
  cases hunsigned.symm.trans h
  rw [hcount]
  decide

/-- The request comes back from its datagram with the code that it was signed with. -/
theorem decode_encode_exampleRequest :
    ∃ datagram code, exampleRequest.encode .standard (some exampleUser) = .ok datagram ∧
      Message.decode .standard datagram (some exampleUser) = .ok
        { exampleRequest with security? := exampleRequest.security?.map (·.withCode code) } := by
  have hwell : exampleRequest.WellFormed (some exampleUser) := {
    pdu := {
      bindings := by
        intro b hb
        rw [List.mem_singleton.1 hb]
        exact ⟨⟨by decide +kernel, by decide⟩, trivial⟩
      trap := fun h => absurd h (by decide)
      plain := fun _ => rfl }
    community := fun h => absurd h (by decide)
    v3 := fun _ => ⟨rfl, _, _, rfl, rfl, ⟨by decide, by decide⟩,
      ⟨by decide, by decide, fun _ => ⟨exampleUser, rfl, rfl, by decide⟩, fun _ => rfl⟩⟩ }
  obtain ⟨datagram, hencode, _, hsigned⟩ :=
    decode_encode Suite.standard_lawful exampleRequest (some exampleUser) hwell
      length_encodeUnsigned_exampleRequest
  obtain ⟨_, security, key, unsigned, _, hsecurity, _, _, hdecode⟩ := hsigned (by decide)
  refine ⟨datagram, key.sign .standard unsigned, hencode, ?_⟩
  rw [hdecode, hsecurity, Option.map_some]

end Message

end Snmp
