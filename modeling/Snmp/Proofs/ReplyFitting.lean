/-
  Snmp/Proofs/ReplyFitting.lean
  =============================
  **Fitting a reply is exact.**

  How many octets a reply takes follows from its PDU alone.  The salt, the cipher and the code
  differ from attempt to attempt, but each has its length beforehand, so a reply with zeros in
  their places is as long as any other (`blankReply`).  Its length does not fall when there are
  more bindings, whatever the version and the level, and also if the cipher fills whole blocks
  (`replySize_cut_mono`).

  So the search by halving finds the longest prefix that fits, and what becomes of a response can
  be told from sizes (`Fitting`): it is sent whole if it fits; a GetBulk response is cut down to
  as many bindings as fit, if at least one does; otherwise the response is replaced by one that
  says `tooBig`, and if not even that fits there is an error that tells its size
  (`encodeReply_fits`).
-/
import Snmp.Proofs.ForetoldAnswers

namespace Snmp

open Ber Usm

/-! ### Signing -/

namespace Message

variable {suite : Suite} {m : Message} {header : MsgHeader} {security : Parameters}

/-- Why a message of so many octets cannot be signed: the place of its code is found by reading it,
    and no reader takes that many length octets. -/
structure Unsignable (level : SecurityLevel) (size : Nat) (error : Error) : Prop where
  signed : level ≠ .noAuthNoPriv
  long : UInt32.size ≤ size
  fault : size < UInt64.size → ∃ octets, error = .decode ⟨1, .lengthTooLong octets⟩

theorem Unsignable.mono {level : SecurityLevel} {size larger : Nat} {error : Error}
    (h : Unsignable level size error) (hle : size ≤ larger) : Unsignable level larger error :=
  ⟨h.signed, Nat.le_trans h.long hle, fun hlarger => h.fault (Nat.lt_of_le_of_lt hle hlarger)⟩

/-- What writing a message comes to: so many octets, or an error if it cannot be signed. -/
def Written (level : SecurityLevel) (size : Nat) (outcome : Except Error Octets) : Prop :=
  (∃ octets, outcome = .ok octets ∧ octets.length = size) ∨
    ∃ error, outcome = .error error ∧ Unsignable level size error

/-- A message with zeros in the place of its code is signed, unless it is too long for that. -/
theorem written_authenticate (hsuite : suite.Lawful) (key : LocalizedKey) {level : SecurityLevel}
    (hlevel : level ≠ .noAuthNoPriv) (header : MsgHeader) (security : Parameters) (data : Octets)
    {unsigned : Octets} (hunsigned : unsigned = encodeV3 header
      (security.withCode (Octets.zeros key.protocol.macLength)) data) :
    Written level unsigned.length (authenticate suite key unsigned) := by
  cases hsigned : authenticate suite key unsigned with
  | ok octets => exact .inl ⟨octets, rfl, length_of_authenticate hsigned⟩
  | error error =>
    have hlong : ¬Fits (v3Content header
        (security.withCode (Octets.zeros key.protocol.macLength)) data) := by
      intro hfits
      cases hsigned.symm.trans (authenticate_encodeV3 hsuite.sized key hunsigned hfits)
    rw [encodeV3_eq_element] at hunsigned
    have hlength := congrArg List.length hunsigned
    rw [length_element] at hlength
    rw [Fits] at hlong
    refine .inr ⟨error, rfl, hlevel, by omega, ?_⟩
    intro hsize
    have hlocate := locateAuthParams_of_long (Nat.not_lt.1 hlong) (by omega)
    rw [← hunsigned] at hlocate
    simp only [authenticate, hlocate, bind, Except.bind] at hsigned
    cases hsigned
    exact ⟨_, rfl⟩

/-- A message that is signed but not encrypted is signed as it stands. -/
theorem encode_signed (hversion : m.version = .v3) (hheader? : m.header? = some header)
    (hsecurity? : m.security? = some security) (hlevel : header.flags.level = .authNoPriv)
    (hprivacy : header.flags.privacy = false) {user : User}
    (hle : SecurityLevel.authNoPriv ≤ user.securityLevel) (suite : Suite) :
    ∃ key, user.authKey suite security.engineId = .ok key ∧
      m.encode suite (some user) = authenticate suite key (encodeV3 header
        (security.withCode (Octets.zeros key.protocol.macLength)) m.encodeScoped) := by
  have hauth : header.flags.level ≠ .noAuthNoPriv := by rw [hlevel]; decide
  obtain ⟨key, hkey, -, hencode⟩ := encode_signing hversion hheader? hsecurity? hauth
    (hlevel.symm ▸ hle) (encodeScopedData_of_plain hprivacy suite m security)
  exact ⟨key, hkey, hencode⟩

end Message

namespace Agent

variable {σ : Type}

/-! ### Sizes -/

/-- The number of octets of the code with which a user signs the replies to a request. -/
def codeLength (agent : Agent σ) (request : Message) (user? : Option User) : Nat :=
  if request.securityLevel = .noAuthNoPriv then 0
  else match user?.map fun user : User => user.authKey agent.suite agent.engineId.octets with
    | some (.ok key) => key.protocol.macLength
    | _ => 0

/-- A reply with zeros in the places of its salt, its cipher and its code. -/
def blankReply (agent : Agent σ) (request : Message) (user? : Option User) (time : UInt32)
    (pdu : Pdu) : Octets :=
  let message := request.withPdu pdu
  match request.header? with
  | none => message.encodeCommunity
  | some header =>
    let shown : MsgHeader := ⟨header.msgId, maxMessageSize, .ofLevel header.flags.level false⟩
    let security := agent.identity request.userName time
    let code := Octets.zeros (agent.codeLength request user?)
    match cipher? request user? with
    | none => Message.encodeV3 shown (security.withCode code) message.encodeScoped
    | some protocol =>
      let cipher := Octets.zeros (protocol.prepared message.encodeScoped).length
      Message.encodeV3 shown ((security.withSalt (Octets.zeros 8)).withCode code)
        (element Tag.octetString cipher)

/-- The number of octets of a reply that carries a PDU. -/
def replySize (agent : Agent σ) (request : Message) (user? : Option User) (time : UInt32)
    (pdu : Pdu) : Nat :=
  (agent.blankReply request user? time pdu).length

section Sizes

variable {agent : Agent σ} {request : Message} {user? : Option User} {time : UInt32} {pdu : Pdu}

/-- A longer PDU does not make a shorter reply. -/
theorem replySize_mono (agent : Agent σ) (request : Message) (user? : Option User)
    (time : UInt32) {part whole : Pdu}
    (h : (part.wire none).length ≤ (whole.wire none).length) :
    agent.replySize request user? time part ≤ agent.replySize request user? time whole := by
  have hscoped : (request.withPdu part).encodeScoped.length ≤
      (request.withPdu whole).encodeScoped.length :=
    Message.length_encodeScoped_mono (m := request.withPdu part) h
  cases hheader? : request.header? with
  | none =>
    simp only [replySize, blankReply, hheader?]
    exact Message.length_encodeCommunity_mono (m := request.withPdu part) h
  | some header =>
    cases hcipher : cipher? request user? with
    | none =>
      simp only [replySize, blankReply, hheader?, hcipher]
      exact Message.length_encodeV3_mono hscoped
    | some protocol =>
      simp only [replySize, blankReply, hheader?, hcipher]
      apply Message.length_encodeV3_mono
      apply length_element_mono
      rw [List.length_replicate, List.length_replicate]
      exact protocol.length_prepared_mono hscoped

/-- More bindings do not make a shorter reply. -/
theorem replySize_cut_mono (agent : Agent σ) (request : Message) (user? : Option User)
    (time : UInt32) (htype : pdu.type ≠ .trapV1) {count more : Nat} (h : count ≤ more) :
    agent.replySize request user? time (pdu.cut count) ≤
      agent.replySize request user? time (pdu.cut more) := by
  have hcut : (pdu.cut more).cut count = pdu.cut count := by
    simp only [Pdu.cut, List.take_take, Nat.min_eq_left h]
  have hmore : (pdu.cut more).type ≠ .trapV1 := htype
  rw [← hcut]
  exact agent.replySize_mono request user? time (Pdu.length_wire_cut_le hmore count)

theorem replySize_cut_le (agent : Agent σ) (request : Message) (user? : Option User)
    (time : UInt32) (htype : pdu.type ≠ .trapV1) (count : Nat) :
    agent.replySize request user? time (pdu.cut count) ≤
      agent.replySize request user? time pdu :=
  agent.replySize_mono request user? time (Pdu.length_wire_cut_le htype count)

end Sizes

/-! ### Frames -/

section Frames

variable {agent : Agent σ} {request message : Message} {user? : Option User} {time : UInt32}
  {pdu : Pdu}

/-- The messages that carry a PDU back: in the frame for it, with a salt if they are encrypted. -/
inductive Framed (agent : Agent σ) (request : Message) (user? : Option User) (time : UInt32)
    (pdu : Pdu) : Message → Prop
  | plain : cipher? request user? = none →
      Framed agent request user? time pdu (agent.framed request time pdu)
  | salted {protocol : PrivProtocol} {salt : Octets} : cipher? request user? = some protocol →
      salt.length = 8 →
      Framed agent request user? time pdu ((agent.framed request time pdu).withSalt salt)

theorem replyMessage_framed (htime : ∀ state, (agent.host.engineTime state).1 = time)
    (request : Message) (user? : Option User) (pdu : Pdu) (state : State σ) :
    (∃ message after, agent.replyMessage request user? pdu state = (.ok message, after) ∧
      agent.Framed request user? time pdu message) ∨
    ∃ error after, agent.replyMessage request user? pdu state = (.error error, after) ∧
      agent.OutOfSalt request error := by
  cases hcipher : cipher? request user? with
  | none =>
    obtain ⟨after, hmessage⟩ := replyMessage_of_no_cipher htime hcipher pdu state
    exact .inl ⟨_, after, hmessage, .plain hcipher⟩
  | some protocol =>
    rcases replyMessage_of_cipher htime hcipher pdu state with
      ⟨salt, after, hsalt, hmessage⟩ | ⟨error, after, hlacks, hmessage⟩
    · exact .inl ⟨_, after, hmessage, .salted hcipher hsalt⟩
    · exact .inr ⟨error, after, hmessage, hlacks⟩

theorem Framed.sends (h : agent.Framed request user? time pdu message) {octets : Octets}
    (hencode : message.encode agent.suite user? = .ok octets) :
    agent.Sends request user? time pdu octets := by
  cases h with
  | plain => exact sends_of_encode hencode
  | salted hcipher => exact .salted _ (securityLevel_of_cipher? hcipher) hencode

theorem codeLength_eq {user : User} {key : LocalizedKey}
    (hlevel : request.securityLevel ≠ .noAuthNoPriv)
    (hkey : user.authKey agent.suite agent.engineId.octets = .ok key) :
    agent.codeLength request (some user) = key.protocol.macLength := by
  simp only [codeLength, if_neg hlevel, Option.map_some, hkey]

theorem cipher?_eq_none {header : MsgHeader} (hheader? : request.header? = some header)
    (hlevel : header.flags.level ≠ .authPriv) (user? : Option User) :
    cipher? request user? = none := by
  rw [cipher?, hheader?, Option.bind_some, replyCipher?, if_neg hlevel]

/-! #### Writing a frame -/

theorem written_framed_of_no_header (hrequest : request.WellFormed user?)
    (hheader? : request.header? = none) (pdu : Pdu) :
    Message.Written request.securityLevel (agent.replySize request user? time pdu)
      ((agent.framed request time pdu).encode agent.suite user?) := by
  have hcommunity : request.version.usesCommunity = true := by
    by_contra hversion
    obtain ⟨_, _, _, hsome, _⟩ := hrequest.v3 (Bool.eq_false_iff.2 hversion)
    cases hheader?.symm.trans hsome
  simp only [framed, replySize, blankReply, hheader?]
  exact .inl ⟨_, if_pos hcommunity, rfl⟩

section Header

variable {header : MsgHeader} (hrequest : request.WellFormed user?)
  (hheader? : request.header? = some header)

include hrequest hheader?

/-- A frame that is neither signed nor encrypted is blank already. -/
theorem written_framed_of_plain (hlevel : header.flags.level = .noAuthNoPriv) (pdu : Pdu) :
    Message.Written request.securityLevel (agent.replySize request user? time pdu)
      ((agent.framed request time pdu).encode agent.suite user?) := by
  obtain ⟨hframe, hsecurity?⟩ := framed_of_header agent hheader? time pdu
  obtain ⟨hversion, _⟩ := framed_eq_withPdu agent request time pdu
  have hplain : request.securityLevel = .noAuthNoPriv :=
    (Message.securityLevel_of_header hheader?).trans hlevel
  have hcipher := cipher?_eq_none hheader? (by rw [hlevel]; decide) user?
  refine .inl ⟨_, Message.encode_plain (hversion.trans (hrequest.version_of_header hheader?))
    hframe hsecurity? (by rw [hlevel]; rfl) agent.suite user?, ?_⟩
  simp only [replySize, blankReply, hheader?, hcipher, codeLength, hplain, if_true, framed]
  rfl

/-- A frame that is signed and not encrypted has only the place of its code left. -/
theorem written_framed_of_signed (hsuite : agent.suite.Lawful)
    (hlevel : header.flags.level = .authNoPriv) (pdu : Pdu) :
    Message.Written request.securityLevel (agent.replySize request user? time pdu)
      ((agent.framed request time pdu).encode agent.suite user?) := by
  obtain ⟨_, _, _, hprotected⟩ := hrequest.of_header hheader?
  obtain ⟨user, rfl, _, hle⟩ := hprotected.user (by rw [hlevel]; decide)
  obtain ⟨hframe, hsecurity?⟩ := framed_of_header agent hheader? time pdu
  obtain ⟨hversion, _⟩ := framed_eq_withPdu agent request time pdu
  have hsigned : request.securityLevel ≠ .noAuthNoPriv := by
    rw [Message.securityLevel_of_header hheader?, hlevel]
    decide
  have hcipher := cipher?_eq_none hheader? (by rw [hlevel]; decide) (some user)
  obtain ⟨key, hkey, hencode⟩ := Message.encode_signed
    (hversion.trans (hrequest.version_of_header hheader?)) hframe hsecurity?
    (by rw [MsgFlags.level_ofLevel, hlevel]) (by rw [hlevel]; rfl) (hlevel ▸ hle) agent.suite
  have hblank : agent.blankReply request (some user) time pdu = Message.encodeV3
      ⟨header.msgId, maxMessageSize, .ofLevel header.flags.level false⟩
      ((agent.identity request.userName time).withCode (Octets.zeros key.protocol.macLength))
      (agent.framed request time pdu).encodeScoped := by
    simp only [blankReply, hheader?, hcipher, codeLength_eq hsigned hkey, framed]
    rfl
  rw [hencode, replySize, hblank]
  exact Message.written_authenticate hsuite key hsigned _ _ _ rfl

/-- A frame that is encrypted has the places of its salt, its cipher and its code left. -/
theorem written_framed_withSalt (hsuite : agent.suite.Lawful)
    (hlevel : header.flags.level = .authPriv) (pdu : Pdu) {salt : Octets}
    (hsalt : salt.length = 8) :
    Message.Written request.securityLevel (agent.replySize request user? time pdu)
      (((agent.framed request time pdu).withSalt salt).encode agent.suite user?) := by
  obtain ⟨_, _, _, hprotected⟩ := hrequest.of_header hheader?
  obtain ⟨user, rfl, _, hle⟩ := hprotected.user (by rw [hlevel]; decide)
  obtain ⟨hframe, hsecurity?⟩ := framed_of_header agent hheader? time pdu
  obtain ⟨hversion, _⟩ := framed_eq_withPdu agent request time pdu
  have hsigned : request.securityLevel ≠ .noAuthNoPriv := by
    rw [Message.securityLevel_of_header hheader?, hlevel]
    decide
  obtain ⟨key, protocol, hkey, hprotocol, hencode⟩ := Message.encode_withSalt_eq hsuite
    (hversion.trans (hrequest.version_of_header hheader?)) hframe hsecurity?
    (by rw [MsgFlags.level_ofLevel, hlevel]) (hlevel ▸ hle)
  have hcipher : cipher? request (some user) = some protocol := by
    rw [cipher?, hheader?, Option.bind_some, replyCipher?, if_pos hlevel, Option.bind_some,
      hprotocol]
  obtain ⟨cipher, hlength, hsalted⟩ := hencode salt hsalt
  have hscoped : (agent.framed request time pdu).encodeScoped =
      (request.withPdu pdu).encodeScoped := by
    simp only [framed, hheader?]
    rfl
  have hdata : (element Tag.octetString cipher).length = (element Tag.octetString
      (Octets.zeros (protocol.prepared (request.withPdu pdu).encodeScoped).length)).length := by
    apply length_element_congr
    rw [hlength, hscoped, List.length_replicate]
  have hsize : (Message.encodeV3 ⟨header.msgId, maxMessageSize, .ofLevel header.flags.level false⟩
      (((agent.identity request.userName time).withSalt salt).withCode
        (Octets.zeros key.protocol.macLength)) (element Tag.octetString cipher)).length =
      agent.replySize request (some user) time pdu := by
    simp only [replySize, blankReply, hheader?, hcipher, codeLength_eq hsigned hkey]
    exact Message.length_encodeV3_withSalt _ _ (hsalt.trans List.length_replicate.symm) hdata _
  rw [hsalted, ← hsize]
  exact Message.written_authenticate hsuite key hsigned _ _ _ rfl

end Header

/-- Writing a message that carries a PDU back comes to `replySize` octets, whatever the salt.  The
    cases are the levels, because what is left to be filled in differs between them. -/
theorem Framed.written (hsuite : agent.suite.Lawful) (hrequest : request.WellFormed user?)
    (h : agent.Framed request user? time pdu message) :
    Message.Written request.securityLevel (agent.replySize request user? time pdu)
      (message.encode agent.suite user?) := by
  cases h with
  | plain hcipher =>
    cases hheader? : request.header? with
    | none => exact written_framed_of_no_header hrequest hheader? pdu
    | some header =>
      cases hlevel : header.flags.level with
      | noAuthNoPriv => exact written_framed_of_plain hrequest hheader? hlevel pdu
      | authNoPriv => exact written_framed_of_signed hrequest hheader? hsuite hlevel pdu
      | authPriv =>
        obtain ⟨protocol, hprotocol⟩ := replyCipher?_of_wellFormed hrequest hheader? hlevel
        rw [cipher?, hheader?, Option.bind_some, hprotocol] at hcipher
        cases hcipher
  | salted hcipher hsalt =>
    obtain ⟨header, hheader?, hlevel⟩ := level_of_cipher? hcipher
    exact written_framed_withSalt hrequest hheader? hsuite hlevel pdu hsalt

end Frames

/-! ### Attempts -/

/-- A PDU makes a reply within the size that the sender of the request takes. -/
def Suits (agent : Agent σ) (request : Message) (user? : Option User) (time : UInt32)
    (pdu : Pdu) : Prop :=
  agent.replySize request user? time pdu ≤ request.replySizeLimit

section Attempts

variable {agent : Agent σ} {request : Message} {user? : Option User} {time : UInt32}
  {pdu form : Pdu} {state moment after : State σ} {octets : Octets}

/-- Why a reply of so many octets is not encoded: there is no salt for it, or it cannot be
    signed. -/
inductive Hindered (agent : Agent σ) (request : Message) (size : Nat) : Error → Prop
  | outOfSalt {error : Error} : agent.OutOfSalt request error → Hindered agent request size error
  | unsignable {error : Error} : Message.Unsignable request.securityLevel size error →
      Hindered agent request size error

theorem Hindered.mono {size larger : Nat} {error : Error} (h : agent.Hindered request size error)
    (hle : size ≤ larger) : agent.Hindered request larger error := by
  cases h with
  | outOfSalt hsalt => exact .outOfSalt hsalt
  | unsignable hunsignable => exact .unsignable (hunsignable.mono hle)

section

variable (hsuite : agent.suite.Lawful)
  (htime : ∀ state, (agent.host.engineTime state).1 = time) (hrequest : request.WellFormed user?)

include hsuite htime hrequest

/-- Every attempt to send a PDU comes to the same number of octets, unless it is hindered. -/
theorem encodePdu_sized (pdu : Pdu) (state : State σ) :
    (∃ octets after, agent.encodePdu request user? pdu state = (.ok octets, after) ∧
      agent.Sends request user? time pdu octets ∧
      octets.length = agent.replySize request user? time pdu) ∨
    ∃ error after, agent.encodePdu request user? pdu state = (.error error, after) ∧
      agent.Hindered request (agent.replySize request user? time pdu) error := by
  rcases replyMessage_framed htime request user? pdu state with
    ⟨message, after, hmessage, hframed⟩ | ⟨error, after, hmessage, hlacks⟩
  · rw [encodePdu, bind_of_ok hmessage]
    rcases hframed.written hsuite hrequest with
      ⟨octets, hencode, hlength⟩ | ⟨error, hencode, hunsignable⟩
    · rw [hencode]
      exact .inl ⟨octets, after, rfl, hframed.sends hencode, hlength⟩
    · rw [hencode]
      exact .inr ⟨error, after, rfl, .unsignable hunsignable⟩
  · rw [encodePdu, bind_of_error hmessage]
    exact .inr ⟨error, after, rfl, .outOfSalt hlacks⟩

theorem sized_of_encodePdu
    (h : agent.encodePdu request user? pdu state = (.ok octets, after)) :
    agent.Sends request user? time pdu octets ∧
      octets.length = agent.replySize request user? time pdu := by
  rcases encodePdu_sized hsuite htime hrequest pdu state with
    ⟨_, _, hsame, hsized⟩ | ⟨_, _, hsame, _⟩
  · cases h.symm.trans hsame
    exact hsized
  · cases h.symm.trans hsame

theorem Encoded.sized (h : agent.Encoded request user? state form octets) :
    agent.Sends request user? time form octets ∧
      octets.length = agent.replySize request user? time form := by
  obtain ⟨moment, after, _, hencode⟩ := h
  exact sized_of_encodePdu hsuite htime hrequest hencode

theorem Exceeds.not_suits (h : agent.Exceeds request user? state form) :
    ¬agent.Suits request user? time form := by
  obtain ⟨octets, hencoded, hlarge⟩ := h
  rw [Suits, ← (hencoded.sized hsuite htime hrequest).2]
  exact Nat.not_le.2 hlarge

/-- An attempt is hindered only as one of a larger reply may be. -/
theorem attempts_of_le {size : Nat} (hle : agent.replySize request user? time pdu ≤ size) :
    agent.Attempts request user? (agent.Hindered request size) pdu := by
  intro moment
  rcases encodePdu_sized hsuite htime hrequest pdu moment with
    ⟨octets, after, hencode, _⟩ | ⟨error, after, hencode, herror⟩
  · exact .inl ⟨octets, after, hencode⟩
  · exact .inr ⟨error, after, hencode, herror.mono hle⟩

end

end Attempts

/-! ### Fitting -/

section Fitting

variable {agent : Agent σ} {request : Message} {user? : Option User} {time : UInt32} {pdu : Pdu}

/-- What becomes of a response, as its size and those of its other forms decide it.  One outcome
    is left open: a reply may be hindered, because the host is out of salt, or because four
    gigabytes are too many to be signed. -/
inductive Fitting (agent : Agent σ) (request : Message) (user? : Option User) (time : UInt32)
    (pdu : Pdu) : Except Error Octets → Prop
  | whole {octets : Octets} : agent.Suits request user? time pdu →
      agent.Sends request user? time pdu octets → Fitting agent request user? time pdu (.ok octets)
  | shortened {count : Nat} {octets : Octets} : request.pdu.type = .getBulkRequest →
      ¬agent.Suits request user? time pdu → 0 < count → count < pdu.bindings.length →
      agent.Suits request user? time (pdu.cut count) →
      (∀ more, count < more → ¬agent.Suits request user? time (pdu.cut more)) →
      agent.Sends request user? time (pdu.cut count) octets →
      Fitting agent request user? time pdu (.ok octets)
  | refused {octets : Octets} : ¬agent.Suits request user? time pdu →
      (request.pdu.type = .getBulkRequest →
        ∀ count, 0 < count → ¬agent.Suits request user? time (pdu.cut count)) →
      agent.Suits request user? time (tooBig request) →
      agent.Sends request user? time (tooBig request) octets →
      Fitting agent request user? time pdu (.ok octets)
  | tooLarge : ¬agent.Suits request user? time pdu →
      (request.pdu.type = .getBulkRequest →
        ∀ count, 0 < count → ¬agent.Suits request user? time (pdu.cut count)) →
      ¬agent.Suits request user? time (tooBig request) →
      Fitting agent request user? time pdu (.error (.encode (.messageTooLarge
        (agent.replySize request user? time (tooBig request)) request.replySizeLimit)))
  | hindered {error : Error} : agent.Hindered request
        (max (agent.replySize request user? time pdu)
          (agent.replySize request user? time (tooBig request))) error →
      Fitting agent request user? time pdu (.error error)

/-- With more bindings a reply suits no better. -/
theorem Suits.cut_of_le (htype : pdu.type ≠ .trapV1) {count more : Nat} (hle : count ≤ more)
    (h : agent.Suits request user? time (pdu.cut more)) :
    agent.Suits request user? time (pdu.cut count) :=
  Nat.le_trans (agent.replySize_cut_mono request user? time htype hle) h

/-- If not even one binding suits the sender, no number of them does. -/
theorem not_suits_cut (htype : pdu.type ≠ .trapV1)
    (hwhole : ¬agent.Suits request user? time pdu)
    (hone : pdu.bindings ≠ [] → ¬agent.Suits request user? time (pdu.cut 1)) {count : Nat}
    (hcount : 0 < count) : ¬agent.Suits request user? time (pdu.cut count) := by
  intro hsuits
  by_cases hnone : pdu.bindings = []
  · have hcut : pdu.cut count = pdu := by
      rw [Pdu.cut, hnone, List.take_nil, ← hnone]
    rw [hcut] at hsuits
    exact hwhole hsuits
  · exact hone hnone (hsuits.cut_of_le htype hcount)

/-- Reply fitting is exact.  A response is sent whole if it suits the sender, and otherwise in the
    form with the most bindings that does, or in the one that says `tooBig`.  Which it is depends
    on the sizes alone: the more bindings the larger the reply, and every attempt to send a PDU
    has the size that it was said to have. -/
theorem encodeReply_fits (hsuite : agent.suite.Lawful)
    (htime : ∀ state, (agent.host.engineTime state).1 = time) {datagram : Octets}
    (hdecode : Message.decode agent.suite datagram user? = .ok request)
    (htype : pdu.type = .response) (state : State σ) :
    (∃ outcome after, agent.encodeReply request user? pdu state = (outcome, after) ∧
      agent.Fitting request user? time pdu outcome) ∧
    (∀ count more, count ≤ more → agent.replySize request user? time (pdu.cut count) ≤
      agent.replySize request user? time (pdu.cut more)) ∧
    ∀ form moment octets after,
      agent.encodePdu request user? form moment = (.ok octets, after) →
      octets.length = agent.replySize request user? time form := by
  have hrequest := Message.wellFormed_of_decode hsuite hdecode
  have hplain : pdu.type ≠ .trapV1 := by
    rw [htype]
    decide
  have hexceeds {form : Pdu} (h : agent.Exceeds request user? state form) :
      ¬agent.Suits request user? time form := h.not_suits hsuite htime hrequest
  have hnone (hlarge : agent.Exceeds request user? state pdu) (hone : pdu.bindings ≠ [] →
      agent.Exceeds request user? state (pdu.cut 1)) (count : Nat) (hcount : 0 < count) :
      ¬agent.Suits request user? time (pdu.cut count) :=
    not_suits_cut hplain (hexceeds hlarge) (fun hsome => hexceeds (hone hsome)) hcount
  refine ⟨?_, fun count more => agent.replySize_cut_mono request user? time hplain,
    fun form moment octets after hencode =>
      (sized_of_encodePdu hsuite htime hrequest hencode).2⟩
  obtain ⟨outcome, after, hreply, hreplied⟩ := encodeReply_replied
    (fun count => attempts_of_le hsuite htime hrequest (Nat.le_trans
      (agent.replySize_cut_le request user? time hplain count) (Nat.le_max_left _ _)))
    (attempts_of_le hsuite htime hrequest (Nat.le_max_right _ _)) state
  refine ⟨outcome, after, hreply, ?_⟩
  cases hreplied with
  | sent hsent =>
    obtain ⟨form, hform, hencoded, hle⟩ := hsent
    obtain ⟨hsends, hlength⟩ := hencoded.sized hsuite htime hrequest
    have hsuits : agent.Suits request user? time form := by
      rw [Suits, ← hlength]
      exact hle
    cases hform with
    | whole => exact .whole hsuits hsends
    | shortened hbulk hpos hlt hlarge hnext =>
      refine .shortened hbulk (hexceeds hlarge) hpos hlt hsuits ?_ hsends
      intro more hmore hsuits
      exact hexceeds hnext (hsuits.cut_of_le hplain hmore)
    | refused hlarge hone =>
      exact .refused (hexceeds hlarge) (fun hbulk => hnone hlarge (hone hbulk)) hsuits hsends
  | tooLarge hlarge hone hencoded hlimit =>
    obtain ⟨_, hlength⟩ := hencoded.sized hsuite htime hrequest
    rw [hlength] at hlimit ⊢
    exact .tooLarge (hexceeds hlarge) (fun hbulk => hnone hlarge (hone hbulk))
      (Nat.not_le.2 hlimit)
  | failed hhindered => exact .hindered hhindered

end Fitting

/-- A version 3 GetBulk request that is not signed, from a sender who takes 484 octets. -/
def smallBulk : Octets :=
  [48, 55, 2, 1, 3, 48, 13, 2, 1, 1, 2, 2, 1, 228, 4, 1, 4, 2, 1, 3, 4, 16, 48, 14, 4, 0, 2, 1, 0,
    2, 1, 0, 4, 0, 4, 0, 4, 0, 48, 17, 4, 0, 4, 0, 165, 11, 2, 1, 1, 2, 1, 0, 2, 1, 40, 48, 0]

/-- The request that is read from it. -/
def smallRequest : Message where
  version := .v3
  header? := some ⟨1, 484, .ofLevel .noAuthNoPriv true⟩
  security? := some {}
  pdu := ⟨.getBulkRequest, 1, 0, 40, []⟩

/-- A response that is as large with 25 of its bindings as 484 octets allow. -/
def clockReadings : Pdu := ⟨.response, 1, 0, 0, List.replicate 40 ⟨clock.oid, .timeTicks 4200⟩⟩

/-- The size of a reply to the request, element by element. -/
theorem replySize_smallRequest (pdu : Pdu) :
    bareAgent.replySize smallRequest none 0 pdu =
      (element Tag.sequence (Message.v3Content
        ⟨1, maxMessageSize, .ofLevel .noAuthNoPriv false⟩ (bareAgent.identity [] 0)
        (element Tag.sequence (smallRequest.withPdu pdu).scopedContent))).length := by
  rw [← Message.encodeScoped_eq, ← Message.encodeV3_eq_element]
  rfl

/-- The response is sent with 25 of its 40 bindings. -/
theorem encodeReply_fits_smallBulk :
    ∃ request octets after, Message.decode .standard smallBulk none = .ok request ∧
      bareAgent.encodeReply request none clockReadings ⟨0, ()⟩ = (.ok octets, after) ∧
      bareAgent.Sends request none 0 (clockReadings.cut 25) octets := by
  have hrequest : (Message.decode .standard smallBulk none).toOption.map id =
      some smallRequest := by decide +kernel
  obtain ⟨_, hdecode, rfl⟩ := Except.eq_ok_of_toOption_map hrequest
  have hsmall : bareAgent.replySize smallRequest none 0 (clockReadings.cut 25) = 471 := by
    rw [replySize_smallRequest]
    decide +kernel
  have hlarge : bareAgent.replySize smallRequest none 0 (clockReadings.cut 26) = 487 := by
    rw [replySize_smallRequest]
    decide +kernel
  have hwhole : bareAgent.replySize smallRequest none 0 clockReadings = 711 := by
    rw [replySize_smallRequest]
    decide +kernel
  have hlimit : smallRequest.replySizeLimit = 484 := by decide
  have hbulk : smallRequest.pdu.type = .getBulkRequest := rfl
  have hlevel : smallRequest.securityLevel = .noAuthNoPriv := rfl
  have hsuits : bareAgent.Suits smallRequest none 0 (clockReadings.cut 25) := by
    rw [Suits, hlimit, hsmall]
    decide
  have hexcess : ¬bareAgent.Suits smallRequest none 0 (clockReadings.cut 26) := by
    rw [Suits, hlimit, hlarge]
    decide
  have hnot : ¬bareAgent.Suits smallRequest none 0 clockReadings := by
    rw [Suits, hlimit, hwhole]
    decide
  have hlawful : bareAgent.suite.Lawful := Suite.standard_lawful
  have htype : clockReadings.type = .response := rfl
  obtain ⟨⟨outcome, after, hreply, hfitting⟩, _⟩ :=
    encodeReply_fits hlawful (fun _ => rfl) hdecode htype ⟨0, ()⟩
  cases hfitting with
  | whole hwholeSuits => exact absurd hwholeSuits hnot
  | @shortened count octets _ _ _ _ hcount hmore hsends =>
    have hle : 25 ≤ count := Nat.not_lt.1 fun hlt => hmore 25 hlt hsuits
    have hge : count ≤ 25 := Nat.not_lt.1 fun hlt => hexcess (hcount.cut_of_le (by decide) hlt)
    cases Nat.le_antisymm hge hle
    exact ⟨smallRequest, octets, after, hdecode, hreply, hsends⟩
  | refused _ hnone => exact absurd hsuits (hnone hbulk 25 (by decide))
  | tooLarge _ hnone => exact absurd hsuits (hnone hbulk 25 (by decide))
  | hindered hhindered =>
    cases hhindered with
    | outOfSalt hsalt => cases hlevel.symm.trans hsalt.lacks.1
    | unsignable hunsignable => exact absurd hlevel hunsignable.signed

end Agent

end Snmp
