/-
  Snmp/Proofs/ReplyFrame.lean
  ===========================
  **The frame of a reply.**

  A reply goes back in the frame of its request: the same version, names and message id, at the
  same level, with the engine as it is now and nothing to be reported in turn (`Mirrors`).  The
  user whose request it was can protect such a message, so it is encoded, and the datagram is
  read with the keys of that user as a message in the same frame.

  Two things can still go wrong.  An encrypted reply needs a salt, of which the host may have run
  out.  And a signed one is read back while it is being signed, which takes a message whose
  length can be written in the length octets that a reader knows (`Signable`).
-/
import Snmp.Agent.Respond
import Snmp.Proofs.FaithfulScopes
import Snmp.Proofs.OnePass
import Snmp.Proofs.Reencoding
import Snmp.Proofs.ReplySize
import Snmp.Proofs.ShorterMessages

namespace Snmp

open Ber Usm

/-! ### Levels -/

namespace MsgFlags

@[simp] theorem level_ofLevel (level : SecurityLevel) (reportable : Bool) :
    (ofLevel level reportable).level = level := by
  cases level <;> rfl

theorem auth_of_privacy_ofLevel {level : SecurityLevel} {reportable : Bool}
    (h : (ofLevel level reportable).privacy = true) :
    (ofLevel level reportable).auth = true := by
  cases level with
  | authPriv => rfl
  | noAuthNoPriv => cases h
  | authNoPriv => cases h

end MsgFlags

theorem Usm.User.privProtocol?_of_level {user : User}
    (h : SecurityLevel.authPriv ≤ user.securityLevel) :
    ∃ protocol, user.privProtocol? = some protocol := by
  rw [securityLevel] at h
  split at h
  · rename_i privacy _ hprivacy
    exact ⟨privacy.protocol, by rw [privProtocol?, hprivacy, Option.map_some]⟩
  · exact absurd h (by decide)
  · exact absurd h (by decide)

theorem Pdu.Answers.transmissible {response request : Pdu} (h : response.Answers request) :
    response.Transmissible none := by
  have htype := h.type
  constructor
  · exact h.bindings
  · intro htrap
    rw [htype] at htrap
    cases htrap
  · exact fun _ => rfl

/-! ### Encoding -/

namespace Message

variable {suite : Suite} {m : Message} {user? : Option User}

/-- A header makes a well-formed message one of version 3. -/
theorem WellFormed.of_header (hm : m.WellFormed user?) {header : MsgHeader}
    (hheader? : m.header? = some header) :
    m.version.usesCommunity = false ∧
      ∃ security, m.security? = some security ∧ Protected header security user? := by
  cases hversion : m.version.usesCommunity with
  | true => cases (hm.community hversion).1.symm.trans hheader?
  | false =>
    obtain ⟨_, found, security, hfound, hsecurity?, _, hprotected⟩ := hm.v3 hversion
    cases hheader?.symm.trans hfound
    exact ⟨rfl, security, hsecurity?, hprotected⟩

theorem WellFormed.version_of_header (hm : m.WellFormed user?) {header : MsgHeader}
    (hheader? : m.header? = some header) : m.version = .v3 := by
  obtain ⟨hcommunity, _⟩ := hm.of_header hheader?
  cases hversion : m.version with
  | v3 => rfl
  | v1 =>
    rw [hversion] at hcommunity
    cases hcommunity
  | v2c =>
    rw [hversion] at hcommunity
    cases hcommunity

theorem securityLevel_of_header {header : MsgHeader} (hheader? : m.header? = some header) :
    m.securityLevel = header.flags.level := by
  rw [securityLevel, hheader?]

theorem WellFormed.security_of_no_header (hm : m.WellFormed user?) (hheader? : m.header? = none) :
    m.security? = none := by
  cases hversion : m.version.usesCommunity with
  | true => exact (hm.community hversion).2.1
  | false =>
    obtain ⟨_, _, _, hsome, _⟩ := hm.v3 hversion
    cases hheader?.symm.trans hsome

theorem encodeUnsigned_of_plain (hm : m.WellFormed user?) (hlevel : m.securityLevel = .noAuthNoPriv)
    (suite : Suite) : m.encodeUnsigned suite user? = m.encode suite user? := by
  cases hversion : m.version.usesCommunity with
  | true => rw [encodeUnsigned, if_pos hversion, encode, if_pos hversion]
  | false =>
    obtain ⟨_, header, security, hheader?, hsecurity?, _, _⟩ := hm.v3 hversion
    have hnot : ¬m.version.usesCommunity = true := by simp [hversion]
    simp only [securityLevel, hheader?] at hlevel
    simp only [encodeUnsigned, encode, if_neg hnot, hheader?, hsecurity?, encodingUser, hlevel,
      if_true, bind, Except.bind]

theorem exists_encode_of_plain (hsuite : suite.Lawful) (hm : m.WellFormed user?)
    (hlevel : m.securityLevel = .noAuthNoPriv) :
    ∃ datagram, m.encode suite user? = .ok datagram := by
  cases hversion : m.version.usesCommunity with
  | true => exact ⟨m.encodeCommunity, if_pos hversion⟩
  | false =>
    obtain ⟨_, header, security, hheader?, hsecurity?, hheader, hprotected⟩ := hm.v3 hversion
    have hnot : ¬m.version.usesCommunity = true := by simp [hversion]
    obtain ⟨data, hdata, _⟩ := encodeScopedData_openScoped hsuite m hheader hprotected
    simp only [securityLevel, hheader?] at hlevel
    rw [keyUser, if_pos hlevel] at hdata
    refine ⟨encodeV3 header security data, ?_⟩
    simp only [encode, if_neg hnot, hheader?, hsecurity?, encodingUser, hlevel, if_true, bind,
      Except.bind, hdata]
    rfl

/-- A well-formed message is encoded, and its datagram is decoded if it is not too long for its
    length octets.  A signed one has to be short enough already for being signed. -/
theorem WellFormed.exists_encode (hsuite : suite.Lawful) (hm : m.WellFormed user?)
    (hsigned : m.securityLevel ≠ .noAuthNoPriv →
      ∀ octets, m.encodeUnsigned suite user? = .ok octets → Fits octets) :
    ∃ datagram, m.encode suite user? = .ok datagram ∧
      (Fits datagram → ∃ other, Message.decode suite datagram user? = .ok other ∧
        m.SameButCode other) := by
  by_cases hlevel : m.securityLevel = .noAuthNoPriv
  · obtain ⟨datagram, hencode⟩ := exists_encode_of_plain hsuite hm hlevel
    refine ⟨datagram, hencode, ?_⟩
    intro hfits
    obtain ⟨_, other, hsame, hdecode, hother⟩ := hm.exists_encode_decode hsuite (by
      intro octets hunsigned
      rw [encodeUnsigned_of_plain hm hlevel, hencode] at hunsigned
      cases hunsigned
      exact hfits)
    rw [hencode] at hsame
    cases hsame
    exact ⟨other, hdecode, hother⟩
  · obtain ⟨datagram, other, hencode, hdecode, hother⟩ :=
      hm.exists_encode_decode hsuite (hsigned hlevel)
    exact ⟨datagram, hencode, fun _ => ⟨other, hdecode, hother⟩⟩

end Message

namespace Agent

variable {σ : Type} {agent : Agent σ} {request message : Message} {user? : Option User}
  {pdu : Pdu} {state after : State σ}

/-! ### Requests -/

/-- A request is decoded with the keys of the user to whom it is attributed, also if they were
    not needed. -/
theorem decode_of_negotiate {datagram : Octets}
    (h : agent.negotiate datagram = .ok (.request request user?)) :
    Message.decode agent.suite datagram user? = .ok request := by
  rw [negotiate] at h
  split at h
  · rename_i found hdecode
    split at h
    · cases h
    cases h
    rw [← hdecode]
    apply Message.decode_of_not_isSigned
    intro envelope hopen
    cases hsigned : envelope.isSigned with
    | false => rfl
    | true =>
      rw [Message.decode_of_open hopen, Envelope.unlock_none_of_isSigned hsigned] at hdecode
      cases hdecode
  · split at h
    · cases h
    split at h
    · cases h
    split at h
    · rename_i found hdecode
      cases h
      exact hdecode
    · cases h

/-! ### Frames -/

/-- A message that carries a PDU back in the frame of a request, with the engine of the agent at
    a time. -/
structure Mirrors (agent : Agent σ) (request : Message) (pdu : Pdu) (time : UInt32)
    (reply : Message) : Prop where
  version : reply.version = request.version
  community : reply.community = request.community
  contextEngineId : reply.contextEngineId = request.contextEngineId
  contextName : reply.contextName = request.contextName
  pdu : reply.pdu = pdu
  trap : reply.trap? = none
  plain : request.header? = none → reply.header? = none ∧ reply.security? = none
  header : ∀ header, request.header? = some header →
    reply.header? = some ⟨header.msgId, maxMessageSize, .ofLevel header.flags.level false⟩
  security : ∀ header, request.header? = some header → ∃ security,
    reply.security? = some security ∧ security.engineId = agent.engineId.octets ∧
      security.engineBoots = agent.engineBoots ∧ security.engineTime = time ∧
      security.userName = request.userName ∧
      security.privParams.length = if header.flags.level = .authPriv then 8 else 0

namespace Mirrors

variable {time : UInt32} {reply : Message}

theorem securityLevel (h : agent.Mirrors request pdu time reply) :
    reply.securityLevel = request.securityLevel := by
  cases hheader? : request.header? with
  | none => rw [Message.securityLevel, Message.securityLevel, hheader?, (h.plain hheader?).1]
  | some header =>
    rw [Message.securityLevel, Message.securityLevel, hheader?, h.header header hheader?]
    exact MsgFlags.level_ofLevel header.flags.level false

/-- The code of a reply is no part of its frame. -/
theorem withCode (h : agent.Mirrors request pdu time reply) (code : Octets) :
    agent.Mirrors request pdu time (reply.withCode code) := by
  constructor
  · exact h.version
  · exact h.community
  · exact h.contextEngineId
  · exact h.contextName
  · exact h.pdu
  · exact h.trap
  · intro hnone
    obtain ⟨hheader, hsecurity⟩ := h.plain hnone
    exact ⟨hheader, by rw [Message.withCode, hsecurity, Option.map_none]⟩
  · exact h.header
  · intro header hheader
    obtain ⟨security, hsecurity, hfacts⟩ := h.security header hheader
    exact ⟨security.withCode code, by rw [Message.withCode, hsecurity, Option.map_some], hfacts⟩

theorem of_sameButCode (h : agent.Mirrors request pdu time message)
    (hsame : message.SameButCode reply) : agent.Mirrors request pdu time reply := by
  rcases hsame with rfl | ⟨_, code, rfl⟩
  · exact h
  · exact h.withCode code

/-- The user of a request can protect the reply, since it is at the level of the request. -/
theorem wellFormed (h : agent.Mirrors request pdu time reply) (hrequest : request.WellFormed user?)
    (hboots : agent.engineBoots ≤ Parameters.maxCount) (htime : time ≤ Parameters.maxCount)
    (hpdu : pdu.Transmissible none) : reply.WellFormed user? := by
  constructor
  · rw [h.pdu, h.trap]
    exact hpdu
  · intro hversion
    rw [h.version] at hversion
    obtain ⟨hheader?, _, hengineId, hname⟩ := hrequest.community hversion
    obtain ⟨hheader, hsecurity⟩ := h.plain hheader?
    exact ⟨hheader, hsecurity, h.contextEngineId.trans hengineId, h.contextName.trans hname⟩
  · intro hversion
    rw [h.version] at hversion
    obtain ⟨hcommunity, header, asked, hheader?, hasked, _, hprotected⟩ := hrequest.v3 hversion
    obtain ⟨security, hsecurity, _, hbootsEq, htimeEq, hname, hsalt⟩ := h.security header hheader?
    have hsize : minMessageSize ≤ maxMessageSize := by decide
    refine ⟨h.community.trans hcommunity, _, security, h.header header hheader?, hsecurity,
      ⟨hsize, MsgFlags.auth_of_privacy_ofLevel⟩, ?_⟩
    constructor
    · rw [hbootsEq]
      exact hboots
    · rw [htimeEq]
      exact htime
    · intro hlevel
      simp only [MsgFlags.level_ofLevel] at hlevel ⊢
      obtain ⟨user, huser, huserName, hle⟩ := hprotected.user hlevel
      refine ⟨user, huser, ?_, hle⟩
      rw [huserName, hname, Message.userName, hasked]
    · intro hlevel
      simp only [MsgFlags.level_ofLevel] at hlevel
      rw [hsalt, if_pos hlevel]

end Mirrors

/-! ### Framing -/

/-- The one thing that keeps a reply from being framed: there is no salt. -/
def LacksSalt (request : Message) (error : Error) : Prop :=
  request.securityLevel = .authPriv ∧ error = .encryptionFailed .randomUnavailable

/-- A user who can protect an encrypted request has a protocol to encrypt the reply with. -/
theorem replyCipher?_of_wellFormed (hrequest : request.WellFormed user?) {header : MsgHeader}
    (hheader? : request.header? = some header) (hlevel : header.flags.level = .authPriv) :
    ∃ protocol, replyCipher? header.flags.level user? = some protocol := by
  obtain ⟨_, _, _, hprotected⟩ := hrequest.of_header hheader?
  obtain ⟨user, rfl, _, hle⟩ := hprotected.user (by rw [hlevel]; decide)
  rw [hlevel] at hle
  obtain ⟨protocol, hprotocol⟩ := User.privProtocol?_of_level hle
  exact ⟨protocol, by rw [replyCipher?, if_pos hlevel, Option.bind_some, hprotocol]⟩

theorem drawSalt_cases (agent : Agent σ) (protocol : PrivProtocol) (state : State σ) :
    (∃ salt after, agent.drawSalt protocol state = (.ok salt, after) ∧ salt.length = 8) ∨
      ∃ after, agent.drawSalt protocol state =
        (.error (.encryptionFailed .randomUnavailable), after) := by
  have hdraw : (ExceptT.lift (onHost (agent.host.salt protocol.saltLength)) : Action σ _) state =
      (.ok (agent.host.salt protocol.saltLength state.host).1,
        { state with host := (agent.host.salt protocol.saltLength state.host).2 }) := rfl
  rw [drawSalt, bind_of_ok hdraw]
  cases (agent.host.salt protocol.saltLength state.host).1 with
  | none => exact .inr ⟨_, rfl⟩
  | some salt => exact .inl ⟨salt.toList, _, rfl, salt.length_toList⟩

/-- The present parameters, with a salt of eight octets if the reply is encrypted. -/
theorem replyParameters_cases (agent : Agent σ) (hrequest : request.WellFormed user?)
    {header : MsgHeader} (hheader? : request.header? = some header) (state : State σ) :
    (∃ security after, agent.replyParameters request user? header.flags.level state =
        (.ok security, after) ∧
      security.engineId = agent.engineId.octets ∧ security.engineBoots = agent.engineBoots ∧
      security.engineTime = (agent.host.engineTime state.host).1 ∧
      security.userName = request.userName ∧
      security.privParams.length = if header.flags.level = .authPriv then 8 else 0) ∨
    ∃ error after, agent.replyParameters request user? header.flags.level state =
        (.error error, after) ∧ LacksSalt request error := by
  have hfresh : agent.freshParameters request.userName state =
      (.ok { engineId := agent.engineId.octets, engineBoots := agent.engineBoots,
             engineTime := (agent.host.engineTime state.host).1, userName := request.userName },
        { state with host := (agent.host.engineTime state.host).2 }) := rfl
  rw [replyParameters, bind_of_ok hfresh]
  by_cases hlevel : header.flags.level = .authPriv
  · obtain ⟨protocol, hprotocol⟩ := replyCipher?_of_wellFormed hrequest hheader? hlevel
    simp only [hprotocol]
    rcases agent.drawSalt_cases protocol { state with host := (agent.host.engineTime state.host).2 }
      with ⟨salt, after, hdraw, hsalt⟩ | ⟨after, hdraw⟩
    · rw [bind_of_ok hdraw]
      exact .inl ⟨_, _, rfl, rfl, rfl, rfl, rfl, hsalt.trans (if_pos hlevel).symm⟩
    · rw [bind_of_error hdraw]
      exact .inr ⟨_, _, rfl, by rw [Message.securityLevel, hheader?]; exact hlevel, rfl⟩
  · have hnone : replyCipher? header.flags.level user? = none := if_neg hlevel
    simp only [hnone]
    exact .inl ⟨_, _, rfl, rfl, rfl, rfl, rfl, (if_neg hlevel).symm⟩

/-- A reply mirrors its request, or there is no salt for it. -/
theorem replyMessage_cases (agent : Agent σ) (hrequest : request.WellFormed user?) (pdu : Pdu)
    (state : State σ) :
    (∃ message after, agent.replyMessage request user? pdu state = (.ok message, after) ∧
      agent.Mirrors request pdu (agent.host.engineTime state.host).1 message) ∨
    ∃ error after, agent.replyMessage request user? pdu state = (.error error, after) ∧
      LacksSalt request error := by
  cases hheader? : request.header? with
  | none =>
    refine .inl ⟨request.withPdu pdu, state, by simp only [replyMessage, hheader?]; rfl, ?_⟩
    constructor
    · rfl
    · rfl
    · rfl
    · rfl
    · rfl
    · rfl
    · exact fun _ => ⟨hheader?, hrequest.security_of_no_header hheader?⟩
    · intro header hsome
      cases hheader?.symm.trans hsome
    · intro header hsome
      cases hheader?.symm.trans hsome
  | some header =>
    simp only [replyMessage, hheader?]
    rcases agent.replyParameters_cases hrequest hheader? state with
      ⟨security, after, hparameters, hfacts⟩ | ⟨error, after, hparameters, herror⟩
    · rw [bind_of_ok hparameters]
      refine .inl ⟨_, _, rfl, ?_⟩
      constructor
      · rfl
      · rfl
      · rfl
      · rfl
      · rfl
      · rfl
      · intro hnone
        cases hheader?.symm.trans hnone
      · intro found hfound
        cases hheader?.symm.trans hfound
        rfl
      · intro found hfound
        cases hheader?.symm.trans hfound
        exact ⟨security, rfl, hfacts⟩
    · rw [bind_of_error hparameters]
      exact .inr ⟨error, after, rfl, herror⟩

theorem mirrors_of_replyMessage (hrequest : request.WellFormed user?)
    (h : agent.replyMessage request user? pdu state = (.ok message, after)) :
    agent.Mirrors request pdu (agent.host.engineTime state.host).1 message := by
  rcases agent.replyMessage_cases hrequest pdu state with
    ⟨_, _, hsame, hmirrors⟩ | ⟨_, _, hsame, _⟩
  · rw [h] at hsame
    cases hsame
    exact hmirrors
  · rw [h] at hsame
    cases hsame

/-- The frame does not depend on the PDU. -/
theorem replyMessage_withPdu (h : agent.replyMessage request user? pdu state = (.ok message, after))
    (other : Pdu) :
    agent.replyMessage request user? other state = (.ok (message.withPdu other), after) := by
  cases hheader? : request.header? with
  | none =>
    simp only [replyMessage, hheader?] at h ⊢
    cases h
    rfl
  | some header =>
    simp only [replyMessage, hheader?] at h ⊢
    rcases bind_eq_ok h with ⟨security, middle, hparameters, hmessage⟩
    cases hmessage
    rw [bind_of_ok hparameters]
    rfl

/-! ### Replies that can be encoded -/

/-- Whatever the state in which it is framed, a PDU makes a reply that is short enough to be read
    back while it is signed. -/
def Signable (agent : Agent σ) (request : Message) (user? : Option User) (pdu : Pdu) : Prop :=
  ∀ state message after octets,
    agent.replyMessage request user? pdu state = (.ok message, after) →
    message.encodeUnsigned agent.suite user? = .ok octets → Fits octets

/-- An agent with a clock that the wire form can show, and a request that was read. -/
structure Ready (agent : Agent σ) (request : Message) (user? : Option User) : Prop where
  suite : agent.suite.Lawful
  boots : agent.engineBoots ≤ Parameters.maxCount
  time : ∀ state, (agent.host.engineTime state).1 ≤ Parameters.maxCount
  request : request.WellFormed user?

theorem Ready.wellFormed (hready : agent.Ready request user?)
    (hmirrors : agent.Mirrors request pdu (agent.host.engineTime state.host).1 message)
    (hanswers : pdu.Answers request.pdu) : message.WellFormed user? :=
  hmirrors.wellFormed hready.request hready.boots (hready.time state.host) hanswers.transmissible

/-- A response that can be encoded as the reply to a request. -/
structure Carries (agent : Agent σ) (request : Message) (user? : Option User) (pdu : Pdu) :
    Prop where
  answers : pdu.Answers request.pdu
  signable : request.securityLevel ≠ .noAuthNoPriv → agent.Signable request user? pdu

/-- A response that is shorter than one that can be encoded can be encoded. -/
theorem Carries.of_length_le (hready : agent.Ready request user?)
    (h : agent.Carries request user? pdu) {part : Pdu} (hpart : part.Answers request.pdu)
    (hle : (part.wire none).length ≤ (pdu.wire none).length) :
    agent.Carries request user? part := by
  refine ⟨hpart, ?_⟩
  intro hlevel state message after octets hmessage hunsigned
  have hwhole := replyMessage_withPdu hmessage pdu
  have hmirrors := mirrors_of_replyMessage hready.request hmessage
  have hwell := hready.wellFormed hmirrors hpart
  have hshorter : (message.pdu.wire message.trap?).length ≤ (pdu.wire none).length := by
    rw [hmirrors.pdu, hmirrors.trap]
    exact hle
  obtain ⟨longer, hlonger, hlength⟩ :=
    Message.exists_longer_unsigned hready.suite hwell hshorter hunsigned
  have hfits : Fits longer :=
    h.signable hlevel state (message.withPdu pdu) after longer hwhole hlonger
  exact hfits.of_le hlength

/-- Nothing of a few million octets is too long to be signed. -/
theorem signable_of_length_le (hready : agent.Ready request user?)
    (hanswers : pdu.Answers request.pdu) (hlevel : request.securityLevel ≠ .noAuthNoPriv)
    (hsize : agent.engineId.octets.length + request.userName.length
      + request.contextEngineId.length + request.contextName.length
      + (pdu.wire none).length ≤ 900000) : agent.Signable request user? pdu := by
  intro state message after octets hmessage hunsigned
  have hmirrors := mirrors_of_replyMessage hready.request hmessage
  cases hheader? : request.header? with
  | none =>
    rw [Message.securityLevel, hheader?] at hlevel
    exact absurd rfl hlevel
  | some header =>
    have hversion : message.version.usesCommunity = false :=
      (congrArg Version.usesCommunity hmirrors.version).trans
        (hready.request.of_header hheader?).1
    obtain ⟨_, shown, security, hshown, hsecurity?, hvalid, hprotected⟩ :=
      (hready.wellFormed hmirrors hanswers).v3 hversion
    obtain ⟨_, hsame, hengineId, _, _, hname, hsalt⟩ := hmirrors.security header hheader?
    cases hsecurity?.symm.trans hsame
    have hsigned : shown.flags.level ≠ .noAuthNoPriv := by
      rw [← hmirrors.securityLevel, Message.securityLevel, hshown] at hlevel
      exact hlevel
    have hstring (octets : Octets) (hle : octets.length ≤ 900000) :
        (element Tag.octetString octets).length ≤ octets.length + 5 :=
      length_element_le (Nat.le_refl _) (by omega)
    have hengineIdWire := hstring request.contextEngineId (by omega)
    have hnameWire := hstring request.contextName (by omega)
    have hscoped : message.scopedContent.length ≤ 4000000 := by
      rw [Message.scopedContent, hmirrors.contextEngineId, hmirrors.contextName, hmirrors.pdu,
        hmirrors.trap]
      simp only [List.length_append]
      omega
    have hfields : security.engineId.length + security.userName.length
        + security.privParams.length ≤ 1000000 := by
      rw [hengineId, hname, hsalt]
      split
      · omega
      · omega
    exact Message.fits_of_length_le hready.suite hversion hshown hsecurity? hvalid hprotected
      hscoped hfields (fun hplain => absurd hplain hsigned) hunsigned

/-- A response is encoded as a reply that mirrors its request and can be read by the user whose
    request it was, unless there is no salt. -/
theorem encodePdu_cases (hready : agent.Ready request user?)
    (hpdu : agent.Carries request user? pdu) (state : State σ) :
    (∃ datagram after, agent.encodePdu request user? pdu state = (.ok datagram, after) ∧
      (Fits datagram → ∃ reply, Message.decode agent.suite datagram user? = .ok reply ∧
        agent.Mirrors request pdu (agent.host.engineTime state.host).1 reply)) ∨
    ∃ error after, agent.encodePdu request user? pdu state = (.error error, after) ∧
      LacksSalt request error := by
  rw [encodePdu]
  rcases agent.replyMessage_cases hready.request pdu state with
    ⟨message, after, hmessage, hmirrors⟩ | ⟨error, after, hmessage, herror⟩
  · have hwell := hready.wellFormed hmirrors hpdu.answers
    obtain ⟨datagram, hencode, hdecode⟩ := hwell.exists_encode hready.suite (by
      intro hlevel octets hunsigned
      rw [hmirrors.securityLevel] at hlevel
      exact hpdu.signable hlevel state message after octets hmessage hunsigned)
    rw [bind_of_ok hmessage, hencode]
    refine .inl ⟨datagram, after, rfl, ?_⟩
    intro hfits
    obtain ⟨reply, hreply, hsame⟩ := hdecode hfits
    exact ⟨reply, hreply, hmirrors.of_sameButCode hsame⟩
  · rw [bind_of_error hmessage]
    exact .inr ⟨error, after, rfl, herror⟩

end Agent

end Snmp
