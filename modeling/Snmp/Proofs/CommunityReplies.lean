/-
  Snmp/Proofs/CommunityReplies.lean
  =================================
  **A community request is never lost.**

  Nothing stands between a community request and its reply but the size of the reply: no key is
  looked up, no salt is drawn, and every PDU can be encoded.  A reply that is too large becomes
  the response without bindings that says `tooBig`, and this one has to fit.

  It does, because it is never longer than the request (`length_encodeCommunity_tooBig_le`).
  Whatever encoding the sender has chosen, each element of the request is at least as long as
  the shortest encoding of what was read from it, in its head as well as in its content, and
  the response repeats the version, the community and the request id in their shortest
  encodings, and has three octets for each number and two for the bindings, of which a request
  cannot have fewer either.  So a request that arrived in a datagram leaves room for its refusal.
-/
import Snmp.Proofs.Authentication
import Snmp.Proofs.ReadValues
import Snmp.Proofs.ReplySize
import Snmp.Proofs.ShorterMessages

namespace Snmp

open Ber Decoder

/-! ### Shortest forms -/

namespace Ber

variable {tag other : Tag} {count : Nat} {head content used written : Octets}

/-- No head announces a content in fewer octets than the shortest. -/
theorem Announces.length_element_le (h : Announces tag count head)
    (hwritten : written.length ≤ count) :
    (element other written).length ≤ head.length + count := by
  obtain ⟨number, rfl, hnumber⟩ := h
  have hmono := Length.length_encode_mono hwritten
  have hshortest := Length.length_encode_le_of_decode hnumber
  rw [length_element, headerSize, List.length_cons]
  omega

theorem IsElement.length_element_le (h : IsElement tag content used) :
    (element other content).length ≤ used.length := by
  obtain ⟨head, hhead, rfl⟩ := h
  rw [List.length_append]
  exact hhead.length_element_le (Nat.le_refl _)

namespace Decoder

variable {r left : Reader}

/-- An INTEGER that is read has content, and so takes at least the octets of its shortest
    encoding. -/
theorem length_integer_le {value : Int32} (h : integer r = .ok value left) :
    ∃ used, r.Consumes used left ∧
      (element Tag.integer (Octets.ofInt value.toInt)).length ≤ used.length := by
  rcases head_eq_ok h with ⟨count, head, s, hhead, hconsumes, h⟩
  rcases integerContent_eq_ok h with ⟨content, hpresent, hlength, hrest, hvalue⟩
  refine ⟨head ++ content, hconsumes.trans hrest, ?_⟩
  rw [hvalue, List.length_append, hlength]
  apply hhead.length_element_le
  rw [← hlength]
  exact Octets.length_ofInt_toInt_le hpresent

end Decoder

end Ber

/-! ### Numbers without bindings -/

namespace Pdu

variable {r left : Reader} {pdu : Pdu} {trap? : Option TrapHeader}

/-- A PDU of three numbers, read from a content, is not shorter there than the same numbers
    without bindings. -/
theorem length_content_le_of_decodeBody {type : PduType}
    (h : decodeBody type r = .ok (pdu, trap?) left) :
    ({ pdu with type := .response, bindings := [] }.content none).length ≤ r.rest.length := by
  rcases bind_eq_ok h with ⟨requestId, s1, hrequestId, h⟩
  rcases bind_eq_ok h with ⟨status, s2, hstatus, h⟩
  rcases bind_eq_ok h with ⟨index, s3, hindex, h⟩
  rcases bind_eq_ok h with ⟨bindings, s4, hbindings, h⟩
  cases h
  rcases length_integer_le hrequestId with ⟨_, huse1, hsize1⟩
  rcases length_integer_le hstatus with ⟨_, huse2, hsize2⟩
  rcases length_integer_le hindex with ⟨_, huse3, hsize3⟩
  rcases sequence_eq_ok hbindings with ⟨_, _, _, hhead, huse4, _⟩
  have hlist : (element Tag.sequence (([] : List Binding).flatMap Binding.wire)).length = 2 := rfl
  have htwo := hhead.two_le_length
  have hplain : ¬PduType.response = .trapV1 := PduType.noConfusion
  rw [((huse1.trans (huse2.trans huse3)).trans huse4).rest]
  simp only [content, if_neg hplain, numbersWire, List.length_append, hlist]
  omega

/-- The response that there is no room for an answer is not longer than the request. -/
theorem length_tooBig_le_of_decode (h : decode r = .ok (pdu, trap?) left)
    (htrap : pdu.type ≠ .trapV1) :
    ∃ used, r.Consumes used left ∧
      (((pdu.toResponse []).withError .tooBig 0).wire none).length ≤ used.length := by
  rcases exists_body_of_decode h with ⟨type, tag, head, body, unread, hhead, hconsumes, hbody⟩
  refine ⟨head ++ body.rest, hconsumes, ?_⟩
  have hplain : type ≠ .trapV1 := by
    rintro rfl
    rw [if_pos rfl] at hbody
    rcases decodeTrapBody_eq_ok hbody with ⟨_, _, htype, _⟩
    exact htrap htype
  rw [if_neg hplain] at hbody
  have hnumbers := length_content_le_of_decodeBody hbody
  -- the status and the index of the request may be longer than those of the refusal
  have hsmallest : (((pdu.toResponse []).withError .tooBig 0).wire none).length ≤
      ({ pdu with type := .response, bindings := [] }.wire none).length :=
    length_wire_tooBig_le rfl rfl
  refine Nat.le_trans hsmallest ?_
  rw [List.length_append]
  exact hhead.length_element_le hnumbers

end Pdu

/-- A message around a body in its shortest encoding is not longer than one that was opened. -/
theorem Envelope.length_element_le_of_opening {datagram written : Octets} {number : Int32}
    {body : Reader} (h : opening.runOn datagram = .ok (number, body))
    (hwritten : written.length ≤ body.rest.length) :
    (element Tag.sequence (element Tag.integer (Octets.ofInt number.toInt) ++ written)).length ≤
      datagram.length := by
  obtain ⟨after, hrun⟩ := runOn_eq_ok h
  rcases bind_eq_ok hrun with ⟨inner, s, hconstructed, hrun⟩
  rcases within_eq_ok hrun with ⟨rfl, unread, hrun⟩
  rcases bind_eq_ok hrun with ⟨_, s2, hnumber, hrun⟩
  rw [bind_get] at hrun
  cases hrun
  rcases constructed_eq_ok hconstructed with ⟨head, hhead, huse, _⟩
  rcases length_integer_le hnumber with ⟨version, huseVersion, hversion⟩
  have hdatagram : datagram = (head ++ inner.rest) ++ after.rest := huse.rest
  have hcontent : (element Tag.integer (Octets.ofInt number.toInt) ++ written).length ≤
      inner.rest.length := by
    rw [huseVersion.rest, List.length_append, List.length_append]
    omega
  have hwhole : (element Tag.sequence
      (element Tag.integer (Octets.ofInt number.toInt) ++ written)).length ≤
        head.length + inner.rest.length := hhead.length_element_le hcontent
  rw [hdatagram, List.length_append, List.length_append]
  omega

/-! ### Serving -/

/-- Serving a PDU that is not a trap comes to a response or to an error. -/
theorem Mib.Scope.serve_of_not_isTrap {σ : Type} (scope : Mib.Scope σ)
    (context : Mib.RequestContext) {pdu : Pdu} (htrap : pdu.type.isTrap = false) (state : σ) :
    (∃ response, (scope.serve context pdu state).1 = .ok (some response)) ∨
      ∃ error, (scope.serve context pdu state).1 = .error error := by
  cases htype : pdu.type with
  | trapV1 | trapV2 =>
    rw [htype] at htrap
    contradiction
  | response | report =>
    right
    simp only [Mib.Scope.serve, htype]
    exact ⟨_, rfl⟩
  | getRequest | getNextRequest | getBulkRequest | setRequest | informRequest =>
    left
    simp only [Mib.Scope.serve, htype]
    exact ⟨_, rfl⟩

namespace Agent

variable {σ : Type} {datagram : Octets} {message : Message}

/-! ### The refusal of a request -/

/-- The refusal of a community request is not longer than the datagram in which it came, however
    that was encoded. -/
theorem length_encodeCommunity_tooBig_le
    (h : Envelope.ofDatagram datagram = .ok (.community message))
    (htrap : message.pdu.type ≠ .trapV1) :
    (message.withPdu (tooBig message)).encodeCommunity.length ≤ datagram.length := by
  rcases Envelope.ofDatagram_eq_ok h with ⟨version, body, left, hopening, hread⟩
  by_cases hversion : version.usesCommunity = true
  · rw [if_pos hversion] at hread
    rcases Decoder.bind_eq_ok hread with ⟨community, s1, hcommunity, hread⟩
    rcases Decoder.bind_eq_ok hread with ⟨⟨pdu, trap?⟩, s2, hpdu, hread⟩
    cases hread
    rcases octetString_eq_ok hcommunity with ⟨communityOctets, hcommunity, huse1⟩
    rcases Pdu.length_tooBig_le_of_decode hpdu htrap with ⟨pduOctets, huse2, hsize⟩
    have hlength : (element Tag.octetString community).length ≤ communityOctets.length :=
      hcommunity.length_element_le
    rw [Message.encodeCommunity_eq]
    apply Envelope.length_element_le_of_opening hopening
    rw [(huse1.trans huse2).rest]
    simp only [tooBig, Message.withPdu, List.length_append]
    omega
  · rw [if_neg hversion] at hread
    obtain ⟨_, _, _, _, _, _, hsame, _⟩ := Envelope.decodeV3_eq_ok hread
    contradiction

/-! ### Encoding without keys -/

section Encoding

variable (agent : Agent σ) (hcommunity : message.version.usesCommunity = true)
  (hheader? : message.header? = none)

include hcommunity hheader?

/-- Nothing can go wrong where a community reply is encoded, and nothing of the host is used. -/
theorem encodePdu_of_community (user? : Option Usm.User) (pdu : Pdu) (state : State σ) :
    agent.encodePdu message user? pdu state =
      (.ok (message.withPdu pdu).encodeCommunity, state) := by
  have hframe : agent.replyMessage message user? pdu state =
      (.ok (message.withPdu pdu), state) := by
    simp only [replyMessage, hheader?]
    rfl
  have hencode : (message.withPdu pdu).encode agent.suite user? =
      .ok (message.withPdu pdu).encodeCommunity := if_pos hcommunity
  rw [encodePdu, bind_of_ok hframe, hencode]
  rfl

/-- The search for a prefix that fits comes to an end. -/
theorem fit_of_community (user? : Option Usm.User) (pdu : Pdu) (limit fits excess : Nat)
    (state : State σ) :
    ∃ fitted, agent.fit message user? pdu limit fits excess none state = (.ok fitted, state) := by
  apply agent.fit_induction message user? pdu limit (Q := fun _ => True)
    (P := fun action => ∃ fitted, action state = (.ok fitted, state))
  · exact fun best _ => ⟨best, rfl⟩
  · intro shorter next hnext
    rw [bind_of_ok (encodePdu_of_community agent hcommunity hheader? user? shorter state)]
    exact hnext _
  · exact fun _ _ => trivial
  · exact trivial

/-- A PDU is sent back in one form or another, if the refusal fits. -/
theorem encodeReply_of_community (user? : Option Usm.User) (pdu : Pdu) (state : State σ)
    (hrefusal : (message.withPdu (tooBig message)).encodeCommunity.length ≤
      message.replySizeLimit) :
    ∃ reply, agent.encodeReply message user? pdu state = (.ok reply, state) := by
  have hencode := encodePdu_of_community agent hcommunity hheader? user?
  have htooBig : agent.encodeTooBig message user? message.replySizeLimit state =
      (.ok (message.withPdu (tooBig message)).encodeCommunity, state) := by
    rw [encodeTooBig, bind_of_ok (hencode (tooBig message) state), if_pos hrefusal]
    rfl
  rw [encodeReply, bind_of_ok (hencode pdu state)]
  split
  · exact ⟨_, rfl⟩
  split
  · rcases fit_of_community agent hcommunity hheader? user? pdu message.replySizeLimit 0
      pdu.bindings.length state with ⟨fitted, hfit⟩
    rw [bind_of_ok hfit]
    cases fitted with
    | none => exact ⟨_, htooBig⟩
    | some encoded => exact ⟨encoded, rfl⟩
  · exact ⟨_, htooBig⟩

end Encoding

/-! ### Replies -/

theorem responsePdu?_of_not_isTrap (agent : Agent σ) (htrap : message.pdu.type.isTrap = false)
    (source : Net.Endpoint) (state : State σ) :
    ∃ pdu, responsePdu? message.pdu (agent.serve message source state).1 = some pdu := by
  have hfailure : ∀ error, responsePdu? message.pdu (.error error) =
      some (failureResponse message.pdu error) := by
    intro error
    rw [responsePdu?, htrap]
    rfl
  cases hroute : agent.route message.routingKey with
  | error error =>
    rw [serve_of_route_error hroute]
    exact ⟨_, hfailure error⟩
  | ok scope =>
    rw [serve_of_route_ok hroute]
    rcases Mib.Scope.serve_of_not_isTrap scope (context message source) htrap state.host with
      ⟨response, hserved⟩ | ⟨error, hserved⟩
    · rw [hserved]
      exact ⟨response, rfl⟩
    · rw [hserved]
      exact ⟨_, hfailure error⟩

/-- A datagram that holds a community message other than a trap is answered, whichever scope
    serves it and whatever its callbacks return: the refusal is not longer than the datagram, and
    a reply is not longer than a datagram can be. -/
theorem respond_community (agent : Agent σ)
    (hdecode : Message.decode agent.suite datagram none = .ok message)
    (hcommunity : message.version.usesCommunity = true)
    (htrap : message.pdu.type.isTrap = false) (hsize : datagram.length ≤ 65507)
    (source : Net.Endpoint) (state : State σ) :
    (message.withPdu (tooBig message)).encodeCommunity.length ≤ datagram.length ∧
    ∃ reply after, agent.respond datagram source state = (.ok (some reply), after) ∧
      reply.length ≤ 65507 := by
  rcases Message.decode_eq_ok hdecode with ⟨envelope, hopen, hunlock⟩
  cases envelope with
  | v3 header security authOffset content =>
    rcases Envelope.unlock_eq_ok hunlock with ⟨_, _, _, _, _, _, hread⟩
    rw [(Envelope.decodeScoped_eq_ok hread).1] at hcommunity
    contradiction
  | community found =>
    cases hunlock
    obtain ⟨hheader?, hversion⟩ := Envelope.ofDatagram_eq_community hopen
    have hplain : message.pdu.type ≠ .trapV1 := by
      intro htype
      rw [htype] at htrap
      contradiction
    have hrefusal := length_encodeCommunity_tooBig_le hopen hplain
    have hlimit : message.replySizeLimit = 65507 := by
      simp only [Message.replySizeLimit, hheader?]
      rfl
    refine ⟨hrefusal, ?_⟩
    have hnegotiate : agent.negotiate datagram =
        .ok (.request message (agent.user? message.userName)) := by
      have hprobe : isProbe message = false := by
        simp only [isProbe, hversion, decide_false, Bool.false_and]
      simp only [negotiate, hdecode, hprobe]
      rfl
    have hserve : (ExceptT.lift (agent.serve message source) : Action σ _) state =
        (.ok (agent.serve message source state).1, (agent.serve message source state).2) := rfl
    rcases responsePdu?_of_not_isTrap agent htrap source state with ⟨pdu, hpdu⟩
    rcases encodeReply_of_community agent hcommunity hheader? (agent.user? message.userName) pdu
      (agent.serve message source state).2 (by omega) with ⟨reply, hreply⟩
    refine ⟨reply, (agent.serve message source state).2, ?_, ?_⟩
    · simp only [respond, hnegotiate]
      rw [answer, bind_of_ok hserve, hpdu]
      exact bind_of_ok hreply
    · rw [← hlimit]
      exact yields_encodeReply agent message _ pdu _ _ _ hreply

/-- `plainRequest` is answered, and would be so if the value of sysUpTime.0 had no room. -/
theorem respond_community_plainRequest :
    ∃ message, Message.decode .standard plainRequest none = .ok message ∧
      (message.withPdu (tooBig message)).encodeCommunity.length ≤ 40 ∧
      ∃ reply after,
        bareAgent.respond plainRequest default ⟨0, ()⟩ = (.ok (some reply), after) := by
  have hfacts : (Message.decode .standard plainRequest none).toOption.map (fun message =>
      (message.version.usesCommunity, message.pdu.type.isTrap)) = some (true, false) := by
    decide +kernel
  obtain ⟨message, hdecode, hfacts⟩ := Except.eq_ok_of_toOption_map hfacts
  obtain ⟨hcommunity, htrap⟩ := Prod.mk.inj hfacts
  obtain ⟨hrefusal, reply, after, hrespond, _⟩ :=
    respond_community bareAgent hdecode hcommunity htrap (by decide) default ⟨0, ()⟩
  exact ⟨message, hdecode, hrefusal, reply, after, hrespond⟩

end Agent

end Snmp
