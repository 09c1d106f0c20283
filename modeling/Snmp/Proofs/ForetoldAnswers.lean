/-
  Snmp/Proofs/ForetoldAnswers.lean
  ================================
  **Requests are answered as if they were the first.**

  Two things could carry the past of an agent into an answer: the state of the host, on which
  callbacks, the clock and the source of salts work, and the number of probes.  With steady
  callbacks and a clock that stands still only the salts are left, and a salt decides nothing but
  the octets that stand in its place, in that of the cipher and in that of the code.  In
  particular it does not decide whether a response fits, and so not how many of its bindings are
  kept.

  So the answer to a request can be foretold without a state: the error with which it is dropped,
  that there is none, or the PDU that it carries (`Foretells`).  The one thing that cannot be
  foretold is whether the host has a salt.
-/
import Snmp.Proofs.ReplyMirror
import Snmp.Proofs.SaltedReplies
import Snmp.Proofs.SteadyServing

namespace Snmp

open Ber Usm

namespace Agent

variable {σ α β γ δ : Type}

/-! ### Foretelling -/

/-- An outcome is what was foretold: the same error, or a result that stands in a relation to the
    one that was foretold. -/
inductive Agrees (R : β → α → Prop) : Except Error β → Except Error α → Prop
  | error {error : Error} : Agrees R (.error error) (.error error)
  | ok {b : β} {a : α} : R b a → Agrees R (.ok b) (.ok a)

/-- What can be computed of an outcome can be foretold. -/
theorem Agrees.of_map {R : β → α → Prop} {outcome : Except Error α} {f : α → γ} {g : γ → β}
    (h : ∀ a, outcome = .ok a → R (g (f a)) a) : Agrees R ((outcome.map f).map g) outcome := by
  cases outcome with
  | error => exact .error
  | ok a => exact .ok (h a rfl)

/-- The error that there is no salt for the reply to a request, from a host that has none. -/
structure OutOfSalt (agent : Agent σ) (request : Message) (error : Error) : Prop where
  lacks : LacksSalt request error
  exhausted : ∃ length state, (agent.host.salt length state).1 = none

/-- An action comes to what was foretold in every state, unless there is no salt for the reply to
    the request. -/
def Foretells (agent : Agent σ) (request : Message) (R : β → α → Prop)
    (foretold : Except Error β) (action : Action σ α) : Prop :=
  ∀ state, Agrees R foretold (action state).1 ∨
    ∃ error, agent.OutOfSalt request error ∧ (action state).1 = .error error

namespace Foretells

variable {agent : Agent σ} {request : Message} {R : β → α → Prop}

theorem pure {b : β} {a : α} (h : R b a) :
    agent.Foretells request R (.ok b) (Pure.pure a : Action σ α) :=
  fun _ => .inl (.ok h)

theorem throw (error : Error) :
    agent.Foretells request R (.error error) (MonadExcept.throw error : Action σ α) :=
  fun _ => .inl .error

/-- If the second step can be foretold from what was foretold of the first, both can. -/
theorem bind {S : γ → α → Prop} {T : β → δ → Prop} {first : Except Error β}
    {second : β → Except Error γ} {action : Action σ δ} {next : δ → Action σ α}
    (h : agent.Foretells request T first action)
    (k : ∀ b d, T b d → agent.Foretells request S (second b) (next d)) :
    agent.Foretells request S (first >>= second) (action >>= next) := by
  intro state
  have houtcome := h state
  cases hrun : action state with
  | mk outcome middle =>
  rw [hrun] at houtcome
  rcases houtcome with hagrees | ⟨error, hlacks, herror⟩
  · cases hagrees with
    | error =>
      rw [bind_of_error hrun]
      exact .inl .error
    | ok hrelated =>
      rw [bind_of_ok hrun]
      exact k _ _ hrelated middle
  · cases herror
    rw [bind_of_error hrun]
    exact .inr ⟨error, hlacks, rfl⟩

end Foretells

/-! ### Frames -/

section Frames

variable {agent : Agent σ} {request : Message} {user? : Option User} {time : UInt32}

/-- Security parameters with the identity of the engine, and the time that its clock shows. -/
def identity (agent : Agent σ) (userName : Octets) (time : UInt32) : Parameters where
  engineId := agent.engineId.octets
  engineBoots := agent.engineBoots
  engineTime := time
  userName := userName

/-- The message that carries a PDU back to the sender of a request, before a salt is drawn. -/
def framed (agent : Agent σ) (request : Message) (time : UInt32) (pdu : Pdu) : Message :=
  match request.header? with
  | none => request.withPdu pdu
  | some header => { request.withPdu pdu with
      header? := some ⟨header.msgId, maxMessageSize, .ofLevel header.flags.level false⟩
      security? := some (agent.identity request.userName time) }

/-- Octets that carry a PDU back to the sender of a request.  Unless they are encrypted they are
    determined by the PDU. -/
inductive Sends (agent : Agent σ) (request : Message) (user? : Option User) (time : UInt32)
    (pdu : Pdu) (octets : Octets) : Prop
  | plain : request.securityLevel ≠ .authPriv →
      (agent.framed request time pdu).encode agent.suite user? = .ok octets →
      Sends agent request user? time pdu octets
  | salted (salt : Octets) : request.securityLevel = .authPriv →
      ((agent.framed request time pdu).withSalt salt).encode agent.suite user? = .ok octets →
      Sends agent request user? time pdu octets

/-- The protocol that replies to a request are encrypted with. -/
def cipher? (request : Message) (user? : Option User) : Option PrivProtocol :=
  request.header?.bind fun header => replyCipher? header.flags.level user?

theorem level_of_cipher? {protocol : PrivProtocol} (h : cipher? request user? = some protocol) :
    ∃ header, request.header? = some header ∧ header.flags.level = .authPriv := by
  obtain ⟨header, hheader?, hprotocol⟩ := Option.bind_eq_some_iff.1 h
  refine ⟨header, hheader?, ?_⟩
  by_contra hlevel
  rw [replyCipher?, if_neg hlevel] at hprotocol
  cases hprotocol

theorem securityLevel_of_cipher? {protocol : PrivProtocol}
    (h : cipher? request user? = some protocol) : request.securityLevel = .authPriv := by
  obtain ⟨header, hheader?, hlevel⟩ := level_of_cipher? h
  rw [Message.securityLevel, hheader?]
  exact hlevel

variable (htime : ∀ state, (agent.host.engineTime state).1 = time)

include htime

theorem freshParameters_eq (userName : Octets) (state : State σ) :
    agent.freshParameters userName state = (.ok (agent.identity userName time),
      { state with host := (agent.host.engineTime state.host).2 }) := by
  rw [← htime state.host]
  rfl

/-- A reply that is not encrypted is framed in the same way in every state. -/
theorem replyMessage_of_no_cipher (h : cipher? request user? = none) (pdu : Pdu)
    (state : State σ) :
    ∃ after, agent.replyMessage request user? pdu state =
      (.ok (agent.framed request time pdu), after) := by
  cases hheader? : request.header? with
  | none =>
    refine ⟨state, ?_⟩
    simp only [replyMessage, framed, hheader?]
    rfl
  | some header =>
    have hnone : replyCipher? header.flags.level user? = none := by
      rw [cipher?, hheader?] at h
      exact h
    refine ⟨{ state with host := (agent.host.engineTime state.host).2 }, ?_⟩
    simp only [replyMessage, framed, hheader?]
    rw [replyParameters, bind_assoc, bind_of_ok (freshParameters_eq htime _ state), hnone]
    rfl

/-- A reply that is encrypted is framed in the same way but for its salt of eight octets. -/
theorem replyMessage_of_cipher {protocol : PrivProtocol} (h : cipher? request user? = some protocol)
    (pdu : Pdu) (state : State σ) :
    (∃ salt after, salt.length = 8 ∧
        agent.replyMessage request user? pdu state =
          (.ok ((agent.framed request time pdu).withSalt salt), after)) ∨
      ∃ error after, agent.OutOfSalt request error ∧
        agent.replyMessage request user? pdu state = (.error error, after) := by
  obtain ⟨header, hheader?, _⟩ := level_of_cipher? h
  have hprotocol : replyCipher? header.flags.level user? = some protocol := by
    rw [cipher?, hheader?] at h
    exact h
  have hdraw : (ExceptT.lift (onHost (agent.host.salt protocol.saltLength)) : Action σ _)
      { state with host := (agent.host.engineTime state.host).2 } =
      (.ok (agent.host.salt protocol.saltLength (agent.host.engineTime state.host).2).1,
        { state with host :=
            (agent.host.salt protocol.saltLength (agent.host.engineTime state.host).2).2 }) := rfl
  simp only [replyMessage, framed, hheader?]
  rw [replyParameters, bind_assoc, bind_of_ok (freshParameters_eq htime _ state), hprotocol]
  simp only [drawSalt, bind_assoc]
  rw [bind_of_ok hdraw]
  cases hsalt : (agent.host.salt protocol.saltLength (agent.host.engineTime state.host).2).1 with
  | none =>
    exact .inr ⟨.encryptionFailed .randomUnavailable, _,
      ⟨⟨securityLevel_of_cipher? h, rfl⟩, _, _, hsalt⟩, rfl⟩
  | some salt => exact .inl ⟨salt.toList, _, salt.length_toList, rfl⟩

end Frames

/-! ### Attempts -/

/-- The parts of a reply leave room in an address space, if it is to be encrypted. -/
def HasRoom (agent : Agent σ) (request : Message) (pdu : Pdu) : Prop :=
  request.securityLevel = .authPriv →
    agent.engineId.octets.length + request.userName.length + request.contextEngineId.length
      + request.contextName.length + (pdu.wire none).length < 2 ^ 63

/-- Octets that carry a PDU, and their number. -/
def Measured (agent : Agent σ) (request : Message) (user? : Option User) (time : UInt32)
    (form : Pdu × Nat) (octets : Octets) : Prop :=
  agent.Sends request user? time form.1 octets ∧ octets.length = form.2

/-- What is known of the agent and the request that it answers. -/
structure Predictable (agent : Agent σ) (request : Message) (time : UInt32) : Prop where
  suite : agent.suite.Lawful
  time : ∀ state, (agent.host.engineTime state).1 = time
  version : ∀ header, request.header? = some header → request.version = .v3

section Attempts

variable {agent : Agent σ} {request : Message} {user? : Option User} {time : UInt32} {pdu : Pdu}

theorem sends_of_encode {octets : Octets}
    (h : (agent.framed request time pdu).encode agent.suite user? = .ok octets) :
    agent.Sends request user? time pdu octets := by
  by_cases hlevel : request.securityLevel = .authPriv
  · -- the frame has an empty salt already
    cases hheader? : request.header? with
    | none =>
      rw [Message.securityLevel, hheader?] at hlevel
      cases hlevel
    | some header =>
      have hsame : (agent.framed request time pdu).withSalt [] = agent.framed request time pdu := by
        simp only [framed, hheader?]
        rfl
      rw [← hsame] at h
      exact .salted [] hlevel h
  · exact .plain hlevel h

theorem framed_of_header (agent : Agent σ) {header : MsgHeader}
    (hheader? : request.header? = some header) (time : UInt32) (pdu : Pdu) :
    (agent.framed request time pdu).header? =
        some ⟨header.msgId, maxMessageSize, .ofLevel header.flags.level false⟩ ∧
      (agent.framed request time pdu).security? = some (agent.identity request.userName time) := by
  unfold framed
  rw [hheader?]
  exact ⟨rfl, rfl⟩

/-- The frame of a reply has the rest of it from the request. -/
theorem framed_eq_withPdu (agent : Agent σ) (request : Message) (time : UInt32) (pdu : Pdu) :
    (agent.framed request time pdu).version = request.version ∧
      (agent.framed request time pdu).contextEngineId = request.contextEngineId ∧
      (agent.framed request time pdu).contextName = request.contextName ∧
      (agent.framed request time pdu).pdu = pdu ∧
      (agent.framed request time pdu).trap? = none := by
  unfold framed
  cases request.header? with
  | none => exact ⟨rfl, rfl, rfl, rfl, rfl⟩
  | some header => exact ⟨rfl, rfl, rfl, rfl, rfl⟩

/-- Whether a frame can be encoded, and to how many octets, is the same for every salt. -/
theorem length_encode_framed (h : agent.Predictable request time)
    (hroom : agent.HasRoom request pdu) {protocol : PrivProtocol}
    (hcipher : cipher? request user? = some protocol)
    (salt other : Octets) (hsalt : salt.length = 8) (hother : other.length = 8) :
    (((agent.framed request time pdu).withSalt salt).encode agent.suite user?).map List.length =
      (((agent.framed request time pdu).withSalt other).encode agent.suite user?).map
        List.length := by
  obtain ⟨header, hheader?, hlevel⟩ := level_of_cipher? hcipher
  have hsize := hroom (securityLevel_of_cipher? hcipher)
  have hnew : (MsgFlags.ofLevel header.flags.level false).level = .authPriv := by
    rw [MsgFlags.level_ofLevel, hlevel]
  obtain ⟨hframe, hsecurity?⟩ := framed_of_header agent hheader? time pdu
  obtain ⟨hversion, hcontextEngineId, hcontextName, hpdu, htrap⟩ :=
    framed_eq_withPdu agent request time pdu
  refine Message.length_encode_withSalt h.suite (hversion.trans (h.version header hheader?)) hframe
    hsecurity? hnew user? ?_ hsalt hother
  rw [hcontextEngineId, hcontextName, hpdu, htrap]
  exact hsize

/-- What an attempt to send a PDU comes to, and with how many octets, if the salt is blank. -/
def attempt (agent : Agent σ) (request : Message) (user? : Option User) (time : UInt32)
    (pdu : Pdu) : Except Error (Pdu × Nat) :=
  let message := match cipher? request user? with
    | none => agent.framed request time pdu
    | some _ => (agent.framed request time pdu).withSalt (Octets.zeros 8)
  ((message.encode agent.suite user?).map List.length).map (pdu, ·)

/-- The octets of a PDU can be foretold up to what the salt decides, and their number without
    exception. -/
theorem foretells_encodePdu (h : agent.Predictable request time)
    (hroom : agent.HasRoom request pdu) :
    agent.Foretells request (agent.Measured request user? time)
      (agent.attempt request user? time pdu) (agent.encodePdu request user? pdu) := by
  have hofExcept (x : Except Error Octets) (state : State σ) :
      (MonadExcept.ofExcept x : Action σ Octets) state = (x, state) := by
    cases x with
    | error error => rfl
    | ok octets => rfl
  intro state
  cases hcipher : cipher? request user? with
  | none =>
    obtain ⟨after, hmessage⟩ := replyMessage_of_no_cipher h.time hcipher pdu state
    rw [encodePdu, bind_of_ok hmessage, hofExcept]
    simp only [attempt, hcipher]
    exact .inl (.of_map fun octets hencode => ⟨sends_of_encode hencode, rfl⟩)
  | some protocol =>
    rcases replyMessage_of_cipher h.time hcipher pdu state with
      ⟨salt, after, hsalt, hmessage⟩ | ⟨error, after, hlacks, hmessage⟩
    · rw [encodePdu, bind_of_ok hmessage, hofExcept]
      simp only [attempt, hcipher]
      rw [length_encode_framed h hroom hcipher (Octets.zeros 8) salt List.length_replicate hsalt]
      exact .inl (.of_map fun octets hencode =>
        ⟨.salted salt (securityLevel_of_cipher? hcipher) hencode, rfl⟩)
    · rw [encodePdu, bind_of_error hmessage]
      exact .inr ⟨error, hlacks, rfl⟩

end Attempts

/-! ### Sizes -/

section Sizes

variable {agent : Agent σ} {request : Message} {user? : Option User} {time : UInt32} {pdu : Pdu}

theorem HasRoom.of_length_le (h : agent.HasRoom request pdu) {part : Pdu}
    (hle : (part.wire none).length ≤ (pdu.wire none).length) : agent.HasRoom request part := by
  intro hlevel
  have hwhole := h hlevel
  omega

/-- Octets that carry a PDU back to the sender of a request, who takes as many. -/
structure Delivers (agent : Agent σ) (request : Message) (user? : Option User) (time : UInt32)
    (pdu : Pdu) (octets : Octets) : Prop where
  sends : agent.Sends request user? time pdu octets
  limit : octets.length ≤ request.replySizeLimit

/-- Which form fits best can be foretold, because its size can.  The induction is on the gap that
    is left to search. -/
theorem exists_foretells_fit (h : agent.Predictable request time) (user? : Option User)
    (hroom : ∀ count, agent.HasRoom request (pdu.cut count)) :
    ∀ (gap fits excess : Nat) (best? : Option Pdu), gap = excess - fits →
    ∃ foretold, ∀ best, Option.Rel (agent.Delivers request user? time) best? best →
      agent.Foretells request (Option.Rel (agent.Delivers request user? time)) foretold
        (agent.fit request user? pdu request.replySizeLimit fits excess best) := by
  intro gap
  induction gap using Nat.strongRecOn with
  | _ gap ih =>
    intro fits excess best? hgap
    by_cases hmore : 1 < excess - fits
    · have hraised (form : Pdu) := ih (excess - (fits + (excess - fits) / 2)) (by omega)
        (fits + (excess - fits) / 2) excess (some form) rfl
      choose raised hraised using hraised
      obtain ⟨lowered, hlowered⟩ := ih (fits + (excess - fits) / 2 - fits) (by omega) fits
        (fits + (excess - fits) / 2) best? rfl
      refine ⟨agent.attempt request user? time (pdu.cut (fits + (excess - fits) / 2)) >>=
        fun form => if form.2 ≤ request.replySizeLimit then raised form.1 else lowered, ?_⟩
      intro best hbest
      rw [fit_of_gap agent request user? pdu _ best hmore]
      apply (foretells_encodePdu h (hroom _)).bind
      intro form octets hform
      rw [← hform.2]
      split
      · rename_i hle
        exact hraised form.1 (some octets) (.some ⟨hform.1, hle⟩)
      · exact hlowered best hbest
    · refine ⟨.ok best?, ?_⟩
      intro best hbest
      rw [fit, if_neg hmore]
      exact .pure hbest

theorem exists_foretells_encodeTooBig (h : agent.Predictable request time) (user? : Option User)
    (hroom : agent.HasRoom request (tooBig request)) :
    ∃ foretold, agent.Foretells request (agent.Delivers request user? time) foretold
      (agent.encodeTooBig request user? request.replySizeLimit) := by
  refine ⟨agent.attempt request user? time (tooBig request) >>= fun form =>
    if form.2 ≤ request.replySizeLimit then .ok form.1
    else .error (.encode (.messageTooLarge form.2 request.replySizeLimit)), ?_⟩
  rw [encodeTooBig]
  apply (foretells_encodePdu h hroom).bind
  intro form octets hform
  rw [← hform.2]
  split
  · rename_i hle
    exact .pure ⟨hform.1, hle⟩
  · exact .throw _

/-- In which form a response is sent, or why it is not, can be foretold. -/
theorem exists_foretells_encodeReply (h : agent.Predictable request time) (user? : Option User)
    (hroom : agent.HasRoom request pdu) (htype : pdu.type = .response)
    (hid : pdu.requestId = request.pdu.requestId) :
    ∃ foretold, agent.Foretells request (agent.Delivers request user? time) foretold
      (agent.encodeReply request user? pdu) := by
  have hplain : pdu.type ≠ .trapV1 := by
    rw [htype]
    decide
  obtain ⟨refusal, hrefusal⟩ := exists_foretells_encodeTooBig h user?
    (hroom.of_length_le (Pdu.length_wire_tooBig_le htype hid))
  obtain ⟨shortened, hshortened⟩ := exists_foretells_fit h user?
    (fun count => hroom.of_length_le (Pdu.length_wire_cut_le hplain count)) _ 0
    pdu.bindings.length none rfl
  refine ⟨agent.attempt request user? time pdu >>= fun whole =>
    if whole.2 ≤ request.replySizeLimit then .ok whole.1
    else if request.pdu.type = .getBulkRequest then
      shortened >>= fun form? => form?.elim refusal Except.ok
    else refusal, ?_⟩
  rw [encodeReply]
  apply (foretells_encodePdu h hroom).bind
  intro whole octets hwhole
  rw [← hwhole.2]
  split
  · rename_i hle
    exact .pure ⟨hwhole.1, hle⟩
  split
  · apply (hshortened none .none).bind
    intro form? fitted hfitted
    cases hfitted with
    | none => exact hrefusal
    | some hform => exact .pure hform
  · exact hrefusal

end Sizes

/-! ### Serving -/

section Serving

variable {agent : Agent σ} {request : Message} {user? : Option User} {time : UInt32}
  {source : Net.Endpoint}

theorem type_of_responsePdu? {state : State σ} {pdu : Pdu}
    (h : responsePdu? request.pdu (agent.serve request source state).1 = some pdu) :
    pdu.type = .response ∧ pdu.requestId = request.pdu.requestId := by
  have hfailure {error : Error} (h : responsePdu? request.pdu (.error error) = some pdu) :
      pdu.type = .response ∧ pdu.requestId = request.pdu.requestId := by
    rw [responsePdu?] at h
    split at h
    · cases h
    · cases h
      exact ⟨rfl, rfl⟩
  cases hroute : agent.route request.routingKey with
  | error error =>
    rw [serve_of_route_error hroute] at h
    exact hfailure h
  | ok scope =>
    rw [serve_of_route_ok hroute] at h
    cases hserve : (scope.serve (context request source) request.pdu state.host).1 with
    | error error =>
      rw [hserve] at h
      exact hfailure h
    | ok pdu? =>
      rw [hserve] at h
      have hsome : pdu? = some pdu := h
      rw [hsome] at hserve
      exact Mib.Scope.type_of_serve hserve

/-- Steady scopes serve a request to the same end in every state. -/
theorem steady_serve (hscopes : ∀ scope ∈ agent.scopes, scope.Steady) :
    Mib.Steady (agent.serve request source) := by
  intro state other
  cases hroute : agent.route request.routingKey with
  | error error => rw [serve_of_route_error hroute, serve_of_route_error hroute]
  | ok scope =>
    rw [serve_of_route_ok hroute, serve_of_route_ok hroute]
    exact Mib.Scope.steady_serve (hscopes scope (mem_of_route hroute)) _ _ state.host other.host

/-- What answers a request can be foretold: the PDU that is sent back, that there is none, or the
    error with which the request is dropped. -/
theorem exists_foretells_answer (h : agent.Predictable request time) (user? : Option User)
    (hscopes : ∀ scope ∈ agent.scopes, scope.Steady)
    (hroom : ∀ state pdu, responsePdu? request.pdu (agent.serve request source state).1 =
      some pdu → agent.HasRoom request pdu) :
    ∃ foretold, agent.Foretells request (Option.Rel (agent.Delivers request user? time)) foretold
      (agent.answer request user? source) := by
  rcases isEmpty_or_nonempty σ with hempty | ⟨⟨start⟩⟩
  · exact ⟨.ok none, fun state => (hempty.false state.host).elim⟩
  have hserve : agent.Foretells request
      (fun _ served => served = (agent.serve request source ⟨0, start⟩).1) (.ok ())
      (ExceptT.lift (agent.serve request source)) := by
    intro state
    exact .inl (.ok (steady_serve hscopes state _))
  cases hpdu : responsePdu? request.pdu (agent.serve request source ⟨0, start⟩).1 with
  | none =>
    refine ⟨.ok () >>= fun _ => .ok none, hserve.bind ?_⟩
    rintro _ _ rfl
    rw [hpdu]
    exact .pure .none
  | some pdu =>
    obtain ⟨htype, hid⟩ := type_of_responsePdu? hpdu
    obtain ⟨reply, hreply⟩ := exists_foretells_encodeReply h user? (hroom _ _ hpdu) htype hid
    refine ⟨.ok () >>= fun _ => reply >>= fun form => .ok (some form), hserve.bind ?_⟩
    rintro _ _ rfl
    rw [hpdu]
    apply hreply.bind
    intro form octets hform
    exact .pure (.some hform)

end Serving

end Agent

end Snmp
