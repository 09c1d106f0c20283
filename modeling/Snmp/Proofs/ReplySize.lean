/-
  Snmp/Proofs/ReplySize.lean
  ==========================
  **How large a reply can be.**

  A request is answered within the size that its sender takes: an encoding is returned only
  after its length was compared with the limit, also by the search for the longest prefix of a
  bulk response, which keeps an encoding only if it fits (`yields_fit`).  The limit is the one
  that the datagram states, because no header is read with a smaller one than a message may
  state (`replySizeLimit_of_decode`).

  The report that answers a discovery probe is encoded without that comparison.  It echoes the
  context name of the probe, so its size is not bounded by anything that the agent controls:
  `reportSize` is its length to the octet, and a reply exceeds the limit exactly if it is a
  report for which `reportSize` does.
-/
import Snmp.Agent.Config
import Snmp.Agent.Respond
import Snmp.Proofs.EncodeFailures

namespace Snmp

open Ber Usm

/-! ### What a datagram allows -/

/-- The greatest reply to a datagram: what its header states, and no more than a datagram
    holds. -/
def Envelope.sizeBound : Envelope → Nat
  | .community _ => 65507
  | .v3 header _ _ _ => min 65507 header.maxSize.toInt.toNat

theorem Envelope.sizeBound_le (envelope : Envelope) : envelope.sizeBound ≤ 65507 := by
  cases envelope with
  | community message => exact Nat.le_refl _
  | v3 header security authOffset content => exact Nat.min_le_left _ _

theorem Message.replySizeLimit_of_header {message : Message} {header : MsgHeader}
    (hheader? : message.header? = some header) (hsize : minMessageSize ≤ header.maxSize) :
    message.replySizeLimit = min 65507 header.maxSize.toInt.toNat := by
  have hmin : (484 : Int) ≤ header.maxSize.toInt := Int32.le_iff_toInt_le.1 hsize
  have hmax : maxMessageSize.toInt = 65507 := rfl
  rw [replySizeLimit, hheader?]
  simp only [hmax]
  rw [if_neg (by omega)]
  omega

theorem Message.replySizeLimit_le (message : Message) : message.replySizeLimit ≤ 65507 := by
  have hmin : minMessageSize.toInt.toNat = 484 := rfl
  have hmax : maxMessageSize.toInt = 65507 := rfl
  cases hheader? : message.header? with
  | none =>
    simp only [replySizeLimit, hheader?, hmax, hmin]
    split
    · omega
    · omega
  | some header =>
    simp only [replySizeLimit, hheader?, hmax, hmin]
    split
    · omega
    · omega

/-- The limit that replies are compared with is the one that the datagram states. -/
theorem Message.replySizeLimit_of_decode {suite : Suite} {datagram : Octets}
    {user? : Option User} {message : Message}
    (h : Message.decode suite datagram user? = .ok message) :
    ∃ envelope, Envelope.ofDatagram datagram = .ok envelope ∧
      message.replySizeLimit = envelope.sizeBound := by
  rcases decode_eq_ok h with ⟨envelope, hopen, hunlock⟩
  refine ⟨envelope, hopen, ?_⟩
  cases envelope with
  | community found =>
    cases hunlock
    simp only [replySizeLimit, (Envelope.ofDatagram_eq_community hopen).1]
    rfl
  | v3 header security authOffset content =>
    obtain ⟨layout, _, _, _⟩ := Envelope.ofDatagram_eq_v3 hopen
    rcases Envelope.unlock_eq_ok hunlock with ⟨_, _, _, _, _, _, hread⟩
    obtain ⟨_, _, _, _, _, _, _, _, _, _, _, _, hsize, _⟩ := layout.headerOctets_eq
    exact replySizeLimit_of_header (Envelope.decodeScoped_eq_ok hread).2.1 hsize

namespace Agent

variable {σ α β : Type}

/-! ### What actions yield -/

/-- Whatever an action yields has a property. -/
def Yields (action : Action σ α) (P : α → Prop) : Prop :=
  ∀ state result after, action state = (.ok result, after) → P result

theorem bind_eq_ok {action : Action σ α} {next : α → Action σ β} {state after : State σ} {b : β}
    (h : (action >>= next) state = (.ok b, after)) :
    ∃ a middle, action state = (.ok a, middle) ∧ next a middle = (.ok b, after) := by
  simp only [bind, ExceptT.bind, ExceptT.mk, StateT.bind] at h
  cases haction : action state with
  | mk outcome middle =>
    rw [haction] at h
    cases outcome with
    | error e => cases h
    | ok a => exact ⟨a, middle, rfl, h⟩

theorem bind_of_ok {action : Action σ α} {next : α → Action σ β} {state after : State σ} {a : α}
    (h : action state = (.ok a, after)) : (action >>= next) state = next a after := by
  simp only [bind, ExceptT.bind, ExceptT.mk, StateT.bind, h]
  rfl

theorem bind_of_error {action : Action σ α} {next : α → Action σ β} {state after : State σ}
    {error : Error} (h : action state = (.error error, after)) :
    (action >>= next) state = (.error error, after) := by
  simp only [bind, ExceptT.bind, ExceptT.mk, StateT.bind, h]
  rfl

namespace Yields

variable {P : α → Prop} {Q : β → Prop}

/-- A property of the last step is one of the whole. -/
theorem bind {action : Action σ α} {next : α → Action σ β} (h : ∀ a, Yields (next a) Q) :
    Yields (action >>= next) Q := by
  intro state b after hrun
  rcases bind_eq_ok hrun with ⟨a, middle, _, hnext⟩
  exact h a middle b after hnext

/-- The last step may rely on what the first has yielded. -/
theorem bind_of {action : Action σ α} {next : α → Action σ β} (h : Yields action P)
    (k : ∀ a, P a → Yields (next a) Q) : Yields (action >>= next) Q := by
  intro state b after hrun
  rcases bind_eq_ok hrun with ⟨a, middle, haction, hnext⟩
  exact k a (h state a middle haction) middle b after hnext

theorem pure {a : α} (h : P a) : Yields (Pure.pure a : Action σ α) P := by
  intro state result after hrun
  cases hrun
  exact h

theorem throw {error : Error} : Yields (MonadExcept.throw error : Action σ α) P := by
  intro state result after hrun
  cases hrun

end Yields

/-! ### Requests -/

/-- The search for a prefix is a chain of attempts at the end of which stands what was kept, by
    induction on the gap that is left to search.  What is kept is within the limit. -/
theorem fit_induction (agent : Agent σ) (request : Message) (user? : Option User) (pdu : Pdu)
    (limit : Nat) {P : Action σ (Option Octets) → Prop} {Q : Option Octets → Prop}
    (hpure : ∀ best, Q best → P (pure best))
    (hattempt : ∀ shorter next, (∀ encoded, P (next encoded)) →
      P (agent.encodePdu request user? shorter >>= next))
    (hkept : ∀ encoded : Octets, encoded.length ≤ limit → Q (some encoded)) (fits excess : Nat)
    {best : Option Octets} (hbest : Q best) :
    P (agent.fit request user? pdu limit fits excess best) := by
  induction hgap : excess - fits using Nat.strongRecOn generalizing fits excess best with
  | _ gap ih =>
    rw [fit]
    by_cases hmore : 1 < excess - fits
    · rw [if_pos hmore]
      apply hattempt
      intro encoded
      by_cases hfits : encoded.length ≤ limit
      · simp only [if_pos hfits]
        exact ih (excess - (fits + (excess - fits) / 2)) (by omega) _ _ (hkept encoded hfits) rfl
      · simp only [if_neg hfits]
        exact ih (fits + (excess - fits) / 2 - fits) (by omega) _ _ hbest rfl
    · rw [if_neg hmore]
      exact hpure best hbest

/-- The search keeps an encoding only if it is within the limit. -/
theorem yields_fit (agent : Agent σ) (request : Message) (user? : Option User) (pdu : Pdu)
    (limit fits excess : Nat) :
    Yields (agent.fit request user? pdu limit fits excess none)
      (fun fitted => ∀ encoded, fitted = some encoded → encoded.length ≤ limit) := by
  apply agent.fit_induction request user? pdu limit
    (P := fun action => Yields action fun fitted =>
      ∀ encoded, fitted = some encoded → encoded.length ≤ limit)
    (Q := fun best => ∀ encoded, best = some encoded → encoded.length ≤ limit)
  · exact fun best hbest => Yields.pure hbest
  · exact fun shorter next hnext => Yields.bind hnext
  · intro encoded hfits kept hkept
    cases hkept
    exact hfits
  · intro encoded hnone
    cases hnone

theorem yields_encodeTooBig (agent : Agent σ) (request : Message) (user? : Option User)
    (limit : Nat) : Yields (agent.encodeTooBig request user? limit) (·.length ≤ limit) := by
  apply Yields.bind
  intro encoded
  by_cases hfits : encoded.length ≤ limit
  · simp only [if_pos hfits]
    exact Yields.pure hfits
  · simp only [if_neg hfits]
    exact Yields.throw

/-- A reply to a request is within the limit of the request. -/
theorem yields_encodeReply (agent : Agent σ) (request : Message) (user? : Option User)
    (pdu : Pdu) :
    Yields (agent.encodeReply request user? pdu) (·.length ≤ request.replySizeLimit) := by
  apply Yields.bind
  intro encoded
  by_cases hfits : encoded.length ≤ request.replySizeLimit
  · simp only [if_pos hfits]
    exact Yields.pure hfits
  · simp only [if_neg hfits]
    by_cases hbulk : request.pdu.type = .getBulkRequest
    · simp only [if_pos hbulk]
      refine Yields.bind_of (yields_fit agent request user? pdu _ _ _) ?_
      intro fitted hfitted
      cases fitted with
      | none => exact yields_encodeTooBig agent request user? _
      | some encoded => exact Yields.pure (hfitted encoded rfl)
    · simp only [if_neg hbulk]
      exact yields_encodeTooBig agent request user? _

theorem yields_answer (agent : Agent σ) (message : Message) (user? : Option User)
    (source : Net.Endpoint) :
    Yields (agent.answer message user? source)
      (fun reply? => ∀ reply, reply? = some reply → reply.length ≤ message.replySizeLimit) := by
  apply Yields.bind
  intro served
  cases responsePdu? message.pdu served with
  | none => exact Yields.pure (by simp)
  | some pdu =>
    refine Yields.bind_of (yields_encodeReply agent message user? pdu) fun encoded hencoded => ?_
    apply Yields.pure
    intro reply hreply
    cases hreply
    exact hencoded

/-! ### Reports -/

/-- The number of octets of an element with so many octets of content. -/
def elementSize (count : Nat) : Nat := 1 + (Length.encode count).length + count

def integerSize (value : Int) : Nat := elementSize (Octets.ofInt value).length

theorem length_element_eq (tag : Tag) (content : Octets) :
    (element tag content).length = elementSize content.length :=
  length_element tag content

/-- The number of octets of the report that answers a probe.  The context name of the probe is
    in it, whatever its length. -/
def reportSize (agent : Agent σ) (probe : Message) (number time : UInt32) : Nat :=
  let msgId : Int32 := (probe.header?.map (·.msgId)).getD 0
  let engineId := elementSize agent.engineId.octets.length
  let header := elementSize (integerSize msgId.toInt + integerSize 65507 + elementSize 1
    + integerSize 3)
  let parameters := elementSize (elementSize (engineId
    + integerSize (Parameters.wireCount agent.engineBoots).toInt
    + integerSize (Parameters.wireCount time).toInt
    + elementSize 0 + elementSize 0 + elementSize 0))
  let binding := elementSize (elementSize unknownEngineIds.content.length
    + integerSize number.toNat)
  let pdu := elementSize (integerSize probe.pdu.requestId.toInt + integerSize 0 + integerSize 0
    + elementSize binding)
  let scopedPdu := elementSize (engineId + elementSize probe.contextName.length + pdu)
  elementSize (integerSize 3 + header + parameters + scopedPdu)

/-- Every probe is answered, with a report of exactly this size. -/
theorem report_eq_ok (agent : Agent σ) (probe : Message) (state : State σ) :
    ∃ encoded after, agent.report probe state = (.ok encoded, after) ∧
      encoded.length = agent.reportSize probe (state.probes + 1)
        (agent.host.engineTime state.host).1 := by
  let security : Parameters := {
    engineId := agent.engineId.octets
    engineBoots := agent.engineBoots
    engineTime := (agent.host.engineTime state.host).1 }
  let message := agent.reportMessage probe (state.probes + 1) security
  let header : MsgHeader := ⟨(probe.header?.map (·.msgId)).getD 0, maxMessageSize,
    .ofLevel .noAuthNoPriv false⟩
  have hencode : message.encode agent.suite none =
      .ok (Message.encodeV3 header security message.encodeScoped) :=
    Message.encode_plain rfl rfl rfl rfl agent.suite none
  refine ⟨Message.encodeV3 header security message.encodeScoped,
    ⟨state.probes + 1, (agent.host.engineTime state.host).2⟩, ?_, ?_⟩
  · show (MonadExcept.ofExcept (message.encode agent.suite none) : Action σ Octets)
      ⟨state.probes + 1, (agent.host.engineTime state.host).2⟩ = _
    rw [hencode]
    rfl
  · have hbindings : message.pdu.bindings.flatMap Binding.wire = element Tag.sequence
        (element Tag.objectIdentifier unknownEngineIds.content
          ++ element Tag.counter32 (Octets.ofInt (state.probes + 1).toNat)) := List.append_nil _
    have htype : ¬message.pdu.type = .trapV1 := by
      show ¬PduType.report = .trapV1
      decide
    rw [Message.encodeV3_eq_element, Message.encodeScoped_eq]
    simp only [Message.v3Content, Message.v3Front, Message.headerContent, Message.scopedContent,
      Parameters.encode_eq_element, Parameters.content, Parameters.fieldsBefore, Pdu.wire,
      Pdu.content, Pdu.numbersWire, if_neg htype, hbindings, List.length_append,
      length_element_eq, reportSize, integerSize, Nat.add_assoc]
    rfl

/-! ### Replies -/

/-- A reply is within the size that the datagram allows, unless it is the report to a probe and
    the report is too large by itself. -/
theorem length_reply_le_iff {agent : Agent σ} {datagram : Octets} {source : Net.Endpoint}
    {state after : State σ} {reply : Octets}
    (h : agent.respond datagram source state = (.ok (some reply), after)) :
    ∃ envelope, Envelope.ofDatagram datagram = .ok envelope ∧
      (reply.length ≤ envelope.sizeBound ↔
        ∀ probe, agent.negotiate datagram = .ok (.probe probe) →
          agent.reportSize probe (state.probes + 1) (agent.host.engineTime state.host).1 ≤
            envelope.sizeBound) := by
  cases hnegotiate : agent.negotiate datagram with
  | error error =>
    simp only [respond, hnegotiate] at h
    cases h
  | ok negotiated =>
    rcases negotiate_eq_ok hnegotiate with ⟨_, hdecode, _⟩
    obtain ⟨envelope, hopen, hlimit⟩ := Message.replySizeLimit_of_decode hdecode
    refine ⟨envelope, hopen, ?_⟩
    cases negotiated with
    | probe probe =>
      rcases agent.report_eq_ok probe state with ⟨encoded, left, hreport, hlength⟩
      simp only [respond, hnegotiate] at h
      rcases bind_eq_ok h with ⟨_, _, hsame, hreply⟩
      rw [hreport] at hsame
      cases hsame
      cases hreply
      rw [hlength]
      constructor
      · intro hle found hfound
        cases hfound
        exact hle
      · intro hall
        exact hall probe rfl
    | request message user? =>
      simp only [respond, hnegotiate] at h
      have hle := yields_answer agent message user? source state (some reply) after h reply rfl
      constructor
      · intro _ probe hprobe
        cases hprobe
      · intro _
        rw [← hlimit]
        exact hle

def replySize? (action : Action σ (Option Octets)) (state : State σ) : Option Nat :=
  match (action state).1 with
  | .ok reply? => reply?.map List.length
  | .error _ => none

theorem reply_of_size {action : Action σ (Option Octets)} {state : State σ} {size : Nat}
    (h : replySize? action state = some size) :
    ∃ reply after, action state = (.ok (some reply), after) ∧ reply.length = size := by
  rw [replySize?] at h
  cases hrun : action state with
  | mk outcome after =>
    rw [hrun] at h
    cases outcome with
    | error error => cases h
    | ok reply? =>
      rcases Option.map_eq_some_iff.1 h with ⟨reply, rfl, hlength⟩
      exact ⟨reply, after, rfl, hlength⟩

def takesForProbe (agent : Agent σ) (datagram : Octets) : Bool :=
  match agent.negotiate datagram with
  | .ok (.probe _) => true
  | _ => false

/-- A configuration with an empty default scope and nobody in it. -/
def bareConfig : Config Unit where
  scopes := [{}]
  engineId := ⟨[128, 0, 0, 0, 1]⟩

def bareAgent : Agent Unit where
  scopes := [{ registry := .empty }]
  routes := { default? := some 0 }
  engineId := ⟨[128, 0, 0, 0, 1]⟩
  suite := .standard
  host := { engineTime := pure 0, salt := fun _ => pure none }

/-- A version 2c request for sysUpTime.0. -/
def plainRequest : Octets :=
  [48, 38, 2, 1, 1, 4, 6, 112, 117, 98, 108, 105, 99, 160, 25, 2, 1, 1, 2, 1, 0, 2, 1, 0, 48, 14,
    48, 12, 6, 8, 43, 6, 1, 2, 1, 1, 3, 0, 5, 0]

/-- The request is answered, and the reply is as small as it has to be. -/
theorem length_reply_plainRequest :
    ∃ reply after, bareAgent.respond plainRequest default ⟨0, ()⟩ = (.ok (some reply), after) ∧
      reply.length ≤ 65507 := by
  have hsize : replySize? (bareAgent.respond plainRequest default) ⟨0, ()⟩ = some 40 := by
    decide +kernel
  obtain ⟨reply, after, hrespond, _⟩ := reply_of_size hsize
  obtain ⟨envelope, _, hiff⟩ := length_reply_le_iff hrespond
  have hrequest : ∀ probe, bareAgent.negotiate plainRequest ≠ .ok (.probe probe) := by
    intro probe hprobe
    have hnot : bareAgent.takesForProbe plainRequest = false := by decide +kernel
    rw [takesForProbe, hprobe] at hnot
    cases hnot
  refine ⟨reply, after, hrespond, Nat.le_trans ?_ envelope.sizeBound_le⟩
  exact hiff.2 fun probe hprobe => absurd hprobe (hrequest probe)

/-- A discovery probe whose sender takes 484 octets, with a context name of 600. -/
def longProbe : Octets :=
  [48, 130, 2, 147, 2, 1, 3, 48, 13, 2, 1, 1, 2, 2, 1, 228, 4, 1, 4, 2, 1, 3, 4, 16, 48, 14, 4, 0,
    2, 1, 0, 2, 1, 0, 4, 0, 4, 0, 4, 0, 48, 130, 2, 107, 4, 0, 4, 130, 2, 88]
  ++ List.replicate 600 97 ++ [160, 11, 2, 1, 1, 2, 1, 0, 2, 1, 0, 48, 0]

/-- The probe is answered with a report of 691 octets. -/
theorem report_exceeds_sizeBound :
    ∃ reply after envelope,
      bareConfig.prepare .standard bareAgent.host = .ok bareAgent ∧
      bareAgent.respond longProbe default ⟨0, ()⟩ = (.ok (some reply), after) ∧
      Envelope.ofDatagram longProbe = .ok envelope ∧
      envelope.sizeBound = 484 ∧ reply.length = 691 := by
  have hprepare : bareConfig.prepare .standard bareAgent.host = .ok bareAgent := by
    with_unfolding_all rfl
  have hsize : replySize? (bareAgent.respond longProbe default) ⟨0, ()⟩ = some 691 := by
    decide +kernel
  obtain ⟨reply, after, hrespond, hlength⟩ := reply_of_size hsize
  have hbound : (Envelope.ofDatagram longProbe).toOption.map Envelope.sizeBound = some 484 := by
    decide +kernel
  rcases Option.map_eq_some_iff.1 hbound with ⟨envelope, hopen, hbound⟩
  refine ⟨reply, after, envelope, hprepare, hrespond, ?_, hbound, hlength⟩
  cases hopened : Envelope.ofDatagram longProbe with
  | error error =>
    rw [hopened] at hopen
    cases hopen
  | ok found =>
    rw [hopened] at hopen
    cases hopen
    rfl

end Agent

end Snmp
