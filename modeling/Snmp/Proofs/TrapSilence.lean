/-
  Snmp/Proofs/TrapSilence.lean
  ============================
  **Which traps stay without an answer.**

  Two places keep a trap from being answered: its scope makes no response of what the callbacks
  yield, and an error of routing or serving is not turned into a response either.  Both lie
  behind negotiation, which looks at the version and the bindings of a message that needs no
  keys, and not at the operation.  So a version 3 trap that is not signed and has no bindings
  passes for a discovery probe, and is answered with a report before anybody has seen that it
  is a trap.  Every other trap is silent (`respond_trap_iff`), whichever way it is
  protected, routed or served.
-/
import Snmp.Proofs.OnePass
import Snmp.Proofs.ReplySize
import Snmp.Proofs.ServingPlan

namespace Snmp

open Ber Usm

/-! ### What passes for a probe -/

/-- A message that looks like a discovery probe: an unprotected one of version 3 that asks for no
    variable. -/
structure Message.PassesForProbe (m : Message) : Prop where
  version : m.version = .v3
  level : m.securityLevel = .noAuthNoPriv
  bindings : m.pdu.bindings = []

namespace Message

variable {suite : Suite} {datagram : Octets} {message : Message}

theorem securityLevel_of_decode_none (h : decode suite datagram none = .ok message) :
    message.securityLevel = .noAuthNoPriv := by
  cases hlevel : message.securityLevel with
  | noAuthNoPriv => rfl
  | authNoPriv =>
    obtain ⟨user, _, _, _, hsome, _⟩ := signed_of_decode h (.inl (by rw [hlevel]; decide))
    cases hsome
  | authPriv =>
    obtain ⟨user, _, _, _, hsome, _⟩ := signed_of_decode h (.inl (by rw [hlevel]; decide))
    cases hsome

/-- The keys with which an unsigned message was decoded did not matter. -/
theorem decode_none_of_plain {user? : Option User} (h : decode suite datagram user? = .ok message)
    (hlevel : message.securityLevel = .noAuthNoPriv) :
    decode suite datagram none = .ok message := by
  rw [← h]
  apply decode_of_not_isSigned
  intro envelope hopen
  rcases decode_eq_ok h with ⟨found, hfound, hunlock⟩
  cases hopen.symm.trans hfound
  cases envelope with
  | community => rfl
  | v3 header security authOffset content =>
    rcases Envelope.unlock_eq_ok hunlock with ⟨_, _, _, _, _, _, hread⟩
    rw [securityLevel, (Envelope.decodeScoped_eq_ok hread).2.1] at hlevel
    exact MsgFlags.level_eq_noAuthNoPriv.1 hlevel

end Message

namespace Agent

variable {σ : Type} {agent : Agent σ} {datagram : Octets} {negotiated : Negotiated}

theorem isProbe_iff {message : Message} (hlevel : message.securityLevel = .noAuthNoPriv) :
    isProbe message = true ↔ message.PassesForProbe := by
  simp only [isProbe, Bool.and_eq_true, decide_eq_true_eq, List.isEmpty_iff]
  constructor
  · intro h
    exact ⟨h.1, hlevel, h.2⟩
  · intro h
    exact ⟨h.version, h.bindings⟩

/-- Negotiation takes for a probe whatever passes for one, and nothing else. -/
theorem passesForProbe_iff (h : agent.negotiate datagram = .ok negotiated) :
    negotiated.message.PassesForProbe ↔ ∃ probe, negotiated = .probe probe := by
  rw [negotiate] at h
  split at h
  · rename_i message hdecode
    have hprobe := isProbe_iff (Message.securityLevel_of_decode_none hdecode)
    by_cases hpasses : isProbe message = true
    · rw [if_pos hpasses] at h
      cases h
      exact ⟨fun _ => ⟨message, rfl⟩, fun _ => hprobe.1 hpasses⟩
    · rw [if_neg hpasses] at h
      cases h
      constructor
      · intro hmessage
        exact absurd (hprobe.2 hmessage) hpasses
      · rintro ⟨probe, hsame⟩
        cases hsame
  · rename_i failure hfirst
    split at h
    · cases h
    split at h
    · cases h
    split at h
    · rename_i message hsecond
      cases h
      constructor
      · intro hmessage
        -- read without keys, it would not have come to a second pass
        rw [Message.decode_none_of_plain hsecond hmessage.level] at hfirst
        cases hfirst
      · rintro ⟨probe, hsame⟩
        cases hsame
    · cases h

/-! ### Traps behind negotiation -/

theorem responsePdu?_of_isTrap (agent : Agent σ) {message : Message}
    (htrap : message.pdu.type.isTrap = true) (source : Net.Endpoint) (state : State σ) :
    responsePdu? message.pdu (agent.serve message source state).1 = none := by
  cases hroute : agent.route message.routingKey with
  | error error =>
    rw [serve_of_route_error hroute]
    exact if_pos htrap
  | ok scope =>
    rw [serve_of_route_ok hroute, scope.serve_of_isTrap (context message source) htrap]
    rfl

theorem answer_of_isTrap (agent : Agent σ) {message : Message}
    (htrap : message.pdu.type.isTrap = true) (user? : Option User) (source : Net.Endpoint)
    (state : State σ) : (agent.answer message user? source state).1 = .ok none := by
  have hserve : (ExceptT.lift (agent.serve message source) : Action σ _) state =
      (.ok (agent.serve message source state).1, (agent.serve message source state).2) := rfl
  rw [answer, bind_of_ok hserve, responsePdu?_of_isTrap agent htrap source state]
  rfl

/-- A trap that was read gets no reply if and only if it does not pass for a probe.  One that
    does is always replied to. -/
theorem respond_trap_iff (h : agent.negotiate datagram = .ok negotiated)
    (htrap : negotiated.message.pdu.type.isTrap = true) (source : Net.Endpoint)
    (state : State σ) :
    ((agent.respond datagram source state).1 = .ok none ↔
      ¬negotiated.message.PassesForProbe) ∧
    (negotiated.message.PassesForProbe →
      ∃ reply, (agent.respond datagram source state).1 = .ok (some reply)) := by
  have hprobe := passesForProbe_iff h
  cases negotiated with
  | probe probe =>
    have hpasses : probe.PassesForProbe := hprobe.2 ⟨probe, rfl⟩
    obtain ⟨report, after, hreport, _⟩ := agent.report_eq_ok probe state
    have hrespond : (agent.respond datagram source state).1 = .ok (some report) := by
      simp only [respond, h]
      rw [bind_of_ok hreport]
      rfl
    refine ⟨⟨?_, fun hnot => absurd hpasses hnot⟩, fun _ => ⟨report, hrespond⟩⟩
    intro hsilent
    rw [hrespond] at hsilent
    cases hsilent
  | request message user? =>
    have hnot : ¬message.PassesForProbe := by
      intro hpasses
      rcases hprobe.1 hpasses with ⟨probe, hsame⟩
      cases hsame
    refine ⟨⟨fun _ => hnot, fun _ => ?_⟩, fun hpasses => absurd hpasses hnot⟩
    simp only [respond, h]
    exact agent.answer_of_isTrap htrap user? source state

/-- A version 3 trap without bindings that the user of `exampleConfig` has signed. -/
def signedTrap : Octets :=
  [48, 81, 2, 1, 3, 48, 14, 2, 1, 7, 2, 3, 0, 255, 227, 4, 1, 1, 2, 1, 3, 4, 36, 48, 34, 4, 5,
    128, 0, 0, 0, 1, 2, 1, 2, 2, 2, 1, 44, 4, 2, 111, 112, 4, 12, 68, 181, 228, 179, 201, 246,
    244, 222, 32, 80, 1, 224, 4, 0, 48, 22, 4, 5, 128, 0, 0, 0, 1, 4, 0, 167, 11, 2, 1, 9, 2, 1,
    0, 2, 1, 0, 48, 0]

/-- The signed trap is silent, although it has no bindings. -/
theorem respond_trap_iff_signedTrap :
    ∃ negotiated, exampleAgent.negotiate signedTrap = .ok negotiated ∧
      negotiated.message.pdu.type = .trapV2 ∧
      (exampleAgent.respond signedTrap default ⟨0, ()⟩).1 = .ok none := by
  have hfacts : (exampleAgent.negotiate signedTrap).toOption.map (fun found =>
      (found.message.pdu.type, found.message.securityLevel)) = some (.trapV2, .authNoPriv) := by
    decide +kernel
  obtain ⟨negotiated, hnegotiate, hfacts⟩ := Except.eq_ok_of_toOption_map hfacts
  obtain ⟨htype, hlevel⟩ := Prod.mk.inj hfacts
  refine ⟨negotiated, hnegotiate, htype, ?_⟩
  apply (respond_trap_iff hnegotiate (by rw [htype]; rfl) default ⟨0, ()⟩).1.2
  intro hpasses
  cases hlevel.symm.trans hpasses.level

/-- A version 3 trap without bindings that nobody has signed. -/
def bareTrap : Octets :=
  [48, 66, 2, 1, 3, 48, 14, 2, 1, 1, 2, 3, 0, 255, 227, 4, 1, 0, 2, 1, 3, 4, 21, 48, 19, 4, 5,
    128, 0, 0, 0, 1, 2, 1, 0, 2, 1, 0, 4, 0, 4, 0, 4, 0, 48, 22, 4, 5, 128, 0, 0, 0, 1, 4, 0,
    167, 11, 2, 1, 9, 2, 1, 0, 2, 1, 0, 48, 0]

/-- The unsigned trap is answered with a report. -/
theorem bareTrap_answered :
    ∃ negotiated reply,
      bareConfig.prepare .standard bareAgent.host = .ok bareAgent ∧
      bareAgent.negotiate bareTrap = .ok negotiated ∧
      negotiated.message.pdu.type = .trapV2 ∧
      (bareAgent.respond bareTrap default ⟨0, ()⟩).1 = .ok (some reply) := by
  have hprepare : bareConfig.prepare .standard bareAgent.host = .ok bareAgent := by
    with_unfolding_all rfl
  have htype : (bareAgent.negotiate bareTrap).toOption.map (·.message.pdu.type) =
      some .trapV2 := by
    decide +kernel
  obtain ⟨negotiated, hnegotiate, htype⟩ := Except.eq_ok_of_toOption_map htype
  have hsize : replySize? (bareAgent.respond bareTrap default) ⟨0, ()⟩ = some 85 := by
    decide +kernel
  obtain ⟨reply, after, hrespond, _⟩ := reply_of_size hsize
  exact ⟨negotiated, reply, hprepare, hnegotiate, htype, by rw [hrespond]⟩

end Agent

end Snmp
