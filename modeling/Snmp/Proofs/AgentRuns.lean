/-
  Snmp/Proofs/AgentRuns.lean
  ==========================
  **Runs of an agent.**

  An agent whose callbacks and clock do not change with the state of the host answers the
  datagrams of a run in one of two ways.  Those that are sent for discovery are numbered, and
  each is answered with a report that shows its number (`Reported`).  The answer to every other
  datagram could have been foretold before the run began, and stays the same wherever the
  datagram stands in it (`Settles`); only the salt of an encrypted reply is drawn anew.

  Boots and time are written with 31 bits, so a reply shows the greatest number of so many bits
  in the place of a greater one (`ShowsClock`).
-/
import Snmp.Proofs.DiscoveryCount
import Snmp.Proofs.ForetoldAnswers

namespace Snmp

open Ber Usm

/-! ### The clock on the wire -/

/-- What is not shown of boots and time is not written either. -/
theorem Usm.Parameters.encode_capped (p : Parameters) : p.capped.encode = p.encode := by
  have hcount (count : UInt32) : wireCount (min count maxCount) = wireCount count := by
    rw [wireCount, wireCount, toNat_min_maxCount, Nat.min_assoc, Nat.min_self]
  simp only [encode_eq_element, content, fieldsBefore, capped, hcount]

namespace Message

variable {suite : Suite} {m : Message} {header : MsgHeader} {security : Parameters}
  {user? : Option User} {octets : Octets}

/-- Whatever is encoded in version 3 has the header and the parameters of the message around some
    data, with some code. -/
theorem exists_frame_of_encode (hsuite : suite.Lawful) (hversion : m.version = .v3)
    (hheader? : m.header? = some header) (hsecurity? : m.security? = some security)
    (hlength : octets.length < UInt64.size) (h : m.encode suite user? = .ok octets) :
    ∃ code data, octets = encodeV3 header (security.withCode code) data := by
  have hnot : ¬m.version.usesCommunity = true := by simp [hversion, Version.usesCommunity]
  simp only [encode, if_neg hnot, hheader?, hsecurity?] at h
  rcases Except.bind_eq_ok h with ⟨used?, _, h⟩
  rcases Except.bind_eq_ok h with ⟨data, _, h⟩
  cases used? with
  | none =>
    cases h
    exact ⟨security.authParams, data, rfl⟩
  | some user =>
    rcases Except.bind_eq_ok h with ⟨key, _, h⟩
    have hsigned := authenticate_encodeV3 hsuite.sized key rfl (authenticate_eq_ok hlength h)
    exact ⟨_, data, Except.ok.inj (h.symm.trans hsigned)⟩

/-- A message of version 3 is opened with its boots and its time, as far as they can be shown. -/
theorem exists_opened_of_encode (hsuite : suite.Lawful) (hversion : m.version = .v3)
    (hheader? : m.header? = some header) (hsecurity? : m.security? = some security)
    (hheader : header.Valid) (hfits : Fits octets) (h : m.encode suite user? = .ok octets) :
    ∃ shown authOffset content,
      Envelope.ofDatagram octets = .ok (.v3 header shown authOffset content) ∧
      shown.engineBoots = min security.engineBoots Parameters.maxCount ∧
      shown.engineTime = min security.engineTime Parameters.maxCount := by
  have hlength : octets.length < UInt64.size := Nat.lt_trans hfits (by decide)
  obtain ⟨code, data, rfl⟩ :=
    exists_frame_of_encode hsuite hversion hheader? hsecurity? hlength h
  obtain ⟨position, hopen⟩ := Envelope.ofDatagram_encodeV3 hheader (security.withCode code) data
    (fits_v3Content hfits)
  exact ⟨_, _, _, hopen, rfl, rfl⟩

end Message

namespace Agent

variable {σ : Type} {agent : Agent σ} {request : Message} {user? : Option User} {time : UInt32}

/-- Octets open as a message that shows the boots of an agent and a time, both with 31 bits at the
    most. -/
def ShowsClock (agent : Agent σ) (time : UInt32) (octets : Octets) : Prop :=
  ∃ header shown authOffset content,
    Envelope.ofDatagram octets = .ok (.v3 header shown authOffset content) ∧
    shown.engineBoots = min agent.engineBoots Parameters.maxCount ∧
    shown.engineTime = min time Parameters.maxCount

/-- A reply to a request of version 3 shows the clock. -/
theorem Delivers.showsClock (hsuite : agent.suite.Lawful) {pdu : Pdu} {octets : Octets}
    (h : agent.Delivers request user? time pdu octets) {header : MsgHeader}
    (hversion : request.version = .v3) (hheader? : request.header? = some header) :
    agent.ShowsClock time octets := by
  have hfits : Fits octets := by
    have hlimit := request.replySizeLimit_le
    have hle := h.limit
    rw [Fits, show UInt32.size = 4294967296 from rfl]
    omega
  have hsize : minMessageSize ≤ maxMessageSize := by decide
  have hvalid : MsgHeader.Valid ⟨header.msgId, maxMessageSize, .ofLevel header.flags.level false⟩ :=
    ⟨hsize, MsgFlags.auth_of_privacy_ofLevel⟩
  obtain ⟨hframe, hsecurity?⟩ := framed_of_header agent hheader? time pdu
  have hsame : (agent.framed request time pdu).version = .v3 :=
    (framed_eq_withPdu agent request time pdu).1.trans hversion
  cases h.sends with
  | plain _ hencode =>
    exact ⟨_, Message.exists_opened_of_encode hsuite hsame hframe hsecurity? hvalid hfits hencode⟩
  | salted salt _ hencode =>
    have hsalted : ((agent.framed request time pdu).withSalt salt).security? =
        some ((agent.identity request.userName time).withSalt salt) := by
      rw [Message.withSalt, hsecurity?, Option.map_some]
    exact ⟨_, Message.exists_opened_of_encode hsuite (m := (agent.framed request time
      pdu).withSalt salt) hsame hframe hsalted hvalid hfits hencode⟩

/-! ### Reports -/

/-- A message that reports to the sender of a probe which number the probe has. -/
structure Reports (agent : Agent σ) (probe : Message) (number time : UInt32) (report : Message) :
    Prop where
  version : report.version = .v3
  level : report.securityLevel = .noAuthNoPriv
  msgId : ∃ asked header, probe.header? = some asked ∧ report.header? = some header ∧
    header.msgId = asked.msgId
  security : report.security? = some {
    engineId := agent.engineId.octets
    engineBoots := min agent.engineBoots Parameters.maxCount
    engineTime := min time Parameters.maxCount
    userName := [] }
  contextEngineId : report.contextEngineId = agent.engineId.octets
  contextName : report.contextName = probe.contextName
  type : report.pdu.type = .report
  requestId : report.pdu.requestId = probe.pdu.requestId
  bindings : report.pdu.bindings = [⟨unknownEngineIds, .counter32 number⟩]

/-- An answer is the report to a probe that is the `count`th of a run, counted modulo 2^32.  Its
    sender can read it, unless it is too long for the length octets. -/
def Reported (agent : Agent σ) (probe : Message) (count : Nat) (time : UInt32)
    (answer : Except Error (Option Octets)) : Prop :=
  ∃ octets report number, answer = .ok (some octets) ∧ number.toNat = count % 2 ^ 32 ∧
    agent.Reports probe number time report ∧ report.encode agent.suite none = .ok octets ∧
    (Fits octets → Message.decode agent.suite octets none = .ok report)

/-- The report to a probe, as it is read. -/
theorem reports_reportMessage (agent : Agent σ) {probe : Message} {asked : MsgHeader}
    (hheader? : probe.header? = some asked) (number time : UInt32) :
    agent.Reports probe number time
      (agent.reportMessage probe number (agent.identity [] time).capped) := by
  constructor
  · rfl
  · rfl
  · refine ⟨asked, _, hheader?, rfl, ?_⟩
    rw [hheader?]
    rfl
  · rfl
  · rfl
  · rfl
  · rfl
  · rfl
  · rfl

theorem wellFormed_reportMessage (agent : Agent σ) (probe : Message) (number time : UInt32) :
    (agent.reportMessage probe number (agent.identity [] time).capped).WellFormed none := by
  have hcapped (count : UInt32) : min count Parameters.maxCount ≤ Parameters.maxCount := by
    rw [UInt32.le_iff_toNat_le, Parameters.toNat_min_maxCount]
    exact Nat.min_le_right _ _
  have hname : unknownEngineIds.Transmissible := ⟨by decide +kernel, by decide⟩
  have hsize : minMessageSize ≤ maxMessageSize := by decide
  constructor
  · constructor
    · intro b hb
      cases List.mem_singleton.1 hb
      exact ⟨hname, trivial⟩
    · intro htrap
      cases htrap
    · exact fun _ => rfl
  · intro hcommunity
    cases hcommunity
  · intro _
    refine ⟨rfl, _, (agent.identity [] time).capped, rfl, rfl,
      ⟨hsize, MsgFlags.auth_of_privacy_ofLevel⟩, hcapped _, hcapped _, ?_, ?_⟩
    · intro hlevel
      exact absurd rfl hlevel
    · intro hlevel
      cases hlevel

/-- What is sent back to a probe is the report as it is read. -/
theorem report_eq_encode (htime : ∀ state, (agent.host.engineTime state).1 = time)
    (probe : Message) (state : State σ) :
    ∃ octets, (agent.report probe state).1 = .ok octets ∧
      (agent.reportMessage probe (state.probes + 1) (agent.identity [] time).capped).encode
        agent.suite none = .ok octets := by
  have hcount : (ExceptT.lift countProbe : Action σ UInt32) state =
      (.ok (state.probes + 1), ⟨state.probes + 1, state.host⟩) := rfl
  have hcapped (header : MsgHeader) (data : Octets) :
      Message.encodeV3 header (agent.identity [] time).capped data =
        Message.encodeV3 header (agent.identity [] time) data := by
    rw [Message.encodeV3, Message.encodeV3, Parameters.encode_capped]
  refine ⟨_, ?_, Message.encode_plain rfl rfl rfl rfl agent.suite none⟩
  rw [report, bind_of_ok hcount, bind_of_ok (freshParameters_eq htime _ _),
    Message.encode_plain rfl rfl rfl rfl agent.suite none, hcapped]
  rfl

/-- Every probe is answered with the report that shows the next number. -/
theorem reported_of_decode (hsuite : agent.suite.Lawful)
    (htime : ∀ state, (agent.host.engineTime state).1 = time) {datagram : Octets} {probe : Message}
    (hdecode : Message.decode agent.suite datagram none = .ok probe)
    (hversion : probe.version = .v3) (hbindings : probe.pdu.bindings = []) {count : Nat}
    {state : State σ} (hcount : state.probes = UInt32.ofNat count) (source : Net.Endpoint) :
    agent.Reported probe (count + 1) time (agent.respond datagram source state).1 := by
  have hprobe : isProbe probe = true := by
    rw [isProbe, hversion, hbindings]
    rfl
  have hnegotiate : agent.negotiate datagram = .ok (.probe probe) := by
    simp only [negotiate, hdecode, if_pos hprobe]
  have hwell := Message.wellFormed_of_decode hsuite hdecode
  obtain ⟨_, asked, _, hheader?, _⟩ := hwell.v3 (by rw [hversion]; rfl)
  obtain ⟨octets, hreport, hencode⟩ := report_eq_encode htime probe state
  have hanswer : (agent.respond datagram source state).1 = .ok (some octets) := by
    simp only [respond, hnegotiate]
    cases hrun : agent.report probe state with
    | mk outcome after =>
    rw [hrun] at hreport
    cases hreport
    rw [bind_of_ok hrun]
    rfl
  refine ⟨octets, _, state.probes + 1, hanswer, ?_,
    reports_reportMessage agent hheader? _ time, hencode, ?_⟩
  · rw [hcount, UInt32.toNat_add, UInt32.toNat_ofNat]
    exact Nat.mod_add_mod _ _ _
  · intro hfits
    obtain ⟨_, hsame, hdecode⟩ :=
      (wellFormed_reportMessage agent probe (state.probes + 1) time).exists_encode hsuite
        fun hlevel => absurd rfl hlevel
    cases hencode.symm.trans hsame
    obtain ⟨other, hother, hcode⟩ := hdecode hfits
    rcases hcode with rfl | ⟨hlevel, _⟩
    · exact hother
    · exact absurd rfl hlevel

/-! ### Requests -/

/-- What comes of a datagram that was not sent for discovery, if it was foretold: it is refused, or
    answered as a request, or there is no salt for the answer. -/
inductive Settles (agent : Agent σ) (datagram : Octets) (time : UInt32)
    (foretold : Except Error (Option Pdu)) : Except Error (Option Octets) → Prop
  | refused {error : Error} : agent.negotiate datagram = .error error → foretold = .error error →
      Settles agent datagram time foretold (.error error)
  | answered {request : Message} {user? : Option User} {answer : Except Error (Option Octets)} :
      agent.negotiate datagram = .ok (.request request user?) →
      Agrees (Option.Rel (agent.Delivers request user? time)) foretold answer →
      Settles agent datagram time foretold answer
  | unsalted {request : Message} {user? : Option User} {error : Error} :
      agent.negotiate datagram = .ok (.request request user?) → agent.OutOfSalt request error →
      Settles agent datagram time foretold (.error error)

/-- Whatever a scope responds to a request that is encrypted, the parts of the reply leave room in
    an address space. -/
def Addressable (agent : Agent σ) (datagram : Datagram) : Prop :=
  ∀ request user?, agent.negotiate datagram.octets = .ok (.request request user?) →
    ∀ state pdu, responsePdu? request.pdu (agent.serve request datagram.source state).1 =
      some pdu → agent.HasRoom request pdu

theorem predictable_of_negotiate (hsuite : agent.suite.Lawful)
    (htime : ∀ state, (agent.host.engineTime state).1 = time) {datagram : Octets}
    (hnegotiate : agent.negotiate datagram = .ok (.request request user?)) :
    agent.Predictable request time := by
  have hwell := Message.wellFormed_of_decode hsuite (decode_of_negotiate hnegotiate)
  exact ⟨hsuite, htime, fun header hheader? => hwell.version_of_header hheader?⟩

/-- What comes of a datagram that was not sent for discovery can be foretold. -/
theorem exists_settles (hsuite : agent.suite.Lawful)
    (htime : ∀ state, (agent.host.engineTime state).1 = time)
    (hscopes : ∀ scope ∈ agent.scopes, scope.Steady) (datagram : Datagram) :
    ∃ foretold, agent.isDiscovery datagram.octets = false → agent.Addressable datagram →
      ∀ state, agent.Settles datagram.octets time foretold
        (agent.respond datagram.octets datagram.source state).1 := by
  cases hnegotiate : agent.negotiate datagram.octets with
  | error error =>
    refine ⟨.error error, ?_⟩
    intro _ _ state
    simp only [respond, hnegotiate]
    exact .refused hnegotiate rfl
  | ok negotiated =>
    cases negotiated with
    | probe probe =>
      refine ⟨.ok none, ?_⟩
      intro hnot
      cases (isDiscovery_of_negotiate hnegotiate).symm.trans hnot
    | request request user? =>
      by_cases haddressable : agent.Addressable datagram
      · obtain ⟨foretold, hforetold⟩ := exists_foretells_answer
          (predictable_of_negotiate hsuite htime hnegotiate) user? hscopes
          (haddressable request user? hnegotiate)
        refine ⟨foretold, ?_⟩
        intro _ _ state
        simp only [respond, hnegotiate]
        rcases hforetold state with hagrees | ⟨error, hlacks, herror⟩
        · exact .answered hnegotiate hagrees
        · rw [herror]
          exact .unsalted hnegotiate hlacks
      · exact ⟨.ok none, fun _ h => absurd h haddressable⟩

theorem Settles.showsClock (hsuite : agent.suite.Lawful) {datagram octets : Octets}
    {foretold : Except Error (Option Pdu)}
    (h : agent.Settles datagram time foretold (.ok (some octets)))
    (hnegotiate : agent.negotiate datagram = .ok (.request request user?))
    (hversion : request.version = .v3) : agent.ShowsClock time octets := by
  have hwell := Message.wellFormed_of_decode hsuite (decode_of_negotiate hnegotiate)
  obtain ⟨_, header, _, hheader?, _⟩ := hwell.v3 (by rw [hversion]; rfl)
  cases h with
  | answered hsame hagrees =>
    cases hnegotiate.symm.trans hsame
    cases hagrees with
    | ok hrelated =>
      cases hrelated with
      | some hdelivers => exact hdelivers.showsClock hsuite hversion hheader?

/-! ### Runs -/

/-- In a run of an agent with steady callbacks and a clock that stands still, each datagram that
    was sent for discovery is answered with the report that shows its number.  Every other one
    leaves the counter alone and comes to what was foretold for it, whatever stands before it in
    the run. -/
theorem run_answers {suite : Suite} {config : Config σ} {host : Host σ}
    (hsuite : suite.Lawful) (hprepare : config.prepare suite host = .ok agent)
    (hentries : ∀ scope ∈ config.scopes, ∀ v ∈ scope.entries, v.Steady)
    (htime : ∀ state, (host.engineTime state).1 = time) :
    ∃ foretold : Datagram → Except Error (Option Pdu),
      ∀ (start : σ) (earlier : List Datagram) (datagram : Datagram) (later : List Datagram),
      ∃ answer, (agent.run (earlier ++ datagram :: later) ⟨0, start⟩).1[earlier.length]? =
          some answer ∧
        (∀ probe, Message.decode suite datagram.octets none = .ok probe → probe.version = .v3 →
          probe.pdu.bindings = [] →
          agent.Reported probe (agent.discoveries earlier + 1) time answer) ∧
        (agent.isDiscovery datagram.octets = false →
          (agent.run (earlier ++ [datagram]) ⟨0, start⟩).2.probes =
            (agent.run earlier ⟨0, start⟩).2.probes ∧
          (agent.Addressable datagram →
            agent.Settles datagram.octets time (foretold datagram) answer ∧
            ∀ request user? octets,
              agent.negotiate datagram.octets = .ok (.request request user?) →
              request.version = .v3 → answer = .ok (some octets) →
              agent.ShowsClock time octets)) := by
  have hscopes := steady_of_prepare hprepare hentries
  obtain ⟨rfl, rfl⟩ : suite = agent.suite ∧ host = agent.host := by
    obtain ⟨_, _, _, _, _, _, hagent⟩ := Config.prepare_eq_ok hprepare
    rw [hagent]
    exact ⟨rfl, rfl⟩
  choose foretold hforetold using exists_settles hsuite htime hscopes
  refine ⟨foretold, ?_⟩
  intro start earlier datagram later
  refine ⟨_, agent.getElem?_run datagram later earlier ⟨0, start⟩, ?_, ?_⟩
  · intro probe hdecode hversion hbindings
    have hcount := agent.probes_run earlier ⟨0, start⟩
    rw [UInt32.zero_add] at hcount
    exact reported_of_decode hsuite htime hdecode hversion hbindings hcount datagram.source
  · intro hnot
    constructor
    · rw [probes_run, probes_run, discoveries_concat hnot]
    · intro haddressable
      have hsettles := hforetold datagram hnot haddressable (agent.run earlier ⟨0, start⟩).2
      refine ⟨hsettles, ?_⟩
      intro request user? octets hnegotiate hversion hanswer
      rw [hanswer] at hsettles
      exact hsettles.showsClock hsuite hnegotiate hversion

/-- A version 3 request for nothing. -/
def discoveryRequest : Octets :=
  [48, 56, 2, 1, 3, 48, 14, 2, 1, 1, 2, 3, 0, 255, 227, 4, 1, 4, 2, 1, 3, 4, 16, 48, 14, 4, 0,
    2, 1, 0, 2, 1, 0, 4, 0, 4, 0, 4, 0, 48, 17, 4, 0, 4, 0, 160, 11, 2, 1, 9, 2, 1, 0, 2, 1, 0,
    48, 0]

theorem steady_clockConfig : ∀ scope ∈ clockConfig.scopes, ∀ v ∈ scope.entries, v.Steady := by
  intro scope hscope v hv
  cases List.mem_singleton.1 hscope
  cases List.mem_singleton.1 hv
  constructor
  · intro callback hread
    cases hread
    exact fun _ _ => rfl
  · intro callback hwrite
    cases hwrite
  · intro check hpermission
    cases hpermission
  · intro callback hnotify
    cases hnotify

/-- Two requests for nothing, with one for the clock between them: the second is the second. -/
theorem run_answers_clockAgent :
    ∃ answers foretold clock probe octets report,
      (clockAgent.run [⟨discoveryRequest, default⟩, ⟨plainRequest, default⟩,
        ⟨discoveryRequest, default⟩] ⟨0, ()⟩).1 = answers ∧
      answers[1]? = some clock ∧ clockAgent.Settles plainRequest 300 foretold clock ∧
      Message.decode .brief discoveryRequest none = .ok probe ∧
      answers[2]? = some (.ok (some octets)) ∧ clockAgent.Reports probe 2 300 report ∧
      report.encode .brief none = .ok octets := by
  have hprepare : clockConfig.prepare .brief clockAgent.host = .ok clockAgent := by
    with_unfolding_all rfl
  obtain ⟨foretold, hrun⟩ :=
    run_answers Suite.brief_lawful hprepare steady_clockConfig fun _ => rfl
  have hprobe : (Message.decode .brief discoveryRequest none).toOption.map
      (fun probe => (probe.version, probe.pdu.bindings)) = some (.v3, []) := by
    decide +kernel
  obtain ⟨probe, hdecode, hfields⟩ := Except.eq_ok_of_toOption_map hprobe
  obtain ⟨hversion, hbindings⟩ := Prod.mk.inj hfields
  have hdiscovery : clockAgent.isDiscovery discoveryRequest = true := by decide +kernel
  have hplain : clockAgent.isDiscovery plainRequest = false := by decide +kernel
  have hlevel : (clockAgent.negotiate plainRequest).toOption.map (·.message.securityLevel) =
      some .noAuthNoPriv := by
    decide +kernel
  have haddressable : clockAgent.Addressable ⟨plainRequest, default⟩ := by
    intro request user? hnegotiate state pdu _ hencrypted
    rw [hnegotiate] at hlevel
    cases hencrypted.symm.trans (Option.some.inj hlevel)
  have hcount : clockAgent.discoveries [⟨discoveryRequest, default⟩,
      ⟨plainRequest, default⟩] = 1 := by
    simp only [discoveries, List.countP_cons, List.countP_nil, hdiscovery, hplain]
    rfl
  obtain ⟨clock, hclock, _, hsettles⟩ := hrun () [⟨discoveryRequest, default⟩]
    ⟨plainRequest, default⟩ [⟨discoveryRequest, default⟩]
  obtain ⟨_, hlast, hreported, _⟩ := hrun ()
    [⟨discoveryRequest, default⟩, ⟨plainRequest, default⟩] ⟨discoveryRequest, default⟩ []
  obtain ⟨octets, report, number, rfl, hnumber, hreports, hencode, _⟩ :=
    hreported probe hdecode hversion hbindings
  rw [hcount] at hnumber
  have htwo : number = 2 := UInt32.toNat_inj.1 hnumber
  rw [htwo] at hreports
  exact ⟨_, _, clock, probe, octets, report, rfl, hclock, ((hsettles hplain).2 haddressable).1,
    hdecode, hlast, hreports, hencode⟩

end Agent

end Snmp
