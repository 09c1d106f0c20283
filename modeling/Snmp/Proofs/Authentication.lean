/-
  Snmp/Proofs/Authentication.lean
  ===============================
  **No request is served in the name of a user who has not signed it.**

  A request reaches a scope in one place only (`handover?`).  If it claims a level above
  noAuthNoPriv, by its context or by the flags in its datagram, then the first pass of
  negotiation, which has no credentials, cannot have accepted it; so the second has, with the
  user that the datagram names, and the code in the datagram is the one that this user's key
  gives for all of its octets, zeros standing in the place of the code and nowhere else.

  Nothing is assumed of the cryptographic functions.
-/
import Snmp.Agent.Config
import Snmp.Agent.Respond
import Snmp.Proofs.MessageRoundTrip
import Snmp.Proofs.Unlocking

namespace Snmp

open Ber Usm

variable {suite : Suite}

/-! ### Signed datagrams -/

/-- Whether a request claims to be signed, by its level or by the flags of its datagram. -/
def ClaimsSignature (datagram : Octets) (level : SecurityLevel) : Prop :=
  .authNoPriv ≤ level ∨ ∃ header security authOffset content,
    Envelope.ofDatagram datagram = .ok (.v3 header security authOffset content) ∧
    header.flags.auth = true

/-- A datagram that carries the code of a user over all its octets, with zeros in the place of
    the code, and whose message was decrypted with the key of the user if it says that it is
    encrypted. -/
structure Signed (suite : Suite) (user : User) {header : MsgHeader} {security : Parameters}
    (layout : Envelope.Layout header security) (message : Message) : Prop where
  name : user.name = security.userName
  level : header.flags.level ≤ user.securityLevel
  code : ∃ key, user.authKey suite security.engineId = .ok key ∧
    security.authParams = key.sign suite
      (layout.front ++ Octets.zeros security.authParams.length ++ layout.back)
  decrypted : header.flags.level = .authPriv → ∃ protocol key cipher plaintext encrypted more,
    user.privKey suite security.engineId = .ok (protocol, key) ∧
    layout.content = encrypted ++ more ∧ IsElement Tag.octetString cipher encrypted ∧
    protocol.decrypt suite key.octets
      ⟨security.engineBoots, security.engineTime, security.privParams⟩ cipher = .ok plaintext ∧
    Envelope.ReadsPlaintext header security plaintext message

/-- Both claims are those of the flags in the header. -/
theorem Message.header_of_claim {datagram : Octets} {user? : Option User} {message : Message}
    (h : Message.decode suite datagram user? = .ok message)
    (hclaim : ClaimsSignature datagram message.securityLevel) :
    ∃ header security authOffset content,
      Envelope.ofDatagram datagram = .ok (.v3 header security authOffset content) ∧
      (Envelope.v3 header security authOffset content).unlock suite datagram user? = .ok message ∧
      header.flags.level ≠ .noAuthNoPriv := by
  rcases decode_eq_ok h with ⟨envelope, hopen, hunlock⟩
  cases envelope with
  | community found =>
    cases hunlock
    rcases hclaim with hlevel | ⟨header, security, authOffset, content, hv3, _⟩
    · rw [securityLevel, (Envelope.ofDatagram_eq_community hopen).1] at hlevel
      exact absurd hlevel (by decide)
    · rw [hopen] at hv3
      cases hv3
  | v3 header security authOffset content =>
    refine ⟨header, security, authOffset, content, hopen, hunlock, ?_⟩
    rcases hclaim with hlevel | ⟨_, _, _, _, hv3, hauth⟩
    · rcases Envelope.unlock_eq_ok hunlock with ⟨_, _, _, _, _, _, hread⟩
      rw [securityLevel, (Envelope.decodeScoped_eq_ok hread).2.1] at hlevel
      intro hnone
      simp only [hnone] at hlevel
      exact absurd hlevel (by decide)
    · rw [hopen] at hv3
      cases hv3
      rw [ne_eq, MsgFlags.level_eq_noAuthNoPriv, hauth]
      decide

/-- A message that claims to be signed is decoded only with a user who has signed it. -/
theorem Message.signed_of_decode {datagram : Octets} {user? : Option User} {message : Message}
    (h : Message.decode suite datagram user? = .ok message)
    (hclaim : ClaimsSignature datagram message.securityLevel) :
    ∃ user header security, ∃ layout : Envelope.Layout header security,
      user? = some user ∧ datagram = layout.octets ∧ security.userName = message.userName ∧
      header.flags.level = message.securityLevel ∧ Signed suite user layout message := by
  obtain ⟨header, security, authOffset, content, hopen, hunlock, hlevel⟩ := header_of_claim h hclaim
  obtain ⟨layout, hlayout, hauthOffset, hcontent⟩ := Envelope.ofDatagram_eq_v3 hopen
  rcases Envelope.unlock_eq_ok hunlock with ⟨used?, inner, left, huser, hcode, hinner, hread⟩
  rcases Envelope.decodingUser_eq_ok hlevel huser with ⟨user, huser?, rfl, hname, hle⟩
  rcases Envelope.checkCode_eq_ok hcode with ⟨key, hkey, hsign⟩
  rcases Envelope.decodeScoped_eq_ok hread with ⟨_, hheader?, hsecurity?⟩
  refine ⟨user, header, security, layout, huser?, hlayout, ?_, ?_, hname, hle, ⟨key, hkey, ?_⟩, ?_⟩
  · simp only [userName, hsecurity?]
  · simp only [securityLevel, hheader?]
  · rw [hlayout, hauthOffset, Envelope.Layout.unsigned_octets] at hsign
    exact hsign
  · intro hpriv
    rw [← hcontent]
    exact Envelope.openScoped_eq_ok (MsgFlags.privacy_of_level hpriv) hinner hread

/-! ### Prepared users -/

/-- What a prepared user has signed, the configured one has. -/
theorem Signed.of_prepared {user prepared : User} {header : MsgHeader} {security : Parameters}
    {layout : Envelope.Layout header security} {message : Message}
    (hprepare : user.prepare suite = .ok prepared) (hunprepared : user.Unprepared)
    (h : Signed suite prepared layout message) : Signed suite user layout message := by
  rcases Usm.User.prepare_eq_ok hprepare with ⟨hname, hlevel, hkeeps⟩
  refine ⟨hname ▸ h.name, hlevel ▸ h.level, ?_, ?_⟩
  · rw [← hkeeps.authKey_eq hunprepared]
    exact h.code
  · rw [← hkeeps.privKey_eq hunprepared]
    exact h.decrypted

namespace Agent

variable {σ : Type}

theorem mem_of_prepareUsers {users : List User} : ∀ {taken : List Octets} {prepared : List User},
    prepareUsers suite taken users = .ok prepared →
    ∀ user ∈ prepared, ∃ configured ∈ users, configured.prepare suite = .ok user := by
  induction users with
  | nil =>
    intro taken prepared h user hmem
    cases h
    cases hmem
  | cons first rest ih =>
    intro taken prepared h user hmem
    rcases Except.bind_eq_ok h with ⟨firstPrepared, hfirst, h⟩
    split at h
    · contradiction
    · rcases Except.bind_eq_ok h with ⟨restPrepared, hrest, h⟩
      cases h
      rcases List.mem_cons.1 hmem with rfl | hmem
      · exact ⟨first, List.mem_cons_self, hfirst⟩
      · rcases ih hrest user hmem with ⟨configured, hconfigured, hprepare⟩
        exact ⟨configured, List.mem_cons_of_mem _ hconfigured, hprepare⟩

/-- An agent is what its configuration says, with scopes that were built and users that were
    prepared. -/
theorem Config.prepare_eq_ok {config : Config σ} {host : Host σ} {agent : Agent σ}
    (h : config.prepare suite host = .ok agent) :
    ∃ scopes routes users, config.scopes.mapM (·.build) = .ok scopes ∧
      Routes.ofScopes scopes = .ok routes ∧ prepareUsers suite [] config.users = .ok users ∧
      agent = { scopes, routes, users, suite, host
                engineId := config.engineId
                engineBoots := config.engineBoots
                ignoresKeys := config.ignoresKeys } := by
  simp only [Config.prepare] at h
  split at h
  · contradiction
  split at h
  · contradiction
  rcases Except.bind_eq_ok h with ⟨scopes, hscopes, h⟩
  rcases Except.bind_eq_ok h with ⟨routes, hroutes, h⟩
  rcases Except.bind_eq_ok h with ⟨users, husers, h⟩
  cases h
  exact ⟨scopes, routes, users, hscopes, Except.eq_ok_of_mapError hroutes,
    Except.eq_ok_of_mapError husers, rfl⟩

theorem Config.users_of_prepare {config : Config σ} {host : Host σ} {agent : Agent σ}
    (h : config.prepare suite host = .ok agent) :
    agent.suite = suite ∧
      ∀ user ∈ agent.users, ∃ configured ∈ config.users, configured.prepare suite = .ok user := by
  obtain ⟨_, _, users, _, _, husers, rfl⟩ := Config.prepare_eq_ok h
  exact ⟨rfl, mem_of_prepareUsers husers⟩

/-! ### Requests that reach a scope -/

theorem serve_of_route_ok {agent : Agent σ} {message : Message} {scope : Mib.Scope σ}
    (h : agent.route message.routingKey = .ok scope) (source : Net.Endpoint) (state : State σ) :
    (agent.serve message source state).1 =
      (scope.serve (context message source) message.pdu state.host).1 := by
  simp only [serve, h]
  rfl

theorem serve_of_route_error {agent : Agent σ} {message : Message} {error : Error}
    (h : agent.route message.routingKey = .error error) (source : Net.Endpoint)
    (state : State σ) : (agent.serve message source state).1 = .error error := by
  simp only [serve, h]
  rfl

structure Handover (σ : Type) where
  scope : Mib.Scope σ
  context : Mib.RequestContext
  message : Message
  /-- The user whose keys the reply is protected with. -/
  user? : Option User

/-- What an agent hands to a scope when it gets a datagram. -/
def handover? (agent : Agent σ) (datagram : Octets) (source : Net.Endpoint) :
    Option (Handover σ) :=
  match agent.negotiate datagram with
  | .ok (.request message user?) =>
    (agent.scope? message.routingKey).map (⟨·, context message source, message, user?⟩)
  | _ => none

/-- A scope serves what it is handed, and the reply follows from what that came to. -/
def respondTo (agent : Agent σ) (handed : Handover σ) : Action σ (Option Octets) := do
  let served ← ExceptT.lift (onHost (handed.scope.serve handed.context handed.message.pdu))
  match responsePdu? handed.message.pdu served with
  | none => return none
  | some pdu => return some (← agent.encodeReply handed.message handed.user? pdu)

/-- What is answered without any scope: a probe with a report, and a request that nobody serves
    with an error. -/
def respondUnserved (agent : Agent σ) (datagram : Octets) : Action σ (Option Octets) :=
  match agent.negotiate datagram with
  | .error error => throw error
  | .ok (.probe message) => do return some (← agent.report message)
  | .ok (.request message user?) =>
    match responsePdu? message.pdu
      (.error (.noAgentInstance (Text.Utf8.decodeLossy message.routingKey))) with
    | none => return none
    | some pdu => do return some (← agent.encodeReply message user? pdu)

theorem respond_of_handover {agent : Agent σ} {datagram : Octets} {source : Net.Endpoint}
    {handed : Handover σ} (h : agent.handover? datagram source = some handed) :
    agent.respond datagram source = agent.respondTo handed := by
  rw [handover?] at h
  split at h
  · rename_i message user? hnegotiate
    cases hscope : agent.scope? message.routingKey with
    | none => simp [hscope] at h
    | some scope =>
      rw [hscope] at h
      cases h
      have hserve : agent.serve message source =
          onHost (scope.serve (context message source) message.pdu) := by
        simp only [serve, route, hscope]
      rw [respond, hnegotiate, respondTo, ← hserve]
      rfl
  · contradiction

theorem respond_of_handover?_eq_none {agent : Agent σ} {datagram : Octets} {source : Net.Endpoint}
    (h : agent.handover? datagram source = none) :
    agent.respond datagram source = agent.respondUnserved datagram := by
  rw [respond, respondUnserved]
  cases hnegotiate : agent.negotiate datagram with
  | error error => rfl
  | ok negotiated =>
    cases negotiated with
    | probe message => rfl
    | request message user? =>
      rw [handover?, hnegotiate] at h
      have hscope : agent.scope? message.routingKey = none := Option.map_eq_none_iff.1 h
      have hserve : agent.serve message source =
          return .error (.noAgentInstance (Text.Utf8.decodeLossy message.routingKey)) := by
        simp only [serve, route, hscope]
      change agent.answer message user? source = _
      rw [answer, hserve]
      rfl

/-- A datagram is answered without any scope, or what it asks for is handed to one scope.  If the
    request claims to be signed, it is handed over only if a registered user of its name,
    configured for at least its level, has signed the datagram that it came in.  Users are
    configured without keys; the agent has derived these from their passphrases. -/
theorem handover_signed {config : Config σ} {host : Host σ} {agent : Agent σ}
    (hprepare : config.prepare suite host = .ok agent)
    (hunprepared : ∀ user ∈ config.users, user.Unprepared) (datagram : Octets)
    (source : Net.Endpoint) :
    (agent.handover? datagram source = none →
      agent.respond datagram source = agent.respondUnserved datagram) ∧
    ∀ handed, agent.handover? datagram source = some handed →
      agent.respond datagram source = agent.respondTo handed ∧
      (ClaimsSignature datagram handed.context.securityLevel →
        ∃ user ∈ config.users, ∃ header security, ∃ layout : Envelope.Layout header security,
          datagram = layout.octets ∧ user.name = handed.context.userName ∧
          security.userName = handed.context.userName ∧
          header.flags.level = handed.context.securityLevel ∧
          handed.context.securityLevel ≤ user.securityLevel ∧
          Signed suite user layout handed.message) := by
  refine ⟨respond_of_handover?_eq_none, fun handed hhanded => ⟨respond_of_handover hhanded, ?_⟩⟩
  intro hclaim
  obtain ⟨rfl, husers⟩ := Config.users_of_prepare hprepare
  rw [handover?] at hhanded
  split at hhanded
  · rename_i message user? hnegotiate
    rcases Option.map_eq_some_iff.1 hhanded with ⟨scope, _, rfl⟩
    rcases negotiate_eq_ok hnegotiate with ⟨credentials?, hdecode, hmem⟩
    obtain ⟨prepared, header, security, layout, hsome, hlayout, huserName, hlevel, hsigned⟩ :=
      Message.signed_of_decode hdecode hclaim
    obtain ⟨user, huser, huserPrepare⟩ := husers prepared (hmem prepared hsome)
    have hconfigured := hsigned.of_prepared huserPrepare (hunprepared user huser)
    refine ⟨user, huser, header, security, layout, hlayout, ?_, huserName, hlevel, ?_, hconfigured⟩
    · rw [hconfigured.name, huserName]
      rfl
    · have hle := hconfigured.level
      rwa [hlevel] at hle
  · contradiction

/-- A configuration with one user and nothing to serve. -/
def exampleConfig : Config Unit where
  scopes := [{}]
  users := [Message.exampleUser]
  engineId := ⟨[128, 0, 0, 0, 1]⟩

def exampleHost : Host Unit where
  engineTime := pure 0
  salt _ := pure none

/-- The user as an agent keeps it. -/
def preparedUser : User where
  name := [111, 112]
  auth? := some ⟨.md5, [97], some (.ofPassphrase .brief .md5 [97])⟩
  privacy? := some ⟨.des, [98], some (.ofPassphrase .brief .md5 [98])⟩

def exampleAgent : Agent Unit where
  scopes := [{ registry := .empty }]
  routes := { default? := some 0 }
  users := [preparedUser]
  engineId := ⟨[128, 0, 0, 0, 1]⟩
  suite := .brief
  host := exampleHost

def exampleDatagram : Octets :=
  [48, 107, 2, 1, 3, 48, 14, 2, 1, 7, 2, 3, 0, 255, 227, 4, 1, 7, 2, 1, 3, 4, 44, 48, 42, 4, 5,
    128, 0, 0, 0, 1, 2, 1, 2, 2, 2, 1, 44, 4, 2, 111, 112, 4, 12, 248, 96, 186, 215, 79, 126, 73,
    220, 27, 42, 138, 37, 4, 8, 1, 2, 3, 4, 5, 6, 7, 8, 4, 40, 94, 190, 76, 37, 220, 53, 211, 81,
    41, 9, 85, 247, 183, 83, 195, 214, 20, 85, 64, 117, 156, 193, 245, 122, 77, 255, 178, 28, 99,
    247, 188, 237, 193, 58, 143, 91, 202, 78, 89, 60]

/-- The request is handed to the scope, and the user has signed it. -/
theorem handover_signed_exampleDatagram :
    ∃ handed, exampleAgent.handover? exampleDatagram default = some handed ∧
      exampleAgent.respond exampleDatagram default = exampleAgent.respondTo handed ∧
      handed.context.securityLevel = .authPriv ∧
      ∃ user ∈ exampleConfig.users, ∃ header security, ∃ layout : Envelope.Layout header security,
        exampleDatagram = layout.octets ∧ Signed .brief user layout handed.message := by
  have hprepare : exampleConfig.prepare .brief exampleHost = .ok exampleAgent := by
    with_unfolding_all rfl
  have hunprepared : ∀ user ∈ exampleConfig.users, user.Unprepared := by
    intro user huser
    rw [List.mem_singleton.1 huser]
    exact ((User.unprepared_of_name _).withAuth _ _).withPrivacy _ _
  have hlevel : (exampleAgent.handover? exampleDatagram default).map (·.context.securityLevel) =
      some .authPriv := by decide +kernel
  rcases Option.map_eq_some_iff.1 hlevel with ⟨handed, hhanded, hpriv⟩
  have hclaim : ClaimsSignature exampleDatagram handed.context.securityLevel := by
    rw [hpriv]
    exact .inl (by decide)
  obtain ⟨hrespond, hsignature⟩ :=
    (handover_signed hprepare hunprepared exampleDatagram default).2 handed hhanded
  obtain ⟨user, huser, header, security, layout, hlayout, _, _, _, _, hsigned⟩ := hsignature hclaim
  exact ⟨handed, hhanded, hrespond, hpriv, user, huser, header, security, layout, hlayout, hsigned⟩

end Agent

end Snmp
