/-
  Snmp/Proofs/OnePass.lean
  ========================
  **Negotiation as one reading.**

  Negotiation may decode a datagram twice, and what its first pass fails with decides whether
  there is a second.  The reference here reads once: it opens the datagram as far as that needs
  no keys, looks up the user under the name that stands there, and decodes with the keys of this
  user if the flags ask for a signature, and with no keys at all if they do not
  (`negotiateOnce`).

  The two agree because keys matter to a datagram if and only if its flags ask for a signature.
  One that does not ask is read in the same way whatever the keys, so a second pass repeats what
  the first has found; one that does is never read without keys, and the first pass leaves
  nothing behind but the parameters in which the user is named.
-/
import Snmp.Proofs.Authentication

namespace Snmp

open Ber Decoder Usm

variable {suite : Suite}

namespace Envelope

/-! ### What a datagram says of its user -/

/-- The name of the user, octet by octet.  A community message names nobody, and has the empty
    name. -/
def userName : Envelope → Octets
  | .community _ => []
  | .v3 _ security _ _ => security.userName

/-- Whether a datagram has to be signed. -/
def isSigned : Envelope → Bool
  | .community _ => false
  | .v3 header _ _ _ => header.flags.auth

theorem ofDatagram_community_userName {datagram : Octets} {message : Message}
    (h : ofDatagram datagram = .ok (.community message)) : message.userName = [] := by
  rcases ofDatagram_eq_ok h with ⟨version, body, left, _, hread⟩
  by_cases hversion : version.usesCommunity = true
  · rw [if_pos hversion] at hread
    rcases bind_eq_ok hread with ⟨community, s1, _, hread⟩
    rcases bind_eq_ok hread with ⟨⟨pdu, trap?⟩, s2, _, hread⟩
    cases hread
    rfl
  · rw [if_neg hversion] at hread
    obtain ⟨_, _, _, _, _, _, hsame, _⟩ := decodeV3_eq_ok hread
    contradiction

/-- A message is in the name of the user that its datagram names. -/
theorem userName_of_unlock {datagram : Octets} {envelope : Envelope} {user? : Option User}
    {message : Message} (hopen : ofDatagram datagram = .ok envelope)
    (hunlock : envelope.unlock suite datagram user? = .ok message) :
    message.userName = envelope.userName := by
  cases envelope with
  | community found =>
    cases hunlock
    exact ofDatagram_community_userName hopen
  | v3 header security authOffset content =>
    rcases unlock_eq_ok hunlock with ⟨_, _, _, _, _, _, hread⟩
    rw [Message.userName, (decodeScoped_eq_ok hread).2.2]
    rfl

/-! ### When keys matter -/

/-- What need not be signed is read in the same way with the keys of anybody. -/
theorem unlock_of_not_isSigned {envelope : Envelope} (h : envelope.isSigned = false)
    (datagram : Octets) (user? other? : Option User) :
    envelope.unlock suite datagram user? = envelope.unlock suite datagram other? := by
  cases envelope with
  | community message => rfl
  | v3 header security authOffset content =>
    have hlevel : header.flags.level = .noAuthNoPriv := MsgFlags.level_eq_noAuthNoPriv.2 h
    simp only [unlock, decodingUser, hlevel, if_true]

/-- What has to be signed is not read without keys. -/
theorem unlock_none_of_isSigned {envelope : Envelope} (h : envelope.isSigned = true)
    (datagram : Octets) :
    envelope.unlock suite datagram none = .error (.authenticationFailed .noCredentials) := by
  cases envelope with
  | community message => contradiction
  | v3 header security authOffset content =>
    have hlevel : header.flags.level ≠ .noAuthNoPriv := by
      intro hnone
      have hauth : header.flags.auth = false := MsgFlags.level_eq_noAuthNoPriv.1 hnone
      rw [isSigned, hauth] at h
      contradiction
    simp only [unlock, decodingUser, if_neg hlevel]
    rfl

end Envelope

/-! ### Decoding by its stages -/

namespace Message

variable {datagram : Octets} {envelope : Envelope}

theorem decode_of_open (h : Envelope.ofDatagram datagram = .ok envelope) (user? : Option User) :
    decode suite datagram user? =
      (envelope.unlock suite datagram user?).mapError (⟨·, envelope.security?⟩) := by
  simp only [decode, h]

theorem decode_of_not_open {error : Error} (h : Envelope.ofDatagram datagram = .error error)
    (user? : Option User) : decode suite datagram user? = .error ⟨error, none⟩ := by
  simp only [decode, h]

/-- A datagram that is not decoded cannot be opened, or it was opened as a version 3 message and
    the failure carries its parameters. -/
theorem decode_eq_error {user? : Option User} {failure : DecodeFailure}
    (h : decode suite datagram user? = .error failure) :
    (Envelope.ofDatagram datagram = .error failure.error ∧ failure.partial? = none) ∨
      ∃ header security authOffset content,
        Envelope.ofDatagram datagram = .ok (.v3 header security authOffset content) ∧
        failure.partial? = some security := by
  cases hopen : Envelope.ofDatagram datagram with
  | error error =>
    rw [decode_of_not_open hopen] at h
    cases h
    exact .inl ⟨rfl, rfl⟩
  | ok envelope =>
    rw [decode_of_open hopen] at h
    cases envelope with
    | community message => contradiction
    | v3 header security authOffset content =>
      refine .inr ⟨header, security, authOffset, content, rfl, ?_⟩
      cases hunlock : (Envelope.v3 header security authOffset content).unlock suite datagram
          user? with
      | ok message =>
        rw [hunlock] at h
        contradiction
      | error error =>
        rw [hunlock] at h
        cases h
        rfl

/-- A datagram that need not be signed, or that cannot be opened, is decoded in the same way
    with the keys of anybody. -/
theorem decode_of_not_isSigned
    (h : ∀ envelope, Envelope.ofDatagram datagram = .ok envelope → envelope.isSigned = false)
    (user? other? : Option User) :
    decode suite datagram user? = decode suite datagram other? := by
  cases hopen : Envelope.ofDatagram datagram with
  | error error => rw [decode_of_not_open hopen, decode_of_not_open hopen]
  | ok envelope =>
    rw [decode_of_open hopen, decode_of_open hopen,
      Envelope.unlock_of_not_isSigned (h envelope hopen) datagram user? other?]

/-- A datagram that has to be signed is refused without keys, and the refusal carries its
    security parameters. -/
theorem decode_none_of_isSigned {header : MsgHeader} {security : Parameters} {authOffset : Nat}
    {content : Reader}
    (hopen : Envelope.ofDatagram datagram = .ok (.v3 header security authOffset content))
    (hauth : header.flags.auth = true) :
    decode suite datagram none =
      .error ⟨.authenticationFailed .noCredentials, some security⟩ := by
  have hsigned : (Envelope.v3 header security authOffset content).isSigned = true := hauth
  rw [decode_of_open hopen, Envelope.unlock_none_of_isSigned hsigned]
  rfl

end Message

/-! ### Negotiation -/

namespace Agent

variable {σ : Type}

/-- What a datagram that was opened, but not decoded, is refused with. -/
def refusal (named? : Option User) (envelope : Envelope) (error : Error) : Error :=
  match envelope.security?, named? with
  | none, _ => error
  | some security, none => .noPermission security.userNameText
  | some _, some _ => .unsupportedPacketData error

/-- Finds the user that a datagram names and decodes it once, with the keys of this user if it
    has to be signed and with none if not. -/
def negotiateOnce (agent : Agent σ) (datagram : Octets) : Except Error Negotiated :=
  match Envelope.ofDatagram datagram with
  | .error error => .error error
  | .ok envelope =>
    let named? := agent.user? envelope.userName
    let keys? := if envelope.isSigned then named? else none
    match Message.decode agent.suite datagram keys? with
    | .error failure => .error (refusal named? envelope failure.error)
    | .ok message =>
      if !envelope.isSigned && isProbe message then .ok (.probe message)
      else .ok (.request message named?)

variable {agent : Agent σ} {datagram : Octets} {envelope : Envelope}

/-- Without a signature the first pass is the one of the reference.  If it fails, a second pass
    fails in the same way. -/
theorem negotiate_of_not_isSigned (hopen : Envelope.ofDatagram datagram = .ok envelope)
    (hsigned : envelope.isSigned = false) :
    agent.negotiate datagram = agent.negotiateOnce datagram := by
  have hsame (user : User) : Message.decode agent.suite datagram (some user) =
      Message.decode agent.suite datagram none := by
    apply Message.decode_of_not_isSigned
    intro found hfound
    rw [hopen] at hfound
    cases hfound
    exact hsigned
  have hkeys : (if envelope.isSigned then agent.user? envelope.userName else none) = none := by
    simp [hsigned]
  simp only [negotiate, negotiateOnce, hopen, hkeys]
  have hdecode : Message.decode agent.suite datagram none =
      (envelope.unlock agent.suite datagram none).mapError (⟨·, envelope.security?⟩) :=
    Message.decode_of_open hopen none
  cases hunlock : envelope.unlock agent.suite datagram none with
  | ok message =>
    rw [hunlock] at hdecode
    simp only [hdecode, Except.mapError_ok, hsigned, Bool.not_false, Bool.true_and,
      Envelope.userName_of_unlock hopen hunlock]
  | error error =>
    rw [hunlock] at hdecode
    cases envelope with
    | community message => contradiction
    | v3 header security authOffset content =>
      have hfirst : Message.decode agent.suite datagram none = .error ⟨error, some security⟩ :=
        hdecode
      simp only [hfirst, Envelope.userName, refusal, Envelope.security?]
      cases agent.user? security.userName with
      | none => rfl
      | some user => simp only [hsame user, hfirst]

/-- With a signature the first pass only finds the name of the user, and the second is the one
    of the reference. -/
theorem negotiate_of_isSigned (hopen : Envelope.ofDatagram datagram = .ok envelope)
    (hsigned : envelope.isSigned = true) :
    agent.negotiate datagram = agent.negotiateOnce datagram := by
  cases envelope with
  | community message => contradiction
  | v3 header security authOffset content =>
    have hfirst : Message.decode agent.suite datagram none =
        .error ⟨.authenticationFailed .noCredentials, some security⟩ :=
      Message.decode_none_of_isSigned hopen hsigned
    simp only [negotiate, negotiateOnce, hfirst, hopen, hsigned, Envelope.userName, if_true]
    cases agent.user? security.userName with
    | none => simp only [hfirst, refusal, Envelope.security?]
    | some user =>
      cases hsecond : Message.decode agent.suite datagram (some user) with
      | ok message => simp [hsecond]
      | error failure => simp only [hsecond, refusal, Envelope.security?]

/-- Why a datagram is refused: it cannot be opened, or nobody is registered under the name that
    stands in it, or the user of that name cannot read it. -/
theorem negotiate_eq_error {error : Error} (h : agent.negotiate datagram = .error error) :
    Envelope.ofDatagram datagram = .error error ∨
      ∃ header security authOffset content,
        Envelope.ofDatagram datagram = .ok (.v3 header security authOffset content) ∧
        ((agent.user? security.userName = none ∧ error = .noPermission security.userNameText) ∨
          ∃ user failure, agent.user? security.userName = some user ∧
            Message.decode agent.suite datagram (some user) = .error failure ∧
            error = .unsupportedPacketData failure.error) := by
  rw [negotiate] at h
  split at h
  · split at h <;> contradiction
  rename_i failure hfirst
  rcases Message.decode_eq_error hfirst with
    ⟨hopen, hnone⟩ | ⟨header, security, authOffset, content, hopen, hsome⟩
  · simp only [hnone, Except.error.injEq] at h
    exact .inl (h ▸ hopen)
  · right
    refine ⟨header, security, authOffset, content, hopen, ?_⟩
    simp only [hsome] at h
    cases huser : agent.user? security.userName with
    | none =>
      simp only [huser, Except.error.injEq] at h
      exact .inl ⟨rfl, h.symm⟩
    | some user =>
      simp only [huser] at h
      split at h
      · contradiction
      · rename_i second hsecond
        cases h
        exact .inr ⟨user, second, rfl, hsecond, rfl⟩

/-- Negotiation is the reading of a datagram in one pass: the same message, the same user and the
    same refusal.  Keys make no difference to a datagram that need not be signed; one that has to
    be is refused without keys, and the refusal carries its parameters.  A refusal is that of the
    reader if there are no parameters, and otherwise says that the user is not registered, or what
    the reader has refused with the keys of this user. -/
theorem negotiate_eq_negotiateOnce (agent : Agent σ) (datagram : Octets) :
    agent.negotiate datagram = agent.negotiateOnce datagram ∧
    ((∀ envelope, Envelope.ofDatagram datagram = .ok envelope → envelope.isSigned = false) →
      ∀ user?, Message.decode agent.suite datagram user? =
        Message.decode agent.suite datagram none) ∧
    (∀ header security authOffset content,
      Envelope.ofDatagram datagram = .ok (.v3 header security authOffset content) →
      header.flags.auth = true →
      Message.decode agent.suite datagram none =
        .error ⟨.authenticationFailed .noCredentials, some security⟩) ∧
    ∀ error, agent.negotiate datagram = .error error →
      Envelope.ofDatagram datagram = .error error ∨
        ∃ header security authOffset content,
          Envelope.ofDatagram datagram = .ok (.v3 header security authOffset content) ∧
          ((agent.user? security.userName = none ∧
              error = .noPermission security.userNameText) ∨
            ∃ user failure, agent.user? security.userName = some user ∧
              Message.decode agent.suite datagram (some user) = .error failure ∧
              error = .unsupportedPacketData failure.error) := by
  refine ⟨?_, ?_, ?_, ?_⟩
  · cases hopen : Envelope.ofDatagram datagram with
    | error error =>
      have hfirst : Message.decode agent.suite datagram none = .error ⟨error, none⟩ :=
        Message.decode_of_not_open hopen none
      simp only [negotiate, negotiateOnce, hfirst, hopen]
    | ok envelope =>
      cases hsigned : envelope.isSigned with
      | true => exact negotiate_of_isSigned hopen hsigned
      | false => exact negotiate_of_not_isSigned hopen hsigned
  · intro h user?
    exact Message.decode_of_not_isSigned h user? none
  · intro header security authOffset content hopen hauth
    exact Message.decode_none_of_isSigned hopen hauth
  · intro error h
    exact negotiate_eq_error h

/-- The user whose request a datagram has turned out to be, if any. -/
def requester? (negotiated : Except Error Negotiated) : Option User :=
  match negotiated with
  | .ok (.request _ user?) => user?
  | _ => none

/-- The first pass refuses a signed datagram, and the request is still found to be that of the
    user who signed it. -/
theorem negotiate_eq_negotiateOnce_exampleDatagram :
    ∃ header security authOffset content,
      Envelope.ofDatagram exampleDatagram = .ok (.v3 header security authOffset content) ∧
      Message.decode .brief exampleDatagram none =
        .error ⟨.authenticationFailed .noCredentials, some security⟩ ∧
      (requester? (exampleAgent.negotiate exampleDatagram)).map (·.name) =
        some Message.exampleUser.name := by
  obtain ⟨honce, _, hfirst, _⟩ := negotiate_eq_negotiateOnce exampleAgent exampleDatagram
  have hsigned : (Envelope.ofDatagram exampleDatagram).toOption.map Envelope.isSigned =
      some true := by decide +kernel
  obtain ⟨envelope, hopen, hauth⟩ := Except.eq_ok_of_toOption_map hsigned
  cases envelope with
  | community message => exact absurd hauth Bool.false_ne_true
  | v3 header security authOffset content =>
    refine ⟨header, security, authOffset, content, hopen,
      hfirst header security authOffset content hopen hauth, ?_⟩
    rw [honce]
    decide +kernel

end Agent

end Snmp
