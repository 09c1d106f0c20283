/-
  Snmp/Proofs/Unlocking.lean
  ==========================
  **What a datagram went through before it was a message.**

  Decoding is a sequence of stages, and each that succeeds leaves a fact behind: the user whose
  keys were used is the one that the datagram names, the code was compared with the one that
  this user's key gives, an encrypted scoped PDU was decrypted with this user's privacy key.
  Negotiation decodes with no credentials or with those of a registered user.
-/
import Snmp.Agent.Negotiation
import Snmp.Proofs.DatagramLayout
import Snmp.Proofs.MessageWire

namespace Snmp

open Ber Decoder Usm

variable {suite : Suite}

/-! ### Flags -/

theorem MsgFlags.level_eq_noAuthNoPriv {flags : MsgFlags} :
    flags.level = .noAuthNoPriv ↔ flags.auth = false := by
  obtain ⟨auth, privacy, reportable⟩ := flags
  cases auth <;> cases privacy <;> simp [level]

theorem MsgFlags.privacy_of_level {flags : MsgFlags} (h : flags.level = .authPriv) :
    flags.privacy = true := by
  obtain ⟨auth, privacy, reportable⟩ := flags
  cases auth <;> cases privacy <;> first | rfl | contradiction

/-! ### Stages -/

theorem Usm.LocalizedKey.verify_eq_ok {key : LocalizedKey} {message code : Octets}
    (h : key.verify suite message code = .ok ()) : code = key.sign suite message := by
  simp only [LocalizedKey.verify] at h
  split at h
  · contradiction
  · split at h
    · assumption
    · contradiction

namespace Envelope

variable {header : MsgHeader} {security : Parameters} {authOffset : Nat} {content inner : Reader}
  {datagram : Octets} {user? used? : Option User} {message : Message}

/-- Above noAuthNoPriv a datagram is checked with a user of its name and of at least its
    level. -/
theorem decodingUser_eq_ok {level : SecurityLevel} (hlevel : level ≠ .noAuthNoPriv)
    (h : decodingUser level security user? = .ok used?) :
    ∃ user, user? = some user ∧ used? = some user ∧ user.name = security.userName ∧
      level ≤ user.securityLevel := by
  simp only [decodingUser, if_neg hlevel] at h
  cases user? with
  | none => contradiction
  | some user =>
    by_cases hname : user.name ≠ security.userName
    · simp only [if_pos hname] at h
      contradiction
    · by_cases hlow : user.securityLevel < level
      · simp only [if_neg hname, if_pos hlow] at h
        contradiction
      · simp only [if_neg hname, if_neg hlow] at h
        cases h
        exact ⟨user, rfl, rfl, Decidable.not_not.1 hname, Nat.not_lt.1 hlow⟩

theorem checkCode_eq_ok {user : User}
    (h : checkCode suite datagram authOffset security (some user) = .ok ()) :
    ∃ key, user.authKey suite security.engineId = .ok key ∧
      security.authParams = key.sign suite (unsigned datagram authOffset security) := by
  rcases Except.bind_eq_ok h with ⟨key, hkey, h⟩
  exact ⟨key, hkey, LocalizedKey.verify_eq_ok h⟩

/-- A datagram was signed with zeros in the place of the code, which is its place in the layout
    and nowhere else. -/
theorem Layout.unsigned_octets (l : Layout header security) :
    unsigned l.octets l.front.length security =
      l.front ++ Octets.zeros security.authParams.length ++ l.back := by
  have hlength : security.authParams.length = (Octets.zeros security.authParams.length).length :=
    List.length_replicate.symm
  rw [unsigned, octets, List.append_assoc, Message.patch_append hlength, List.append_assoc]

/-- The scoped PDU inside octets that were decrypted. -/
def ReadsPlaintext (header : MsgHeader) (security : Parameters) (plaintext : Octets)
    (message : Message) : Prop :=
  ∃ inner left, (constructed Tag.sequence).runOn plaintext = .ok inner ∧
    decodeScoped header security inner = .ok message left

/-- What is read from a message that is marked as encrypted was decrypted with the key of the
    user from the OCTET STRING that the message holds. -/
theorem openScoped_eq_ok {user : User} {left : Reader} (hprivacy : header.flags.privacy = true)
    (h : openScoped suite header security (some user) content = .ok inner)
    (hread : decodeScoped header security inner = .ok message left) :
    ∃ protocol key cipher plaintext encrypted more,
      user.privKey suite security.engineId = .ok (protocol, key) ∧
      content.rest = encrypted ++ more ∧ IsElement Tag.octetString cipher encrypted ∧
      protocol.decrypt suite key.octets
        ⟨security.engineBoots, security.engineTime, security.privParams⟩ cipher = .ok plaintext ∧
      ReadsPlaintext header security plaintext message := by
  simp only [openScoped, hprivacy] at h
  split at h
  · rcases Except.bind_eq_ok h with ⟨⟨protocol, key⟩, hkey, h⟩
    dsimp only at h
    split at h
    · contradiction
    · rename_i cipher rest hcipher
      rcases Except.bind_eq_ok h with ⟨plaintext, hplain, h⟩
      rcases octetString_eq_ok hcipher with ⟨encrypted, hencrypted, huse⟩
      exact ⟨protocol, key, cipher, plaintext, encrypted, rest.rest,
        Except.eq_ok_of_mapError hkey, huse.rest, hencrypted, Except.eq_ok_of_mapError hplain,
        inner, left, Except.eq_ok_of_mapError h, hread⟩
  · contradiction

theorem unlock_eq_ok (h : (v3 header security authOffset content).unlock suite datagram user? =
      .ok message) :
    ∃ used? inner left, decodingUser header.flags.level security user? = .ok used? ∧
      checkCode suite datagram authOffset security used? = .ok () ∧
      openScoped suite header security used? content = .ok inner ∧
      decodeScoped header security inner = .ok message left := by
  rcases Except.bind_eq_ok h with ⟨used?, huser, h⟩
  rcases Except.bind_eq_ok h with ⟨_, hcode, h⟩
  rcases Except.bind_eq_ok h with ⟨inner, hinner, h⟩
  split at h
  · contradiction
  · rename_i found left hread
    cases h
    exact ⟨used?, inner, left, Except.eq_ok_of_mapError huser, Except.eq_ok_of_mapError hcode,
      hinner, hread⟩

theorem decodeScoped_eq_ok {left : Reader}
    (h : decodeScoped header security inner = .ok message left) :
    message.version = .v3 ∧ message.header? = some header ∧ message.security? = some security := by
  rcases bind_eq_ok h with ⟨engineId, s1, _, h⟩
  rcases bind_eq_ok h with ⟨name, s2, _, h⟩
  rcases bind_eq_ok h with ⟨⟨pdu, trap?⟩, s3, _, h⟩
  cases h
  exact ⟨rfl, rfl, rfl⟩

end Envelope

theorem Message.decode_eq_ok {datagram : Octets} {user? : Option User} {message : Message}
    (h : Message.decode suite datagram user? = .ok message) :
    ∃ envelope, Envelope.ofDatagram datagram = .ok envelope ∧
      envelope.unlock suite datagram user? = .ok message := by
  rw [Message.decode] at h
  split at h
  · contradiction
  · rename_i envelope hopen
    exact ⟨envelope, hopen, Except.eq_ok_of_mapError h⟩

/-! ### Negotiation -/

namespace Agent

variable {σ : Type}

def Negotiated.message : Negotiated → Message
  | .probe message => message
  | .request message _ => message

/-- A datagram is decoded without credentials, or with those of a user of the agent. -/
theorem negotiate_eq_ok {agent : Agent σ} {datagram : Octets} {negotiated : Negotiated}
    (h : agent.negotiate datagram = .ok negotiated) :
    ∃ credentials?, Message.decode agent.suite datagram credentials? = .ok negotiated.message ∧
      ∀ user, credentials? = some user → user ∈ agent.users := by
  rw [negotiate] at h
  split at h
  · rename_i message hdecode
    refine ⟨none, ?_, fun _ hnone => absurd hnone (by simp)⟩
    split at h
    · cases h
      exact hdecode
    · cases h
      exact hdecode
  · split at h
    · contradiction
    split at h
    · contradiction
    rename_i user huser
    split at h
    · rename_i message hdecode
      cases h
      refine ⟨some user, hdecode, ?_⟩
      intro credentials hsome
      cases hsome
      exact List.mem_of_find?_eq_some huser
    · contradiction

end Agent

end Snmp
