/-
  Snmp/Proofs/PreparedUsers.lean
  ==============================
  **Keys that are kept against keys that are derived on every use.**

  Encoding and decoding learn four things of a user: its name, its level, and the two keys that
  it has at an engine.  Users who agree in these (`SameKeys`) protect every message alike and
  open every datagram alike, down to the error.

  Preparation derives both master keys with the hash of the authentication protocol, and so does
  a user that was not prepared when it needs them.  The two therefore have the same keys at every
  engine, and nothing that is sent or received tells them apart.
-/
import Snmp.Message.Encoding
import Snmp.Proofs.KeyLaws
import Snmp.Proofs.Results

namespace Snmp

open Usm

variable {suite : Suite} {user other : User}

/-! ### Users with the same keys -/

/-- Two users in whom encoding and decoding see no difference. -/
structure Usm.User.SameKeys (suite : Suite) (user other : User) : Prop where
  name : user.name = other.name
  level : user.securityLevel = other.securityLevel
  authKey : ∀ engineId, user.authKey suite engineId = other.authKey suite engineId
  privKey : ∀ engineId, user.privKey suite engineId = other.privKey suite engineId

theorem Usm.User.sameKeys_of_prepare {prepared : User} (h : user.prepare suite = .ok prepared)
    (hunprepared : user.Unprepared) : prepared.SameKeys suite user := by
  obtain ⟨hname, hlevel, hkeeps⟩ := User.prepare_eq_ok h
  exact ⟨hname, hlevel, hkeeps.authKey_eq hunprepared, hkeeps.privKey_eq hunprepared⟩

namespace Message

/-- The user that is encoded with is the given one or none, as the level says for both alike. -/
theorem encodingUser_sameKeys (h : user.SameKeys suite other) (level : SecurityLevel) :
    (encodingUser level (some user) = .ok none ∧ encodingUser level (some other) = .ok none) ∨
    (encodingUser level (some user) = .ok (some user) ∧
      encodingUser level (some other) = .ok (some other)) ∨
    ∃ error, encodingUser level (some user) = .error error ∧
      encodingUser level (some other) = .error error := by
  simp only [encodingUser, h.level]
  split
  · exact .inl ⟨rfl, rfl⟩
  · split
    · exact .inr (.inl ⟨rfl, rfl⟩)
    · exact .inr (.inr ⟨_, rfl, rfl⟩)

theorem encodeScopedData_sameKeys (h : user.SameKeys suite other) (message : Message)
    (header : MsgHeader) (security : Parameters) :
    encodeScopedData suite message header security (some user) =
      encodeScopedData suite message header security (some other) := by
  cases hprivacy : header.flags.privacy with
  | false => simp only [encodeScopedData, hprivacy]
  | true => simp only [encodeScopedData, hprivacy, h.privKey]

theorem encode_sameKeys (h : user.SameKeys suite other) (message : Message) :
    message.encode suite (some user) = message.encode suite (some other) := by
  simp only [encode]
  split
  · rfl
  · split
    · rename_i header security _ _
      rcases encodingUser_sameKeys h header.flags.level with
        ⟨huser, hother⟩ | ⟨huser, hother⟩ | ⟨error, huser, hother⟩
      · rw [huser, hother]
      · rw [huser, hother]
        simp only [bind, Except.bind, encodeScopedData_sameKeys h, h.authKey]
      · rw [huser, hother]
    · rfl

end Message

namespace Envelope

/-- The user that is decoded with is the given one or none, as name and level say for both
    alike. -/
theorem decodingUser_sameKeys (h : user.SameKeys suite other) (level : SecurityLevel)
    (security : Parameters) :
    (decodingUser level security (some user) = .ok none ∧
      decodingUser level security (some other) = .ok none) ∨
    (decodingUser level security (some user) = .ok (some user) ∧
      decodingUser level security (some other) = .ok (some other)) ∨
    ∃ defect, decodingUser level security (some user) = .error defect ∧
      decodingUser level security (some other) = .error defect := by
  simp only [decodingUser, h.name, h.level]
  split
  · exact .inl ⟨rfl, rfl⟩
  · split
    · exact .inr (.inr ⟨_, rfl, rfl⟩)
    · split
      · exact .inr (.inr ⟨_, rfl, rfl⟩)
      · exact .inr (.inl ⟨rfl, rfl⟩)

theorem checkCode_sameKeys (h : user.SameKeys suite other) (datagram : Octets) (authOffset : Nat)
    (security : Parameters) :
    checkCode suite datagram authOffset security (some user) =
      checkCode suite datagram authOffset security (some other) := by
  simp only [checkCode, h.authKey]

theorem openScoped_sameKeys (h : user.SameKeys suite other) (header : MsgHeader)
    (security : Parameters) (content : Ber.Reader) :
    openScoped suite header security (some user) content =
      openScoped suite header security (some other) content := by
  simp only [openScoped, decryptScoped, h.privKey]

theorem unlock_sameKeys (h : user.SameKeys suite other) (datagram : Octets) (envelope : Envelope) :
    envelope.unlock suite datagram (some user) = envelope.unlock suite datagram (some other) := by
  cases envelope with
  | community message => rfl
  | v3 header security authOffset content =>
    simp only [unlock]
    rcases decodingUser_sameKeys h header.flags.level security with
      ⟨huser, hother⟩ | ⟨huser, hother⟩ | ⟨defect, huser, hother⟩
    · rw [huser, hother]
    · rw [huser, hother]
      simp only [Except.mapError_ok, bind, Except.bind, checkCode_sameKeys h,
        openScoped_sameKeys h]
    · rw [huser, hother]

end Envelope

theorem Message.decode_sameKeys (h : user.SameKeys suite other) (datagram : Octets) :
    Message.decode suite datagram (some user) = Message.decode suite datagram (some other) := by
  simp only [Message.decode, Envelope.unlock_sameKeys h]

/-! ### Prepared users -/

/-- **A prepared user and the unprepared one that it was made of cannot be told apart.**  They have
    the same authentication key and the same privacy protocol and key at every engine, so that
    every message is encoded and every datagram decoded with the same result, value or error.
    What the prepared user keeps are the master keys of its passphrases, both with the hash of
    the authentication protocol. -/
theorem Usm.User.prepared_agrees {prepared : User} (h : user.prepare suite = .ok prepared)
    (hunprepared : user.Unprepared) :
    (∀ engineId, prepared.authKey suite engineId = user.authKey suite engineId) ∧
    (∀ engineId, prepared.privKey suite engineId = user.privKey suite engineId) ∧
    (∀ message : Message,
      message.encode suite (some prepared) = message.encode suite (some user)) ∧
    (∀ datagram, Message.decode suite datagram (some prepared) =
      Message.decode suite datagram (some user)) ∧
    user.KeepsKeys suite prepared := by
  obtain ⟨_, _, hkeeps⟩ := User.prepare_eq_ok h
  have hsame := User.sameKeys_of_prepare h hunprepared
  exact ⟨hsame.authKey, hsame.privKey, Message.encode_sameKeys hsame,
    Message.decode_sameKeys hsame, hkeeps⟩

/-- A user whose two protocols take keys of different lengths. -/
def plainUser : User :=
  (({ name := [111, 112] } : User).withAuth .sha1 [97, 117, 116, 104]).withPrivacy .aes256
    [112, 114, 105, 118]

/-- The same user with its master keys. -/
def keyedUser : User where
  name := [111, 112]
  auth? := some {
    protocol := .sha1, passphrase := [97, 117, 116, 104]
    master? := some (.ofPassphrase .standard .sha1 [97, 117, 116, 104]) }
  privacy? := some {
    protocol := .aes256, passphrase := [112, 114, 105, 118]
    master? := some (.ofPassphrase .standard .sha1 [112, 114, 105, 118]) }

theorem Usm.User.prepared_agrees_plainUser :
    plainUser.prepare .standard = .ok keyedUser ∧ plainUser.Unprepared ∧
    (∀ engineId, keyedUser.privKey .standard engineId = plainUser.privKey .standard engineId) ∧
    (∀ datagram, Message.decode .standard datagram (some keyedUser) =
      Message.decode .standard datagram (some plainUser)) ∧
    plainUser.KeepsKeys .standard keyedUser := by
  have hprepare : plainUser.prepare .standard = .ok keyedUser := rfl
  have hunprepared : plainUser.Unprepared :=
    ((User.unprepared_of_name _).withAuth _ _).withPrivacy _ _
  obtain ⟨-, hprivKey, -, hdecode, hkeeps⟩ := User.prepared_agrees hprepare hunprepared
  exact ⟨hprepare, hunprepared, hprivKey, hdecode, hkeeps⟩

end Snmp
