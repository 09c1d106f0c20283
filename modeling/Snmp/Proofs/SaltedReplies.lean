/-
  Snmp/Proofs/SaltedReplies.lean
  ==============================
  **What a salt decides, and what it does not.**

  The cipher of a message follows from its salt, and the authentication code from the cipher.
  Nothing else does: a salt takes eight octets, a cipher as many as are enciphered, and a code
  as many as its protocol says, so that every field of the message stands in the same place
  whatever the salt.  Whether a message can be encoded, the error if it cannot, and the number
  of its octets if it can, are the same for every salt (`length_encode_withSalt`).

  A message with more octets than an address space has is left out, because length octets count
  their own number in seven bits, and nothing can be said of what a reader makes of more.
-/
import Snmp.Proofs.IvSeed
import Snmp.Proofs.Reencoding

namespace Snmp

open Ber Usm

variable {suite : Suite}

theorem Ber.length_element_congr (tag : Tag) {content other : Octets}
    (h : content.length = other.length) :
    (element tag content).length = (element tag other).length := by
  rw [length_element, length_element, headerSize, headerSize, h]

/-! ### Salts -/

/-- The same parameters with another salt. -/
def Usm.Parameters.withSalt (p : Parameters) (salt : Octets) : Parameters :=
  { p with privParams := salt }

theorem Usm.Parameters.length_encode_withSalt (p : Parameters) {salt other : Octets}
    (h : salt.length = other.length) :
    (p.withSalt salt).encode.length = (p.withSalt other).encode.length := by
  simp only [encode_eq_element, length_element, headerSize, content, fieldsBefore, withSalt,
    List.length_append, h]

/-- The key to encrypt with belongs to the user's protocol. -/
theorem Usm.User.privProtocol?_of_privKey {user : User} {engineId : Octets}
    {protocol : PrivProtocol} {key : LocalizedKey}
    (h : user.privKey suite engineId = .ok (protocol, key)) :
    user.privProtocol? = some protocol := by
  unfold privKey at h
  split at h
  · rename_i auth privacy _ hprivacy
    cases h
    rw [privProtocol?, hprivacy, Option.map_some]
  · cases h

namespace Message

variable {m : Message} {header : MsgHeader} {security : Parameters} {data more : Octets}

def withSalt (m : Message) (salt : Octets) : Message :=
  { m with security? := m.security?.map (·.withSalt salt) }

theorem length_v3Content_withSalt (header : MsgHeader) (security : Parameters)
    {salt other : Octets} (hsalt : salt.length = other.length) (hdata : data.length = more.length) :
    (v3Content header (security.withSalt salt) data).length =
      (v3Content header (security.withSalt other) more).length := by
  simp only [v3Content, List.length_append, length_element, headerSize,
    security.length_encode_withSalt hsalt, hdata]

theorem length_encodeV3_withSalt (header : MsgHeader) (security : Parameters)
    {salt other : Octets} (hsalt : salt.length = other.length) (hdata : data.length = more.length)
    (code : Octets) :
    (encodeV3 header ((security.withSalt salt).withCode code) data).length =
      (encodeV3 header ((security.withSalt other).withCode code) more).length := by
  rw [encodeV3_eq_element, encodeV3_eq_element]
  apply length_element_congr
  exact length_v3Content_withSalt header (security.withCode code) hsalt hdata

/-! ### Signing -/

/-- Putting a code in its place does not change the number of octets. -/
theorem length_of_authenticate {key : LocalizedKey} {message octets : Octets}
    (h : authenticate suite key message = .ok octets) : octets.length = message.length := by
  cases hlocate : locateAuthParams message with
  | error error =>
    simp only [authenticate, hlocate, bind, Except.bind] at h
    cases h
  | ok offset =>
    simp only [authenticate, hlocate, bind, Except.bind, Octets.covers_eq_decide] at h
    by_cases hcovers : offset + (key.sign suite message).length ≤ message.length
    · simp only [hcovers, decide_true, if_true] at h
      cases h
      simp only [patch, List.length_append, List.length_take, List.length_drop]
      omega
    · simp only [hcovers, decide_false] at h
      cases h

/-- The code of a message of more than four gigabytes is not found. -/
theorem locateAuthParams_of_long {content : Octets} (hlong : UInt32.size ≤ content.length)
    (hsize : content.length < UInt64.size) :
    locateAuthParams (element Tag.sequence content) =
      .error (.decode ⟨1, .lengthTooLong (Octets.ofNat content.length).length⟩) := by
  have hconstructed : Decoder.constructed Tag.sequence ⟨0, element Tag.sequence content⟩ =
      .error ⟨1, .lengthTooLong (Octets.ofNat content.length).length⟩
        ⟨1, Length.encode content.length ++ (content ++ [])⟩ := by
    have hexpect := Decoder.expect_element Tag.sequence content 0 []
    rw [List.append_nil] at hexpect
    rw [Decoder.constructed, Decoder.bind_ok hexpect]
    simp only [bind, EStateM.bind, Decoder.length, Length.decode_encode_of_long hlong hsize]
  simp only [locateAuthParams, Decoder.runOn, EStateM.run, Reader.ofOctets, Decoder.sequence, bind,
    EStateM.bind, hconstructed]

/-- Signing comes to the same for two messages of one length, up to the octets of the result. -/
theorem length_authenticate (hsuite : suite.Lawful) (key : LocalizedKey) {other : Parameters}
    (hlength : (v3Content header
        (security.withCode (Octets.zeros key.protocol.macLength)) data).length =
      (v3Content header (other.withCode (Octets.zeros key.protocol.macLength)) more).length)
    (hsize : (v3Content header
      (security.withCode (Octets.zeros key.protocol.macLength)) data).length < UInt64.size) :
    (authenticate suite key (encodeV3 header
        (security.withCode (Octets.zeros key.protocol.macLength)) data)).map List.length =
      (authenticate suite key (encodeV3 header
        (other.withCode (Octets.zeros key.protocol.macLength)) more)).map List.length := by
  by_cases hfits : Fits (v3Content header
      (security.withCode (Octets.zeros key.protocol.macLength)) data)
  · have hother := hfits
    rw [Fits, hlength] at hother
    have hsame : (encodeV3 header
          (security.withCode (Octets.zeros key.protocol.macLength)) data).length =
        (encodeV3 header (other.withCode (Octets.zeros key.protocol.macLength)) more).length := by
      rw [encodeV3_eq_element, encodeV3_eq_element]
      exact length_element_congr Tag.sequence hlength
    have hsigned := authenticate_encodeV3 hsuite.sized key rfl hfits
    have hothers := authenticate_encodeV3 hsuite.sized key rfl hother
    have hlengths := (length_of_authenticate hsigned).trans
      (hsame.trans (length_of_authenticate hothers).symm)
    rw [hsigned, hothers, Except.map, Except.map, hlengths]
  · have hlong : UInt32.size ≤ (v3Content header
        (security.withCode (Octets.zeros key.protocol.macLength)) data).length := Nat.not_lt.1 hfits
    have hrefused := locateAuthParams_of_long hlong hsize
    rw [hlength] at hlong hsize hrefused
    have hother := locateAuthParams_of_long hlong hsize
    rw [← encodeV3_eq_element] at hrefused hother
    simp only [authenticate, hrefused, hother, bind, Except.bind, Except.map]

/-! ### Encoding with a salt -/

/-- How long the content of an encrypted message becomes, at the most. -/
theorem length_v3Content_lt (key : LocalizedKey) {salt : Octets} (hsalt : salt.length = 8)
    (hsize : security.engineId.length + security.userName.length + m.contextEngineId.length
      + m.contextName.length + (m.pdu.wire m.trap?).length < 2 ^ 63)
    {cipher : Octets} (hcipher : cipher.length ≤ m.encodeScoped.length + 8) :
    (v3Content header ((security.withSalt salt).withCode
      (Octets.zeros key.protocol.macLength)) (element Tag.octetString cipher)).length <
        UInt64.size := by
  have hspace : UInt64.size = 2 * 2 ^ 63 := rfl
  have hhead (content : Octets) (hle : content.length < UInt64.size) :
      headerSize content ≤ 10 := by
    rw [headerSize, Length.encode]
    split
    · simp
    · have := Octets.length_ofNat_le (k := 7) hle
      simp only [List.length_cons]
      omega
  have helement (tag : Tag) (content : Octets) (hle : content.length < UInt64.size) :
      (element tag content).length ≤ content.length + 10 := by
    have := hhead content hle
    rw [length_element]
    omega
  have hengineId := helement Tag.octetString m.contextEngineId (by omega)
  have hname := helement Tag.octetString m.contextName (by omega)
  have hcontent : m.scopedContent.length ≤ m.contextEngineId.length + m.contextName.length
      + (m.pdu.wire m.trap?).length + 20 := by
    simp only [scopedContent, List.length_append]
    omega
  have hscoped := helement Tag.sequence m.scopedContent (by omega)
  rw [← encodeScoped_eq] at hscoped
  have hdata := helement Tag.octetString cipher (by omega)
  have hmac : key.protocol.macLength ≤ 48 := by cases key.protocol <;> decide
  refine Nat.lt_of_le_of_lt (length_v3Content_le header _ _ (n := 2 ^ 63 + 200) (k := 10) ?_ ?_) ?_
  · intro content hle
    exact hhead content (by omega)
  · simp only [Parameters.withCode, Parameters.withSalt, List.length_replicate, hsalt]
    omega
  · omega

section Encrypted

variable (hsuite : suite.Lawful) (hversion : m.version = .v3) (hheader? : m.header? = some header)
  (hsecurity? : m.security? = some security) (hlevel : header.flags.level = .authPriv)

include hversion hheader? hsecurity? hlevel

theorem encode_withSalt_of_no_keys (hsuite : suite.Sized) {user? : Option User}
    (h : ¬HasCredentials .authPriv user?) (salt : Octets) :
    (m.withSalt salt).encode suite user? = .error (.encode .missingCredentials) := by
  have hsecurity' : (m.withSalt salt).security? = some (security.withSalt salt) := by
    rw [withSalt, hsecurity?, Option.map_some]
  have hheader' : (m.withSalt salt).header? = some header := hheader?
  have hversion' : (m.withSalt salt).version = .v3 := hversion
  have hauth : header.flags.level ≠ .noAuthNoPriv := by rw [hlevel]; decide
  have hcredentials : ¬HasCredentials header.flags.level user? := by rwa [hlevel]
  exact encode_of_impediment hsuite hversion' (.credentials hheader' hsecurity' hauth hcredentials)

include hsuite

/-- A user with keys for it signs a message whose parts have their lengths whatever the salt. -/
theorem encode_withSalt_eq {user : User} (hle : SecurityLevel.authPriv ≤ user.securityLevel) :
    ∃ key protocol, user.authKey suite security.engineId = .ok key ∧
      user.privProtocol? = some protocol ∧
      ∀ salt, salt.length = 8 → ∃ cipher,
        cipher.length = (protocol.prepared m.encodeScoped).length ∧
        (m.withSalt salt).encode suite (some user) =
          authenticate suite key (encodeV3 header ((security.withSalt salt).withCode
            (Octets.zeros key.protocol.macLength)) (element Tag.octetString cipher)) := by
  have hauth : header.flags.level ≠ .noAuthNoPriv := by rw [hlevel]; decide
  have hcovers : header.flags.level ≤ user.securityLevel := hlevel.symm ▸ hle
  obtain ⟨protocol, privKey, hprivKey, hlength⟩ :=
    User.privKey_of_level hsuite.sized hle security.engineId
  obtain ⟨key, hkey⟩ := User.authKey_of_level hauth hcovers suite security.engineId
  refine ⟨key, protocol, hkey, User.privProtocol?_of_privKey hprivKey, ?_⟩
  intro salt hsalt
  obtain ⟨cipher, hcipher, hcipherLength, _⟩ := PrivProtocol.encrypt_decrypt hsuite hlength
    ⟨security.engineBoots, security.engineTime, salt⟩ hsalt m.encodeScoped
  refine ⟨cipher, hcipherLength, ?_⟩
  have hprivKey' : user.privKey suite (security.withSalt salt).engineId = .ok (protocol, privKey) :=
    hprivKey
  have hencrypt : protocol.encrypt suite privKey.octets ⟨(security.withSalt salt).engineBoots,
      (security.withSalt salt).engineTime, (security.withSalt salt).privParams⟩
        (m.withSalt salt).encodeScoped = .ok cipher := hcipher
  have hdata : encodeScopedData suite (m.withSalt salt) header (security.withSalt salt)
      (some user) = .ok (element Tag.octetString cipher) := by
    simp only [encodeScopedData, MsgFlags.privacy_of_level hlevel, hprivKey', Except.mapError_ok,
      bind, Except.bind, hencrypt, pure, Except.pure, Writer.octets_pushOctetString,
      Writer.octets_empty, List.append_nil]
  have hsecurity' : (m.withSalt salt).security? = some (security.withSalt salt) := by
    rw [withSalt, hsecurity?, Option.map_some]
  have hversion' : (m.withSalt salt).version = .v3 := hversion
  have hheader' : (m.withSalt salt).header? = some header := hheader?
  obtain ⟨same, hsame, -, hencode⟩ :=
    encode_signing hversion' hheader' hsecurity' hauth hcovers hdata
  cases hkey.symm.trans hsame
  exact hencode

/-- Whether an encrypted message can be encoded, and to how many octets, is the same for every
    salt. -/
theorem length_encode_withSalt (user? : Option User)
    (hsize : security.engineId.length + security.userName.length + m.contextEngineId.length
      + m.contextName.length + (m.pdu.wire m.trap?).length < 2 ^ 63)
    {salt other : Octets} (hsalt : salt.length = 8) (hother : other.length = 8) :
    ((m.withSalt salt).encode suite user?).map List.length =
      ((m.withSalt other).encode suite user?).map List.length := by
  by_cases hcredentials : HasCredentials .authPriv user?
  · obtain ⟨user, rfl, hle⟩ := hcredentials
    obtain ⟨key, protocol, _, _, hsigned⟩ :=
      encode_withSalt_eq hsuite hversion hheader? hsecurity? hlevel hle
    obtain ⟨cipher, hcipher, hencode⟩ := hsigned salt hsalt
    obtain ⟨another, hanother, hencode'⟩ := hsigned other hother
    have hdata : (element Tag.octetString cipher).length =
        (element Tag.octetString another).length :=
      length_element_congr Tag.octetString (hcipher.trans hanother.symm)
    rw [hencode, hencode']
    apply length_authenticate hsuite key
    · exact length_v3Content_withSalt header
        (security.withCode (Octets.zeros key.protocol.macLength)) (hsalt.trans hother.symm) hdata
    · exact length_v3Content_lt key hsalt hsize (hcipher ▸ protocol.length_prepared_le _)
  · have hrefused (salt : Octets) :=
      encode_withSalt_of_no_keys hversion hheader? hsecurity? hlevel hsuite.sized hcredentials salt
    rw [hrefused salt, hrefused other]

end Encrypted

end Message

end Snmp
