/-
  Snmp/Proofs/EncodeFailures.lean
  ===============================
  **When a message cannot be encoded.**

  A community message is always encoded.  A version 3 message is not if it has no header or no
  parameters, if its flags ask for keys that the given user does not have, or if it is to be
  encrypted and brings a salt of the wrong length.  These causes exclude one another, each has
  an error of its own (`Impediment`), and there is no other: the keys of a user are long enough
  for every pair of protocols, whatever the passphrases and the engine, and the place of the
  authentication code is found again in whatever was just written around it.

  The last step needs a message of less than 2^32 octets, which is as much as length octets
  announce to a reader.
-/
import Snmp.Proofs.MessageRoundTrip
import Snmp.Proofs.Unlocking

namespace Snmp

open Ber Usm

variable {suite : Suite}

namespace Message

/-! ### Causes -/

/-- A user who can protect a message at a level. -/
def HasCredentials (level : SecurityLevel) (user? : Option User) : Prop :=
  ∃ user, user? = some user ∧ level ≤ user.securityLevel

/-- Why a version 3 message cannot be encoded with the keys of a user, and the error that says
    so. -/
inductive Impediment (m : Message) (user? : Option User) : Error → Prop
  | parameters : m.header? = none ∨ m.security? = none →
      Impediment m user? (.encode .missingSecurityParams)
  | credentials {header : MsgHeader} {security : Parameters} : m.header? = some header →
      m.security? = some security → header.flags.level ≠ .noAuthNoPriv →
      ¬HasCredentials header.flags.level user? →
      Impediment m user? (.encode .missingCredentials)
  | salt {header : MsgHeader} {security : Parameters} : m.header? = some header →
      m.security? = some security → header.flags.level = .authPriv →
      HasCredentials .authPriv user? → security.privParams.length ≠ 8 →
      Impediment m user?
        (.encryptionFailed (.invalidPrivParamsLength 8 security.privParams.length))

variable {m : Message} {header : MsgHeader} {security : Parameters} {user? : Option User}
  {user : User}

theorem encodingUser_of_user {level : SecurityLevel} (hlevel : level ≠ .noAuthNoPriv)
    (h : level ≤ user.securityLevel) : encodingUser level (some user) = .ok (some user) := by
  simp only [encodingUser, if_neg hlevel, if_pos h]

theorem encodingUser_of_not {level : SecurityLevel} (hlevel : level ≠ .noAuthNoPriv)
    (h : ¬HasCredentials level user?) :
    encodingUser level user? = .error (.encode .missingCredentials) := by
  cases user? with
  | none => simp only [encodingUser, if_neg hlevel]
  | some user =>
    have hlow : ¬level ≤ user.securityLevel := fun hle => h ⟨user, rfl, hle⟩
    simp only [encodingUser, if_neg hlevel, if_neg hlow]

/-! ### Data -/

/-- A scoped PDU that is not encrypted is always written. -/
theorem encodeScopedData_of_plain (h : header.flags.privacy = false) (suite : Suite) (m : Message)
    (security : Parameters) :
    encodeScopedData suite m header security (some user) = .ok m.encodeScoped := by
  simp only [encodeScopedData, h]
  rfl

/-- The keys of a user are long enough, so a salt of the right length is all that encryption asks
    for. -/
theorem encodeScopedData_of_salt (hsuite : suite.Sized) (hprivacy : header.flags.privacy = true)
    (hle : SecurityLevel.authPriv ≤ user.securityLevel) (hsalt : security.privParams.length = 8)
    (m : Message) : ∃ data, encodeScopedData suite m header security (some user) = .ok data := by
  obtain ⟨protocol, key, hkey, hlength⟩ := User.privKey_of_level hsuite hle security.engineId
  have hseed : (IvSeed.mk security.engineBoots security.engineTime
      security.privParams).salt.length = 8 := hsalt
  obtain ⟨cipherKey, iv, hkeyAndIv, -, -⟩ := PrivProtocol.keyAndIv_of_length hlength hseed
  have hcheck : protocol.checkSalt security.privParams = .ok () := if_pos hsalt
  simp only [encodeScopedData, hprivacy, hkey, Except.mapError_ok, PrivProtocol.encrypt, hcheck,
    hkeyAndIv, bind, Except.bind, pure, Except.pure]
  exact ⟨_, rfl⟩

theorem encodeScopedData_of_not_salt (hsuite : suite.Sized)
    (hprivacy : header.flags.privacy = true)
    (hle : SecurityLevel.authPriv ≤ user.securityLevel) (hsalt : security.privParams.length ≠ 8)
    (m : Message) : encodeScopedData suite m header security (some user) =
      .error (.encryptionFailed (.invalidPrivParamsLength 8 security.privParams.length)) := by
  obtain ⟨protocol, key, hkey, -⟩ := User.privKey_of_level hsuite hle security.engineId
  have hcheck : protocol.checkSalt security.privParams =
      .error (.invalidPrivParamsLength 8 security.privParams.length) := if_neg hsalt
  simp only [encodeScopedData, hprivacy, hkey, PrivProtocol.encrypt, hcheck, Except.mapError_ok,
    Except.mapError_error, bind, Except.bind]

/-- A user with the keys for a level writes a scoped PDU, with a salt if it is to be encrypted. -/
theorem encodeScopedData_of_user (hsuite : suite.Sized)
    (hlevel : header.flags.level ≠ .noAuthNoPriv) (hle : header.flags.level ≤ user.securityLevel)
    (hsalt : header.flags.level = .authPriv → security.privParams.length = 8) (m : Message) :
    ∃ data, encodeScopedData suite m header security (some user) = .ok data := by
  cases hprivacy : header.flags.privacy with
  | false => exact ⟨_, encodeScopedData_of_plain hprivacy suite m security⟩
  | true =>
    have hauth : header.flags.auth = true := by
      rwa [Ne, MsgFlags.level_eq_noAuthNoPriv, Bool.not_eq_false] at hlevel
    have hprivate := MsgFlags.level_eq_authPriv (fun _ => hauth) hprivacy
    exact encodeScopedData_of_salt hsuite hprivacy (hprivate ▸ hle) (hsalt hprivate) m

/-! ### Datagrams -/

section Version3

variable (hversion : m.version = .v3) (hheader? : m.header? = some header)
  (hsecurity? : m.security? = some security)

include hversion hheader? hsecurity?

/-- A message of a level without keys is written as it stands, whatever its other flags are. -/
theorem encode_plain (hlevel : header.flags.level = .noAuthNoPriv) (suite : Suite)
    (user? : Option User) :
    m.encode suite user? = .ok (encodeV3 header security m.encodeScoped) := by
  have hnot : ¬m.version.usesCommunity = true := by simp [hversion, Version.usesCommunity]
  have hdata : encodeScopedData suite m header security none = .ok m.encodeScoped := by
    cases hprivacy : header.flags.privacy <;> simp only [encodeScopedData, hprivacy] <;> rfl
  simp only [encode, if_neg hnot, hheader?, hsecurity?, encodingUser, if_pos hlevel, hdata, bind,
    Except.bind]
  rfl

/-- A message whose scoped PDU is written with the keys of a user is signed with them. -/
theorem encode_signing (hlevel : header.flags.level ≠ .noAuthNoPriv)
    (hle : header.flags.level ≤ user.securityLevel) {data : Octets}
    (hdata : encodeScopedData suite m header security (some user) = .ok data) :
    ∃ key, user.authKey suite security.engineId = .ok key ∧
      m.encodeUnsigned suite (some user) = .ok (encodeV3 header
        (security.withCode (Octets.zeros key.protocol.macLength)) data) ∧
      m.encode suite (some user) = authenticate suite key (encodeV3 header
        (security.withCode (Octets.zeros key.protocol.macLength)) data) := by
  have hnot : ¬m.version.usesCommunity = true := by simp [hversion, Version.usesCommunity]
  obtain ⟨key, hkey⟩ := User.authKey_of_level hlevel hle suite security.engineId
  refine ⟨key, hkey, ?_, ?_⟩
  · simp only [encodeUnsigned, if_neg hnot, hheader?, hsecurity?, encodingUser_of_user hlevel hle,
      hdata, hkey, Except.mapError_ok, bind, Except.bind]
    rfl
  · simp only [encode, if_neg hnot, hheader?, hsecurity?, encodingUser_of_user hlevel hle, hdata,
      hkey, Except.mapError_ok, bind, Except.bind]
    rfl

end Version3

/-- Each impediment shows as its error. -/
theorem encode_of_impediment (hsuite : suite.Sized) (hversion : m.version = .v3) {error : Error}
    (h : Impediment m user? error) : m.encode suite user? = .error error := by
  have hnot : ¬m.version.usesCommunity = true := by simp [hversion, Version.usesCommunity]
  cases h with
  | parameters hmissing =>
    rw [encode, if_neg hnot]
    rcases hmissing with hheader? | hsecurity?
    · simp only [hheader?]
    · simp only [hsecurity?]
      split
      · contradiction
      · rfl
  | credentials hheader? hsecurity? hlevel hcredentials =>
    simp only [encode, if_neg hnot, hheader?, hsecurity?, encodingUser_of_not hlevel hcredentials,
      bind, Except.bind]
  | @salt header security hheader? hsecurity? hlevel hcredentials hsalt =>
    obtain ⟨user, rfl, hle⟩ := hcredentials
    have hauth : header.flags.level ≠ .noAuthNoPriv := by rw [hlevel]; decide
    have hdata := encodeScopedData_of_not_salt hsuite (MsgFlags.privacy_of_level hlevel)
      hle hsalt m
    simp only [encode, if_neg hnot, hheader?, hsecurity?,
      encodingUser_of_user hauth (hlevel.symm ▸ hle), hdata, bind, Except.bind]

theorem unimpeded_of_encode (hsuite : suite.Sized) (hversion : m.version = .v3) {octets : Octets}
    (h : m.encode suite user? = .ok octets) : ∀ error, ¬Impediment m user? error := by
  intro error hfound
  cases h.symm.trans (encode_of_impediment hsuite hversion hfound)

/-- A signed message without an impediment has a user whose keys write its scoped PDU. -/
theorem exists_data_of_unimpeded (hsuite : suite.Sized) (hheader? : m.header? = some header)
    (hsecurity? : m.security? = some security) (hlevel : header.flags.level ≠ .noAuthNoPriv)
    (hfree : ∀ error, ¬Impediment m user? error) :
    ∃ user data, user? = some user ∧ header.flags.level ≤ user.securityLevel ∧
      encodeScopedData suite m header security (some user) = .ok data := by
  by_cases hcredentials : HasCredentials header.flags.level user?
  · obtain ⟨user, rfl, hle⟩ := hcredentials
    have hsalt : header.flags.level = .authPriv → security.privParams.length = 8 := by
      intro hprivate
      by_cases hlength : security.privParams.length = 8
      · exact hlength
      · exact absurd (.salt hheader? hsecurity? hprivate ⟨user, rfl, hprivate ▸ hle⟩ hlength)
          (hfree _)
    obtain ⟨data, hdata⟩ := encodeScopedData_of_user hsuite hlevel hle hsalt m
    exact ⟨user, data, rfl, hle, hdata⟩
  · exact absurd (.credentials hheader? hsecurity? hlevel hcredentials) (hfree _)

/-- The place of the code is found in what was written around it, and has room for a code. -/
theorem locateAuthParams_of_size (header : MsgHeader) (security : Parameters)
    (protocol : AuthProtocol) (data : Octets)
    (hsize : (encodeV3 header (security.withCode (Octets.zeros protocol.macLength)) data).length <
      UInt32.size) :
    ∃ offset, locateAuthParams (encodeV3 header
        (security.withCode (Octets.zeros protocol.macLength)) data) = .ok offset ∧
      offset + protocol.macLength ≤
        (encodeV3 header (security.withCode (Octets.zeros protocol.macLength)) data).length := by
  refine ⟨_, Envelope.locateAuthParams_encodeV3 header _ data (fits_v3Content hsize), ?_⟩
  rw [encodeV3_eq header]
  simp only [List.length_append, Parameters.withCode, List.length_replicate]
  omega

/-- A message without an impediment is encoded. -/
theorem encode_of_unimpeded (hsuite : suite.Sized) (hversion : m.version = .v3)
    (hsize : ∀ octets, m.encodeUnsigned suite user? = .ok octets → octets.length < UInt32.size)
    (hfree : ∀ error, ¬Impediment m user? error) : ∃ octets, m.encode suite user? = .ok octets := by
  cases hheader? : m.header? with
  | none => exact absurd (.parameters (.inl hheader?)) (hfree _)
  | some header =>
  cases hsecurity? : m.security? with
  | none => exact absurd (.parameters (.inr hsecurity?)) (hfree _)
  | some security =>
  by_cases hlevel : header.flags.level = .noAuthNoPriv
  · exact ⟨_, encode_plain hversion hheader? hsecurity? hlevel suite user?⟩
  · obtain ⟨user, data, rfl, hle, hdata⟩ :=
      exists_data_of_unimpeded hsuite hheader? hsecurity? hlevel hfree
    obtain ⟨key, -, hunsigned, hencode⟩ :=
      encode_signing hversion hheader? hsecurity? hlevel hle hdata
    exact ⟨_, hencode.trans (authenticate_encodeV3 hsuite key rfl
      (fits_v3Content (hsize _ hunsigned)))⟩

/-- **When encoding fails.**  A community message is encoded.  A version 3 message fails with just
    the errors of its impediments, so that it is encoded if it has none.  No key and no place for
    a code is ever missing: a user with keys for privacy has one that is long enough for the
    cipher and its vector, for all protocols, passphrases and engines, and the code of any message
    that is written is found again. -/
theorem encode_fails_iff (hsuite : suite.Sized) (m : Message) (user? : Option User)
    (hsize : ∀ octets, m.encodeUnsigned suite user? = .ok octets → octets.length < UInt32.size) :
    (m.version ≠ .v3 → ∃ octets, m.encode suite user? = .ok octets) ∧
    (m.version = .v3 → ∀ error, m.encode suite user? = .error error ↔ Impediment m user? error) ∧
    (m.version = .v3 → ((∃ octets, m.encode suite user? = .ok octets) ↔
      ∀ error, ¬Impediment m user? error)) ∧
    (∀ (user : User) (engineId : Octets), SecurityLevel.authPriv ≤ user.securityLevel →
      ∃ protocol key, user.privKey suite engineId = .ok (protocol, key) ∧
        protocol.keyLength ≤ key.octets.length ∧
        ∀ seed : IvSeed, seed.salt.length = 8 → ∃ cipherKey iv,
          protocol.keyAndIv key.octets seed = .ok (cipherKey, iv) ∧
          cipherKey.length = protocol.cipherKeyLength ∧ iv.length = protocol.ivLength) ∧
    (∀ (header : MsgHeader) (security : Parameters) (protocol : AuthProtocol) (data : Octets),
      let unsigned := encodeV3 header (security.withCode (Octets.zeros protocol.macLength)) data
      unsigned.length < UInt32.size → ∃ offset, locateAuthParams unsigned = .ok offset ∧
        offset + protocol.macLength ≤ unsigned.length) := by
  refine ⟨?_, ?_, ?_, ?_, locateAuthParams_of_size⟩
  · intro hversion
    have hcommunity : m.version.usesCommunity = true := by
      cases hcase : m.version with
      | v1 => rfl
      | v2c => rfl
      | v3 => exact absurd hcase hversion
    exact ⟨_, if_pos hcommunity⟩
  · intro hversion error
    constructor
    · intro herror
      by_cases hfound : Impediment m user? error
      · exact hfound
      · have hfree : ∀ other, ¬Impediment m user? other := by
          intro other hother
          cases (encode_of_impediment hsuite hversion hother).symm.trans herror
          exact hfound hother
        obtain ⟨octets, hok⟩ := encode_of_unimpeded hsuite hversion hsize hfree
        cases hok.symm.trans herror
    · exact encode_of_impediment hsuite hversion
  · intro hversion
    constructor
    · rintro ⟨octets, hok⟩
      exact unimpeded_of_encode hsuite hversion hok
    · exact encode_of_unimpeded hsuite hversion hsize
  · intro user engineId hle
    obtain ⟨protocol, key, hkey, hlength⟩ := User.privKey_of_level hsuite hle engineId
    exact ⟨protocol, key, hkey, hlength, fun seed => PrivProtocol.keyAndIv_of_length hlength⟩

/-- The keys of MD5 and DES, a salt and parameters are all that the example needs. -/
theorem encode_exampleRequest_ok :
    ∃ octets, exampleRequest.encode .standard (some exampleUser) = .ok octets := by
  obtain ⟨-, -, hencoded, -, -⟩ := encode_fails_iff Suite.standard_lawful.sized exampleRequest
    (some exampleUser) length_encodeUnsigned_exampleRequest
  refine (hencoded rfl).2 ?_
  intro error h
  cases h with
  | parameters hmissing => rcases hmissing with h | h <;> cases h
  | credentials hheader? _ _ hcredentials =>
    cases hheader?
    exact hcredentials ⟨exampleUser, rfl, by decide⟩
  | salt _ hsecurity? _ _ hsalt =>
    cases hsecurity?
    exact hsalt rfl

end Message

end Snmp
