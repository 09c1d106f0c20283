/-
  Snmp/Proofs/KeyLaws.lean
  ========================
  **What the security model needs of its functions, and what follows for keys.**

  A suite is lawful if digests have the length of their protocol, keyed digests are long enough
  to be cut, and deciphering undoes enciphering for keys, vectors and blocks of the right
  lengths.  Nothing else is used of a suite: stretched keys are long enough for every pair of
  protocols, and what one side encrypts the other decrypts, up to the fill of the last block.
  Keys and codes depend on the lengths of digests alone (`Suite.Sized`).

  Users are made without keys (`User.Unprepared`).  Preparation derives them once, and they are
  those that the user would derive on every use.
-/
import Snmp.Proofs.KeyStretching
import Snmp.Usm.User

namespace Snmp.Usm

/-! ### Lawful suites -/

/-- The length of the key that goes into a cipher. -/
def PrivProtocol.cipherKeyLength : PrivProtocol → Nat
  | .des => 8
  | protocol => protocol.keyLength

def PrivProtocol.ivLength : PrivProtocol → Nat
  | .des => 8
  | _ => 16

/-- Whether a cipher takes a plaintext of this length: DES takes whole blocks. -/
def PrivProtocol.TakesLength (protocol : PrivProtocol) (length : Nat) : Prop :=
  protocol = .des → length % PrivProtocol.blockSize = 0

/-- The laws of digests and ciphers that the security model relies on. -/
structure Suite.Lawful (suite : Suite) : Prop where
  length_digest : ∀ protocol message,
    (suite.digest protocol message).length = protocol.digestLength
  macLength_le : ∀ protocol key message,
    protocol.macLength ≤ (suite.mac protocol key message).length
  length_encrypt : ∀ (protocol : PrivProtocol) (key iv plaintext : Octets),
    key.length = protocol.cipherKeyLength → iv.length = protocol.ivLength →
    protocol.TakesLength plaintext.length →
    (suite.encrypt protocol key iv plaintext).length = plaintext.length
  decrypt_encrypt : ∀ (protocol : PrivProtocol) (key iv plaintext : Octets),
    key.length = protocol.cipherKeyLength → iv.length = protocol.ivLength →
    protocol.TakesLength plaintext.length →
    suite.decrypt protocol key iv (suite.encrypt protocol key iv plaintext) = plaintext

/-- The laws of digests alone: their lengths. -/
structure Suite.Sized (suite : Suite) : Prop where
  length_digest : ∀ protocol message,
    (suite.digest protocol message).length = protocol.digestLength
  macLength_le : ∀ protocol key message,
    protocol.macLength ≤ (suite.mac protocol key message).length

variable {suite : Suite}

theorem Suite.Lawful.sized (h : suite.Lawful) : suite.Sized := ⟨h.length_digest, h.macLength_le⟩

/-! ### Codes and keys -/

theorem AuthProtocol.digestLength_pos (protocol : AuthProtocol) : 0 < protocol.digestLength := by
  cases protocol <;> decide

namespace LocalizedKey

theorem length_sign (hsuite : suite.Sized) (key : LocalizedKey) (message : Octets) :
    (key.sign suite message).length = key.protocol.macLength := by
  rw [sign, List.length_take]
  exact Nat.min_eq_left (hsuite.macLength_le _ _ _)

theorem le_length_extendTo (hsuite : suite.Sized) (key : LocalizedKey) (length : Nat) :
    length ≤ (key.extendTo suite length).octets.length := by
  have hdigest : ∀ message, 0 < (suite.digest key.protocol message).length := fun message =>
    (hsuite.length_digest key.protocol message).symm ▸ key.protocol.digestLength_pos
  obtain ⟨_, _, henough, _⟩ := (key.stretched_extendTo hdigest length).fewest
  exact henough

theorem verify_sign (key : LocalizedKey) (message : Octets) :
    key.verify suite message (key.sign suite message) = .ok () := by
  simp [verify]

end LocalizedKey

namespace User

theorem authKey_of_level {user : User} {level : SecurityLevel} (hlevel : level ≠ .noAuthNoPriv)
    (h : level ≤ user.securityLevel) (suite : Suite) (engineId : Octets) :
    ∃ key, user.authKey suite engineId = .ok key := by
  cases hauth : user.auth? with
  | none =>
    have huser : user.securityLevel = .noAuthNoPriv := by simp [securityLevel, hauth]
    rw [huser] at h
    cases level with
    | noAuthNoPriv => exact absurd rfl hlevel
    | authNoPriv => exact absurd h (by decide)
    | authPriv => exact absurd h (by decide)
  | some auth => exact ⟨_, by rw [authKey, hauth]⟩

/-- A user configured for privacy has a key of the length that its protocol consumes. -/
theorem privKey_of_level (hsuite : suite.Sized) {user : User}
    (h : SecurityLevel.authPriv ≤ user.securityLevel) (engineId : Octets) :
    ∃ protocol key, user.privKey suite engineId = .ok (protocol, key) ∧
      protocol.keyLength ≤ key.octets.length := by
  cases hauth : user.auth? with
  | none =>
    have huser : user.securityLevel = .noAuthNoPriv := by simp [securityLevel, hauth]
    rw [huser] at h
    exact absurd h (by decide)
  | some auth =>
    cases hprivacy : user.privacy? with
    | none =>
      have huser : user.securityLevel = .authNoPriv := by simp [securityLevel, hauth, hprivacy]
      rw [huser] at h
      exact absurd h (by decide)
    | some privacy =>
      refine ⟨privacy.protocol, _, by rw [privKey, hauth, hprivacy], ?_⟩
      exact LocalizedKey.le_length_extendTo hsuite _ _

end User

/-! ### Prepared users -/

namespace User

/-- A user that keeps no master key, and derives them on every use. -/
structure Unprepared (user : User) : Prop where
  auth : ∀ auth, user.auth? = some auth → auth.master? = none
  privacy : ∀ privacy, user.privacy? = some privacy → privacy.master? = none

/-- A user with both master keys at hand: of each passphrase the one that the hash of the
    authentication protocol gives. -/
structure KeepsKeys (suite : Suite) (user prepared : User) : Prop where
  auth : prepared.auth? = user.auth?.map fun auth =>
    { auth with master? := some (.ofPassphrase suite auth.protocol auth.passphrase) }
  privacy : ∀ auth, user.auth? = some auth →
    prepared.privacy? = user.privacy?.map fun privacy =>
      { privacy with master? := some (.ofPassphrase suite auth.protocol privacy.passphrase) }

/-! A user is made of a name, with one protocol or both, and so without keys. -/

theorem unprepared_of_name (name : Octets) : ({ name } : User).Unprepared := ⟨nofun, nofun⟩

theorem Unprepared.withAuth {user : User} (h : user.Unprepared) (protocol : AuthProtocol)
    (passphrase : Octets) : (user.withAuth protocol passphrase).Unprepared := by
  refine ⟨?_, h.privacy⟩
  rintro _ ⟨⟩
  rfl

theorem Unprepared.withPrivacy {user : User} (h : user.Unprepared) (protocol : PrivProtocol)
    (passphrase : Octets) : (user.withPrivacy protocol passphrase).Unprepared := by
  refine ⟨h.auth, ?_⟩
  rintro _ ⟨⟩
  rfl

/-- Preparing a user keeps its name and its level, and derives its keys. -/
theorem prepare_eq_ok {user prepared : User} (h : user.prepare suite = .ok prepared) :
    prepared.name = user.name ∧ prepared.securityLevel = user.securityLevel ∧
      user.KeepsKeys suite prepared := by
  obtain ⟨name, auth?, privacy?⟩ := user
  cases auth? with
  | none =>
    cases privacy? with
    | none =>
      cases h
      exact ⟨rfl, rfl, rfl, nofun⟩
    | some privacy => contradiction
  | some auth =>
    simp only [prepare] at h
    split at h
    · contradiction
    · cases h
      refine ⟨rfl, ?_, rfl, ?_⟩
      · cases privacy? with
        | none => rfl
        | some privacy => rfl
      · rintro _ ⟨⟩
        rfl

/-- Keys that are kept are those that a user without them derives. -/
theorem KeepsKeys.authKey_eq {user prepared : User} (h : user.KeepsKeys suite prepared)
    (hunprepared : user.Unprepared) (engineId : Octets) :
    prepared.authKey suite engineId = user.authKey suite engineId := by
  rw [authKey, authKey, h.auth]
  cases hauth : user.auth? with
  | none => rfl
  | some auth =>
    have hmaster := hunprepared.auth auth hauth
    simp only [Option.map_some, Secret.master, hmaster, Option.getD_some, Option.getD_none]

theorem KeepsKeys.privKey_eq {user prepared : User} (h : user.KeepsKeys suite prepared)
    (hunprepared : user.Unprepared) (engineId : Octets) :
    prepared.privKey suite engineId = user.privKey suite engineId := by
  rw [privKey, privKey, h.auth]
  cases hauth : user.auth? with
  | none => rfl
  | some auth =>
    rw [h.privacy auth hauth]
    cases hprivacy : user.privacy? with
    | none => rfl
    | some privacy =>
      have hmaster := hunprepared.privacy privacy hprivacy
      simp only [Option.map_some, Secret.master, hmaster, Option.getD_some, Option.getD_none]

end User

/-! ### Encryption -/

namespace PrivProtocol

theorem length_padded (octets : Octets) : (padded octets).length % blockSize = 0 := by
  simp only [padded, blockSize, List.length_append, List.length_replicate]
  omega

/-- A key of the length that is consumed is split into a cipher key and a vector of the right
    lengths. -/
theorem keyAndIv_of_length {protocol : PrivProtocol} {key : Octets}
    (hkey : protocol.keyLength ≤ key.length) {seed : IvSeed} (hsalt : seed.salt.length = 8) :
    ∃ cipherKey iv, protocol.keyAndIv key seed = .ok (cipherKey, iv) ∧
      cipherKey.length = protocol.cipherKeyLength ∧ iv.length = protocol.ivLength := by
  have hlong : ¬key.length < protocol.keyLength := Nat.not_lt.2 hkey
  have hwords : (Octets.ofWord32 seed.engineBoots ++ Octets.ofWord32 seed.engineTime
      ++ seed.salt).length = 16 := by
    simp [Octets.ofWord32, hsalt]
  cases protocol with
  | des =>
    rw [keyLength] at hkey
    refine ⟨key.take 8, Octets.xor ((key.drop 8).take 8) seed.salt, if_neg hlong, ?_, ?_⟩
    · exact List.length_take_of_le (by omega)
    · simp only [Octets.length_xor, List.length_take, List.length_drop, hsalt, ivLength]
      omega
  | aes128 => exact ⟨_, _, if_neg hlong, List.length_take_of_le hkey, hwords⟩
  | aes192 => exact ⟨_, _, if_neg hlong, List.length_take_of_le hkey, hwords⟩
  | aes256 => exact ⟨_, _, if_neg hlong, List.length_take_of_le hkey, hwords⟩

/-- What a cipher is given: DES fills the last block. -/
def prepared (protocol : PrivProtocol) (plaintext : Octets) : Octets :=
  if protocol = .des then padded plaintext else plaintext

theorem takesLength_prepared (protocol : PrivProtocol) (plaintext : Octets) :
    protocol.TakesLength (protocol.prepared plaintext).length := by
  intro hdes
  rw [prepared, if_pos hdes]
  exact length_padded plaintext

theorem prefix_prepared (protocol : PrivProtocol) (plaintext : Octets) :
    plaintext <+: protocol.prepared plaintext := by
  rw [prepared]
  split
  · exact List.prefix_append _ _
  · exact List.prefix_rfl

theorem length_le_prepared (protocol : PrivProtocol) (plaintext : Octets) :
    plaintext.length ≤ (protocol.prepared plaintext).length :=
  (protocol.prefix_prepared plaintext).length_le

/-- Encryption with a sufficient key and a salt succeeds, and decryption with the same key and
    seed gives back what the cipher was given. -/
theorem encrypt_decrypt (hsuite : suite.Lawful) {protocol : PrivProtocol} {key : Octets}
    (hkey : protocol.keyLength ≤ key.length) (seed : IvSeed) (hsalt : seed.salt.length = 8)
    (plaintext : Octets) :
    ∃ cipher, protocol.encrypt suite key seed plaintext = .ok cipher ∧
      cipher.length = (protocol.prepared plaintext).length ∧
      protocol.decrypt suite key seed cipher = .ok (protocol.prepared plaintext) := by
  obtain ⟨cipherKey, iv, hkeyAndIv, hcipherKey, hiv⟩ := keyAndIv_of_length hkey hsalt
  have htakes := protocol.takesLength_prepared plaintext
  have hcheck : protocol.checkSalt seed.salt = .ok () := if_pos hsalt
  have hlength := hsuite.length_encrypt protocol cipherKey iv _ hcipherKey hiv htakes
  have hwhole : ¬(protocol = .des ∧ (suite.encrypt protocol cipherKey iv
      (protocol.prepared plaintext)).length % blockSize ≠ 0) := by
    rintro ⟨hdes, hpartial⟩
    rw [hlength] at hpartial
    exact hpartial (htakes hdes)
  refine ⟨suite.encrypt protocol cipherKey iv (protocol.prepared plaintext), ?_, hlength, ?_⟩
  · simp only [encrypt, hcheck, hkeyAndIv, bind, Except.bind]
    rfl
  · simp only [decrypt, hcheck, hkeyAndIv, bind, Except.bind, if_neg hwhole]
    rw [hsuite.decrypt_encrypt protocol cipherKey iv _ hcipherKey hiv htakes]
    rfl

end PrivProtocol

end Snmp.Usm
