/-
  Snmp/Proofs/IvSeed.lean
  =======================
  **The initialization vector, seen from both sides.**

  A sender encrypts with the boots and the time that it holds, and writes them as numbers of 31
  bits.  A receiver knows only what was written.  Both start from the same seed exactly if
  neither number is greater than what is written for it (`ivSeed_capped_eq_iff`).  DES makes its
  vector from the salt alone and does not notice; with AES a message whose numbers are greater
  is decrypted to octets that nobody has encrypted.

  What was encrypted, under which key and with which seed, is recovered from the datagram that
  came out of it (`Sealing`).  That needs the datagram to be shorter than an address space is
  large, since length octets count their own number in seven bits.
-/
import Snmp.Proofs.EncodeFailures

namespace Snmp

open Ber Decoder Usm

variable {suite : Suite}

/-! ### Seeds -/

namespace Usm

/-- The seed that a message with these parameters is encrypted or decrypted with. -/
def Parameters.ivSeed (p : Parameters) : IvSeed := ⟨p.engineBoots, p.engineTime, p.privParams⟩

/-- Whether boots and time are written as they are. -/
def Parameters.HasWireCounts (p : Parameters) : Prop :=
  p.engineBoots ≤ maxCount ∧ p.engineTime ≤ maxCount

theorem Parameters.min_maxCount_eq_iff {count : UInt32} :
    min count maxCount = count ↔ count ≤ maxCount := by
  constructor
  · intro h
    rw [UInt32.le_iff_toNat_le, ← h, toNat_min_maxCount]
    exact Nat.min_le_right _ _
  · intro h
    exact min_maxCount_of_le h

theorem Parameters.ivSeed_capped_eq_iff {p : Parameters} :
    p.capped.ivSeed = p.ivSeed ↔ p.HasWireCounts := by
  simp only [ivSeed, capped, IvSeed.mk.injEq, min_maxCount_eq_iff, and_true, HasWireCounts]

namespace PrivProtocol

/-- DES has no use for boots and time, and the other protocols see no difference if they are
    written as they are. -/
theorem keyAndIv_capped {protocol : PrivProtocol} {p : Parameters}
    (h : protocol = .des ∨ p.HasWireCounts) (key : Octets) :
    protocol.keyAndIv key p.capped.ivSeed = protocol.keyAndIv key p.ivSeed := by
  rcases h with rfl | hcounts
  · rfl
  · rw [Parameters.ivSeed_capped_eq_iff.2 hcounts]

theorem decrypt_capped {protocol : PrivProtocol} {p : Parameters}
    (h : protocol = .des ∨ p.HasWireCounts) (key cipher : Octets) :
    protocol.decrypt suite key p.capped.ivSeed cipher =
      protocol.decrypt suite key p.ivSeed cipher := by
  have hsalt : p.capped.ivSeed.salt = p.ivSeed.salt := rfl
  simp only [decrypt, hsalt, keyAndIv_capped h]

end PrivProtocol

end Usm

/-! ### Lengths that can be written -/

namespace Ber

theorem fits_of_constructed {tag : Tag} {content : Octets} {offset : Nat} {inner left : Reader}
    (hlength : content.length < UInt64.size)
    (h : constructed tag ⟨offset, element tag content⟩ = .ok inner left) : Fits content := by
  rw [← List.append_nil (element tag content)] at h
  rw [constructed, bind_ok (expect_element tag content offset [])] at h
  rcases bind_eq_ok h with ⟨count, s, hcount, _⟩
  rw [Decoder.length] at hcount
  cases hdecode : Length.decode (Length.encode content.length ++ (content ++ [])) with
  | error defect =>
    simp only [hdecode] at hcount
    contradiction
  | ok found => exact Length.lt_of_decode_encode hlength hdecode

end Ber

namespace Message

variable {m : Message} {header : MsgHeader} {security : Parameters} {user? : Option User}
  {datagram : Octets}

theorem locateAuthParams_eq_ok {message : Octets} {offset : Nat}
    (h : locateAuthParams message = .ok offset) :
    ∃ inner left, constructed Tag.sequence ⟨0, message⟩ = .ok inner left := by
  cases hconstructed : constructed Tag.sequence ⟨0, message⟩ with
  | ok inner left => exact ⟨inner, left, rfl⟩
  | error fault left =>
    simp only [locateAuthParams, runOn, EStateM.run, Reader.ofOctets, Decoder.sequence, bind,
      EStateM.bind, hconstructed] at h
    cases h

/-- A message that is signed has a length that can be read, and keeps it. -/
theorem authenticate_eq_ok {key : LocalizedKey} {data : Octets}
    (hlength : datagram.length < UInt64.size)
    (h : authenticate suite key (encodeV3 header security data) = .ok datagram) :
    Fits (v3Content header security data) := by
  rw [authenticate] at h
  rcases Except.bind_eq_ok h with ⟨offset, hlocate, h⟩
  obtain ⟨inner, left, hconstructed⟩ := locateAuthParams_eq_ok hlocate
  rw [encodeV3_eq_element] at hconstructed
  apply fits_of_constructed _ hconstructed
  simp only [Octets.covers_eq_decide, decide_eq_true_eq] at h
  split at h
  · rename_i hcovers
    cases h
    refine Nat.lt_of_le_of_lt ?_ hlength
    have hall := length_element Tag.sequence (v3Content header security data)
    rw [← encodeV3_eq_element] at hall
    simp only [patch, List.length_append, List.length_take, List.length_drop]
    omega
  · cases h

/-! ### What was encrypted -/

/-- How a datagram has come out of a message that was encrypted and signed. -/
structure Sealing (suite : Suite) (m : Message) (header : MsgHeader) (security : Parameters)
    (user? : Option User) (datagram : Octets) where
  user : User
  protocol : PrivProtocol
  key : LocalizedKey
  authKey : LocalizedKey
  cipher : Octets
  code : Octets
  user_eq : user? = some user
  level : SecurityLevel.authPriv ≤ user.securityLevel
  key_eq : user.privKey suite security.engineId = .ok (protocol, key)
  authKey_eq : user.authKey suite security.engineId = .ok authKey
  encrypted : protocol.encrypt suite key.octets security.ivSeed m.encodeScoped = .ok cipher
  code_eq : code = authKey.sign suite (encodeV3 header
    (security.withCode (Octets.zeros authKey.protocol.macLength))
    (element Tag.octetString cipher))
  fits : Fits (v3Content header (security.withCode code) (element Tag.octetString cipher))
  datagram_eq : datagram =
    encodeV3 header (security.withCode code) (element Tag.octetString cipher)

/-- The parameters that a receiver reads from the datagram. -/
def Sealing.received (s : Sealing suite m header security user? datagram) : Parameters :=
  (security.withCode s.code).capped

/-- Whatever is encoded with encryption was encrypted with the keys of the given user and the seed
    of its own parameters. -/
theorem sealing_of_encode (hsuite : suite.Lawful) (hversion : m.version = .v3)
    (hheader? : m.header? = some header) (hsecurity? : m.security? = some security)
    (hlevel : header.flags.level = .authPriv) (hlength : datagram.length < UInt64.size)
    (h : m.encode suite user? = .ok datagram) :
    Nonempty (Sealing suite m header security user? datagram) := by
  have hauth : header.flags.level ≠ .noAuthNoPriv := by rw [hlevel]; decide
  obtain ⟨user, data, rfl, hle, hdata⟩ := exists_data_of_unimpeded hsuite.sized hheader? hsecurity?
    hauth (unimpeded_of_encode hsuite.sized hversion h)
  obtain ⟨authKey, hauthKey, -, hencode⟩ :=
    encode_signing hversion hheader? hsecurity? hauth hle hdata
  rw [hencode] at h
  simp only [encodeScopedData, MsgFlags.privacy_of_level hlevel] at hdata
  rcases Except.bind_eq_ok hdata with ⟨⟨protocol, key⟩, hkey, hdata⟩
  rcases Except.bind_eq_ok hdata with ⟨cipher, hcipher, hdata⟩
  simp only [pure, Except.pure, Writer.octets_pushOctetString, Writer.octets_empty,
    List.append_nil] at hdata
  cases hdata
  have hfits := authenticate_eq_ok hlength h
  have hsigned := authenticate_encodeV3 hsuite.sized authKey rfl hfits
  refine ⟨⟨user, protocol, key, authKey, cipher, _, rfl, hlevel ▸ hle,
    Except.eq_ok_of_mapError hkey, hauthKey, Except.eq_ok_of_mapError hcipher, rfl, ?_,
    Except.ok.inj (h.symm.trans hsigned)⟩⟩
  apply hfits.of_le
  apply Nat.le_of_eq
  apply length_v3Content_withCode
  rw [LocalizedKey.length_sign hsuite.sized, List.length_replicate]

namespace Sealing

theorem ivSeed_received_eq_iff (s : Sealing suite m header security user? datagram) :
    s.received.ivSeed = security.ivSeed ↔ security.HasWireCounts :=
  Parameters.ivSeed_capped_eq_iff

/-- A receiver finds the cipher, and the parameters with boots and time as they are written. -/
theorem ofDatagram_eq (s : Sealing suite m header security user? datagram)
    (hheader : header.Valid) :
    ∃ position, Envelope.ofDatagram datagram = .ok (.v3 header s.received
      (beforeCode header (security.withCode s.code) (element Tag.octetString s.cipher)).length
      ⟨position, element Tag.octetString s.cipher⟩) := by
  obtain ⟨position, hopen⟩ := Envelope.ofDatagram_encodeV3 hheader _ _ s.fits
  rw [← s.datagram_eq] at hopen
  exact ⟨position, hopen⟩

/-- A receiver with the same keys decrypts with the seed of the parameters that it has read. -/
theorem openScoped_eq (s : Sealing suite m header security user? datagram)
    (hprivacy : header.flags.privacy = true) (position : Nat) :
    Envelope.openScoped suite header s.received (some s.user)
        ⟨position, element Tag.octetString s.cipher⟩ =
      ((s.protocol.decrypt suite s.key.octets s.received.ivSeed s.cipher).mapError
        .decryptionFailed).bind fun plaintext =>
          ((constructed Tag.sequence).runOn plaintext).mapError .decode := by
  have hpeek : (Reader.mk position (element Tag.octetString s.cipher)).peek? =
      some Tag.octetString := rfl
  have hkey : s.user.privKey suite s.received.engineId = .ok (s.protocol, s.key) := s.key_eq
  have hcipher : Fits s.cipher := s.fits.right.right.of_element
  simp only [Envelope.openScoped, hprivacy, if_pos hpeek, Envelope.decryptScoped, hkey,
    Except.mapError_ok, bind, Except.bind, (reads_octetString hcipher).alone]
  rfl

/-- The receiver has the scoped PDU again, if its vector follows from what was written. -/
theorem decode_eq (hsuite : suite.Lawful) (s : Sealing suite m header security user? datagram)
    (hheader : header.Valid) (hlevel : header.flags.level = .authPriv)
    (hpdu : m.pdu.Transmissible m.trap?) (hname : s.user.name = security.userName)
    (hseed : s.protocol = .des ∨ security.HasWireCounts) :
    Message.decode suite datagram user? = .ok
      { version := .v3, header? := some header, security? := some s.received
        contextEngineId := m.contextEngineId, contextName := m.contextName
        pdu := m.pdu, trap? := m.trap? } := by
  have hprivacy := MsgFlags.privacy_of_level hlevel
  obtain ⟨position, hopen⟩ := s.ofDatagram_eq hheader
  obtain ⟨_, _, hsame, hlength⟩ := User.privKey_of_level hsuite.sized s.level security.engineId
  rw [s.key_eq] at hsame
  cases hsame
  have hencrypted := s.encrypted
  have hsalt : security.privParams.length = 8 := by
    rcases Except.bind_eq_ok hencrypted with ⟨_, hcheck, _⟩
    rw [PrivProtocol.checkSalt] at hcheck
    split at hcheck
    · assumption
    · cases hcheck
  obtain ⟨cipher, hcipher, hcipherLength, hdecrypt⟩ :=
    PrivProtocol.encrypt_decrypt hsuite hlength security.ivSeed hsalt m.encodeScoped
  rw [hencrypted] at hcipher
  cases hcipher
  rw [← PrivProtocol.decrypt_capped hseed] at hdecrypt
  have hcipherFits : Fits s.cipher := s.fits.right.right.of_element
  have hscopedFits : Fits m.encodeScoped := hcipherFits.of_le (by
    rw [hcipherLength]
    exact s.protocol.length_le_prepared _)
  have huser : Envelope.decodingUser header.flags.level s.received user? = .ok (some s.user) := by
    have hlow : ¬s.user.securityLevel < SecurityLevel.authPriv := Nat.not_lt.2 s.level
    have hreceived : s.user.name = s.received.userName := hname
    simp only [Envelope.decodingUser, hlevel, s.user_eq, hreceived, ne_eq, not_true, if_false,
      if_neg hlow]
    rfl
  have hcodeLength : s.code.length = s.authKey.protocol.macLength := by
    rw [s.code_eq, LocalizedKey.length_sign hsuite.sized]
  have hcode := checkCode_encodeV3 s.authKey_eq rfl hcodeLength s.code_eq
  rw [← s.datagram_eq] at hcode
  obtain ⟨offset, hinner⟩ :=
    Envelope.openScoped_encrypted m hprivacy (show s.user.privKey suite s.received.engineId = _
      from s.key_eq) hdecrypt hcipherFits hscopedFits position
  rw [encodeScoped_eq] at hscopedFits
  exact decode_of_stages hopen huser hcode hinner
    (Envelope.accepts_decodeScoped header _ hpdu hscopedFits.of_element offset)

end Sealing

/-- A message is encrypted with the seed of its own parameters and decrypted with that of the
    parameters that its datagram holds.  The two are the same exactly if neither boots nor time is
    greater than what is written for it; then, and for DES in any case, the receiver recovers the
    scoped PDU. -/
theorem ivSeed_of_encode (hsuite : suite.Lawful) (hversion : m.version = .v3)
    (hheader? : m.header? = some header) (hsecurity? : m.security? = some security)
    (hsize : minMessageSize ≤ header.maxSize) (hlevel : header.flags.level = .authPriv)
    (hlength : datagram.length < UInt64.size) (h : m.encode suite user? = .ok datagram) :
    ∃ (s : Sealing suite m header security user? datagram) (authOffset : Nat) (content : Reader),
      Envelope.ofDatagram datagram = .ok (.v3 header s.received authOffset content) ∧
      (Envelope.openScoped suite header s.received (some s.user) content =
        ((s.protocol.decrypt suite s.key.octets s.received.ivSeed s.cipher).mapError
          .decryptionFailed).bind fun plaintext =>
            ((constructed Tag.sequence).runOn plaintext).mapError .decode) ∧
      (s.received.ivSeed = security.ivSeed ↔ security.HasWireCounts) ∧
      (m.pdu.Transmissible m.trap? → s.user.name = security.userName →
        s.protocol = .des ∨ security.HasWireCounts →
        Message.decode suite datagram user? = .ok
          { version := .v3, header? := some header, security? := some s.received
            contextEngineId := m.contextEngineId, contextName := m.contextName
            pdu := m.pdu, trap? := m.trap? }) := by
  have hprivacy := MsgFlags.privacy_of_level hlevel
  have hheader : header.Valid := ⟨hsize, fun _ => by
    apply Decidable.byContradiction
    intro hauth
    rw [MsgFlags.level_eq_noAuthNoPriv.2 (Bool.eq_false_iff.2 hauth)] at hlevel
    contradiction⟩
  obtain ⟨s⟩ := sealing_of_encode hsuite hversion hheader? hsecurity? hlevel hlength h
  obtain ⟨position, hopen⟩ := s.ofDatagram_eq hheader
  refine ⟨s, _, _, hopen, s.openScoped_eq hprivacy position, s.ivSeed_received_eq_iff, ?_⟩
  intro hpdu hname hseed
  exact s.decode_eq hsuite hheader hlevel hpdu hname hseed

/-- The same user with AES in place of DES. -/
def aesUser : User := exampleUser.withPrivacy .aes128 [98]

/-- An encrypted response without bindings, from an engine that was booted so many times. -/
def bootedResponse (boots : UInt32) : Message where
  version := .v3
  header? := some ⟨1, maxMessageSize, .ofLevel .authPriv false⟩
  security? := some {
    engineId := [128, 0, 0, 0, 1], engineBoots := boots, engineTime := 300
    userName := [111, 112], privParams := [1, 2, 3, 4, 5, 6, 7, 8] }
  pdu := ⟨.response, 1, 0, 0, []⟩

/-- A response from an engine that was booted five times is recovered. -/
theorem ivSeed_of_encode_bootedResponse :
    ∃ datagram m, (bootedResponse 5).encode .standard (some aesUser) = .ok datagram ∧
      Message.decode .standard datagram (some aesUser) = .ok m ∧
      m.pdu = (bootedResponse 5).pdu := by
  have hlength : ((bootedResponse 5).encode .standard (some aesUser)).toOption.map
      List.length = some 88 := by decide +kernel
  obtain ⟨datagram, hencode, hlength⟩ := Except.eq_ok_of_toOption_map hlength
  have hshort : datagram.length < UInt64.size := by
    rw [hlength]
    decide
  obtain ⟨s, _, _, _, _, _, hdecode⟩ := ivSeed_of_encode Suite.standard_lawful rfl rfl rfl
    (by decide) (by decide) hshort hencode
  have huser : s.user = aesUser := (Option.some.inj s.user_eq).symm
  have hpdu : (bootedResponse 5).pdu.Transmissible none :=
    ⟨fun b hb => absurd hb (by simp [bootedResponse]), fun htrap => absurd htrap (by decide),
      fun _ => rfl⟩
  refine ⟨datagram, _, hencode, hdecode hpdu ?_ (.inr ⟨by decide, by decide⟩), rfl⟩
  rw [huser]
  rfl

/-- What a receiver makes of a datagram: the seed that it reads, and the PDU that it decrypts. -/
def recovery (datagram : Octets) : Option IvSeed × Option Pdu :=
  ((Envelope.ofDatagram datagram).toOption.bind (·.security?.map (·.ivSeed)),
    (Message.decode .brief datagram (some aesUser)).toOption.map (·.pdu))

/-- One from an engine that was booted 2^31 times is encrypted with this number, but a receiver
    reads a smaller one and decrypts nothing. -/
theorem bootedResponse_unreadable :
    ∃ datagram header security authOffset content,
      (bootedResponse 2147483648).encode .brief (some aesUser) = .ok datagram ∧
      Envelope.ofDatagram datagram = .ok (.v3 header security authOffset content) ∧
      security.ivSeed ≠ ⟨2147483648, 300, [1, 2, 3, 4, 5, 6, 7, 8]⟩ ∧
      ∀ m, Message.decode .brief datagram (some aesUser) ≠ .ok m := by
  have hrecovery : ((bootedResponse 2147483648).encode .brief (some aesUser)).toOption.map
      recovery = some (some ⟨2147483647, 300, [1, 2, 3, 4, 5, 6, 7, 8]⟩, none) := by
    decide +kernel
  obtain ⟨datagram, hencode, hrecovery⟩ := Except.eq_ok_of_toOption_map hrecovery
  simp only [recovery, Prod.mk.injEq] at hrecovery
  obtain ⟨hseed, hpdu⟩ := hrecovery
  cases hopen : Envelope.ofDatagram datagram with
  | error error =>
    rw [hopen] at hseed
    cases hseed
  | ok envelope =>
  rw [hopen] at hseed
  cases envelope with
  | community message => cases hseed
  | v3 header security authOffset content =>
    have hread : security.ivSeed = ⟨2147483647, 300, [1, 2, 3, 4, 5, 6, 7, 8]⟩ :=
      Option.some.inj hseed
    refine ⟨datagram, header, security, authOffset, content, hencode, hopen, ?_, ?_⟩
    · rw [hread]
      decide
    · intro m hdecode
      rw [hdecode] at hpdu
      cases hpdu

end Message

end Snmp
