/-
  Snmp/Proofs/CodePlace.lean
  ==========================
  **The place of the authentication code.**

  Both sides put zeros in the place of a code: the signer before it computes the code, the
  receiver before it computes the code again.  Both find the place by reading the security
  parameters, through an OCTET STRING that wraps a SEQUENCE and in whatever form the lengths
  have.  The place is exact: the octets that stand there are the code that was read
  (`StandsAt`), so others of the same number may be exchanged for them without touching any
  other octet, and exchanging them back gives what there was before (`Exchanged`).

  A signed datagram is the unsigned one with the code exchanged for the zeros, at the place that
  reading the datagram yields.
-/
import Snmp.Proofs.EncodeFailures
import Snmp.Proofs.IvSeed

namespace Snmp

open Ber Usm

variable {suite : Suite}

namespace Octets

/-! ### Parts of octets -/

/-- A part of octets, by the number of octets before it. -/
def StandsAt (whole : Octets) (offset : Nat) (part : Octets) : Prop :=
  ∃ before after, whole = before ++ (part ++ after) ∧ before.length = offset

theorem StandsAt.le {whole part : Octets} {offset : Nat} (h : StandsAt whole offset part) :
    offset + part.length ≤ whole.length := by
  obtain ⟨before, after, rfl, rfl⟩ := h
  simp only [List.length_append]
  omega

theorem StandsAt.trans {whole part inner : Octets} {base offset : Nat}
    (h : StandsAt whole base part) (k : StandsAt part offset inner) :
    StandsAt whole (base + offset) inner := by
  obtain ⟨before, after, rfl, rfl⟩ := h
  obtain ⟨first, last, rfl, rfl⟩ := k
  refine ⟨before ++ first, last ++ after, ?_, List.length_append⟩
  simp only [List.append_assoc]

/-- A part exchanged for another of the same length: nothing else changes, and the exchange can
    be undone. -/
structure Exchanged (whole other : Octets) (offset : Nat) (old new : Octets) : Prop where
  old_at : StandsAt whole offset old
  new_at : StandsAt other offset new
  length : whole.length = other.length
  outside : ∀ i, i < offset ∨ offset + old.length ≤ i → other[i]? = whole[i]?
  undone : Message.patch other offset old = whole

theorem exchanged_patch {whole old new : Octets} {offset : Nat} (h : StandsAt whole offset old)
    (hlength : old.length = new.length) :
    Exchanged whole (Message.patch whole offset new) offset old new := by
  obtain ⟨before, after, rfl, rfl⟩ := h
  rw [Message.patch_append hlength]
  refine ⟨⟨before, after, rfl, rfl⟩, ⟨before, after, rfl, rfl⟩, ?_, ?_,
    Message.patch_append hlength.symm⟩
  · simp only [List.length_append, hlength]
  · intro i hi
    rcases hi with hbefore | hafter
    · rw [List.getElem?_append_left hbefore, List.getElem?_append_left hbefore]
    · rw [List.getElem?_append_right (by omega), List.getElem?_append_right (by omega),
        List.getElem?_append_right (by omega), List.getElem?_append_right (by omega), hlength]

end Octets

open Octets

/-! ### Received datagrams -/

/-- Wherever parameters stand, the offset that is read with them is that of their code. -/
theorem Usm.Parameters.standsAt_code {whole octets : Octets} {base authOffset : Nat}
    {p : Parameters} (h : StandsAt whole base octets)
    (hdecode : decodeAt octets base = .ok (p, authOffset)) :
    StandsAt whole authOffset p.authParams := by
  obtain ⟨layout, rfl, rfl⟩ := decodeAt_eq_ok hdecode
  apply h.trans
  refine ⟨layout.front, layout.back, ?_, rfl⟩
  rw [Layout.octets, List.append_assoc]

namespace Envelope

variable {datagram : Octets} {header : MsgHeader} {security : Parameters} {authOffset : Nat}
  {content : Reader}

/-- The parameters are read from where they stand in the datagram. -/
theorem exists_parameters_of_ofDatagram
    (h : ofDatagram datagram = .ok (.v3 header security authOffset content)) :
    ∃ base octets, StandsAt datagram base octets ∧
      Parameters.decodeAt octets base = .ok (security, authOffset) := by
  rcases decodeV3_of_ofDatagram h with ⟨body, left, hopening, hread⟩
  obtain ⟨head, versionOctets, rest, -, -, hdatagram, hoffset⟩ := opening_eq_ok hopening
  obtain ⟨_, _, _, headerOctets, parametersHead, parameters, hsame, -, -, huse, hparameters⟩ :=
    decodeV3_eq_ok hread
  cases hsame
  refine ⟨_, parameters, ⟨head ++ versionOctets ++ headerOctets ++ parametersHead,
    content.rest ++ rest, ?_, ?_⟩, hparameters⟩
  · rw [hdatagram, huse.rest]
    simp only [List.append_assoc]
  · simp only [hoffset, List.length_append, Nat.add_assoc]

/-- What a receiver computes the code over is the datagram with zeros in the place of the code,
    and nowhere else. -/
theorem exchanged_unsigned
    (h : ofDatagram datagram = .ok (.v3 header security authOffset content)) :
    Exchanged datagram (unsigned datagram authOffset security) authOffset security.authParams
      (zeros security.authParams.length) := by
  obtain ⟨base, octets, hparameters, hdecode⟩ := exists_parameters_of_ofDatagram h
  exact exchanged_patch (Parameters.standsAt_code hparameters hdecode)
    List.length_replicate.symm

end Envelope

/-! ### Signed messages -/

namespace Message

variable {m : Message} {header : MsgHeader} {security : Parameters} {user? : Option User}
  {datagram : Octets}

/-- A version 3 message before it is signed with a key. -/
def blank (header : MsgHeader) (security : Parameters) (key : LocalizedKey) (data : Octets) :
    Octets :=
  encodeV3 header (security.withCode (zeros key.protocol.macLength)) data

/-- How a datagram was signed: the parameters with their code stand in it, and reading them there
    yields the one place where it differs from what was signed. -/
structure SignedAt (suite : Suite) (header : MsgHeader) (security : Parameters)
    (key : LocalizedKey) (data datagram : Octets) (offset : Nat) (code : Octets) : Prop where
  code_eq : code = key.sign suite (blank header security key data)
  code_length : code.length = key.protocol.macLength
  parameters : ∃ base, StandsAt datagram base (security.withCode code).encode ∧
    Parameters.decodeAt (security.withCode code).encode base =
      .ok ((security.withCode code).capped, offset)
  located : locateAuthParams datagram = .ok offset
  /-- A receiver that accepts the header finds the same place, and puts zeros there. -/
  opened : header.Valid → ∃ content,
    Envelope.ofDatagram datagram =
      .ok (.v3 header (security.withCode code).capped offset content) ∧
    Envelope.unsigned datagram offset (security.withCode code).capped =
      blank header security key data
  exchanged : Exchanged (blank header security key data) datagram offset
    (zeros key.protocol.macLength) code

/-- The parameters of a version 3 message stand in it, as far before the code as they are before
    it themselves. -/
theorem exists_standsAt_parameters (header : MsgHeader) (security : Parameters) (data : Octets) :
    ∃ base, StandsAt (encodeV3 header security data) base security.encode ∧
      (beforeCode header security data).length = base + security.beforeCode.length := by
  refine ⟨_, ⟨elementHeader Tag.sequence (v3Content header security data).length
    ++ (v3Front header ++ elementHeader Tag.octetString security.encode.length), data, ?_, rfl⟩, ?_⟩
  · rw [encodeV3_eq_element, element_eq, v3Content, element_eq Tag.octetString]
    simp only [List.append_assoc]
  · simp only [beforeCode, List.length_append, Nat.add_assoc]

/-- A message with a length that can be read is signed at the place of its code. -/
theorem signedAt_of_fits (hsuite : suite.Sized) (key : LocalizedKey) {data : Octets}
    (hfits : Fits (v3Content header
      (security.withCode (zeros key.protocol.macLength)) data)) {code : Octets}
    (hcode : code = key.sign suite (blank header security key data)) :
    SignedAt suite header security key data (encodeV3 header (security.withCode code) data)
      (beforeCode header (security.withCode code) data).length code := by
  have hlength : code.length = key.protocol.macLength :=
    hcode ▸ LocalizedKey.length_sign hsuite key _
  have hzeros : (zeros key.protocol.macLength).length = code.length :=
    List.length_replicate.trans hlength.symm
  have hcontent : Fits (v3Content header (security.withCode code) data) :=
    hfits.of_le (Nat.le_of_eq (length_v3Content_withCode header security data hzeros.symm))
  have hexchanged : Exchanged (blank header security key data)
      (encodeV3 header (security.withCode code) data)
      (beforeCode header (security.withCode code) data).length
      (zeros key.protocol.macLength) code := by
    have hplace : StandsAt (blank header security key data)
        (beforeCode header (security.withCode (zeros key.protocol.macLength)) data).length
        (zeros key.protocol.macLength) := ⟨_, _, encodeV3_eq header _ data, rfl⟩
    have hpatched := exchanged_patch hplace hzeros
    rw [blank, patch_encodeV3 header security data hzeros,
      beforeCode_withCode header security data hzeros] at hpatched
    exact hpatched
  obtain ⟨base, hstands, hbase⟩ := exists_standsAt_parameters header (security.withCode code) data
  refine ⟨hcode, hlength, ⟨base, hstands, ?_⟩,
    Envelope.locateAuthParams_encodeV3 header _ data hcontent, ?_, hexchanged⟩
  · rw [hbase]
    exact Parameters.decodeAt_encode hcontent.right.left.of_element base
  · intro hheader
    obtain ⟨position, hopen⟩ := Envelope.ofDatagram_encodeV3 hheader _ data hcontent
    refine ⟨_, hopen, ?_⟩
    have hsame : (security.withCode code).capped.authParams.length = key.protocol.macLength :=
      hlength
    rw [Envelope.unsigned, hsame]
    exact hexchanged.undone

/-- Whatever is encoded with authentication was signed at the place of its code. -/
theorem signedAt_of_encode (hsuite : suite.Sized) (hversion : m.version = .v3)
    (hheader? : m.header? = some header) (hsecurity? : m.security? = some security)
    (hlevel : header.flags.level ≠ .noAuthNoPriv) (hlength : datagram.length < UInt64.size)
    (h : m.encode suite user? = .ok datagram) :
    ∃ user key data offset code, user? = some user ∧
      user.authKey suite security.engineId = .ok key ∧
      encodeScopedData suite m header security (some user) = .ok data ∧
      SignedAt suite header security key data datagram offset code := by
  have hfree := unimpeded_of_encode hsuite hversion h
  obtain ⟨user, data, rfl, hle, hdata⟩ :=
    exists_data_of_unimpeded hsuite hheader? hsecurity? hlevel hfree
  obtain ⟨key, hkey, -, hencode⟩ := encode_signing hversion hheader? hsecurity? hlevel hle hdata
  rw [hencode] at h
  have hfits := authenticate_eq_ok hlength h
  obtain rfl := Except.ok.inj (h.symm.trans (authenticate_encodeV3 hsuite key rfl hfits))
  exact ⟨user, key, data, _, _, rfl, hkey, hdata, signedAt_of_fits hsuite key hfits rfl⟩

end Message

/-- **The authentication code stands where it is read.**  The offset that comes with the security
    parameters of a received datagram is that of their code, so that zeros are put in the place of
    the code and of nothing else.  A signed datagram is what was signed with the code exchanged
    for the zeros, at the place that is read from the datagram.  Parameters that were written are
    read back with their counts capped, wherever they begin; they may take as many octets as
    length octets announce to a reader. -/
theorem Envelope.code_place (hsuite : suite.Sized) :
    (∀ (datagram : Octets) (header : MsgHeader) (security : Parameters) (authOffset : Nat)
        (content : Reader),
      ofDatagram datagram = .ok (.v3 header security authOffset content) →
      (∃ base octets, StandsAt datagram base octets ∧
        Parameters.decodeAt octets base = .ok (security, authOffset)) ∧
      Exchanged datagram (unsigned datagram authOffset security) authOffset security.authParams
        (zeros security.authParams.length)) ∧
    (∀ (m : Message) (user? : Option User) (header : MsgHeader) (security : Parameters)
        (datagram : Octets),
      m.version = .v3 → m.header? = some header → m.security? = some security →
      header.flags.level ≠ .noAuthNoPriv → datagram.length < UInt64.size →
      m.encode suite user? = .ok datagram →
      ∃ user key data offset code, user? = some user ∧
        user.authKey suite security.engineId = .ok key ∧
        Message.encodeScopedData suite m header security (some user) = .ok data ∧
        Message.SignedAt suite header security key data datagram offset code) ∧
    (∀ (p : Parameters) (base : Nat), p.encode.length < UInt32.size →
      ∃ inner, StandsAt p.encode inner p.authParams ∧
        Parameters.decodeAt p.encode base = .ok (p.capped, base + inner)) := by
  refine ⟨?_, ?_, ?_⟩
  · intro datagram header security authOffset content h
    exact ⟨exists_parameters_of_ofDatagram h, exchanged_unsigned h⟩
  · intro m user? header security datagram hversion hheader? hsecurity? hlevel hlength h
    exact Message.signedAt_of_encode hsuite hversion hheader? hsecurity? hlevel hlength h
  · intro p base hfits
    exact ⟨p.beforeCode.length, ⟨p.beforeCode, p.afterCode, p.encode_eq, rfl⟩,
      Parameters.decodeAt_encode hfits base⟩

open Message in
/-- The example request is signed, at the place of its code. -/
theorem Message.signedAt_exampleRequest :
    ∃ datagram security key data offset code,
      exampleRequest.encode .standard (some exampleUser) = .ok datagram ∧ datagram.length = 109 ∧
      exampleRequest.security? = some security ∧
      SignedAt .standard ⟨7, maxMessageSize, .ofLevel .authPriv true⟩ security key data datagram
        offset code := by
  have hencoded : (exampleRequest.encode .standard (some exampleUser)).toOption.map List.length =
      some 109 := by decide +kernel
  obtain ⟨datagram, hdatagram, hcount⟩ := Except.eq_ok_of_toOption_map hencoded
  obtain ⟨-, hsigned, -⟩ := Envelope.code_place Suite.standard_lawful.sized
  obtain ⟨user, key, data, offset, code, -, -, -, hat⟩ := hsigned exampleRequest (some exampleUser)
    _ _ datagram rfl rfl rfl (by decide) (by rw [hcount]; decide) hdatagram
  exact ⟨datagram, _, key, data, offset, code, hdatagram, hcount, rfl, hat⟩

end Snmp
