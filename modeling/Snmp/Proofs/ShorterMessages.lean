/-
  Snmp/Proofs/ShorterMessages.lean
  ================================
  **A shorter PDU does not make a longer message.**

  A reply that is too large is tried again with fewer bindings.  Each layer of the wire form
  keeps the order of lengths: an element is not shorter than one with less content, a cipher
  fills the same blocks or more of them, and the frame around the scoped PDU has one length
  whatever it holds.
-/
import Snmp.Proofs.MessageRoundTrip

namespace Snmp

open Ber Usm

/-! ### Elements -/

/-- More digits denote more, by strong induction on the greater number. -/
theorem Octets.length_ofNat_mono : ∀ {n m : Nat}, m ≤ n →
    (Octets.ofNat m).length ≤ (Octets.ofNat n).length := by
  intro n
  induction n using Nat.strongRecOn with
  | _ n ih =>
    intro m hle
    by_cases hone : m < 256
    · rw [Octets.ofNat, if_pos hone]
      exact Octets.length_ofNat_pos n
    · have hm : Octets.ofNat m = Octets.ofNat (m / 256) ++ [UInt8.ofNat m] := by
        rw [Octets.ofNat, if_neg hone]
      have hn : Octets.ofNat n = Octets.ofNat (n / 256) ++ [UInt8.ofNat n] := by
        rw [Octets.ofNat, if_neg (by omega)]
      rw [hm, hn, List.length_append, List.length_append]
      exact Nat.add_le_add_right (ih (n / 256) (by omega) (Nat.div_le_div_right hle)) 1

namespace Ber

variable {a b : Octets}

theorem Length.length_encode_mono {m n : Nat} (h : m ≤ n) :
    (Length.encode m).length ≤ (Length.encode n).length := by
  by_cases hshort : m < 128
  · rw [Length.encode, if_pos hshort, Length.encode]
    split
    · exact Nat.le_refl _
    · exact Nat.le_add_left 1 _
  · rw [Length.encode, if_neg hshort, Length.encode, if_neg (by omega : ¬n < 128)]
    exact Nat.succ_le_succ (Octets.length_ofNat_mono h)

theorem length_element_mono (tag other : Tag) (h : a.length ≤ b.length) :
    (element tag a).length ≤ (element other b).length := by
  have hlength := Length.length_encode_mono h
  rw [length_element, length_element, headerSize, headerSize]
  omega

end Ber

theorem Usm.PrivProtocol.length_prepared_mono (protocol : PrivProtocol) {a b : Octets}
    (h : a.length ≤ b.length) :
    (protocol.prepared a).length ≤ (protocol.prepared b).length := by
  rw [prepared, prepared]
  split
  · simp only [padded, blockSize, List.length_append, List.length_replicate]
    omega
  · exact h

/-! ### PDUs -/

namespace Pdu

variable {pdu : Pdu}

theorem length_wire_le {part whole : Pdu} (hpart : part.type ≠ .trapV1)
    (hwhole : whole.type ≠ .trapV1)
    (hnumbers : part.numbersWire.length ≤ whole.numbersWire.length)
    (hbindings : (part.bindings.flatMap Binding.wire).length ≤
      (whole.bindings.flatMap Binding.wire).length) :
    (part.wire none).length ≤ (whole.wire none).length := by
  have hlist := length_element_mono Tag.sequence Tag.sequence hbindings
  apply length_element_mono
  rw [content, if_neg hpart, content, if_neg hwhole, List.length_append, List.length_append]
  exact Nat.add_le_add hnumbers hlist

/-- The same PDU with no more than its first bindings. -/
def cut (pdu : Pdu) (count : Nat) : Pdu := { pdu with bindings := pdu.bindings.take count }

theorem cut_length (pdu : Pdu) : pdu.cut pdu.bindings.length = pdu := by
  rw [cut, List.take_length]

theorem length_wire_cut_le (htype : pdu.type ≠ .trapV1) (count : Nat) :
    ((pdu.cut count).wire none).length ≤ (pdu.wire none).length := by
  have hsplit := congrArg (fun bindings => (bindings.flatMap Binding.wire).length)
    (List.take_append_drop count pdu.bindings)
  simp only [List.flatMap_append, List.length_append] at hsplit
  apply length_wire_le _ htype
  · exact Nat.le_refl _
  · simp only [cut]
    omega
  · exact htype

/-- The response that there is no room takes one octet for each of the status and the index, and
    none for bindings, so that no response to the same request is shorter. -/
theorem length_wire_tooBig_le {request : Pdu} (htype : pdu.type = .response)
    (hid : pdu.requestId = request.requestId) :
    (((request.toResponse []).withError .tooBig 0).wire none).length ≤ (pdu.wire none).length := by
  have hplain : pdu.type ≠ .trapV1 := by
    rw [htype]
    decide
  have hsmall (number any : Int32) (hlow : -128 ≤ number.toInt) (hhigh : number.toInt < 128) :
      (element Tag.integer (Octets.ofInt number.toInt)).length ≤
        (element Tag.integer (Octets.ofInt any.toInt)).length := by
    have hone : (Octets.ofInt number.toInt).length ≤ 1 :=
      Octets.length_ofInt_le (k := 0) hlow hhigh
    apply length_element_mono
    exact Nat.le_trans hone (Octets.length_ofInt_pos any.toInt)
  apply length_wire_le _ hplain
  · have hstatus := hsmall ErrorStatus.tooBig.code pdu.errorStatus (by decide) (by decide)
    have hindex := hsmall 0 pdu.errorIndex (by decide) (by decide)
    simp only [numbersWire, withError, toResponse, hid, List.length_append]
    omega
  · exact Nat.zero_le _
  · exact PduType.noConfusion

end Pdu

/-! ### Messages -/

namespace Message

variable {suite : Suite} {m : Message} {header : MsgHeader} {security : Parameters}
  {user? : Option User} {pdu : Pdu}

theorem length_encodeScoped_mono (h : (m.pdu.wire m.trap?).length ≤ (pdu.wire none).length) :
    m.encodeScoped.length ≤ (m.withPdu pdu).encodeScoped.length := by
  rw [encodeScoped_eq, encodeScoped_eq]
  apply length_element_mono
  simp only [scopedContent, withPdu, List.length_append]
  omega

theorem length_encodeCommunity_mono (h : (m.pdu.wire m.trap?).length ≤ (pdu.wire none).length) :
    m.encodeCommunity.length ≤ (m.withPdu pdu).encodeCommunity.length := by
  rw [encodeCommunity_eq, encodeCommunity_eq]
  apply length_element_mono
  simp only [communityContent, withPdu, List.length_append]
  omega

theorem length_encodeV3_mono {data more : Octets} (h : data.length ≤ more.length) :
    (encodeV3 header security data).length ≤ (encodeV3 header security more).length := by
  rw [encodeV3_eq_element, encodeV3_eq_element]
  apply length_element_mono
  simp only [v3Content, List.length_append]
  omega

theorem encodeScopedData_mono (hsuite : suite.Lawful) (hheader : header.Valid)
    (hprotected : Protected header security user?) {longer : Message}
    (h : m.encodeScoped.length ≤ longer.encodeScoped.length) :
    ∃ data more,
      encodeScopedData suite m header security (keyUser header.flags.level user?) = .ok data ∧
      encodeScopedData suite longer header security (keyUser header.flags.level user?) =
        .ok more ∧
      data.length ≤ more.length := by
  cases hprivacy : header.flags.privacy with
  | false =>
    refine ⟨m.encodeScoped, longer.encodeScoped, ?_, ?_, h⟩
    · simp only [encodeScopedData, hprivacy]
      rfl
    · simp only [encodeScopedData, hprivacy]
      rfl
  | true =>
    obtain ⟨user, protocol, key, huser, _, hencrypts⟩ :=
      hprotected.encrypts hsuite hheader hprivacy
    obtain ⟨cipher, hdata, hcipher, _⟩ := hencrypts m
    obtain ⟨longCipher, hmore, hlongCipher, _⟩ := hencrypts longer
    rw [huser]
    refine ⟨_, _, hdata, hmore, ?_⟩
    apply length_element_mono
    rw [hcipher, hlongCipher]
    exact protocol.length_prepared_mono h

/-- The same message with a longer PDU is encoded to as many octets or more, before it is
    signed. -/
theorem exists_longer_unsigned (hsuite : suite.Lawful) (hm : m.WellFormed user?)
    (h : (m.pdu.wire m.trap?).length ≤ (pdu.wire none).length) {octets : Octets}
    (hunsigned : m.encodeUnsigned suite user? = .ok octets) :
    ∃ longer, (m.withPdu pdu).encodeUnsigned suite user? = .ok longer ∧
      octets.length ≤ longer.length := by
  cases hversion : m.version.usesCommunity with
  | true =>
    rw [encodeUnsigned, if_pos hversion] at hunsigned
    cases hunsigned
    exact ⟨_, if_pos hversion, length_encodeCommunity_mono h⟩
  | false =>
    obtain ⟨_, header, security, hheader?, hsecurity?, hheader, hprotected⟩ := hm.v3 hversion
    obtain ⟨data, more, hdata, hmore, hle⟩ :=
      encodeScopedData_mono hsuite hheader hprotected (length_encodeScoped_mono h)
    have hnot : ¬m.version.usesCommunity = true := by simp [hversion]
    have hnot' : ¬(m.withPdu pdu).version.usesCommunity = true := hnot
    have hheader' : (m.withPdu pdu).header? = some header := hheader?
    have hsecurity' : (m.withPdu pdu).security? = some security := hsecurity?
    simp only [encodeUnsigned, if_neg hnot, hheader?, hsecurity?, hprotected.encodingUser, bind,
      Except.bind, hdata] at hunsigned
    simp only [encodeUnsigned, if_neg hnot', hheader', hsecurity', hprotected.encodingUser, bind,
      Except.bind, hmore]
    cases huser : keyUser header.flags.level user? with
    | none =>
      simp only [huser] at hunsigned ⊢
      obtain rfl := Except.ok.inj hunsigned
      exact ⟨_, rfl, length_encodeV3_mono hle⟩
    | some user =>
      simp only [huser] at hunsigned ⊢
      cases hkey : (user.authKey suite security.engineId).mapError Error.authenticationFailed with
      | error error =>
        rw [hkey] at hunsigned
        cases hunsigned
      | ok key =>
        rw [hkey] at hunsigned
        obtain rfl := Except.ok.inj hunsigned
        exact ⟨_, rfl, length_encodeV3_mono hle⟩

end Message

end Snmp
