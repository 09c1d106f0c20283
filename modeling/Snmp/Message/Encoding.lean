/-
  Snmp/Message/Encoding.lean
  ==========================
  **Messages as datagrams.**

  Encoding signs and encrypts a version 3 message with the keys of a user, as its flags ask.
  The message is first written with zeros in the place of the authentication code; the code is
  computed over that and put into its place, which is found by reading the message back.

  Decoding opens a datagram as far as that needs no keys (`Envelope.ofDatagram`) and then checks and
  decrypts it with the keys of a user (`Envelope.unlock`).  A failure of the second part comes
  with the security parameters, from which the user can be found that the message names.
-/
import Snmp.Message.Basic
import Snmp.Usm.User

namespace Snmp

open Ber Usm

namespace Message

/-! ### Encoding -/

def encodeCommunity (m : Message) : Octets :=
  let w := Writer.empty.pushSequence fun w =>
    ((m.pdu.push m.trap? w).pushOctetString m.community).pushInteger m.version.number
  w.octets

/-- The context and the PDU of a version 3 message. -/
def encodeScoped (m : Message) : Octets :=
  let w := Writer.empty.pushSequence fun w =>
    ((m.pdu.push m.trap? w).pushOctetString m.contextName).pushOctetString m.contextEngineId
  w.octets

def pushHeader (header : MsgHeader) (w : Writer) : Writer :=
  w.pushSequence fun w =>
    (((w.pushInteger usmSecurityModel).pushOctetString [header.flags.toOctet]).pushInteger
      header.maxSize).pushInteger header.msgId

/-- A version 3 message around data that is already encoded. -/
def encodeV3 (header : MsgHeader) (security : Parameters) (data : Octets) : Octets :=
  let w := Writer.empty.pushSequence fun w =>
    (pushHeader header ((w.pushOctets data).pushOctetString security.encode)).pushInteger
      Version.v3.number
  w.octets

/-- The offset of the authentication code in an encoded version 3 message. -/
def locateAuthParams (message : Octets) : Except Error Nat := do
  let security : Decoder (Nat × Octets) := Decoder.sequence do
    let _ ← Decoder.integer
    let _ ← Decoder.constructed Tag.sequence
    Decoder.octetStringAt
  match security.runOn message with
  | .error fault => .error (.decode fault)
  | .ok (offset, octets) =>
    match Parameters.decodeAt octets offset with
    | .error _ => .error (.encode .missingAuthParams)
    | .ok (_, authOffset) => .ok authOffset

/-- Replaces the octets from `offset` on by others, as many as there are of them. -/
def patch (message : Octets) (offset : Nat) (octets : Octets) : Octets :=
  message.take offset ++ octets ++ message.drop (offset + octets.length)

def authenticate (suite : Suite) (key : LocalizedKey) (message : Octets) :
    Except Error Octets := do
  let offset ← locateAuthParams message
  let code := key.sign suite message
  if Octets.covers (offset + code.length) message then return patch message offset code
  else throw (.encode .missingAuthParams)

/-- The user whose keys a message at `level` is encoded with. -/
def encodingUser (level : SecurityLevel) (user? : Option User) : Except Error (Option User) :=
  if level = .noAuthNoPriv then .ok none
  else match user? with
    | some user =>
      if level ≤ user.securityLevel then .ok (some user) else .error (.encode .missingCredentials)
    | none => .error (.encode .missingCredentials)

/-- The scoped PDU as it appears in a message: in plain, or encrypted in an OCTET STRING. -/
def encodeScopedData (suite : Suite) (m : Message) (header : MsgHeader) (security : Parameters)
    (user? : Option User) : Except Error Octets := do
  let plaintext := m.encodeScoped
  match header.flags.privacy, user? with
  | true, some user =>
    let (protocol, key) ← (user.privKey suite security.engineId).mapError .decryptionFailed
    let seed : IvSeed := ⟨security.engineBoots, security.engineTime, security.privParams⟩
    let cipher ← (protocol.encrypt suite key.octets seed plaintext).mapError .encryptionFailed
    return (Writer.empty.pushOctetString cipher).octets
  | _, _ => return plaintext

/-- Encodes a message, signed and encrypted with the keys of a user as its flags ask. -/
def encode (suite : Suite) (m : Message) (user? : Option User) : Except Error Octets :=
  if m.version.usesCommunity then .ok m.encodeCommunity
  else match m.header?, m.security? with
    | some header, some security => do
      let user? ← encodingUser header.flags.level user?
      let data ← encodeScopedData suite m header security user?
      match user? with
      | none => return encodeV3 header security data
      | some user =>
        let key ← (user.authKey suite security.engineId).mapError .authenticationFailed
        let blank := { security with authParams := Octets.zeros key.protocol.macLength }
        authenticate suite key (encodeV3 header blank data)
    | _, _ => .error (.encode .missingSecurityParams)

end Message

/-! ### Opening -/

/-- A datagram opened as far as that needs no keys. -/
inductive Envelope where
  /-- A community message. -/
  | community (message : Message)
  /-- The header and the security parameters of a version 3 message, the offset of its
      authentication code and a reader of what follows them. -/
  | v3 (header : MsgHeader) (security : Parameters) (authOffset : Nat) (content : Reader)

namespace Envelope

def decodeHeader : Decoder MsgHeader :=
  Decoder.sequence do
    let msgId ← Decoder.integer
    let maxSize ← Decoder.integer
    let flagsOffset ← Decoder.offset
    if maxSize < minMessageSize then
      Decoder.fail flagsOffset (.msgMaxSizeTooSmall maxSize.toInt minMessageSize.toInt)
    let octets ← Decoder.octetString
    let flags ← match octets with
      | [octet] => pure (MsgFlags.ofOctet octet)
      | _ => Decoder.fail flagsOffset .invalidMsgFlags
    if flags.privacy && !flags.auth then Decoder.fail flagsOffset .invalidMsgFlags
    let modelOffset ← Decoder.offset
    let model ← Decoder.integer
    unless model = usmSecurityModel do
      Decoder.fail modelOffset (.unknownSecurityModel model.toInt)
    return { msgId, maxSize, flags }

def decodeCommunity (version : Version) : Decoder Envelope := do
  let community ← Decoder.octetString
  let (pdu, trap?) ← Pdu.decode
  return .community { version, community, pdu, trap? }

/-- Reads what follows the version of a version 3 message, up to the security parameters. -/
def decodeV3 : Decoder Envelope := do
  let header ← decodeHeader
  let (offset, octets) ← Decoder.octetStringAt
  match Parameters.decodeAt octets offset with
  | .error fault => throw fault
  | .ok (security, authOffset) => return .v3 header security authOffset (← get)

def ofDatagram (datagram : Octets) : Except Error Envelope :=
  let start : Decoder (Int32 × Reader) := do
    let content ← Decoder.constructed Tag.sequence
    Decoder.within content do return (← Decoder.integer, ← get)
  match start.runOn datagram with
  | .error fault => .error (.decode fault)
  | .ok (number, content) =>
    match Version.ofNumber? number with
    | none => .error (.unsupportedVersion number.toInt)
    | some version =>
      let rest := if version.usesCommunity then decodeCommunity version else decodeV3
      match rest content with
      | .error fault _ => .error (.decode fault)
      | .ok envelope _ => .ok envelope

/-! ### Unlocking -/

/-- The user whose keys a message at `level` is checked with: the one it names, configured for
    at least that level. -/
def decodingUser (level : SecurityLevel) (security : Parameters) (user? : Option User) :
    Except AuthDefect (Option User) :=
  if level = .noAuthNoPriv then .ok none
  else match user? with
    | none => .error .noCredentials
    | some user =>
      if user.name ≠ security.userName then .error .userMismatch
      else if user.securityLevel < level then .error .unsupportedSecurityLevel
      else .ok (some user)

/-- The datagram as it was when it was signed: zeros in the place of the code. -/
def unsigned (datagram : Octets) (authOffset : Nat) (security : Parameters) : Octets :=
  Message.patch datagram authOffset (Octets.zeros security.authParams.length)

/-- Fails unless the authentication code of a datagram is the one that the user computes. -/
def checkCode (suite : Suite) (datagram : Octets) (authOffset : Nat) (security : Parameters)
    (user? : Option User) : Except AuthDefect Unit :=
  match user? with
  | none => .ok ()
  | some user => do
    let key ← user.authKey suite security.engineId
    key.verify suite (unsigned datagram authOffset security) security.authParams

/-- A reader of the content of an encrypted scoped PDU.  It counts offsets from the beginning
    of the plaintext; octets after the SEQUENCE, such as the fill of the last block, are
    ignored. -/
def decryptScoped (suite : Suite) (security : Parameters) (user? : Option User)
    (content : Reader) : Except Error Reader := do
  let some user := user? | throw (.authenticationFailed .noCredentials)
  let (protocol, key) ← (user.privKey suite security.engineId).mapError .decryptionFailed
  match Decoder.octetString content with
  | .error fault _ => throw (.decode fault)
  | .ok cipher _ =>
    let seed : IvSeed := ⟨security.engineBoots, security.engineTime, security.privParams⟩
    let plaintext ← (protocol.decrypt suite key.octets seed cipher).mapError .decryptionFailed
    ((Decoder.constructed Tag.sequence).runOn plaintext).mapError .decode

/-- A reader of the content of the scoped PDU, which must be encrypted if and only if the flags
    say so. -/
def openScoped (suite : Suite) (header : MsgHeader) (security : Parameters)
    (user? : Option User) (content : Reader) : Except Error Reader :=
  let isEncrypted := content.peek? = some Tag.octetString
  match header.flags.privacy with
  | true =>
    if isEncrypted then decryptScoped suite security user? content
    else .error (.decode ⟨content.offset, .expectedEncryption⟩)
  | false =>
    if isEncrypted then .error (.decode ⟨content.offset, .unexpectedEncryption⟩)
    else match Decoder.constructed Tag.sequence content with
      | .error fault _ => .error (.decode fault)
      | .ok inner _ => .ok inner

def decodeScoped (header : MsgHeader) (security : Parameters) : Decoder Message := do
  let contextEngineId ← Decoder.octetString
  let contextName ← Decoder.octetString
  let (pdu, trap?) ← Pdu.decode
  return {
    version := .v3
    header? := some header
    security? := some security
    contextEngineId, contextName, pdu, trap? }

/-- Checks a datagram with the keys of a user and reads its message. -/
def unlock (suite : Suite) (datagram : Octets) (user? : Option User) :
    Envelope → Except Error Message
  | .community message => .ok message
  | .v3 header security authOffset content => do
    let user? ← (decodingUser header.flags.level security user?).mapError .authenticationFailed
    (checkCode suite datagram authOffset security user?).mapError .authenticationFailed
    let inner ← openScoped suite header security user? content
    match decodeScoped header security inner with
    | .error fault _ => throw (.decode fault)
    | .ok message _ => return message

def security? : Envelope → Option Parameters
  | .community _ => none
  | .v3 _ security _ _ => some security

end Envelope

/-- Why a datagram was not decoded, and the security parameters that were read before. -/
structure DecodeFailure where
  error : Error
  partial? : Option Parameters
deriving DecidableEq

/-- Decodes a datagram, checked and decrypted with the keys of a user as its flags ask. -/
def Message.decode (suite : Suite) (datagram : Octets) (user? : Option User) :
    Except DecodeFailure Message :=
  match Envelope.ofDatagram datagram with
  | .error error => .error ⟨error, none⟩
  | .ok envelope =>
    (envelope.unlock suite datagram user?).mapError (⟨·, envelope.security?⟩)

end Snmp
