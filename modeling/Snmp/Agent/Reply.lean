/-
  Snmp/Agent/Reply.lean
  =====================
  **Replies, and how they are kept within the size that the sender takes.**

  A reply has the framing of its request, at the same security level, with the present
  identity of the engine and, where it is encrypted, a fresh salt.  A reply that is too large
  loses bindings from its end if it answers a GetBulk request (`fit`); if not even one binding
  fits, and for every other request, it becomes a response without bindings that says `tooBig`.
-/
import Snmp.Agent.Negotiation

namespace Snmp.Agent

variable {σ : Type}

/-! ### Framing -/

/-- Security parameters with the present identity of the engine. -/
def freshParameters (agent : Agent σ) (userName : Octets) : Action σ Usm.Parameters := do
  let time ← ExceptT.lift (onHost agent.host.engineTime)
  return {
    engineId := agent.engineId.octets
    engineBoots := agent.engineBoots
    engineTime := time
    userName
    authParams := []
    privParams := [] }

/-- Draws a salt of the length that a protocol asks for. -/
def drawSalt (agent : Agent σ) (protocol : Usm.PrivProtocol) : Action σ Octets := do
  match ← ExceptT.lift (onHost (agent.host.salt protocol.saltLength)) with
  | some salt => return salt.toList
  | none => throw (.encryptionFailed .randomUnavailable)

/-- The protocol that a reply at `level` is encrypted with. -/
def replyCipher? (level : SecurityLevel) (user? : Option Usm.User) : Option Usm.PrivProtocol :=
  if level = .authPriv then user?.bind (·.privProtocol?) else none

def replyParameters (agent : Agent σ) (request : Message) (user? : Option Usm.User)
    (level : SecurityLevel) : Action σ Usm.Parameters := do
  let fresh ← agent.freshParameters request.userName
  match replyCipher? level user? with
  | some protocol => return { fresh with privParams := ← agent.drawSalt protocol }
  | none => return fresh

/-- The message that carries a PDU back to the sender of a request. -/
def replyMessage (agent : Agent σ) (request : Message) (user? : Option Usm.User) (pdu : Pdu) :
    Action σ Message := do
  match request.header? with
  | none => return request.withPdu pdu
  | some header =>
    let level := header.flags.level
    let security ← agent.replyParameters request user? level
    return { request.withPdu pdu with
      header? := some ⟨header.msgId, maxMessageSize, .ofLevel level false⟩
      security? := some security }

/-- Encodes a PDU as a reply, whatever its size. -/
def encodePdu (agent : Agent σ) (request : Message) (user? : Option Usm.User) (pdu : Pdu) :
    Action σ Octets := do
  let message ← agent.replyMessage request user? pdu
  MonadExcept.ofExcept (message.encode agent.suite user?)

/-! ### Sizes -/

/-- The longest encoding within `limit` of a PDU with some of its first bindings, found by
    halving: `best` is the encoding with `fits` bindings, and with `excess` there are too many. -/
def fit (agent : Agent σ) (request : Message) (user? : Option Usm.User) (pdu : Pdu)
    (limit fits excess : Nat) (best : Option Octets) : Action σ (Option Octets) :=
  if 1 < excess - fits then do
    let middle := fits + (excess - fits) / 2
    let shorter := { pdu with bindings := pdu.bindings.take middle }
    let encoded ← agent.encodePdu request user? shorter
    if encoded.length ≤ limit then
      agent.fit request user? pdu limit middle excess (some encoded)
    else agent.fit request user? pdu limit fits middle best
  else return best
termination_by excess - fits

/-- The response that says that there is no room for an answer. -/
def tooBig (request : Message) : Pdu := (request.pdu.toResponse []).withError .tooBig 0

/-- Encodes the response that says that there is no room for an answer. -/
def encodeTooBig (agent : Agent σ) (request : Message) (user? : Option Usm.User)
    (limit : Nat) : Action σ Octets := do
  let encoded ← agent.encodePdu request user? (tooBig request)
  if encoded.length ≤ limit then return encoded
  else throw (.encode (.messageTooLarge encoded.length limit))

/-- Encodes a PDU as the reply to a request, within the size that its sender takes. -/
def encodeReply (agent : Agent σ) (request : Message) (user? : Option Usm.User) (pdu : Pdu) :
    Action σ Octets := do
  let limit := request.replySizeLimit
  let encoded ← agent.encodePdu request user? pdu
  if encoded.length ≤ limit then return encoded
  let fitted ←
    if request.pdu.type = .getBulkRequest then
      agent.fit request user? pdu limit 0 pdu.bindings.length none
    else pure none
  match fitted with
  | some encoded => return encoded
  | none => agent.encodeTooBig request user? limit

end Snmp.Agent
