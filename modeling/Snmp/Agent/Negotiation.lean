/-
  Snmp/Agent/Negotiation.lean
  ===========================
  **Whose request is it?**

  The user that a message belongs to is named inside the message, so a datagram is decoded
  twice if need be: first without credentials, and if that fails after the security parameters
  were read, with the credentials of the user named there.  A version 3 message without
  bindings asks for nothing but the identity of the engine.
-/
import Snmp.Agent.Basic
import Snmp.Message.Encoding

namespace Snmp.Agent

variable {σ : Type}

/-- What a datagram turned out to be. -/
inductive Negotiated where
  /-- A message sent to learn the identity of the engine. -/
  | probe (message : Message)
  /-- A request, and the user it belongs to if that user is registered. -/
  | request (message : Message) (user? : Option Usm.User)

def isProbe (message : Message) : Bool := message.version = .v3 && message.pdu.bindings.isEmpty

/-- Decodes a datagram and finds its user. -/
def negotiate (agent : Agent σ) (datagram : Octets) : Except Error Negotiated :=
  match Message.decode agent.suite datagram none with
  | .ok message =>
    if isProbe message then .ok (.probe message)
    else .ok (.request message (agent.user? message.userName))
  | .error failure =>
    match failure.partial? with
    | none => .error failure.error
    | some security =>
      match agent.user? security.userName with
      | none => .error (.noPermission security.userNameText)
      | some user =>
        match Message.decode agent.suite datagram (some user) with
        | .ok message => .ok (.request message (some user))
        | .error failure => .error (.unsupportedPacketData failure.error)

end Snmp.Agent
