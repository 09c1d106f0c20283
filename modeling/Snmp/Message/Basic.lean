/-
  Snmp/Message/Basic.lean
  =======================
  **Messages: the framing around a PDU.**

  A community message consists of a version, a community and a PDU.  A version 3 message has a
  header and security parameters, and its PDU belongs to a context of an engine.
-/
import Snmp.Message.Security
import Snmp.Pdu.Encoding
import Snmp.Usm.Parameters

namespace Snmp

def usmSecurityModel : Int32 := 3

/-- The least msgMaxSize that a message may state. -/
def minMessageSize : Int32 := 484

/-- The greatest message that a datagram holds, stated in the messages of an agent. -/
def maxMessageSize : Int32 := 65507

/-- The header of a version 3 message. -/
structure MsgHeader where
  msgId : Int32
  /-- The greatest message that the sender takes. -/
  maxSize : Int32
  flags : MsgFlags
deriving DecidableEq, Inhabited

/-- A message. -/
structure Message where
  version : Version
  /-- The community of a version 1 or 2c message. -/
  community : Octets := []
  header? : Option MsgHeader := none
  security? : Option Usm.Parameters := none
  contextEngineId : Octets := []
  contextName : Octets := []
  pdu : Pdu
  /-- The header of a version 1 trap. -/
  trap? : Option TrapHeader := none
deriving DecidableEq, Inhabited

namespace Message

/-- What a message is routed by: the community, or the context name in version 3. -/
def routingKey (m : Message) : Octets :=
  if m.version.usesCommunity then m.community else m.contextName

/-- The security level that the flags ask for. -/
def securityLevel (m : Message) : SecurityLevel :=
  match m.header? with
  | some header => header.flags.level
  | none => .noAuthNoPriv

def userName (m : Message) : Octets :=
  match m.security? with
  | some security => security.userName
  | none => []

/-- The greatest reply that the sender takes, no more than a datagram holds. -/
def replySizeLimit (m : Message) : Nat :=
  let limit : Int := match m.header? with
    | some header => min header.maxSize.toInt maxMessageSize.toInt
    | none => maxMessageSize.toInt
  if limit < 0 then minMessageSize.toInt.toNat else limit.toNat

def withPdu (m : Message) (pdu : Pdu) : Message := { m with pdu, trap? := none }

end Message

end Snmp
