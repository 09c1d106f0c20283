/-
  Snmp/Error.lean
  ===============
  **Everything that can go wrong, by cause.**

  An error says what happened; `message` words it and `status` maps it to the error status of
  a reply that reports it.
-/
import Snmp.Ber.Defect
import Snmp.Oid.Basic
import Snmp.Pdu.Basic
import Snmp.Usm.Defect

namespace Snmp

/-- Why a message was not encoded. -/
inductive EncodeDefect where
  /-- A version 3 message without a header or without security parameters. -/
  | missingSecurityParams
  /-- The security level of the message needs a user that was not given. -/
  | missingCredentials
  | missingAuthParams
  | messageTooLarge (size limit : Nat)
deriving DecidableEq

def EncodeDefect.message : EncodeDefect → String
  | .missingSecurityParams => "SNMPv3 message has no security parameters"
  | .missingCredentials => "security level needs user credentials"
  | .missingAuthParams => "could not find auth params position in encoded message"
  | .messageTooLarge size limit => s!"message of {size} bytes exceeds limit of {limit}"

/-- What may be wrong with the configuration of an agent or a server. -/
inductive ConfigDefect where
  | noScopes
  /-- More than one scope is without routing keys. -/
  | duplicateDefaultScope
  | duplicateRoutingKey (key : String)
  | duplicateOid (oid : Oid)
  /-- A single scope is needed where requests are not told apart. -/
  | noSecurityScopeCount (count : Nat)
  | duplicateUser (name : String)
  | privWithoutAuth (name : String)
  | emptyPassphrase (name : String)
  | zeroCapacity (what : String)
deriving DecidableEq

def ConfigDefect.message : ConfigDefect → String
  | .noScopes => "agent needs at least one scope"
  | .duplicateDefaultScope => "more than one scope has no routing keys"
  | .duplicateRoutingKey key => s!"routing key '{key}' claimed by more than one scope"
  | .duplicateOid oid => s!"OID {oid.dotted} registered twice"
  | .noSecurityScopeCount count => s!"no-security mode needs exactly one scope, got {count}"
  | .duplicateUser name => s!"USM user '{name}' registered twice"
  | .privWithoutAuth name => s!"USM user '{name}' has privacy without authentication"
  | .emptyPassphrase name => s!"USM user '{name}' has an empty passphrase"
  | .zeroCapacity what => s!"{what} must be greater than zero"

/-- A failure of the library. -/
inductive Error where
  /-- An object identifier was refused; the text is kept where there was one. -/
  | invalidOid (defect : Oid.Defect) (input : Option String)
  | decode (fault : Ber.Fault)
  | encode (defect : EncodeDefect)
  | authenticationFailed (defect : Usm.AuthDefect)
  | decryptionFailed (defect : Usm.CipherDefect)
  | encryptionFailed (defect : Usm.CipherDefect)
  | unsupportedVersion (version : Int)
  /-- No scope answers to the routing key and there is no default scope. -/
  | noAgentInstance (scope : String)
  | unsupportedOperation (type : PduType)
  | noPermission (name : String)
  /-- The message could not be read with the credentials of the user it names. -/
  | unsupportedPacketData (source : Error)
  | config (defect : ConfigDefect)
  | transportClosed
deriving DecidableEq

namespace Error

def kind : Error → String
  | .invalidOid .. => "InvalidOid"
  | .decode _ => "Decode"
  | .encode _ => "Encode"
  | .authenticationFailed _ => "AuthenticationFailed"
  | .decryptionFailed _ => "DecryptionFailed"
  | .encryptionFailed _ => "EncryptionFailed"
  | .unsupportedVersion _ => "UnsupportedVersion"
  | .noAgentInstance _ => "NoAgentInstance"
  | .unsupportedOperation _ => "UnsupportedOperation"
  | .noPermission _ => "NoPermission"
  | .unsupportedPacketData _ => "UnsupportedPacketData"
  | .config _ => "Config"
  | .transportClosed => "TransportClosed"

def message : Error → String
  | .invalidOid defect _ => "invalid OID: " ++ defect.message
  | .decode fault => s!"decode error at offset {fault.offset}: " ++ fault.defect.message
  | .encode defect => "encode error: " ++ defect.message
  | .authenticationFailed defect => "authentication failed: " ++ defect.message
  | .decryptionFailed defect => "decryption failed: " ++ defect.message
  | .encryptionFailed defect => "encryption failed: " ++ defect.message
  | .unsupportedVersion version => s!"unsupported protocol version {version}"
  | .noAgentInstance scope => s!"no agent instance for scope '{scope}'"
  | .unsupportedOperation type => "unsupported operation " ++ type.identifier
  | .noPermission name => s!"no permission for security name '{name}'"
  | .unsupportedPacketData source => "unsupported packet data: " ++ source.message
  | .config defect => "invalid configuration: " ++ defect.message
  | .transportClosed => "transport closed"

/-- The error that caused this one. -/
def source? : Error → Option Error
  | .unsupportedPacketData source => some source
  | _ => none

/-- The error status of a reply that reports an error. -/
def status : Error → ErrorStatus
  | .noAgentInstance _ => .noAccess
  | .unsupportedOperation _ => .resourceUnavailable
  | .noPermission _ => .authorizationError
  | .unsupportedPacketData _ => .badValue
  | _ => .genErr

end Error

/-- Fails unless the encoding of an identifier is read back as the same identifier. -/
def Oid.checkEncodable (oid : Oid) : Except Error Unit :=
  if oid.isEncodable then .ok () else .error (.invalidOid .notEncodable (some oid.dotted))

end Snmp
