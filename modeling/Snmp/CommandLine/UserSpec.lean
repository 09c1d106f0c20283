/-
  Snmp/CommandLine/UserSpec.lean
  ==============================
  **Users as they are written in arguments.**

  A user is written in one, three or five fields with colons between them: the name, then a
  protocol and a passphrase for authentication, then the same for privacy.
-/
import Snmp.Text.Fields
import Snmp.Usm.User

namespace Snmp.CommandLine.UserSpec

/-- What is wrong with a written user. -/
inductive Defect where
  | emptyName
  /-- There are too few or too many fields after the name. -/
  | wrongFieldCount (name : String)
  | unknownProtocol (cause : Usm.UnknownProtocol)
deriving DecidableEq

def Defect.message : Defect → String
  | .emptyName => "user name must not be empty"
  | .wrongFieldCount name =>
    s!"invalid user '{name}'; expected NAME[:AUTH-PROTO:AUTH-PASS[:PRIV-PROTO:PRIV-PASS]]"
  | .unknownProtocol cause => cause.message

def named (name : String) : Usm.User := { name := Text.Utf8.encode name }

def withAuth (user : Usm.User) (protocol passphrase : String) : Except Defect Usm.User := do
  let protocol ← (Usm.AuthProtocol.ofName protocol).mapError .unknownProtocol
  return user.withAuth protocol (Text.Utf8.encode passphrase)

def withPrivacy (user : Usm.User) (protocol passphrase : String) : Except Defect Usm.User := do
  let protocol ← (Usm.PrivProtocol.ofName protocol).mapError .unknownProtocol
  return user.withPrivacy protocol (Text.Utf8.encode passphrase)

def ofFields : List String → Except Defect Usm.User
  | [name] => if name = "" then .error .emptyName else .ok (named name)
  | [name, authProtocol, authPass] => withAuth (named name) authProtocol authPass
  | [name, authProtocol, authPass, privProtocol, privPass] => do
    withPrivacy (← withAuth (named name) authProtocol authPass) privProtocol privPass
  | fields => .error (.wrongFieldCount (fields.headD ""))

def parse (text : String) : Except Defect Usm.User :=
  ofFields ((Text.fields ':' text.toList).map String.ofList)

end Snmp.CommandLine.UserSpec
