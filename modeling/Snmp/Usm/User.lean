/-
  Snmp/Usm/User.lean
  ==================
  **Users of the security model.**

  A user has a name, and possibly an authentication protocol and a privacy protocol with a
  passphrase each.  Both keys are derived with the hash of the authentication protocol.  A
  prepared user keeps its master keys, so that a message costs no more than binding them to an
  engine; a user that was not prepared derives them each time.
-/
import Snmp.Usm.Privacy
import Snmp.Message.Security
import Snmp.Text.Utf8
import Snmp.Text.Quoted

namespace Snmp.Usm

/-- A protocol, the passphrase for it and, once derived, the master key. -/
structure Secret (Protocol : Type) where
  protocol : Protocol
  passphrase : Octets
  master? : Option MasterKey := none

/-- The master key of a secret, derived with the given hash if there is none yet. -/
def Secret.master {Protocol : Type} (suite : Suite) (hash : AuthProtocol)
    (secret : Secret Protocol) : MasterKey :=
  secret.master?.getD (.ofPassphrase suite hash secret.passphrase)

/-- Derives the master key of a secret, whether or not there is one. -/
def Secret.prepare {Protocol : Type} (suite : Suite) (hash : AuthProtocol)
    (secret : Secret Protocol) : Secret Protocol :=
  { secret with master? := some (.ofPassphrase suite hash secret.passphrase) }

/-- A user. -/
structure User where
  name : Octets
  auth? : Option (Secret AuthProtocol) := none
  privacy? : Option (Secret PrivProtocol) := none

namespace User

def withAuth (user : User) (protocol : AuthProtocol) (passphrase : Octets) : User :=
  { user with auth? := some { protocol, passphrase } }

def withPrivacy (user : User) (protocol : PrivProtocol) (passphrase : Octets) : User :=
  { user with privacy? := some { protocol, passphrase } }

def nameText (user : User) : String := Text.Utf8.decodeLossy user.name

def authProtocol? (user : User) : Option AuthProtocol := user.auth?.map (·.protocol)

def privProtocol? (user : User) : Option PrivProtocol := user.privacy?.map (·.protocol)

/-- The highest level at which a user can take part. -/
def securityLevel (user : User) : SecurityLevel :=
  match user.auth?, user.privacy? with
  | some _, some _ => .authPriv
  | some _, none => .authNoPriv
  | none, _ => .noAuthNoPriv

/-- Checks the configuration of a user and derives its master keys. -/
def prepare (suite : Suite) (user : User) : Except ConfigDefect User :=
  match user.auth?, user.privacy? with
  | none, none => .ok user
  | none, some _ => .error (.privWithoutAuth user.nameText)
  | some auth, privacy? =>
    if auth.passphrase.isEmpty || privacy?.any (·.passphrase.isEmpty) then
      .error (.emptyPassphrase user.nameText)
    else .ok { user with
      auth? := some (auth.prepare suite auth.protocol)
      privacy? := privacy?.map (·.prepare suite auth.protocol) }

/-- The authentication key at an engine. -/
def authKey (suite : Suite) (user : User) (engineId : Octets) : Except AuthDefect LocalizedKey :=
  match user.auth? with
  | none => .error .noAuthKey
  | some auth => .ok ((auth.master suite auth.protocol).localize suite engineId)

def privKey (suite : Suite) (user : User) (engineId : Octets) :
    Except CipherDefect (PrivProtocol × LocalizedKey) :=
  match user.auth?, user.privacy? with
  | some auth, some privacy =>
    let key := (privacy.master suite auth.protocol).localize suite engineId
    .ok (privacy.protocol, key.extendTo suite privacy.protocol.keyLength)
  | _, _ => .error .noPrivKey

/-- What a diagnostic shows of a user: never a passphrase or a key. -/
def diagnose (user : User) : String :=
  let option (name? : Option String) : String :=
    match name? with
    | some name => s!"Some({name})"
    | none => "None"
  let auth := option (user.authProtocol?.map (·.identifier))
  let privacy := option (user.privProtocol?.map (·.identifier))
  s!"UsmUser \x7b name: {Text.Quoted.text user.nameText}, auth: {auth}, privacy: {privacy} \x7d"

end User

end Snmp.Usm
