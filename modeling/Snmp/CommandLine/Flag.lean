/-
  Snmp/CommandLine/Flag.lean
  ==========================
  **The flags of the program.**

  A flag has a long name, perhaps a letter, and takes a value or not.  Most flags may be given
  once.
-/

namespace Snmp.CommandLine

/-- The flags. -/
inductive Flag where
  | bind
  | community
  | user
  | engineId
  | engineBoots
  | noSecurity
  | workers
  | queueDepth
  | recvBuffer
  | descr
  | contact
  | name
  | location
  | verbose
  | help
  | version
deriving DecidableEq, Inhabited

namespace Flag

def all : List Flag :=
  [.bind, .community, .user, .engineId, .engineBoots, .noSecurity, .workers, .queueDepth,
    .recvBuffer, .descr, .contact, .name, .location, .verbose, .help, .version]

def long : Flag → String
  | .bind => "bind"
  | .community => "community"
  | .user => "user"
  | .engineId => "engine-id"
  | .engineBoots => "engine-boots"
  | .noSecurity => "no-security"
  | .workers => "workers"
  | .queueDepth => "queue-depth"
  | .recvBuffer => "recv-buffer"
  | .descr => "descr"
  | .contact => "contact"
  | .name => "name"
  | .location => "location"
  | .verbose => "verbose"
  | .help => "help"
  | .version => "version"

def letter? : Flag → Option Char
  | .bind => some 'b'
  | .community => some 'c'
  | .user => some 'u'
  | .workers => some 'w'
  | .verbose => some 'v'
  | .help => some 'h'
  | .version => some 'V'
  | _ => none

def takesValue : Flag → Bool
  | .noSecurity | .verbose | .help | .version => false
  | _ => true

def isRepeatable : Flag → Bool
  | .community | .user | .verbose => true
  | _ => false

def summary : Flag → String
  | .bind => "Local address to listen on"
  | .community => "Community accepted for v1 and v2c requests (repeatable)"
  | .user => "User as NAME[:AUTH-PROTO:AUTH-PASS[:PRIV-PROTO:PRIV-PASS]] (repeatable)"
  | .engineId => "Engine id as hex; derived from the host when omitted"
  | .engineBoots => "Value of snmpEngineBoots"
  | .noSecurity => "Answer every request from one scope, whatever its community or context"
  | .workers => "Workers"
  | .queueDepth => "Datagrams allowed to wait for a worker"
  | .recvBuffer => "Socket receive buffer size in bytes"
  | .descr => "Value of sysDescr.0"
  | .contact => "Initial value of sysContact.0"
  | .name => "Initial value of sysName.0"
  | .location => "Initial value of sysLocation.0"
  | .verbose => "Say more; may be given more than once"
  | .help => "Print help"
  | .version => "Print version"

def ofLong? (name : String) : Option Flag := all.find? (·.long = name)

def ofLetter? (letter : Char) : Option Flag := all.find? (·.letter? = some letter)

def usageLine (flag : Flag) : String :=
  let letter := match flag.letter? with
    | some letter => s!"-{letter}, "
    | none => "    "
  let value := if flag.takesValue then " <VALUE>" else ""
  s!"  {letter}--{flag.long}{value}  {flag.summary}"

end Flag

def usage : String :=
  "\n".intercalate (["Serve the SNMP system group over UDP", "", "Usage: asnmp-agent [OPTIONS]", "",
    "Options:"] ++ Flag.all.map Flag.usageLine)

end Snmp.CommandLine
