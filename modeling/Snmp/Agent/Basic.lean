/-
  Snmp/Agent/Basic.lean
  =====================
  **Agents: scopes, users and an engine.**

  An agent is prepared once and then only read.  What changes while it serves is a state: the
  number of discovery probes that it answered, and the state of the host, on which callbacks,
  the clock and the source of salts work.  A request goes to the scope that lists its routing
  key, or else to the default scope; a table made at preparation says where these scopes are
  (`Agent.route`).
-/
import Snmp.Mib.Scope
import Snmp.Usm.EngineId
import Snmp.Usm.User

namespace Snmp

/-- What an agent asks of its host. -/
structure Host (σ : Type) where
  /-- The time of the engine, in seconds. -/
  engineTime : StateM σ UInt32
  /-- Octets that nobody can foresee, unless the host is out of them. -/
  salt : (length : Nat) → StateM σ (Option (Vector UInt8 length))

/-- The places of scopes, by the routing keys that they list. -/
structure Routes where
  table : List (Octets × Nat) := []
  /-- The place of the default scope, which serves every other key. -/
  default? : Option Nat := none

/-- An agent on the host state `σ`. -/
structure Agent (σ : Type) where
  scopes : List (Mib.Scope σ)
  routes : Routes
  users : List Usm.User := []
  engineId : Usm.EngineId
  engineBoots : UInt32 := 1
  /-- Whether every request goes to the first scope, whatever its routing key. -/
  ignoresKeys : Bool := false
  suite : Usm.Suite
  host : Host σ

namespace Agent

variable {σ : Type}

/-- What changes while an agent serves. -/
structure State (σ : Type) where
  /-- The number of discovery probes answered so far, modulo 2^32. -/
  probes : UInt32 := 0
  host : σ

/-- An action of an agent, which may fail. -/
abbrev Action (σ α : Type) := ExceptT Error (StateM (State σ)) α

def onHost {α : Type} (action : StateM σ α) : StateM (State σ) α := fun state =>
  let (result, host) := action state.host
  (result, { state with host })

def user? (agent : Agent σ) (name : Octets) : Option Usm.User :=
  agent.users.find? (·.name = name)

/-- The place of the scope that serves a routing key. -/
def place? (agent : Agent σ) (key : Octets) : Option Nat :=
  if agent.ignoresKeys then some 0
  else (agent.routes.table.lookup key).or agent.routes.default?

/-- The scope that serves a routing key. -/
def scope? (agent : Agent σ) (key : Octets) : Option (Mib.Scope σ) :=
  (agent.place? key).bind fun place => agent.scopes[place]?

/-- The scope that serves a routing key, or the error that reports that there is none. -/
def route (agent : Agent σ) (key : Octets) : Except Error (Mib.Scope σ) :=
  match agent.scope? key with
  | some scope => .ok scope
  | none => .error (.noAgentInstance (Text.Utf8.decodeLossy key))

def diagnose (agent : Agent σ) : String :=
  s!"Agent \x7b engine_id: EngineId({Text.Quoted.octets agent.engineId.octets}), "
    ++ s!"engine_boots: {agent.engineBoots.toNat}, scopes: {agent.scopes.length}, "
    ++ s!"users: {agent.users.length}, no_security: {agent.ignoresKeys} \x7d"

end Agent

end Snmp
