/-
  Snmp/Agent/Config.lean
  ======================
  **Configurations, and the agents that they describe.**

  A configuration becomes an agent if it is consistent: there is a scope, no two scopes or
  users stand in each other's way, and every name and passphrase can be used.  The checks have
  an order, and the first that fails is reported: the number of scopes, the variables of each
  scope, the routing keys, the users.
-/
import Snmp.Agent.Basic

namespace Snmp

/-! ### Scopes -/

/-- What a scope is to be. -/
structure Mib.ScopeConfig (σ : Type) where
  routingKeys : List Octets := []
  entries : List (Variable σ) := []
  escalates : Bool := false

/-- The scope that is described. -/
def Mib.ScopeConfig.build {σ : Type} (config : ScopeConfig σ) : Except Error (Scope σ) := do
  return {
    routingKeys := config.routingKeys
    registry := ← Registry.ofVariables config.entries
    escalates := config.escalates }

/-! ### Routing keys -/

namespace Routes

variable {σ : Type}

/-- Leads a routing key to a place, unless it leads somewhere already. -/
def addKey (place : Nat) (routes : Routes) (key : Octets) : Except ConfigDefect Routes :=
  if (routes.table.lookup key).isSome then
    .error (.duplicateRoutingKey (Text.Utf8.decodeLossy key))
  else .ok { routes with table := (key, place) :: routes.table }

def addScope (routes : Routes) (located : Mib.Scope σ × Nat) : Except ConfigDefect Routes :=
  let (scope, place) := located
  if scope.isDefault then
    if routes.default?.isSome then .error .duplicateDefaultScope
    else .ok { routes with default? := some place }
  else scope.routingKeys.foldlM (addKey place) routes

/-- The routes to scopes, if these do not stand in each other's way. -/
def ofScopes (scopes : List (Mib.Scope σ)) : Except ConfigDefect Routes :=
  scopes.zipIdx.foldlM addScope {}

end Routes

namespace Agent

variable {σ : Type}

/-! ### Users -/

def prepareUsers (suite : Usm.Suite) (taken : List Octets) :
    List Usm.User → Except ConfigDefect (List Usm.User)
  | [] => .ok []
  | user :: rest => do
    let user ← user.prepare suite
    if taken.contains user.name then throw (.duplicateUser user.nameText)
    let rest ← prepareUsers suite (user.name :: taken) rest
    return user :: rest

/-! ### Configurations -/

/-- What an agent is to be. -/
structure Config (σ : Type) where
  scopes : List (Mib.ScopeConfig σ) := []
  users : List Usm.User := []
  engineId : Usm.EngineId
  engineBoots : UInt32 := 1
  ignoresKeys : Bool := false

/-- The agent that is described. -/
def Config.prepare (config : Config σ) (suite : Usm.Suite) (host : Host σ) :
    Except Error (Agent σ) := do
  if config.scopes.isEmpty then throw (.config .noScopes)
  if config.ignoresKeys ∧ config.scopes.length ≠ 1 then
    throw (.config (.noSecurityScopeCount config.scopes.length))
  let scopes ← config.scopes.mapM (·.build)
  let routes ← (Routes.ofScopes scopes).mapError .config
  let users ← (prepareUsers suite [] config.users).mapError .config
  return {
    scopes, routes, users, suite, host
    engineId := config.engineId
    engineBoots := config.engineBoots
    ignoresKeys := config.ignoresKeys }

end Agent

end Snmp
