/-
  Snmp/CommandLine/Service.lean
  =============================
  **What options ask to be served.**

  The options describe one scope with the system group.  It answers to every community and,
  for requests of version 3 without a context name, to the empty key; without security it
  answers to everything.  What the agent cannot compute by itself, the clock, unforeseeable
  octets and the present texts, is held in a `Device`, which whoever runs the agent keeps up to
  date.
-/
import Snmp.Agent.Config
import Snmp.CommandLine.EngineSpec
import Snmp.CommandLine.Options
import Snmp.CommandLine.UserSpec
import Snmp.Mib.SystemGroup
import Snmp.Server.Basic

namespace Snmp.CommandLine

/-! ### Devices -/

/-- The device that an agent runs on. -/
structure Device where
  /-- The time of the engine, in seconds. -/
  clock : UInt32 := 0
  /-- How long the agent has been up, in milliseconds. -/
  upTime : Nat := 0
  /-- Unforeseeable octets that were not used yet. -/
  entropy : Octets := []
  texts : Mib.SystemTexts := {}

namespace Device

def textsPart : Mib.Part Device Mib.SystemTexts :=
  ⟨texts, fun texts device => { device with texts }, fun _ _ => rfl⟩

def draw (length : Nat) : StateM Device (Option (Vector UInt8 length)) := fun device =>
  if h : length ≤ device.entropy.length then
    (some ⟨(device.entropy.take length).toArray, by simp [h]⟩,
      { device with entropy := device.entropy.drop length })
  else (none, device)

def host : Host Device where
  engineTime := fun device => (device.clock, device)
  salt := draw

end Device

/-! ### Services -/

/-- Why options describe nothing that can be served. -/
inductive ServiceDefect where
  | user (cause : UserSpec.Defect)
  | engine (cause : EngineSpec.Defect)
  | config (cause : Error)
  | endpoint (text : String)

def ServiceDefect.message : ServiceDefect → String
  | .user cause => cause.message
  | .engine cause => cause.message
  | .config cause => cause.message
  | .endpoint text => s!"I/O error: invalid bind address: {text}"

/-- What is served, and where. -/
structure Service where
  server : Server (Agent.State Device)
  endpoint : Net.Endpoint
  device : Device

namespace Options

def texts (options : Options) : Mib.SystemTexts :=
  { contact := options.contact, name := options.name, location := options.location }

/-- The keys that the scope answers to; none stands for all. -/
def routingKeys (options : Options) : List Octets :=
  if options.noSecurity then [] else options.communities.map Text.Utf8.encode ++ [[]]

def scope (options : Options) : Mib.ScopeConfig Device where
  routingKeys := options.routingKeys
  entries := Mib.SystemGroup.entries { descr := options.descr } Device.textsPart Device.upTime

/-- The agent; `engineId` names it if the options do not. -/
def agent (options : Options) (engineId : Usm.EngineId) :
    Except ServiceDefect (Agent Device) := do
  let users ← (options.users.mapM UserSpec.parse).mapError .user
  let given? ← (options.engineId?.mapM EngineSpec.parse).mapError .engine
  let config : Agent.Config Device := {
    scopes := [options.scope]
    users
    engineId := given?.getD engineId
    engineBoots := options.engineBoots
    ignoresKeys := options.noSecurity }
  (config.prepare .standard Device.host).mapError .config

/-- The service; `workers` answer datagrams if the options do not tell their number. -/
def service (options : Options) (engineId : Usm.EngineId) (workers : Nat) :
    Except ServiceDefect Service := do
  let agent ← options.agent engineId
  let some endpoint := Net.Endpoint.parse? options.bind | throw (.endpoint options.bind)
  let config : Server.Config :=
    { workers := options.workers?.getD workers, queueDepth := options.queueDepth }
  let server ← (config.build (.ofAgent agent)).mapError .config
  return { server, endpoint, device := { texts := options.texts } }

end Options

end Snmp.CommandLine
