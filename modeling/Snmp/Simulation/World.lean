/-
  Snmp/Simulation/World.lean
  ==========================
  **A host that lives in memory.**

  An agent can be tried without a device behind it: values are kept in numbered cells, the
  clock shows what it is set to, salts are numbers counted upwards, and every callback that
  wants to be noticed leaves an event.
-/
import Std.Data.HashMap
import Snmp.Agent.Basic
import Snmp.Mib.SystemGroup

namespace Snmp.Simulation

/-- What a callback may leave behind. -/
inductive Event where
  | read (oid : Oid)
  | write (oid : Oid) (value : Value)
  | permission (oid : Oid) (context : Mib.RequestContext)
  | notify (isInform : Bool) (binding : Binding)
deriving DecidableEq

/-- The state of the host. -/
structure World where
  clock : UInt32 := 0
  /-- The number of salts drawn so far. -/
  salts : Nat := 0
  cells : Std.HashMap Nat Value := ∅
  /-- How often each cell's variable was read. -/
  reads : Std.HashMap Nat Nat := ∅
  texts : Std.HashMap Nat Mib.SystemTexts := ∅
  /-- The number of the next cell, or of the next texts. -/
  next : Nat := 0
  /-- What callbacks left behind, the latest first. -/
  log : List Event := []

namespace World

def cell (world : World) (id : Nat) : Value := world.cells.getD id .null

def setCell (world : World) (id : Nat) (value : Value) : World :=
  { world with cells := world.cells.insert id value }

def leave (world : World) (event : Event) : World := { world with log := event :: world.log }

def drain (world : World) : List Event × World := (world.log.reverse, { world with log := [] })

def textsPart (id : Nat) : Mib.Part World Mib.SystemTexts where
  get world := world.texts.getD id {}
  set texts world := { world with texts := world.texts.insert id texts }
  get_set texts world := by simp

def addCell (value : Value) (world : World) : Nat × World :=
  (world.next, { world.setCell world.next value with next := world.next + 1 })

def addTexts (texts : Mib.SystemTexts) (world : World) : Nat × World :=
  (world.next, { (textsPart world.next).set texts world with next := world.next + 1 })

/-- The octets of a number, the least significant first, over and over. -/
def saltOctet (number index : Nat) : UInt8 := UInt8.ofNat (number >>> (8 * (index % 8)))

def host : Host World where
  engineTime := fun world => (world.clock, world)
  salt _ := fun world =>
    (some (Vector.ofFn fun index => saltOctet world.salts index.val),
      { world with salts := world.salts + 1 })

end World

end Snmp.Simulation
