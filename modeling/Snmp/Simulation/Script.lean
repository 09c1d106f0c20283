/-
  Snmp/Simulation/Script.lean
  ===========================
  **Callbacks that follow a script.**

  A script says what a callback does each time: yield a value, store one, decide by a rule, or
  come to grief.  Every scripted callback first leaves an event.
-/
import Snmp.Simulation.World

namespace Snmp.Simulation

open Mib

/-- What a read does. -/
inductive ReadScript where
  | fail (mishap : Mishap)
  /-- The values one after the other, and from the first again. -/
  | cycle (values : List Value)
  /-- The content of the cell. -/
  | cell

def ReadScript.run (script : ReadScript) (id : Nat) (oid : Oid) : Callback World Value :=
  fun world =>
    let count := world.reads.getD id 0
    let world := { world.leave (.read oid) with reads := world.reads.insert id (count + 1) }
    match script with
    | .fail mishap => (.error mishap, world)
    | .cycle values => (.ok (values.getD (count % values.length) .null), world)
    | .cell => (.ok (world.cell id), world)

/-- What a write does. -/
structure WriteScript where
  /-- The greatest number of octets that is not refused. -/
  max? : Option Nat := none
  stores : Bool := false
  mishap? : Option Mishap := none

def WriteScript.refuses (script : WriteScript) (value : Value) : Bool :=
  match script.max?, value.octets? with
  | some max, some octets => max < octets.length
  | _, _ => false

/-- Writes by a script; `id` is the cell.  A value may be stored even if the write then comes
    to grief. -/
def WriteScript.run (script : WriteScript) (id : Nat) (oid : Oid) (value : Value) :
    Callback World Unit := fun world =>
  let world := world.leave (.write oid value)
  if script.refuses value then (.error (.failed "too long"), world)
  else
    let world := if script.stores then world.setCell id value else world
    match script.mishap? with
    | some mishap => (.error mishap, world)
    | none => (.ok (), world)

/-- When a permission is given. -/
inductive Rule where
  | always
  | never
  | level (least : SecurityLevel)
  | version (wanted : Version)
  | pduType (wanted : PduType)
  | user (name : Octets)
  | scope (key : Octets)
  | evenId
  | loopback
  | fail (mishap : Mishap)

def Rule.allows (rule : Rule) (context : RequestContext) : Except Mishap Bool :=
  match rule with
  | .always => .ok true
  | .never => .ok false
  | .level least => .ok (least ≤ context.securityLevel)
  | .version wanted => .ok (context.version = wanted)
  | .pduType wanted => .ok (context.pduType = wanted)
  | .user name => .ok (context.userName = name)
  | .scope key => .ok (context.scope = key)
  | .evenId => .ok (context.requestId.toInt % 2 = 0)
  | .loopback => .ok context.source.address.isLoopback
  | .fail mishap => .error mishap

def Rule.run (rule : Rule) (oid : Oid) (context : RequestContext) : Callback World Permission :=
  fun world =>
    let verdict := (rule.allows context).map fun allows =>
      if allows then Permission.allowed else .denied
    (verdict, world.leave (.permission oid context))

/-- What is done with a notification. -/
inductive NotifyScript where
  | fail (mishap : Mishap)
  /-- It is taken without an answer. -/
  | accept
  | answer (value : Value)
  /-- It is answered if it is an inform. -/
  | answerInform (value : Value)

def NotifyScript.run (script : NotifyScript) (isInform : Bool) (binding : Binding) :
    Callback World (Option Value) := fun world =>
  let world := world.leave (.notify isInform binding)
  match script with
  | .fail mishap => (.error mishap, world)
  | .accept => (.ok none, world)
  | .answer value => (.ok (some value), world)
  | .answerInform value => (.ok (if isInform then some value else none), world)

end Snmp.Simulation
