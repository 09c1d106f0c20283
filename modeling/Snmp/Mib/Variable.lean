/-
  Snmp/Mib/Variable.lean
  ======================
  **Variables.**

  A variable has a name, a declared type and up to four callbacks.  Running a callback turns
  its mishaps into errors, and a value that was read is checked against the declared type, so
  that no exception marker and no value of another type passes for data.
-/
import Snmp.Mib.Callback

namespace Snmp.Mib

/-- A variable and its callbacks on the state `σ`. -/
structure Variable (σ : Type) where
  oid : Oid
  type : ValueType
  /-- Whether the variable is left out of walks although it can be read. -/
  isHidden : Bool := false
  document : String := ""
  read? : Option (Callback σ Value) := none
  write? : Option (Value → Callback σ Unit) := none
  permission? : Option (RequestContext → Callback σ Permission) := none
  /-- Takes notifications; the flag tells an inform from a trap. -/
  notify? : Option (Bool → Binding → Callback σ (Option Value)) := none

namespace Variable

variable {σ : Type}

def isWalkable (v : Variable σ) : Bool := !v.isHidden && v.read?.isSome

def isReadable (v : Variable σ) : Bool := v.read?.isSome

def isWritable (v : Variable σ) : Bool := v.write?.isSome

def acceptsNotifications (v : Variable σ) : Bool := v.notify?.isSome

/-- The same variable with a read callback that always yields one value. -/
def withConstant (v : Variable σ) (value : Value) : Variable σ :=
  { v with read? := some fun state => (.ok value, state) }

/-- Runs a callback and turns a mishap into an error. -/
def run {α : Type} (callback : Callback σ α) : StateM σ (Except CallbackError α) := fun state =>
  let (outcome, state) := callback state
  (outcome.mapError .ofMishap, state)

/-- Checks a value against the declared type. -/
def checkType (v : Variable σ) (value : Value) : Except CallbackError Value :=
  if value.type? = some v.type then .ok value else .error (.typeMismatch v.type value)

/-- Asks whether the request may have the variable; without a callback it may. -/
def permit (v : Variable σ) (context : RequestContext) :
    StateM σ (Except CallbackError Permission) :=
  match v.permission? with
  | some check => run (check context)
  | none => pure (.ok .allowed)

def read (v : Variable σ) : StateM σ (Option (Except CallbackError Value)) :=
  match v.read? with
  | some callback => do return some ((← run callback).bind v.checkType)
  | none => pure none

/-- Writes the variable, if it can be written. -/
def write (v : Variable σ) (value : Value) : StateM σ (Option (Except CallbackError Unit)) :=
  match v.write? with
  | some callback => do return some (← run (callback value))
  | none => pure none

/-- Hands a notification to the variable, if it takes any. -/
def notify (v : Variable σ) (isInform : Bool) (binding : Binding) :
    StateM σ (Option (Except CallbackError (Option Value))) :=
  match v.notify? with
  | some callback => do return some (← run (callback isInform binding))
  | none => pure none

def diagnose (v : Variable σ) : String :=
  s!"VariableControl \x7b oid: Oid({v.oid.dotted}), value_type: {v.type.identifier}, "
    ++ s!"non_walkable: {v.isHidden}, read: {v.isReadable}, write: {v.isWritable}, "
    ++ s!"permission: {v.permission?.isSome}, notify: {v.acceptsNotifications}, "
    ++ s!"document: {Text.Quoted.text v.document} \x7d"

end Variable

end Snmp.Mib
