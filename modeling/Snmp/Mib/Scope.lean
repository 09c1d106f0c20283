/-
  Snmp/Mib/Scope.lean
  ===================
  **Scopes: registries that serve requests.**

  A scope serves one registry under a set of routing keys.  Every operation answers the
  bindings of a request one by one and in order, with the same steps for each: find the
  variable, ask for permission, run the callback.  A binding that fails is answered too, so a
  response has the bindings that the request asks for whatever the callbacks do.

  A GetBulk request is planned before any callback runs (`bulkPlan`), because the order of the
  bindings depends only on the registry.
-/
import Snmp.Mib.Answer
import Snmp.Mib.Registry

namespace Snmp.Mib

/-- A registry and how it is served. -/
structure Scope (σ : Type) where
  /-- The communities and context names that lead to this scope. -/
  routingKeys : List Octets := []
  registry : Registry σ
  /-- Whether a callback error fails the binding, or only shows in its value. -/
  escalates : Bool := false

namespace Scope

variable {σ : Type}

/-- Whether a scope serves what no other scope claims: it has no routing keys. -/
def isDefault (scope : Scope σ) : Bool := scope.routingKeys.isEmpty

/-! ### Single bindings -/

/-- The answer for a variable whose callback failed. -/
def substitute (scope : Scope σ) (place : Nat) (oid : Oid) (error : CallbackError) : Answer where
  place
  binding := ⟨oid, error.toValue⟩
  failure? := if scope.escalates then some .genErr else none

/-- The answer for a name that is not registered. -/
def unknown (place : Nat) (oid : Oid) : Answer := ⟨place, ⟨oid, .noSuchInstance⟩, some .noSuchName⟩

/-- The answer that refuses a binding. -/
def refuse (place : Nat) (oid : Oid) (status : ErrorStatus) : Answer :=
  ⟨place, .unset oid, some status⟩

/-- Answers with `action` if the request may have the variable, and refuses the binding if
    not. -/
def ifPermitted (scope : Scope σ) (context : RequestContext) (place : Nat) (v : Variable σ)
    (action : StateM σ Answer) : StateM σ Answer := do
  match ← v.permit context with
  | .ok .allowed => action
  | .ok .denied => return refuse place v.oid .noAccess
  | .error error => return scope.substitute place v.oid error

/-- Answers with the value of a variable. -/
def answerRead (scope : Scope σ) (context : RequestContext) (place : Nat) (v : Variable σ) :
    StateM σ Answer :=
  scope.ifPermitted context place v do
    match ← v.read with
    | none => return refuse place v.oid .resourceUnavailable
    | some (.ok value) => return ⟨place, ⟨v.oid, value⟩, none⟩
    | some (.error error) => return scope.substitute place v.oid error

def answerGet (scope : Scope σ) (context : RequestContext) (place : Nat) (binding : Binding) :
    StateM σ Answer :=
  match scope.registry.find? binding.oid with
  | some v => scope.answerRead context place v
  | none => return unknown place binding.oid

/-- The answer at the end of a walk that began at `oid`. -/
def endOfWalk (place : Nat) (oid : Oid) : Answer := ⟨place, ⟨oid, .endOfMibView⟩, none⟩

def answerNext (scope : Scope σ) (context : RequestContext) (place : Nat) (binding : Binding) :
    StateM σ Answer :=
  match scope.registry.nextVariable? binding.oid with
  | some v => scope.answerRead context place v
  | none => return endOfWalk place binding.oid

/-- Answers a binding of a Set request.  Bindings are written one after the other, and none is
    undone. -/
def answerSet (scope : Scope σ) (context : RequestContext) (place : Nat) (binding : Binding) :
    StateM σ Answer :=
  match scope.registry.find? binding.oid with
  | none => return unknown place binding.oid
  | some v =>
    scope.ifPermitted context place v do
      if !v.isWritable then return refuse place binding.oid .readOnly
      else if binding.value.type? ≠ some v.type then return refuse place binding.oid .wrongType
      else match ← v.write binding.value with
        | some (.ok ()) => return ⟨place, binding, none⟩
        | some (.error error) => return scope.substitute place binding.oid error
        | none => return refuse place binding.oid .readOnly

/-- sysUpTime.0, the first binding of a notification. -/
def sysUpTime : Oid := ⟨[1, 3, 6, 1, 2, 1, 1, 3, 0]⟩

/-- snmpTrapOID.0, the second binding of a notification. -/
def snmpTrapOid : Oid := ⟨[1, 3, 6, 1, 6, 3, 1, 1, 4, 1, 0]⟩

/-- Answers a binding of a notification.  The bindings that head every notification are taken
    whether or not they are registered. -/
def answerNotify (scope : Scope σ) (context : RequestContext) (isInform : Bool) (place : Nat)
    (binding : Binding) : StateM σ Answer :=
  match scope.registry.find? binding.oid with
  | none =>
    if binding.oid = sysUpTime ∨ binding.oid = snmpTrapOid then return ⟨place, binding, none⟩
    else return unknown place binding.oid
  | some v =>
    scope.ifPermitted context place v do
      match ← v.notify isInform binding with
      | some (.ok (some value)) => return ⟨place, ⟨binding.oid, value⟩, none⟩
      | some (.ok none) => return ⟨place, binding, none⟩
      | some (.error error) => return scope.substitute place binding.oid error
      | none => return refuse place binding.oid .resourceUnavailable

/-- Answers each of the bindings from `place` on. -/
def answerAll (answer : Nat → Binding → StateM σ Answer) : (place : Nat) → List Binding →
    StateM σ (List Answer)
  | _, [] => return []
  | place, binding :: rest => do
    let first ← answer place binding
    return first :: (← answerAll answer (place + 1) rest)

/-! ### Bulk requests -/

/-- What a GetBulk request has in one place of its response. -/
inductive Slot (σ : Type) where
  /-- The value of a variable. -/
  | visit (place : Nat) (v : Variable σ)
  /-- The end of the walk that began at an identifier. -/
  | ended (place : Nat) (oid : Oid)

/-- The slot of a binding that is stepped once. -/
def nextSlot (scope : Scope σ) (place : Nat) (oid : Oid) : Slot σ :=
  match scope.registry.nextVariable? oid with
  | some v => .visit place v
  | none => .ended place oid

/-- The slots of the bindings that are stepped once, from `place` on. -/
def singleSlots (scope : Scope σ) : (place : Nat) → List Binding → List (Slot σ)
  | _, [] => []
  | place, binding :: rest =>
    scope.nextSlot place binding.oid :: scope.singleSlots (place + 1) rest

/-- A binding that is stepped repeatedly, and the variables ahead of it. -/
structure Walk (σ : Type) where
  place : Nat
  start : Oid
  ahead : List (Variable σ)

/-- The walks of the bindings from `place` on, of at most `count` variables each. -/
def walks (scope : Scope σ) (count : Nat) : (place : Nat) → List Binding → List (Walk σ)
  | _, [] => []
  | place, binding :: rest =>
    let ahead := (scope.registry.bulkNext binding.oid count).filterMap (scope.registry.entries[·]?)
    ⟨place, binding.oid, ahead⟩ :: scope.walks count (place + 1) rest

/-- Steps each walk once.  The end of a walk takes a slot only if `finished` does not yet hold
    the identifier it began at. -/
def stepWalks (finished : List Oid) : List (Walk σ) → List (Slot σ) × List Oid
  | [] => ([], finished)
  | walk :: rest =>
    match walk.ahead with
    | v :: _ =>
      let (slots, finished) := stepWalks finished rest
      (.visit walk.place v :: slots, finished)
    | [] =>
      if walk.start ∈ finished then stepWalks finished rest
      else
        let (slots, finished) := stepWalks (walk.start :: finished) rest
        (.ended walk.place walk.start :: slots, finished)

/-- Steps all walks `count` times. -/
def repeatWalks (finished : List Oid) : (count : Nat) → List (Walk σ) → List (Slot σ)
  | 0, _ => []
  | count + 1, walks =>
    let (slots, finished) := stepWalks finished walks
    slots ++ repeatWalks finished count
      (walks.map fun walk => { walk with ahead := walk.ahead.drop 1 })

/-- How often the walks have to be stepped: once more than the longest has variables, but not
    more than `count` times, and not at all if there are none. -/
def repetitionsNeeded (count : Nat) (walks : List (Walk σ)) : Nat :=
  match (walks.map (·.ahead.length)).max? with
  | none => 0
  | some longest => min count (longest + 1)

/-- The slots of a GetBulk request: those of the non-repeaters, then those of each repetition. -/
def bulkPlan (scope : Scope σ) (pdu : Pdu) : List (Slot σ) :=
  let singles := pdu.bindings.take pdu.nonRepeaters
  let repeaters := pdu.bindings.drop pdu.nonRepeaters
  let finished := (singles.map (·.oid)).filter fun oid => (scope.registry.next oid).isNone
  let walks := scope.walks pdu.maxRepetitions singles.length repeaters
  scope.singleSlots 0 singles
    ++ repeatWalks finished (repetitionsNeeded pdu.maxRepetitions walks) walks

def answerSlot (scope : Scope σ) (context : RequestContext) : Slot σ → StateM σ Answer
  | .visit place v => scope.answerRead context place v
  | .ended place oid => return endOfWalk place oid

/-! ### Requests -/

/-- Serves a PDU.  Traps are handed to the variables and not answered; a PDU that is itself an
    answer is refused. -/
def serve (scope : Scope σ) (context : RequestContext) (pdu : Pdu) :
    StateM σ (Except Error (Option Pdu)) := do
  let respond (answers : List Answer) : Except Error (Option Pdu) :=
    .ok (some (Response.toPdu ⟨answers⟩ pdu))
  match pdu.type with
  | .getRequest => return respond (← answerAll (scope.answerGet context) 0 pdu.bindings)
  | .getNextRequest => return respond (← answerAll (scope.answerNext context) 0 pdu.bindings)
  | .getBulkRequest => return respond (← (scope.bulkPlan pdu).mapM (scope.answerSlot context))
  | .setRequest => return respond (← answerAll (scope.answerSet context) 0 pdu.bindings)
  | .informRequest =>
    return respond (← answerAll (scope.answerNotify context true) 0 pdu.bindings)
  | .trapV1 | .trapV2 =>
    let _ ← answerAll (scope.answerNotify context false) 0 pdu.bindings
    return .ok none
  | .response | .report => return .error (.unsupportedOperation pdu.type)

end Scope

end Snmp.Mib
