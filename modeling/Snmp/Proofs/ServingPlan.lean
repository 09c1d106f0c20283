/-
  Snmp/Proofs/ServingPlan.lean
  ============================
  **Serving is planned before a callback runs.**

  What a request wants of which variable follows from the registry alone.  The plan of a request
  (`tasks`) has one task for each binding of its response: a task asks a variable for something,
  or it is ready because no variable is asked.  To serve a request, of whatever operation, is to
  perform the tasks of its plan one after the other (`serve_eq`), so that what holds of a task
  holds of every request.
-/
import Snmp.Proofs.FaithfulScopes

namespace Snmp.Mib

variable {σ : Type}

/-! ### Tasks -/

/-- What a binding of a request wants of a variable. -/
inductive Demand where
  | read
  | write (value : Value)
  | notify (isInform : Bool) (value : Value)

/-- What is done for one binding of a response. -/
inductive Task (σ : Type) where
  | ask (place : Nat) (v : Variable σ) (demand : Demand)
  /-- No variable is asked. -/
  | ready (answer : Answer)

namespace Task

/-- The name that the answer will have. -/
def oid : Task σ → Oid
  | .ask _ v _ => v.oid
  | .ready answer => answer.binding.oid

/-- The variable that gives the answer. -/
def asked? : Task σ → Option (Variable σ)
  | .ask _ v _ => some v
  | .ready _ => none

/-- Asks the variable that was found, if one was. -/
def ofFound (place : Nat) (demand : Demand) (otherwise : Answer) : Option (Variable σ) → Task σ
  | some v => .ask place v demand
  | none => .ready otherwise

end Task

/-- The variable that is found under a name has this name. -/
theorem Registry.oid_of_find? {r : Registry σ} {oid : Oid} {v : Variable σ}
    (h : r.find? oid = some v) : v.oid = oid := by
  rw [find?, position] at h
  split at h
  · rename_i index hfound
    split at hfound
    · rename_i hany
      cases hfound
      rw [h] at hany
      simpa using hany
    · contradiction
  · contradiction

namespace Scope

/-! ### Performing a task -/

/-- Does with a variable what is wanted of it, once the request may have it. -/
def fulfil (scope : Scope σ) (place : Nat) (v : Variable σ) : Demand → StateM σ Answer
  | .read => do
    match ← v.read with
    | none => return refuse place v.oid .resourceUnavailable
    | some (.ok value) => return ⟨place, ⟨v.oid, value⟩, none⟩
    | some (.error error) => return scope.substitute place v.oid error
  | .write value => do
    if !v.isWritable then return refuse place v.oid .readOnly
    else if value.type? ≠ some v.type then return refuse place v.oid .wrongType
    else match ← v.write value with
      | some (.ok ()) => return ⟨place, ⟨v.oid, value⟩, none⟩
      | some (.error error) => return scope.substitute place v.oid error
      | none => return refuse place v.oid .readOnly
  | .notify isInform value => do
    match ← v.notify isInform ⟨v.oid, value⟩ with
    | some (.ok (some given)) => return ⟨place, ⟨v.oid, given⟩, none⟩
    | some (.ok none) => return ⟨place, ⟨v.oid, value⟩, none⟩
    | some (.error error) => return scope.substitute place v.oid error
    | none => return refuse place v.oid .resourceUnavailable

def perform (scope : Scope σ) (context : RequestContext) : Task σ → StateM σ Answer
  | .ask place v demand => scope.ifPermitted context place v (scope.fulfil place v demand)
  | .ready answer => return answer

/-! ### The plan of a request -/

def getTask (scope : Scope σ) (place : Nat) (binding : Binding) : Task σ :=
  .ofFound place .read (unknown place binding.oid) (scope.registry.find? binding.oid)

def nextTask (scope : Scope σ) (place : Nat) (binding : Binding) : Task σ :=
  .ofFound place .read (endOfWalk place binding.oid) (scope.registry.nextVariable? binding.oid)

def setTask (scope : Scope σ) (place : Nat) (binding : Binding) : Task σ :=
  .ofFound place (.write binding.value) (unknown place binding.oid)
    (scope.registry.find? binding.oid)

/-- The answer to a notification's binding that names no variable. -/
def unheard (place : Nat) (binding : Binding) : Answer :=
  if binding.oid = sysUpTime ∨ binding.oid = snmpTrapOid then ⟨place, binding, none⟩
  else unknown place binding.oid

def notifyTask (scope : Scope σ) (isInform : Bool) (place : Nat) (binding : Binding) : Task σ :=
  .ofFound place (.notify isInform binding.value) (unheard place binding)
    (scope.registry.find? binding.oid)

def Slot.task : Slot σ → Task σ
  | .visit place v => .ask place v .read
  | .ended place oid => .ready (endOfWalk place oid)

/-- The tasks of a request, in the order of the bindings of its response. -/
def tasks (scope : Scope σ) (pdu : Pdu) : List (Task σ) :=
  match pdu.type with
  | .getRequest => pdu.bindings.mapIdx scope.getTask
  | .getNextRequest => pdu.bindings.mapIdx scope.nextTask
  | .getBulkRequest => (scope.bulkPlan pdu).map Slot.task
  | .setRequest => pdu.bindings.mapIdx scope.setTask
  | .informRequest => pdu.bindings.mapIdx (scope.notifyTask true)
  | .trapV1 | .trapV2 => pdu.bindings.mapIdx (scope.notifyTask false)
  | .response | .report => []

/-- What serving comes to, given the answers: traps are not answered, and a PDU that is itself an
    answer is refused. -/
def conclude (pdu : Pdu) (answers : List Answer) : Except Error (Option Pdu) :=
  match pdu.type with
  | .trapV1 | .trapV2 => .ok none
  | .response | .report => .error (.unsupportedOperation pdu.type)
  | _ => .ok (some (Response.toPdu ⟨answers⟩ pdu))

/-! ### Serving is performing the plan -/

section Performing

variable (scope : Scope σ) (context : RequestContext) (place : Nat) (binding : Binding)

theorem answerGet_eq :
    scope.answerGet context place binding =
      scope.perform context (scope.getTask place binding) := by
  rw [answerGet, getTask]
  cases scope.registry.find? binding.oid <;> rfl

theorem answerNext_eq :
    scope.answerNext context place binding =
      scope.perform context (scope.nextTask place binding) := by
  rw [answerNext, nextTask]
  cases scope.registry.nextVariable? binding.oid <;> rfl

theorem answerSet_eq :
    scope.answerSet context place binding =
      scope.perform context (scope.setTask place binding) := by
  rw [answerSet, setTask]
  cases hfind : scope.registry.find? binding.oid with
  | none => rfl
  | some v =>
    obtain ⟨oid, value⟩ := binding
    cases Registry.oid_of_find? hfind
    rfl

theorem answerNotify_eq (isInform : Bool) :
    scope.answerNotify context isInform place binding =
      scope.perform context (scope.notifyTask isInform place binding) := by
  rw [answerNotify, notifyTask]
  cases hfind : scope.registry.find? binding.oid with
  | none =>
    simp only [Task.ofFound, perform, unheard]
    split <;> rfl
  | some v =>
    obtain ⟨oid, value⟩ := binding
    cases Registry.oid_of_find? hfind
    rfl

theorem answerSlot_eq (slot : Slot σ) :
    scope.answerSlot context slot = scope.perform context slot.task := by
  cases slot <;> rfl

variable {scope context}

/-- Answering bindings one after the other is performing their tasks, by induction on the
    bindings. -/
theorem answerAll_eq {answer : Nat → Binding → StateM σ Answer} {task : Nat → Binding → Task σ}
    (h : ∀ place binding, answer place binding = scope.perform context (task place binding))
    (bindings : List Binding) : ∀ place, answerAll answer place bindings =
      (bindings.mapIdx fun index => task (place + index)).mapM (scope.perform context) := by
  induction bindings with
  | nil => exact fun _ => rfl
  | cons binding rest ih =>
    intro place
    have hshift : (fun index => task (place + 1 + index)) =
        fun index => task (place + (index + 1)) := by
      funext index
      rw [Nat.add_assoc, Nat.add_comm 1]
    rw [answerAll, ih, h, hshift, List.mapIdx_cons, List.mapM_cons]
    rfl

theorem answerAll_zero {answer : Nat → Binding → StateM σ Answer}
    {task : Nat → Binding → Task σ}
    (h : ∀ place binding, answer place binding = scope.perform context (task place binding))
    (bindings : List Binding) :
    answerAll answer 0 bindings = (bindings.mapIdx task).mapM (scope.perform context) := by
  simpa using answerAll_eq h bindings 0

variable (scope context)

/-- Serving a request is performing its tasks in order. -/
theorem serve_eq (pdu : Pdu) :
    scope.serve context pdu =
      (do return conclude pdu (← (scope.tasks pdu).mapM (scope.perform context))) := by
  cases htype : pdu.type with
  | getRequest =>
    simp only [serve, tasks, conclude, htype, answerAll_zero (scope.answerGet_eq context)]
  | getNextRequest =>
    simp only [serve, tasks, conclude, htype, answerAll_zero (scope.answerNext_eq context)]
  | getBulkRequest =>
    have hslots : scope.answerSlot context = scope.perform context ∘ Slot.task :=
      funext (scope.answerSlot_eq context)
    simp only [serve, tasks, conclude, htype, hslots, List.mapM_map]
  | setRequest =>
    simp only [serve, tasks, conclude, htype, answerAll_zero (scope.answerSet_eq context)]
  | informRequest =>
    simp only [serve, tasks, conclude, htype,
      answerAll_zero fun place binding => scope.answerNotify_eq context place binding true]
  | trapV1 =>
    simp only [serve, tasks, conclude, htype,
      answerAll_zero fun place binding => scope.answerNotify_eq context place binding false]
  | trapV2 =>
    simp only [serve, tasks, conclude, htype,
      answerAll_zero fun place binding => scope.answerNotify_eq context place binding false]
  | response =>
    simp only [serve, tasks, conclude, htype]
    rfl
  | report =>
    simp only [serve, tasks, conclude, htype]
    rfl

end Performing

/-! ### Who is asked -/

variable {scope : Scope σ} {v : Variable σ}

theorem mem_of_ofFound {task : Nat → Binding → Task σ} {demand : Nat → Binding → Demand}
    {otherwise : Nat → Binding → Answer} {found? : Oid → Option (Variable σ)}
    (hfound : ∀ oid v, found? oid = some v → v ∈ scope.registry.entries)
    (htask : ∀ place b, task place b =
      .ofFound place (demand place b) (otherwise place b) (found? b.oid))
    {bindings : List Binding} : ∀ t ∈ bindings.mapIdx task, t.asked? = some v →
      v ∈ scope.registry.entries := by
  intro t ht h
  obtain ⟨place, hplace, rfl⟩ := List.mem_mapIdx.1 ht
  rw [htask] at h
  cases hoid : found? bindings[place].oid with
  | none =>
    rw [hoid] at h
    contradiction
  | some found =>
    rw [hoid] at h
    cases h
    exact hfound _ _ hoid

/-- The variables that a request asks are registered. -/
theorem mem_of_asked? {pdu : Pdu} {task : Task σ} (htask : task ∈ scope.tasks pdu)
    (h : task.asked? = some v) : v ∈ scope.registry.entries := by
  have hfind : ∀ oid v, scope.registry.find? oid = some v → v ∈ scope.registry.entries :=
    fun _ _ => Registry.mem_of_find?
  have hnext : ∀ oid v, scope.registry.nextVariable? oid = some v → v ∈ scope.registry.entries :=
    fun _ _ => Registry.mem_of_nextVariable?
  rw [tasks] at htask
  split at htask
  · exact mem_of_ofFound hfind (fun _ _ => rfl) task htask h
  · exact mem_of_ofFound hnext (fun _ _ => rfl) task htask h
  · obtain ⟨slot, hslot, rfl⟩ := List.mem_map.1 htask
    have hwithin := within_bulkPlan scope pdu slot hslot
    cases slot with
    | visit place visited =>
      cases h
      exact hwithin
    | ended => contradiction
  · exact mem_of_ofFound hfind (fun _ _ => rfl) task htask h
  · exact mem_of_ofFound hfind (fun _ _ => rfl) task htask h
  · exact mem_of_ofFound hfind (fun _ _ => rfl) task htask h
  · exact mem_of_ofFound hfind (fun _ _ => rfl) task htask h
  · contradiction
  · contradiction

/-! ### What is answered whatever callbacks do -/

/-- The answer to a task has the name that the plan gives it. -/
theorem oid_perform (scope : Scope σ) (context : RequestContext) (task : Task σ) (state : σ) :
    (scope.perform context task state).1.binding.oid = task.oid := by
  cases task with
  | ready answer => rfl
  | ask place v demand =>
    apply ifPermitted_answer (P := fun answer => answer.binding.oid = v.oid) (fun _ => rfl)
      (fun _ => rfl)
    intro permitted
    cases demand with
    | read =>
      simp only [fulfil, bind, StateT.bind]
      cases v.read permitted with
      | mk result left => rcases result with _ | error | value <;> rfl
    | write value =>
      simp only [fulfil]
      split
      · rfl
      split
      · rfl
      simp only [bind, StateT.bind]
      cases v.write value permitted with
      | mk result left => rcases result with _ | error | ⟨⟩ <;> rfl
    | notify isInform value =>
      simp only [fulfil, bind, StateT.bind]
      cases v.notify isInform ⟨v.oid, value⟩ permitted with
      | mk result left => rcases result with _ | error | _ | given <;> rfl

/-- What each step yields whatever the state, all the steps yield, by induction on them. -/
theorem map_mapM {α β γ : Type} {f : α → StateM σ β} {view : β → γ} {expected : α → γ}
    (h : ∀ a state, view (f a state).1 = expected a) (members : List α) : ∀ state,
    (members.mapM f state).1.map view = members.map expected := by
  induction members with
  | nil => exact fun _ => rfl
  | cons a rest ih =>
    intro state
    rw [List.mapM_cons, List.map_cons, ← h a state, ← ih (f a state).2]
    rfl

end Scope

theorem Response.bindings_toPdu (answers : List Answer) (request : Pdu) :
    (Response.toPdu ⟨answers⟩ request).bindings = answers.map (·.binding) := by
  rw [Response.toPdu]
  split <;> rfl

/-- The answers of a request make up a response with its number. -/
theorem Response.type_toPdu (answers : List Answer) (request : Pdu) :
    (Response.toPdu ⟨answers⟩ request).type = .response ∧
      (Response.toPdu ⟨answers⟩ request).requestId = request.requestId := by
  rw [Response.toPdu]
  split
  · exact ⟨rfl, rfl⟩
  · exact ⟨rfl, rfl⟩

/-- The operations that are answered with a response. -/
def isRequest : PduType → Bool
  | .getRequest | .getNextRequest | .getBulkRequest | .setRequest | .informRequest => true
  | .trapV1 | .trapV2 | .response | .report => false

namespace Scope

variable {scope : Scope σ}

theorem conclude_of_isRequest {pdu : Pdu} (h : isRequest pdu.type = true)
    (answers : List Answer) :
    conclude pdu answers = .ok (some (Response.toPdu ⟨answers⟩ pdu)) := by
  obtain ⟨type, requestId, errorStatus, errorIndex, bindings⟩ := pdu
  cases type <;> first | rfl | contradiction

/-- A request is answered with a response that has the planned names, whatever callbacks do. -/
theorem serve_of_isRequest (scope : Scope σ) (context : RequestContext) {pdu : Pdu}
    (h : isRequest pdu.type = true) (state : σ) :
    ∃ response after, scope.serve context pdu state = (.ok (some response), after) ∧
      response.bindings =
        ((scope.tasks pdu).mapM (scope.perform context) state).1.map (·.binding) ∧
      response.bindings.map (·.oid) = (scope.tasks pdu).map (·.oid) := by
  refine ⟨Response.toPdu ⟨((scope.tasks pdu).mapM (scope.perform context) state).1⟩ pdu,
    ((scope.tasks pdu).mapM (scope.perform context) state).2, ?_, Response.bindings_toPdu _ _, ?_⟩
  · rw [serve_eq, ← conclude_of_isRequest h]
    rfl
  · rw [Response.bindings_toPdu, List.map_map]
    exact map_mapM (scope.oid_perform context) _ state

/-- What a scope makes of a request is a response with the number of the request. -/
theorem type_of_serve {context : RequestContext} {pdu response : Pdu} {state : σ}
    (h : (scope.serve context pdu state).1 = .ok (some response)) :
    response.type = .response ∧ response.requestId = pdu.requestId := by
  have hconclude : conclude pdu ((scope.tasks pdu).mapM (scope.perform context) state).1 =
      .ok (some response) := by
    rw [← h, serve_eq]
    rfl
  rw [conclude] at hconclude
  split at hconclude
  · cases hconclude
  · cases hconclude
  · cases hconclude
  · cases hconclude
  · cases hconclude
    exact Response.type_toPdu _ pdu

/-- A scope makes no response to a trap, whatever its callbacks do. -/
theorem serve_of_isTrap (scope : Scope σ) (context : RequestContext) {pdu : Pdu}
    (htrap : pdu.type.isTrap = true) (state : σ) :
    (scope.serve context pdu state).1 = .ok none := by
  rw [PduType.isTrap, Bool.or_eq_true, decide_eq_true_eq, decide_eq_true_eq] at htrap
  rcases htrap with htype | htype
  · simp only [serve, htype]
    rfl
  · simp only [serve, htype]
    rfl

end Scope

end Snmp.Mib
