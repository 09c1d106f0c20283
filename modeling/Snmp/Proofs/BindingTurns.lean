/-
  Snmp/Proofs/BindingTurns.lean
  =============================
  **Each binding has its turn.**

  Except for GetBulk, a PDU is served binding by binding, and each binding has its turn in the
  state that the one before it has left.  The rules say what can happen in a turn, in terms of
  the callbacks themselves: which variable is wanted, what its check makes of the request, what
  the callback makes of the demand, and so which calls are made, what becomes of the binding and
  which state is left (`Befalls`).  Some rule always applies.

  A run is a chain of turns (`Run`).  There is a run for every list of bindings and every state
  (`exists_run`).
-/
import Snmp.Proofs.CallRecord
import Snmp.Proofs.NextWalk

namespace Snmp.Mib

variable {σ : Type}

/-! ### Fates -/

/-- What becomes of a binding. -/
inductive Fate where
  /-- There is a value for it. -/
  | settled (value : Value)
  /-- It names no variable. -/
  | unknown
  | denied
  /-- The variable has no callback to read it, or none that takes notifications. -/
  | unavailable
  /-- The variable has no callback to write it. -/
  | readOnly
  /-- The value to be written is not of the declared type. -/
  | mistyped
  | failed (error : CallbackError)

namespace Fate

/-- The value that a response has for the binding. -/
def value : Fate → Value
  | .settled value => value
  | .unknown => .noSuchInstance
  | .denied | .unavailable | .readOnly | .mistyped => .null
  | .failed error => error.toValue

/-- The status with which the binding fails, if it does. -/
def status? (escalates : Bool) : Fate → Option ErrorStatus
  | .settled _ => none
  | .unknown => some .noSuchName
  | .denied => some .noAccess
  | .unavailable => some .resourceUnavailable
  | .readOnly => some .readOnly
  | .mistyped => some .wrongType
  | .failed _ => if escalates then some .genErr else none

/-- The answer to a binding, under the name that was found for it. -/
def answer (fate : Fate) (escalates : Bool) (place : Nat) (oid : Oid) : Answer :=
  ⟨place, ⟨oid, fate.value⟩, fate.status? escalates⟩

def ofWrite (value : Value) : Except Mishap Unit → Fate
  | .ok () => .settled value
  | .error mishap => .failed (.ofMishap mishap)

/-- A callback that takes a notification may give another value for the binding. -/
def ofNotify (value : Value) : Except Mishap (Option Value) → Fate
  | .ok given? => .settled (given?.getD value)
  | .error mishap => .failed (.ofMishap mishap)

end Fate

/-- What is read has to be of the declared type. -/
def Variable.fateOfRead (v : Variable σ) : Except Mishap Value → Fate
  | .ok value =>
    if value.type? = some v.type then .settled value else .failed (.typeMismatch v.type value)
  | .error mishap => .failed (.ofMishap mishap)

/-! ### The rules of a turn -/

/-- How a variable meets a demand in a state, once the request may have it: the calls that are
    made, what becomes of the binding, and the state that is left. -/
inductive Variable.Meets (v : Variable σ) (state : σ) : Demand → List Call → Fate → σ → Prop
  | unreadable : v.read? = none → Meets v state .read [] .unavailable state
  | read {callback : Callback σ Value} {outcome : Except Mishap Value} {after : σ} :
      v.read? = some callback → callback state = (outcome, after) →
      Meets v state .read [.read v.oid outcome] (v.fateOfRead outcome) after
  | unwritable {value : Value} : v.write? = none → Meets v state (.write value) [] .readOnly state
  | mistyped {callback : Value → Callback σ Unit} {value : Value} :
      v.write? = some callback → value.type? ≠ some v.type →
      Meets v state (.write value) [] .mistyped state
  | write {callback : Value → Callback σ Unit} {value : Value} {outcome : Except Mishap Unit}
      {after : σ} : v.write? = some callback → value.type? = some v.type →
      callback value state = (outcome, after) →
      Meets v state (.write value) [.write v.oid value outcome] (.ofWrite value outcome) after
  | deaf {isInform : Bool} {value : Value} : v.notify? = none →
      Meets v state (.notify isInform value) [] .unavailable state
  | notify {callback : Bool → Binding → Callback σ (Option Value)} {isInform : Bool}
      {value : Value} {outcome : Except Mishap (Option Value)} {after : σ} :
      v.notify? = some callback → callback isInform ⟨v.oid, value⟩ state = (outcome, after) →
      Meets v state (.notify isInform value) [.notify v.oid isInform ⟨v.oid, value⟩ outcome]
        (.ofNotify value outcome) after

/-- How a variable faces a request that demands something of it: its check comes first, and
    unless it allows the request, nothing else is called. -/
inductive Variable.Faces (v : Variable σ) (context : RequestContext) (state : σ)
    (demand : Demand) : List Call → Fate → σ → Prop
  | unguarded {calls : List Call} {fate : Fate} {after : σ} : v.permission? = none →
      v.Meets state demand calls fate after → Faces v context state demand calls fate after
  | allowed {check : RequestContext → Callback σ Permission} {checked : σ} {calls : List Call}
      {fate : Fate} {after : σ} : v.permission? = some check →
      check context state = (.ok .allowed, checked) → v.Meets checked demand calls fate after →
      Faces v context state demand (.permission v.oid context (.ok .allowed) :: calls) fate after
  | denied {check : RequestContext → Callback σ Permission} {checked : σ} :
      v.permission? = some check → check context state = (.ok .denied, checked) →
      Faces v context state demand [.permission v.oid context (.ok .denied)] .denied checked
  | broke {check : RequestContext → Callback σ Permission} {mishap : Mishap} {checked : σ} :
      v.permission? = some check → check context state = (.error mishap, checked) →
      Faces v context state demand [.permission v.oid context (.error mishap)]
        (.failed (.ofMishap mishap)) checked

namespace Scope

/-- The variable of a name, if it is registered. -/
def registered? (scope : Scope σ) (oid : Oid) : Option (Variable σ) :=
  scope.registry.entries.toList.find? (·.oid = oid)

/-- The variable that an operation wants for a name: GetNext wants the first that can be walked
    beyond the name, every other operation the one of the name. -/
def wanted? (scope : Scope σ) (type : PduType) (oid : Oid) : Option (Variable σ) :=
  if type = .getNextRequest then (scope.registry.beyond oid).head? else scope.registered? oid

/-- What an operation demands of a variable. -/
def demand (type : PduType) (value : Value) : Demand :=
  match type with
  | .setRequest => .write value
  | .informRequest => .notify true value
  | .trapV1 | .trapV2 => .notify false value
  | _ => .read

/-- What becomes of a binding for which no variable is found. -/
def fateOfUnfound (type : PduType) (binding : Binding) : Fate :=
  match type with
  | .getNextRequest => .settled .endOfMibView
  | .informRequest | .trapV1 | .trapV2 =>
    if binding.oid = sysUpTime ∨ binding.oid = snmpTrapOid then .settled binding.value
    else .unknown
  | _ => .unknown

/-- What befalls a binding in its turn. -/
inductive Befalls (scope : Scope σ) (context : RequestContext) (type : PduType)
    (binding : Binding) (state : σ) : List Call → Fate → σ → Prop
  | unfound : scope.wanted? type binding.oid = none →
      Befalls scope context type binding state [] (fateOfUnfound type binding) state
  | found {v : Variable σ} {calls : List Call} {fate : Fate} {after : σ} :
      scope.wanted? type binding.oid = some v →
      v.Faces context state (demand type binding.value) calls fate after →
      Befalls scope context type binding state calls fate after

end Scope

/-- The turn of a binding. -/
structure BindingTurn (σ : Type) where
  binding : Binding
  before : σ
  calls : List Call
  fate : Fate
  after : σ

/-- A chain of turns, each of which begins in the state in which the one before it ended. -/
inductive Scope.Run (scope : Scope σ) (context : RequestContext) (type : PduType) :
    σ → List (BindingTurn σ) → σ → Prop
  | done {state : σ} : Run scope context type state [] state
  | turn {t : BindingTurn σ} {rest : List (BindingTurn σ)} {last : σ} :
      scope.Befalls context type t.binding t.before t.calls t.fate t.after →
      Run scope context type t.after rest last → Run scope context type t.before (t :: rest) last

/-! ### There is always a rule -/

theorem Variable.exists_meets (v : Variable σ) (state : σ) (demand : Demand) :
    ∃ calls fate after, v.Meets state demand calls fate after := by
  cases demand with
  | read =>
    cases hread : v.read? with
    | none => exact ⟨_, _, _, .unreadable hread⟩
    | some callback => exact ⟨_, _, _, .read hread rfl⟩
  | write value =>
    cases hwrite : v.write? with
    | none => exact ⟨_, _, _, .unwritable hwrite⟩
    | some callback =>
      by_cases htype : value.type? = some v.type
      · exact ⟨_, _, _, .write hwrite htype rfl⟩
      · exact ⟨_, _, _, .mistyped hwrite htype⟩
  | notify isInform value =>
    cases hnotify : v.notify? with
    | none => exact ⟨_, _, _, .deaf hnotify⟩
    | some callback => exact ⟨_, _, _, .notify hnotify rfl⟩

theorem Variable.exists_faces (v : Variable σ) (context : RequestContext) (state : σ)
    (demand : Demand) : ∃ calls fate after, v.Faces context state demand calls fate after := by
  cases hpermission : v.permission? with
  | none =>
    obtain ⟨calls, fate, after, hmeets⟩ := v.exists_meets state demand
    exact ⟨_, _, _, .unguarded hpermission hmeets⟩
  | some check =>
    cases hcheck : check context state with
    | mk outcome checked =>
      rcases outcome with mishap | _ | _
      · exact ⟨_, _, _, .broke hpermission hcheck⟩
      · obtain ⟨calls, fate, after, hmeets⟩ := v.exists_meets checked demand
        exact ⟨_, _, _, .allowed hpermission hcheck hmeets⟩
      · exact ⟨_, _, _, .denied hpermission hcheck⟩

namespace Scope

variable {scope : Scope σ} {context : RequestContext} {type : PduType}

theorem oid_of_registered? {oid : Oid} {v : Variable σ}
    (h : scope.registered? oid = some v) : v.oid = oid := by
  have hname := List.find?_some h
  exact of_decide_eq_true hname

theorem wanted?_of_ne_next (scope : Scope σ) (htype : type ≠ .getNextRequest) (oid : Oid) :
    scope.wanted? type oid = scope.registered? oid := if_neg htype

theorem exists_befalls (scope : Scope σ) (context : RequestContext) (type : PduType)
    (binding : Binding) (state : σ) :
    ∃ calls fate after, scope.Befalls context type binding state calls fate after := by
  cases hwanted : scope.wanted? type binding.oid with
  | none => exact ⟨_, _, _, .unfound hwanted⟩
  | some v =>
    obtain ⟨calls, fate, after, hfaces⟩ :=
      v.exists_faces context state (demand type binding.value)
    exact ⟨_, _, _, .found hwanted hfaces⟩

theorem Befalls.of_unfound {binding : Binding} {state after : σ} {calls : List Call} {fate : Fate}
    (h : scope.Befalls context type binding state calls fate after)
    (hwanted : scope.wanted? type binding.oid = none) :
    calls = [] ∧ fate = fateOfUnfound type binding ∧ after = state := by
  cases h with
  | unfound => exact ⟨rfl, rfl, rfl⟩
  | found hfound => exact absurd (hwanted.symm.trans hfound) (Option.some_ne_none _).symm

theorem Befalls.of_found {binding : Binding} {state after : σ} {calls : List Call} {fate : Fate}
    (h : scope.Befalls context type binding state calls fate after) {v : Variable σ}
    (hwanted : scope.wanted? type binding.oid = some v) :
    v.Faces context state (demand type binding.value) calls fate after := by
  cases h with
  | unfound hnone => exact absurd (hwanted.symm.trans hnone) (Option.some_ne_none _)
  | found hfound hfaces =>
    cases Option.some.inj (hwanted.symm.trans hfound)
    exact hfaces

/-- Bindings can always have their turns, by induction on them. -/
theorem exists_run (scope : Scope σ) (context : RequestContext) (type : PduType)
    (bindings : List Binding) : ∀ state, ∃ turns after,
      scope.Run context type state turns after ∧ turns.map (·.binding) = bindings := by
  induction bindings with
  | nil => exact fun state => ⟨[], state, .done, rfl⟩
  | cons binding rest ih =>
    intro state
    obtain ⟨calls, fate, middle, hbefalls⟩ := scope.exists_befalls context type binding state
    obtain ⟨turns, after, hrun, hbindings⟩ := ih middle
    let first : BindingTurn σ := ⟨binding, state, calls, fate, middle⟩
    have hchain : scope.Run context type first.before (first :: turns) after :=
      .turn hbefalls hrun
    exact ⟨first :: turns, after, hchain, by rw [List.map_cons, hbindings]⟩

end Scope

/-! ### Checks -/

namespace Variable

variable (v : Variable σ) (context : RequestContext)

/-- What the check of a variable comes to and leaves; without a check, every request is
    allowed. -/
def check : Callback σ Permission :=
  match v.permission? with
  | some check => check context
  | none => fun state => (.ok .allowed, state)

def allows (state : σ) : Bool :=
  match (v.check context state).1 with
  | .ok .allowed => true
  | _ => false

end Variable

section Checks

variable {v : Variable σ} {context : RequestContext} {state after : σ} {demand : Demand}
  {calls : List Call} {fate : Fate}

/-- A variable is met if its check allows the request; otherwise the check was all. -/
theorem Variable.Faces.allowed_or_stopped
    (h : v.Faces context state demand calls fate after) :
    (∃ asked rest, calls = asked ++ rest ∧ (∀ call ∈ asked, call.isCheck = true) ∧
      v.allows context state = true ∧
      v.Meets (v.check context state).2 demand rest fate after) ∨
    v.allows context state = false ∧ after = (v.check context state).2 ∧
      (calls = [.permission v.oid context (.ok .denied)] ∧ fate = .denied ∨
        ∃ mishap, calls = [.permission v.oid context (.error mishap)] ∧
          fate = .failed (.ofMishap mishap)) := by
  cases h with
  | unguarded hpermission hmeets =>
    have hcheck : v.check context state = (.ok .allowed, state) := by
      simp only [check, hpermission]
    refine .inl ⟨[], calls, rfl, fun _ h => absurd h List.not_mem_nil, ?_, ?_⟩
    · simp only [allows, hcheck]
    · rw [hcheck]
      exact hmeets
  | @allowed _ checked _ _ _ hpermission hrun hmeets =>
    have hcheck : v.check context state = (.ok .allowed, checked) := by
      simp only [check, hpermission, hrun]
    refine .inl ⟨[.permission v.oid context (.ok .allowed)], _, rfl, ?_, ?_, ?_⟩
    · intro call hcall
      cases List.mem_singleton.1 hcall
      rfl
    · simp only [allows, hcheck]
    · rw [hcheck]
      exact hmeets
  | denied hpermission hrun =>
    have hcheck : v.check context state = (.ok .denied, after) := by
      simp only [check, hpermission, hrun]
    exact .inr ⟨by simp only [allows, hcheck], by rw [hcheck], .inl ⟨rfl, rfl⟩⟩
  | @broke _ mishap _ hpermission hrun =>
    have hcheck : v.check context state = (.error mishap, after) := by
      simp only [check, hpermission, hrun]
    exact .inr ⟨by simp only [allows, hcheck], by rw [hcheck], .inr ⟨mishap, rfl, rfl⟩⟩

theorem Call.mem_append_of_isCheck {asked rest : List Call}
    (hasked : ∀ call ∈ asked, call.isCheck = true) {call : Call} (h : call.isCheck = false) :
    call ∈ asked ++ rest ↔ call ∈ rest := by
  rw [List.mem_append]
  exact or_iff_right fun hmem => Bool.noConfusion ((hasked call hmem).symm.trans h)

end Checks

end Snmp.Mib
