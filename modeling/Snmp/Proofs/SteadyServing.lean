/-
  Snmp/Proofs/SteadyServing.lean
  ==============================
  **Callbacks that forget.**

  A callback may use and change the state of the host.  It is steady if what it yields does not
  depend on that state, and depends only on what it is asked: a constant, a table, or a
  computation from the request.  Then the same holds of everything that is put together from
  such callbacks, and in the end of the response that a scope serves.  What the callbacks do
  to the state is of no consequence, since none of them looks at it.
-/
import Snmp.Proofs.ServingPlan

namespace Snmp.Mib

variable {σ α β : Type}

/-! ### Actions that do not look at the state -/

/-- What an action yields does not depend on the state. -/
def Steady (action : StateM σ α) : Prop := ∀ state other, (action state).1 = (action other).1

namespace Steady

theorem pure (a : α) : Steady (Pure.pure a : StateM σ α) := fun _ _ => rfl

/-- A later step is given what the earlier one has yielded, which is the same in every state. -/
theorem bind {action : StateM σ α} {next : α → StateM σ β} (h : Steady action)
    (k : ∀ a, Steady (next a)) : Steady (action >>= next) := by
  intro state other
  show (next (action state).1 (action state).2).1 = (next (action other).1 (action other).2).1
  rw [h state other]
  exact k _ _ _

theorem mapM {f : α → StateM σ β} {members : List α} (h : ∀ a ∈ members, Steady (f a)) :
    Steady (members.mapM f) := by
  induction members with
  | nil => exact Steady.pure []
  | cons first rest ih =>
    rw [List.mapM_cons]
    apply Steady.bind (h first List.mem_cons_self)
    intro result
    apply Steady.bind (ih fun a ha => h a (List.mem_cons_of_mem _ ha))
    intro others
    exact Steady.pure _

end Steady

/-! ### Variables -/

/-- A callback whose outcome does not depend on the state. -/
def Callback.Steady (callback : Callback σ α) : Prop :=
  ∀ state other, (callback state).1 = (callback other).1

theorem Callback.Steady.run {callback : Callback σ α} (h : callback.Steady) :
    Mib.Steady (Variable.run callback) := by
  intro state other
  show (callback state).1.mapError _ = (callback other).1.mapError _
  rw [h state other]

/-- All callbacks of a variable are steady. -/
structure Variable.Steady (v : Variable σ) : Prop where
  read : ∀ callback, v.read? = some callback → callback.Steady
  write : ∀ callback, v.write? = some callback → ∀ value, (callback value).Steady
  permission : ∀ check, v.permission? = some check → ∀ context, (check context).Steady
  notify : ∀ callback, v.notify? = some callback →
    ∀ isInform binding, (callback isInform binding).Steady

namespace Variable.Steady

variable {v : Variable σ} (h : v.Steady)

include h

theorem permit (context : RequestContext) : Mib.Steady (v.permit context) := by
  unfold Variable.permit
  cases hcheck : v.permission? with
  | none => exact Mib.Steady.pure _
  | some check => exact (h.permission check hcheck context).run

theorem read_steady : Mib.Steady v.read := by
  unfold Variable.read
  cases hcallback : v.read? with
  | none => exact Mib.Steady.pure none
  | some callback =>
    apply Mib.Steady.bind (h.read callback hcallback).run
    intro outcome
    exact Mib.Steady.pure _

theorem write_steady (value : Value) : Mib.Steady (v.write value) := by
  unfold Variable.write
  cases hcallback : v.write? with
  | none => exact Mib.Steady.pure none
  | some callback =>
    apply Mib.Steady.bind (h.write callback hcallback value).run
    intro outcome
    exact Mib.Steady.pure _

theorem notify_steady (isInform : Bool) (binding : Binding) :
    Mib.Steady (v.notify isInform binding) := by
  unfold Variable.notify
  cases hcallback : v.notify? with
  | none => exact Mib.Steady.pure none
  | some callback =>
    apply Mib.Steady.bind (h.notify callback hcallback isInform binding).run
    intro outcome
    exact Mib.Steady.pure _

end Variable.Steady

/-! ### Scopes -/

/-- All registered variables are steady. -/
def Scope.Steady (scope : Scope σ) : Prop := ∀ v ∈ scope.registry.entries, v.Steady

namespace Scope

variable {scope : Scope σ}

theorem steady_fulfil {v : Variable σ} (h : v.Steady) (place : Nat) (demand : Demand) :
    Mib.Steady (scope.fulfil place v demand) := by
  cases demand with
  | read =>
    apply Mib.Steady.bind h.read_steady
    intro outcome
    split
    · exact Mib.Steady.pure _
    · exact Mib.Steady.pure _
    · exact Mib.Steady.pure _
  | write value =>
    rw [fulfil]
    split
    · exact Mib.Steady.pure _
    split
    · exact Mib.Steady.pure _
    apply Mib.Steady.bind (h.write_steady value)
    intro outcome
    split
    · exact Mib.Steady.pure _
    · exact Mib.Steady.pure _
    · exact Mib.Steady.pure _
  | notify isInform value =>
    apply Mib.Steady.bind (h.notify_steady isInform _)
    intro outcome
    split
    · exact Mib.Steady.pure _
    · exact Mib.Steady.pure _
    · exact Mib.Steady.pure _
    · exact Mib.Steady.pure _

theorem steady_perform {task : Task σ} (h : ∀ v, task.asked? = some v → v.Steady)
    (context : RequestContext) : Mib.Steady (scope.perform context task) := by
  cases task with
  | ready answer => exact Mib.Steady.pure answer
  | ask place v demand =>
    have hv : v.Steady := h v rfl
    apply Mib.Steady.bind (hv.permit context)
    intro outcome
    split
    · exact steady_fulfil hv place demand
    · exact Mib.Steady.pure _
    · exact Mib.Steady.pure _

/-- What a scope of steady variables serves depends on the request alone: each task of its plan
    is steady. -/
theorem steady_serve (h : scope.Steady) (context : RequestContext) (pdu : Pdu) :
    Mib.Steady (scope.serve context pdu) := by
  rw [serve_eq]
  refine Mib.Steady.bind (Mib.Steady.mapM ?_) fun answers => Mib.Steady.pure _
  intro task htask
  exact steady_perform (fun v hv => h v (mem_of_asked? htask hv)) context

end Scope

/-- A scope that is built from steady variables is steady. -/
theorem ScopeConfig.steady_of_build {config : ScopeConfig σ} {scope : Scope σ}
    (hentries : ∀ v ∈ config.entries, v.Steady) (h : config.build = .ok scope) :
    scope.Steady := by
  rcases Except.bind_eq_ok h with ⟨registry, hregistry, h⟩
  cases h
  intro v hv
  exact hentries v (Registry.ofVariables_eq_ok hregistry v hv).1

end Snmp.Mib

namespace Snmp.Agent

variable {σ : Type}

theorem steady_of_prepare {config : Config σ} {suite : Usm.Suite} {host : Host σ}
    {agent : Agent σ} (hprepare : config.prepare suite host = .ok agent)
    (hentries : ∀ scope ∈ config.scopes, ∀ v ∈ scope.entries, v.Steady) :
    ∀ scope ∈ agent.scopes, scope.Steady := by
  obtain ⟨scopes, routes, users, hscopes, _, _, rfl⟩ := Config.prepare_eq_ok hprepare
  intro scope hscope
  rcases Except.mem_of_mapM hscopes scope hscope with ⟨scopeConfig, hmem, hbuild⟩
  exact scopeConfig.steady_of_build (hentries scopeConfig hmem) hbuild

end Snmp.Agent
