/-
  Snmp/Proofs/AlikeDelivery.lean
  ==============================
  **Traps and informs are delivered alike.**

  Suppose that the checks of a scope do not look at the operation: neither at the one that the
  context tells, nor at what notify callbacks may have kept of the flag that tells an inform
  from a trap (`Impartial`).  Then the same bindings under the types of any two notifications
  take the same calls in the same order, and only the flag of the notify callbacks differs: each
  turn of the one run has its counterpart in the other (`Befalls.exists_alike`), and the parts
  of the state that checks look at stay the same.  Traps are not answered.  The answer to an
  inform has for each binding the value that the callback gave, the binding itself if it gave
  none, or what stands for the reason why there is no value (`serve_delivers_alike`).
-/
import Mathlib.Data.List.Forall2
import Snmp.Agent.Respond
import Snmp.Proofs.TurnServing

namespace Snmp

/-- The same PDU as another operation. -/
def Pdu.withType (pdu : Pdu) (type : PduType) : Pdu := { pdu with type }

namespace Mib

variable {σ τ : Type}

/-- The context of the same request as another operation. -/
def RequestContext.withType (context : RequestContext) (type : PduType) : RequestContext :=
  { context with pduType := type }

/-- The calls that serving makes. -/
def Scope.callsOf (scope : Scope σ) (context : RequestContext) (pdu : Pdu) (state : σ) :
    List Call := (scope.recorded.serve context pdu (state, [])).2.2

/-- Checks do not look at the operation.  They see a part of the state at the most (`view`), and
    no flag of a notify callback shows in this part. -/
structure Scope.Impartial (scope : Scope σ) (view : σ → τ) : Prop where
  /-- What checks see decides what they come to, and what they see afterwards. -/
  checks : ∀ v ∈ scope.registry.entries, ∀ check, v.permission? = some check →
    ∀ (context : RequestContext) (type type' : PduType) (state state' : σ),
      view state = view state' →
      (check (context.withType type) state).1 = (check (context.withType type') state').1 ∧
      view (check (context.withType type) state).2 =
        view (check (context.withType type') state').2
  notifies : ∀ v ∈ scope.registry.entries, ∀ callback, v.notify? = some callback →
    ∀ (isInform isInform' : Bool) (binding : Binding) (state state' : σ), view state = view state' →
      view (callback isInform binding state).2 = view (callback isInform' binding state').2

/-! ### Calls that are alike -/

/-- Two calls of one callback for the same binding, under the types of two operations. -/
inductive Call.Alike (type type' : PduType) : Call → Call → Prop
  | permission {oid : Oid} {context : RequestContext} {outcome : Except Mishap Permission} :
      Alike type type' (.permission oid (context.withType type) outcome)
        (.permission oid (context.withType type') outcome)
  /-- The flag is set exactly for informs, and the callback may make a difference of it. -/
  | notify {oid : Oid} {binding : Binding} {outcome outcome' : Except Mishap (Option Value)} :
      Alike type type' (.notify oid (type = .informRequest) binding outcome)
        (.notify oid (type' = .informRequest) binding outcome')

section Steps

variable {scope : Scope σ} {view : σ → τ} {context : RequestContext} {type : PduType}
  {v : Variable σ} {value : Value} {state state' after : σ} {calls : List Call} {fate : Fate}

/-- Once a variable is met, its notify callback is called under either type or under neither. -/
theorem Variable.Meets.exists_alike (hview : scope.Impartial view)
    (hv : v ∈ scope.registry.entries) (hstate : view state = view state')
    (h : v.Meets state (.notify (type = .informRequest) value) calls fate after)
    (type' : PduType) : ∃ calls' fate' after',
      v.Meets state' (.notify (type' = .informRequest) value) calls' fate' after' ∧
      List.Forall₂ (Call.Alike type type') calls calls' ∧ view after = view after' := by
  cases h with
  | deaf hnotify => exact ⟨[], .unavailable, state', .deaf hnotify, .nil, hstate⟩
  | notify hnotify hrun =>
    have hleft := hview.notifies v hv _ hnotify (type = .informRequest) (type' = .informRequest)
      ⟨v.oid, value⟩ _ _ hstate
    rw [hrun] at hleft
    exact ⟨_, _, _, .notify hnotify rfl, .cons .notify .nil, hleft⟩

/-- The check comes to the same under either type, so that the same is called after it. -/
theorem Variable.Faces.exists_alike (hview : scope.Impartial view)
    (hv : v ∈ scope.registry.entries) (hstate : view state = view state')
    (h : v.Faces (context.withType type) state (.notify (type = .informRequest) value) calls
      fate after) (type' : PduType) : ∃ calls' fate' after',
      v.Faces (context.withType type') state' (.notify (type' = .informRequest) value) calls'
        fate' after' ∧
      List.Forall₂ (Call.Alike type type') calls calls' ∧ view after = view after' := by
  have hcheck {check : RequestContext → Callback σ Permission}
      {outcome : Except Mishap Permission} {checked : σ} (hpermission : v.permission? = some check)
      (hrun : check (context.withType type) state = (outcome, checked)) :
      ∃ checked', check (context.withType type') state' = (outcome, checked') ∧
        view checked = view checked' := by
    obtain ⟨houtcome, hleft⟩ := hview.checks v hv check hpermission context type type' _ _ hstate
    rw [hrun] at houtcome hleft
    exact ⟨(check (context.withType type') state').2, Prod.ext houtcome.symm rfl, hleft⟩
  cases h with
  | unguarded hpermission hmeets =>
    obtain ⟨calls', fate', after', hmeets', halike, hafter⟩ :=
      hmeets.exists_alike hview hv hstate type'
    exact ⟨calls', fate', after', .unguarded hpermission hmeets', halike, hafter⟩
  | allowed hpermission hrun hmeets =>
    obtain ⟨checked', hrun', hchecked⟩ := hcheck hpermission hrun
    obtain ⟨calls', fate', after', hmeets', halike, hafter⟩ :=
      hmeets.exists_alike hview hv hchecked type'
    exact ⟨_, fate', after', .allowed hpermission hrun' hmeets', .cons .permission halike, hafter⟩
  | denied hpermission hrun =>
    obtain ⟨checked', hrun', hchecked⟩ := hcheck hpermission hrun
    exact ⟨_, _, checked', .denied hpermission hrun', .cons .permission .nil, hchecked⟩
  | broke hpermission hrun =>
    obtain ⟨checked', hrun', hchecked⟩ := hcheck hpermission hrun
    exact ⟨_, _, checked', .broke hpermission hrun', .cons .permission .nil, hchecked⟩

end Steps

namespace Scope

theorem demand_of_isNotification {type : PduType} (h : type.isNotification = true)
    (value : Value) : demand type value = .notify (type = .informRequest) value := by
  cases type <;> first | rfl | contradiction

theorem ne_next_of_isNotification {type : PduType} (h : type.isNotification = true) :
    type ≠ .getNextRequest := by
  rintro rfl
  contradiction

variable {scope : Scope σ} {view : σ → τ} {context : RequestContext} {type type' : PduType}
  {binding : Binding} {state state' after : σ} {calls : List Call} {fate : Fate}
  {turns : List (BindingTurn σ)}

theorem mem_of_registered? {oid : Oid} {v : Variable σ} (h : scope.registered? oid = some v) :
    v ∈ scope.registry.entries := Array.mem_toList_iff.1 (List.mem_of_find?_eq_some h)

/-- The turn of a binding has its counterpart under the type of another notification. -/
theorem Befalls.exists_alike (hview : scope.Impartial view)
    (htype : type.isNotification = true) (htype' : type'.isNotification = true)
    (hstate : view state = view state')
    (h : scope.Befalls (context.withType type) type binding state calls fate after) :
    ∃ calls' fate' after',
      scope.Befalls (context.withType type') type' binding state' calls' fate' after' ∧
      List.Forall₂ (Call.Alike type type') calls calls' ∧ view after = view after' := by
  have hwanted := scope.wanted?_of_ne_next (ne_next_of_isNotification htype) binding.oid
  have hwanted' := scope.wanted?_of_ne_next (ne_next_of_isNotification htype') binding.oid
  cases hfound : scope.registered? binding.oid with
  | none =>
    obtain ⟨rfl, -, rfl⟩ := h.of_unfound (hwanted.trans hfound)
    exact ⟨[], _, state', .unfound (hwanted'.trans hfound), .nil, hstate⟩
  | some v =>
    have hfaces := h.of_found (hwanted.trans hfound)
    rw [demand_of_isNotification htype] at hfaces
    obtain ⟨calls', fate', after', hfaces', halike, hafter⟩ :=
      hfaces.exists_alike hview (mem_of_registered? hfound) hstate type'
    rw [← demand_of_isNotification htype'] at hfaces'
    exact ⟨calls', fate', after', .found (hwanted'.trans hfound) hfaces', halike, hafter⟩

/-- A run has its counterpart, by induction on it: what checks see stays the same from turn to
    turn. -/
theorem Run.exists_alike (hview : scope.Impartial view)
    (htype : type.isNotification = true) (htype' : type'.isNotification = true)
    (h : scope.Run (context.withType type) type state turns after) :
    ∀ state', view state = view state' → ∃ turns' after',
      scope.Run (context.withType type') type' state' turns' after' ∧
      turns'.map (·.binding) = turns.map (·.binding) ∧
      List.Forall₂ (Call.Alike type type') (turns.flatMap (·.calls))
        (turns'.flatMap (·.calls)) := by
  induction h with
  | done => exact fun state' _ => ⟨[], state', .done, rfl, .nil⟩
  | @turn t rest last hbefalls hrun ih =>
    intro state' hstate
    obtain ⟨calls', fate', middle', hbefalls', hcalls, hmiddle⟩ :=
      hbefalls.exists_alike hview htype htype' hstate
    obtain ⟨turns', after', hrun', hbindings, hrest⟩ := ih middle' hmiddle
    let first : BindingTurn σ := ⟨t.binding, state', calls', fate', middle'⟩
    have hchain : scope.Run (context.withType type') type' first.before (first :: turns')
        after' := .turn hbefalls' hrun'
    refine ⟨first :: turns', after', hchain, ?_, ?_⟩
    · rw [List.map_cons, List.map_cons, hbindings]
    · rw [List.flatMap_cons, List.flatMap_cons]
      exact List.rel_append hcalls hrest

end Scope

/-! ### The answer to an inform -/

/-- The notify callback of the variable was called for the binding, with this outcome. -/
def BindingTurn.Heard (t : BindingTurn σ) (outcome : Except Mishap (Option Value)) : Prop :=
  Call.notify t.binding.oid true t.binding outcome ∈ t.calls

/-- The name belongs to a binding that heads every notification. -/
def IsHeader (oid : Oid) : Prop := oid = Scope.sysUpTime ∨ oid = Scope.snmpTrapOid

/-- The value that stands for the reason why a binding of an inform was not taken. -/
inductive Scope.Declines (scope : Scope σ) (context : RequestContext) (t : BindingTurn σ) :
    Value → Prop
  | unknown : scope.registered? t.binding.oid = none → Declines scope context t .noSuchInstance
  | denied : .permission t.binding.oid context (.ok .denied) ∈ t.calls →
      Declines scope context t .null
  | deaf {v : Variable σ} : scope.registered? t.binding.oid = some v →
      v.allows context t.before = true → v.notify? = none → Declines scope context t .null
  | checkFailed {mishap : Mishap} :
      .permission t.binding.oid context (.error mishap) ∈ t.calls →
      Declines scope context t (CallbackError.ofMishap mishap).toValue
  | notifyFailed {mishap : Mishap} : t.Heard (.error mishap) →
      Declines scope context t (CallbackError.ofMishap mishap).toValue

/-- How a binding of an inform is answered. -/
structure Scope.Confirms (scope : Scope σ) (context : RequestContext) (t : BindingTurn σ)
    (answer : Binding) : Prop where
  oid : answer.oid = t.binding.oid
  given : ∀ value, t.Heard (.ok (some value)) → answer.value = value
  kept : t.Heard (.ok none) → answer = t.binding
  header : scope.registered? t.binding.oid = none → IsHeader t.binding.oid → answer = t.binding
  declined : (∀ given?, ¬t.Heard (.ok given?)) →
    ¬(scope.registered? t.binding.oid = none ∧ IsHeader t.binding.oid) →
    scope.Declines context t answer.value

namespace Scope

variable {scope : Scope σ} {context : RequestContext} {type : PduType} {t : BindingTurn σ}
  {turns : List (BindingTurn σ)} {state after : σ}

/-- A binding for which no callback was called with success. -/
theorem confirms_of_declines (hnot : ∀ given?, ¬t.Heard (.ok given?))
    (hregistered : scope.registered? t.binding.oid = none → ¬IsHeader t.binding.oid)
    (h : scope.Declines context t t.fate.value) :
    scope.Confirms context t ⟨t.binding.oid, t.fate.value⟩ where
  oid := rfl
  given _ hheard := absurd hheard (hnot _)
  kept hheard := absurd hheard (hnot _)
  header hnone hheader := absurd hheader (hregistered hnone)
  declined _ _ := h

/-- A binding that names no variable. -/
theorem Befalls.confirms_of_unregistered
    (h : scope.Befalls context .informRequest t.binding t.before t.calls t.fate t.after)
    (hnone : scope.registered? t.binding.oid = none) :
    scope.Confirms context t ⟨t.binding.oid, t.fate.value⟩ := by
  obtain ⟨hcalls, hfate, -⟩ :=
    h.of_unfound ((scope.wanted?_of_ne_next (by decide) _).trans hnone)
  have hnot (outcome : Except Mishap (Option Value)) : ¬t.Heard outcome := by
    rw [BindingTurn.Heard, hcalls]
    exact List.not_mem_nil
  by_cases hheader : IsHeader t.binding.oid
  · have hvalue : t.fate.value = t.binding.value := by
      rw [hfate]
      exact congrArg Fate.value (if_pos hheader)
    have hanswer : (⟨t.binding.oid, t.fate.value⟩ : Binding) = t.binding := by rw [hvalue]
    exact ⟨rfl, fun _ hheard => absurd hheard (hnot _), fun _ => hanswer, fun _ _ => hanswer,
      fun _ hother => absurd ⟨hnone, hheader⟩ hother⟩
  · have hvalue : t.fate.value = .noSuchInstance := by
      rw [hfate]
      exact congrArg Fate.value (if_neg hheader)
    refine confirms_of_declines (fun _ => hnot _) (fun _ => hheader) ?_
    rw [hvalue]
    exact .unknown hnone

/-- A binding whose variable is met. -/
theorem confirms_of_meets {v : Variable σ} {checked : σ} {asked rest : List Call}
    (hfound : scope.registered? t.binding.oid = some v) (hcalls : t.calls = asked ++ rest)
    (hasked : ∀ call ∈ asked, call.isCheck = true) (hallows : v.allows context t.before = true)
    (hmeets : v.Meets checked (.notify true t.binding.value) rest t.fate t.after) :
    scope.Confirms context t ⟨t.binding.oid, t.fate.value⟩ := by
  have hoid : v.oid = t.binding.oid := oid_of_registered? hfound
  have hregistered : scope.registered? t.binding.oid = none → ¬IsHeader t.binding.oid :=
    fun hnone => absurd (hnone.symm.trans hfound) (Option.some_ne_none v).symm
  have hheard (outcome : Except Mishap (Option Value)) : t.Heard outcome ↔
      Call.notify t.binding.oid true t.binding outcome ∈ rest := by
    rw [BindingTurn.Heard, hcalls, Call.mem_append_of_isCheck hasked rfl]
  generalize hfate : t.fate = fate at hmeets
  cases hmeets with
  | deaf hnotify =>
    refine hfate ▸ confirms_of_declines (fun _ => ?_) hregistered ?_
    · rw [hheard]
      exact List.not_mem_nil
    · rw [hfate]
      exact .deaf hfound hallows hnotify
  | @notify _ _ _ outcome _ hnotify hrun =>
    rw [hoid] at hheard
    have hcalled (other : Except Mishap (Option Value)) : t.Heard other ↔ other = outcome := by
      rw [hheard, List.mem_singleton]
      exact ⟨fun h => (Call.notify.inj h).2.2.2, fun h => by rw [h]⟩
    rcases outcome with mishap | _ | value
    · refine hfate ▸ confirms_of_declines (fun given? hgiven => ?_) hregistered ?_
      · cases (hcalled _).1 hgiven
      · rw [hfate]
        exact .notifyFailed ((hcalled _).2 rfl)
    · have hkept := (hcalled (.ok none)).2 rfl
      refine ⟨rfl, fun _ hgiven => ?_, fun _ => rfl, fun _ _ => rfl,
        fun hnot _ => absurd hkept (hnot _)⟩
      cases (hcalled _).1 hgiven
    · have hgave := (hcalled (.ok (some value))).2 rfl
      refine ⟨rfl, fun _ hgiven => ?_, fun hkept => ?_,
        fun hnone hheader => absurd hheader (hregistered hnone),
        fun hnot _ => absurd hgave (hnot _)⟩
      · cases (hcalled _).1 hgiven
        rfl
      · cases (hcalled _).1 hkept

/-- Whatever befalls a binding of an inform, the answer confirms it. -/
theorem Befalls.confirms
    (h : scope.Befalls context .informRequest t.binding t.before t.calls t.fate t.after) :
    scope.Confirms context t ⟨t.binding.oid, t.fate.value⟩ := by
  cases hfound : scope.registered? t.binding.oid with
  | none => exact h.confirms_of_unregistered hfound
  | some v =>
    have hfaces := h.of_found ((scope.wanted?_of_ne_next (by decide) _).trans hfound)
    have hoid : v.oid = t.binding.oid := oid_of_registered? hfound
    have hregistered : scope.registered? t.binding.oid = none → ¬IsHeader t.binding.oid :=
      fun hnone => absurd (hnone.symm.trans hfound) (Option.some_ne_none v).symm
    rcases hfaces.allowed_or_stopped with ⟨asked, rest, hcalls, hasked, hallows, hmeets⟩ |
      ⟨-, -, ⟨hcalls, hfate⟩ | ⟨mishap, hcalls, hfate⟩⟩
    · exact confirms_of_meets hfound hcalls hasked hallows hmeets
    · have hmem : .permission t.binding.oid context (.ok .denied) ∈ t.calls := by
        rw [hcalls, hoid]
        exact List.mem_cons_self
      refine confirms_of_declines (fun given? hgiven => ?_) hregistered ?_
      · rw [BindingTurn.Heard, hcalls, List.mem_singleton] at hgiven
        contradiction
      · rw [hfate]
        exact .denied hmem
    · have hmem : .permission t.binding.oid context (.error mishap) ∈ t.calls := by
        rw [hcalls, hoid]
        exact List.mem_cons_self
      refine confirms_of_declines (fun given? hgiven => ?_) hregistered ?_
      · rw [BindingTurn.Heard, hcalls, List.mem_singleton] at hgiven
        contradiction
      · rw [hfate]
        exact .checkFailed hmem

/-! ### Notifications -/

theorem isItemwise_of_isNotification {type : PduType} (h : type.isNotification = true) :
    isItemwise type = true := by
  revert h
  cases type <;> decide

/-- The calls are those of the turns. -/
theorem callsOf_eq (htype : isItemwise type = true)
    (h : scope.Run context type state turns after) {pdu : Pdu}
    (hbindings : turns.map (·.binding) = pdu.bindings) :
    scope.callsOf context (pdu.withType type) state = turns.flatMap (·.calls) := by
  have hrun : scope.Run context (pdu.withType type).type state turns after := h
  rw [callsOf, hrun.recorded_serve_eq htype hbindings]

/-- Serving an inform yields an answer that confirms each of its bindings. -/
theorem serve_inform (scope : Scope σ) (context : RequestContext) {pdu : Pdu}
    (htype : pdu.type = .informRequest) (state : σ) :
    ∃ turns after response, scope.Run context .informRequest state turns after ∧
      turns.map (·.binding) = pdu.bindings ∧
      scope.serve context pdu state = (.ok (some response), after) ∧
      scope.callsOf context pdu state = turns.flatMap (·.calls) ∧
      List.Forall₂ (scope.Confirms context) turns response.bindings := by
  obtain ⟨turns, after, hrun, hbindings⟩ := scope.exists_run context pdu.type pdu.bindings state
  have hitemwise : isItemwise pdu.type = true := by rw [htype]; rfl
  have hrequest : isRequest pdu.type = true := by rw [htype]; rfl
  have hserve := hrun.serve_eq hitemwise hbindings
  have hcalls : scope.callsOf context pdu state = turns.flatMap (·.calls) := by
    rw [callsOf, hrun.recorded_serve_eq hitemwise hbindings]
  rw [conclude_of_isRequest hrequest] at hserve
  have hanswers : (Response.toPdu ⟨turns.mapIdx (scope.turnAnswer pdu.type)⟩ pdu).bindings =
      turns.map fun t => ⟨t.binding.oid, t.fate.value⟩ := by
    rw [Response.bindings_toPdu, bindings_turnAnswer, htype]
    exact List.map_congr_left fun t _ => by rw [nameFor_of_ne_next scope (by decide)]
  rw [htype] at hrun
  refine ⟨turns, after, _, hrun, hbindings, hserve, hcalls, ?_⟩
  rw [hanswers, List.forall₂_map_right_iff, List.forall₂_same]
  exact fun t ht => (hrun.befalls t ht).confirms

/-- If the checks do not look at the operation, the same bindings take the same calls as a trap
    and as an inform, apart from the flag; traps are not answered, and informs are confirmed
    binding by binding. -/
theorem serve_delivers_alike {view : σ → τ} (hview : scope.Impartial view)
    (context : RequestContext) (pdu : Pdu) (state : σ) {type type' : PduType}
    (htype : type.isNotification = true) (htype' : type'.isNotification = true) :
    List.Forall₂ (Call.Alike type type')
        (scope.callsOf (context.withType type) (pdu.withType type) state)
        (scope.callsOf (context.withType type') (pdu.withType type') state) ∧
      (type.isTrap = true →
        (scope.serve (context.withType type) (pdu.withType type) state).1 = .ok none) ∧
      (type = .informRequest → ∃ turns after response,
        scope.Run (context.withType type) type state turns after ∧
        turns.map (·.binding) = pdu.bindings ∧
        scope.serve (context.withType type) (pdu.withType type) state =
          (.ok (some response), after) ∧
        scope.callsOf (context.withType type) (pdu.withType type) state =
          turns.flatMap (·.calls) ∧
        List.Forall₂ (scope.Confirms (context.withType type)) turns response.bindings) := by
  refine ⟨?_, fun htrap => scope.serve_of_isTrap _ htrap state, ?_⟩
  · obtain ⟨turns, after, hrun, hbindings⟩ :=
      scope.exists_run (context.withType type) type pdu.bindings state
    obtain ⟨turns', after', hrun', hsame, halike⟩ :=
      hrun.exists_alike hview htype htype' state rfl
    rw [callsOf_eq (isItemwise_of_isNotification htype) hrun hbindings,
      callsOf_eq (isItemwise_of_isNotification htype') hrun' (hsame.trans hbindings)]
    exact halike
  · rintro rfl
    have htype : (pdu.withType .informRequest).type = .informRequest := rfl
    exact scope.serve_inform (context.withType .informRequest) htype state

/-- A scope that counts the notifications it has taken: one variable may take two of them, and
    answers informs with a value of its own. -/
def quotaScope : Scope Nat where
  registry := {
    entries := #[
      { oid := ⟨[1, 3, 1]⟩, type := .integer,
        permission? := some fun _ taken =>
          (if taken < 2 then .ok .allowed else .ok .denied, taken),
        notify? := some fun isInform _ taken =>
          (if isInform then .ok (some (.integer 9)) else .ok none, taken + 1) }]
    ascending := by decide }

def quotaNotice : Pdu where
  type := .informRequest
  requestId := 5
  bindings := [⟨sysUpTime, .timeTicks 100⟩, ⟨⟨[1, 3, 1]⟩, .integer 1⟩, ⟨⟨[1, 3, 1]⟩, .integer 2⟩,
    ⟨⟨[1, 3, 1]⟩, .integer 3⟩, ⟨⟨[1, 3, 2]⟩, .integer 4⟩]

theorem impartial_quotaScope : quotaScope.Impartial id := by
  constructor
  · rintro v hv check hcheck context type type' state state' rfl
    simp only [quotaScope, List.mem_toArray, List.mem_singleton] at hv
    subst hv
    cases hcheck
    exact ⟨rfl, rfl⟩
  · rintro v hv callback hcallback isInform isInform' binding state state' rfl
    simp only [quotaScope, List.mem_toArray, List.mem_singleton] at hv
    subst hv
    cases hcallback
    rfl

/-- The checks see how many notifications were taken, and the third is denied under either
    type. -/
theorem serve_delivers_alike_quotaNotice :
    quotaScope.Impartial id ∧ PduType.informRequest.isNotification = true ∧
      PduType.trapV2.isNotification = true ∧
      List.Forall₂ (Call.Alike .informRequest .trapV2)
        (quotaScope.callsOf (RequestContext.withType default .informRequest)
          (quotaNotice.withType .informRequest) 0)
        (quotaScope.callsOf (RequestContext.withType default .trapV2)
          (quotaNotice.withType .trapV2) 0) ∧
      (quotaScope.callsOf (RequestContext.withType default .trapV2)
        (quotaNotice.withType .trapV2) 0).length = 5 ∧
      ∃ turns after response,
        quotaScope.serve (RequestContext.withType default .informRequest)
          (quotaNotice.withType .informRequest) 0 = (.ok (some response), after) ∧
        List.Forall₂ (quotaScope.Confirms (RequestContext.withType default .informRequest)) turns
          response.bindings ∧
        response.bindings.map (·.value) =
          [.timeTicks 100, .integer 9, .integer 9, .null, .noSuchInstance] := by
  have hinform : PduType.informRequest.isNotification = true := rfl
  have htrap : PduType.trapV2.isNotification = true := rfl
  obtain ⟨halike, -, hconfirmed⟩ :=
    serve_delivers_alike impartial_quotaScope default quotaNotice 0 hinform htrap
  obtain ⟨turns, after, response, -, -, hserve, -, hconfirms⟩ := hconfirmed rfl
  have hvalues : ((quotaScope.serve (RequestContext.withType default .informRequest)
      (quotaNotice.withType .informRequest) 0).1.toOption.join.map fun response =>
        response.bindings.map (·.value)) =
      some [.timeTicks 100, .integer 9, .integer 9, .null, .noSuchInstance] := by decide +kernel
  rw [hserve] at hvalues
  exact ⟨impartial_quotaScope, hinform, htrap, halike, by decide +kernel, turns, after, response,
    hserve, hconfirms, Option.some.inj hvalues⟩

/-- The checks of a scope do not look at the operation that the context tells. -/
def IgnoresType (scope : Scope σ) : Prop :=
  ∀ v ∈ scope.registry.entries, ∀ check, v.permission? = some check →
    ∀ (context : RequestContext) (type : PduType), check (context.withType type) = check context

/-- A scope with a variable that an inform seals. -/
def sealedScope : Scope Bool where
  registry := {
    entries := #[
      { oid := ⟨[1, 3, 1]⟩, type := .integer,
        permission? := some fun _ isSealed =>
          (.ok (if isSealed then .denied else .allowed), isSealed),
        notify? := some fun isInform _ _ => (.ok none, isInform) }]
    ascending := by decide }

/-- A scope with a variable for requests of even numbers. -/
def evenScope : Scope Unit where
  registry := {
    entries := #[
      { oid := ⟨[1, 3, 1]⟩, type := .integer,
        permission? := some fun context state =>
          (.ok (if context.requestId % 2 = 0 then .allowed else .denied), state),
        notify? := some fun _ _ state => (.ok none, state) }]
    ascending := by decide }

/-- An inform of the number 7. -/
def oddInform : Octets :=
  [48, 33, 2, 1, 1, 4, 6, 112, 117, 98, 108, 105, 99, 166, 20, 2, 1, 7, 2, 1, 0, 2, 1, 0, 48, 9,
    48, 7, 6, 2, 43, 1, 2, 1, 5]

/-- A version 1 trap with the same binding; such a trap has no number, and gets 0 for it. -/
def plainTrap : Octets :=
  [48, 47, 2, 1, 0, 4, 6, 112, 117, 98, 108, 105, 99, 164, 34, 6, 6, 43, 6, 1, 4, 1, 9, 64, 4, 192,
    0, 2, 1, 2, 1, 6, 2, 1, 1, 67, 1, 100, 48, 9, 48, 7, 6, 2, 43, 1, 2, 1, 5]

/-- Checks that do not look at the operation tell informs from traps all the same: by the flag
    that a notify callback has kept, and by the number of the request. -/
theorem notices_told_apart :
    (sealedScope.IgnoresType ∧
      ¬List.Forall₂ (Call.Alike .informRequest .trapV2)
        (sealedScope.callsOf (RequestContext.withType default .informRequest)
          (quotaNotice.withType .informRequest) false)
        (sealedScope.callsOf (RequestContext.withType default .trapV2)
          (quotaNotice.withType .trapV2) false)) ∧
    evenScope.IgnoresType ∧
      ∃ inform trap, Message.decode .standard oddInform none = .ok inform ∧
        Message.decode .standard plainTrap none = .ok trap ∧
        inform.pdu.type = .informRequest ∧
        trap.pdu = { inform.pdu with type := .trapV1, requestId := 0 } ∧
        (evenScope.callsOf (Agent.context inform default) inform.pdu ()).length = 1 ∧
        (evenScope.callsOf (Agent.context trap default) trap.pdu ()).length = 2 := by
  have hsealed : sealedScope.IgnoresType := by
    intro v hv check hcheck context type
    cases List.mem_singleton.1 (Array.mem_toList_iff.2 hv)
    cases hcheck
    rfl
  have heven : evenScope.IgnoresType := by
    intro v hv check hcheck context type
    cases List.mem_singleton.1 (Array.mem_toList_iff.2 hv)
    cases hcheck
    rfl
  have hunlike : ¬List.Forall₂ (Call.Alike .informRequest .trapV2)
      (sealedScope.callsOf (RequestContext.withType default .informRequest)
        (quotaNotice.withType .informRequest) false)
      (sealedScope.callsOf (RequestContext.withType default .trapV2)
        (quotaNotice.withType .trapV2) false) := by
    intro halike
    exact absurd halike.length_eq (by decide +kernel)
  have hinform : (Message.decode .standard oddInform none).toOption.map (fun m =>
      (m.pdu, (evenScope.callsOf (Agent.context m default) m.pdu ()).length)) =
      some (⟨.informRequest, 7, 0, 0, [⟨⟨[1, 3, 1]⟩, .integer 5⟩]⟩, 1) := by
    decide +kernel
  have htrap : (Message.decode .standard plainTrap none).toOption.map (fun m =>
      (m.pdu, (evenScope.callsOf (Agent.context m default) m.pdu ()).length)) =
      some (⟨.trapV1, 0, 0, 0, [⟨⟨[1, 3, 1]⟩, .integer 5⟩]⟩, 2) := by
    decide +kernel
  obtain ⟨inform, hinform, hsaid⟩ := Except.eq_ok_of_toOption_map hinform
  obtain ⟨trap, htrap, htold⟩ := Except.eq_ok_of_toOption_map htrap
  obtain ⟨hsaid, hone⟩ := Prod.mk.inj hsaid
  obtain ⟨htold, htwo⟩ := Prod.mk.inj htold
  refine ⟨⟨hsealed, hunlike⟩, heven, inform, trap, hinform, htrap, ?_, ?_, hone, htwo⟩
  · rw [hsaid]
  · rw [htold, hsaid]

end Scope

end Mib

end Snmp
