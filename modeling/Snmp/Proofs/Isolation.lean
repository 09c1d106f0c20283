/-
  Snmp/Proofs/Isolation.lean
  ==========================
  **A variable that misbehaves is on its own.**

  Two scopes that differ only in the variable of one name answer every request with the same
  names in the same order, whatever the callbacks of the two variables do; and if no callback
  changes the state, then they also give the same answers in all places that are not answered by
  that variable (`serve_isolated`).

  The other scope is the first with its variables exchanged (`counterpart`), so it plans each
  request alike.  What is planned for another variable is performed alike, because that variable
  is the same in both scopes and finds the same state.
-/
import Snmp.Proofs.ExchangedCallbacks

namespace Snmp.Mib

variable {σ : Type}

/-! ### Callbacks without effects -/

/-- A variable none of whose callbacks changes the state. -/
structure Variable.Effectless (v : Variable σ) : Prop extends Variable.Pure v where
  write : ∀ callback, v.write? = some callback → ∀ value state, (callback value state).2 = state
  notify : ∀ callback, v.notify? = some callback →
    ∀ isInform binding state, (callback isInform binding state).2 = state

def Scope.Effectless (scope : Scope σ) : Prop := ∀ v ∈ scope.registry.entries, v.Effectless

namespace Variable.Effectless

variable {v : Variable σ}

/-- A variable that can only be read. -/
theorem of_read {callback : Callback σ Value} (hread : v.read? = some callback)
    (h : ∀ state, (callback state).2 = state) (hwrite : v.write? = none)
    (hpermission : v.permission? = none) (hnotify : v.notify? = none) : v.Effectless := by
  refine ⟨⟨?_, ?_⟩, ?_, ?_⟩
  · intro other hother
    cases hread.symm.trans hother
    exact h
  · intro check hcheck
    cases hpermission.symm.trans hcheck
  · intro other hother
    cases hwrite.symm.trans hother
  · intro other hother
    cases hnotify.symm.trans hother

variable (h : v.Effectless)
include h

theorem write_state (value : Value) (state : σ) : (v.write value state).2 = state := by
  rw [Variable.write]
  cases hwrite : v.write? with
  | none => rfl
  | some callback => exact h.write callback hwrite value state

theorem notify_state (isInform : Bool) (binding : Binding) (state : σ) :
    (v.notify isInform binding state).2 = state := by
  rw [Variable.notify]
  cases hnotify : v.notify? with
  | none => rfl
  | some callback => exact h.notify callback hnotify isInform binding state

end Variable.Effectless

namespace Scope

theorem fulfil_state {scope : Scope σ} {v : Variable σ} (h : v.Effectless) (place : Nat)
    (demand : Demand) (state : σ) : (scope.fulfil place v demand state).2 = state := by
  cases demand with
  | read =>
    obtain ⟨result, hread⟩ : ∃ result, v.read state = (result, state) :=
      ⟨_, Prod.ext rfl (h.read_state state)⟩
    simp only [fulfil, bind, StateT.bind, hread]
    rcases result with _ | error | value <;> rfl
  | write value =>
    simp only [fulfil]
    split
    · rfl
    split
    · rfl
    obtain ⟨result, hwrite⟩ : ∃ result, v.write value state = (result, state) :=
      ⟨_, Prod.ext rfl (h.write_state value state)⟩
    simp only [bind, StateT.bind, hwrite]
    rcases result with _ | error | ⟨⟩ <;> rfl
  | notify isInform value =>
    obtain ⟨result, hnotify⟩ : ∃ result, v.notify isInform ⟨v.oid, value⟩ state =
        (result, state) := ⟨_, Prod.ext rfl (h.notify_state isInform _ state)⟩
    simp only [fulfil, bind, StateT.bind, hnotify]
    rcases result with _ | error | _ | given <;> rfl

/-- To perform a task changes nothing if no callback does. -/
theorem perform_state {scope : Scope σ} (h : scope.Effectless) {pdu : Pdu} {task : Task σ}
    (htask : task ∈ scope.tasks pdu) (context : RequestContext) (state : σ) :
    (scope.perform context task state).2 = state := by
  cases task with
  | ready answer => rfl
  | ask place v demand =>
    have hv := h v (mem_of_asked? htask rfl)
    exact ifPermitted_state hv.toPure context place state (fulfil_state hv place demand state)

end Scope

/-! ### Exchanging one variable -/

/-- Exchanges each variable for the one of its name in a registry, if there is one that can be
    walked alike. -/
def Registry.counterpart (r : Registry σ) : Recast σ σ where
  apply v :=
    match r.find? v.oid with
    | some w => if w.isWalkable = v.isWalkable then w else v
    | none => v
  oid_apply v := by
    split
    · rename_i w hfind
      split
      · exact Registry.oid_of_find? hfind
      · rfl
    · rfl
  isWalkable_apply v := by
    split
    · split
      · assumption
      · rfl
    · rfl

namespace Scope

/-- Scopes that differ at most in the variable `target`: its type and its callbacks may differ,
    but not its name nor whether it can be walked. -/
structure DifferOnlyIn (target : Oid) (scope other : Scope σ) : Prop where
  routingKeys : other.routingKeys = scope.routingKeys
  escalates : other.escalates = scope.escalates
  size : other.registry.size = scope.registry.size
  oid {index : Nat} {v w : Variable σ} : scope.registry.entries[index]? = some v →
    other.registry.entries[index]? = some w → w.oid = v.oid
  isWalkable {index : Nat} {v w : Variable σ} : scope.registry.entries[index]? = some v →
    other.registry.entries[index]? = some w → w.isWalkable = v.isWalkable
  same {index : Nat} {v w : Variable σ} : scope.registry.entries[index]? = some v →
    other.registry.entries[index]? = some w → v.oid ≠ target → w = v

namespace DifferOnlyIn

variable {target : Oid} {scope other : Scope σ} (h : DifferOnlyIn target scope other)
include h

theorem exists_getElem? {index : Nat} {v : Variable σ}
    (hv : scope.registry.entries[index]? = some v) :
    ∃ w, other.registry.entries[index]? = some w := by
  obtain ⟨hindex, _⟩ := Array.getElem?_eq_some_iff.1 hv
  have hsize : other.registry.entries.size = scope.registry.entries.size := h.size
  exact ⟨_, Array.getElem?_eq_getElem (hsize ▸ hindex)⟩

theorem counterpart_apply {index : Nat} {v w : Variable σ}
    (hv : scope.registry.entries[index]? = some v)
    (hw : other.registry.entries[index]? = some w) : other.registry.counterpart.apply v = w := by
  have hfind := other.registry.find?_oid hw
  rw [h.oid hv hw] at hfind
  simp only [Registry.counterpart, hfind, h.isWalkable hv hw, if_true]

/-- A registered variable other than the target is its own counterpart. -/
theorem counterpart_eq_self {v : Variable σ} (hv : v ∈ scope.registry.entries)
    (hne : v.oid ≠ target) : other.registry.counterpart.apply v = v := by
  obtain ⟨index, hindex⟩ := Array.getElem?_of_mem hv
  obtain ⟨w, hw⟩ := h.exists_getElem? hindex
  rw [h.counterpart_apply hindex hw, h.same hindex hw hne]

theorem eq_recast : other = scope.recast other.registry.counterpart := by
  have hentries : other.registry.entries =
      scope.registry.entries.map other.registry.counterpart.apply := by
    apply Array.ext_getElem?
    intro index
    rw [Array.getElem?_map]
    cases hv : scope.registry.entries[index]? with
    | none =>
      have hsize : other.registry.entries.size = scope.registry.entries.size := h.size
      rw [Array.getElem?_eq_none_iff] at hv
      rw [Array.getElem?_eq_none_iff.2 (by omega)]
      rfl
    | some v =>
      obtain ⟨w, hw⟩ := h.exists_getElem? hv
      rw [hw, Option.map_some, h.counterpart_apply hv hw]
  have hkeys := h.routingKeys
  have hescalates := h.escalates
  generalize other.registry.counterpart = f at hentries
  obtain ⟨keys, ⟨entries, _⟩, escalates⟩ := other
  cases hentries
  cases hkeys
  cases hescalates
  rfl

end DifferOnlyIn

/-- To perform a task, a scope looks at no variable but the one that is asked. -/
theorem perform_recast (scope : Scope σ) (f : Recast σ σ) (context : RequestContext)
    (task : Task σ) : (scope.recast f).perform context task = scope.perform context task := by
  rcases task with ⟨place, v, _ | _ | _⟩ | answer <;> rfl

end Scope

theorem Task.recast_eq_self {f : Recast σ σ} {task : Task σ}
    (h : ∀ v, task.asked? = some v → f.apply v = v) : task.recast f = task := by
  cases task with
  | ask place v demand => rw [recast, h v rfl]
  | ready answer => rfl

namespace Scope

/-- The name of the variable that answers each binding of the response, where one does. -/
def answerers (scope : Scope σ) (pdu : Pdu) : List (Option Oid) :=
  (scope.tasks pdu).map fun task => task.asked?.map (·.oid)

theorem DifferOnlyIn.exists_recast {target : Oid} {scope other : Scope σ}
    (h : DifferOnlyIn target scope other) : ∃ f : Recast σ σ, other = scope.recast f ∧
      ∀ v ∈ scope.registry.entries, v.oid ≠ target → f.apply v = v :=
  ⟨_, h.eq_recast, fun _ => h.counterpart_eq_self⟩

/-! ### Responses -/

/-- Except for GetBulk, each binding of a request has its binding in the response. -/
theorem length_tasks (scope : Scope σ) {pdu : Pdu} (h : isRequest pdu.type = true)
    (hbulk : pdu.type ≠ .getBulkRequest) : (scope.tasks pdu).length = pdu.bindings.length := by
  cases htype : pdu.type with
  | getRequest => simp only [tasks, htype, List.length_mapIdx]
  | getNextRequest => simp only [tasks, htype, List.length_mapIdx]
  | getBulkRequest => exact absurd htype hbulk
  | setRequest => simp only [tasks, htype, List.length_mapIdx]
  | informRequest => simp only [tasks, htype, List.length_mapIdx]
  | trapV1 => simp [htype, isRequest] at h
  | trapV2 => simp [htype, isRequest] at h
  | response => simp [htype, isRequest] at h
  | report => simp [htype, isRequest] at h

/-- Without effects, each binding of a response is what its own task comes to in the state before
    the request. -/
theorem mapM_perform {scope : Scope σ} (h : scope.Effectless) (pdu : Pdu)
    (context : RequestContext) (state : σ) :
    ((scope.tasks pdu).mapM (scope.perform context) state).1 =
      (scope.tasks pdu).map fun task => (scope.perform context task state).1 := by
  rw [mapM_of_unchanged fun task htask => perform_state h htask context state]

/-- **Faults are isolated.**  Two scopes that differ only in one variable both answer every
    request with a response, whatever their callbacks do.  No binding is missing, and the names
    are the same and in the same order.  If no callback changes the state, then the bindings
    that the variable does not answer are the same. -/
theorem serve_isolated {target : Oid} {scope other : Scope σ}
    (h : DifferOnlyIn target scope other) {pdu : Pdu} (hrequest : isRequest pdu.type = true)
    (context : RequestContext) (state : σ) :
    ∃ response response' after after',
      scope.serve context pdu state = (.ok (some response), after) ∧
      other.serve context pdu state = (.ok (some response'), after') ∧
      response.bindings.length = (scope.answerers pdu).length ∧
      (pdu.type ≠ .getBulkRequest → response.bindings.length = pdu.bindings.length) ∧
      response.bindings.map (·.oid) = response'.bindings.map (·.oid) ∧
      (scope.Effectless → other.Effectless → ∀ place : Nat,
        (scope.answerers pdu)[place]? ≠ some (some target) →
          response.bindings[place]? = response'.bindings[place]?) := by
  obtain ⟨f, rfl, hf⟩ := h.exists_recast
  obtain ⟨response, after, hserve, hbindings, hoids⟩ :=
    scope.serve_of_isRequest context hrequest state
  obtain ⟨response', after', hserve', hbindings', hoids'⟩ :=
    (scope.recast f).serve_of_isRequest context hrequest state
  have hlength : response.bindings.length = (scope.tasks pdu).length := by
    simpa using congrArg List.length hoids
  refine ⟨response, response', after, after', hserve, hserve', ?_, ?_, ?_, ?_⟩
  · rw [hlength, answerers, List.length_map]
  · exact fun hbulk => hlength.trans (scope.length_tasks hrequest hbulk)
  · rw [hoids, hoids', tasks_recast, List.map_map]
    exact List.map_congr_left fun task _ => (task.oid_recast f).symm
  · -- Both runs stay in the state in which they began, so each place can be looked at alone.
    intro heffectless heffectless' place hplace
    rw [hbindings, hbindings', mapM_perform heffectless, mapM_perform heffectless', tasks_recast]
    simp only [List.getElem?_map, perform_recast, Option.map_map]
    cases htask : (scope.tasks pdu)[place]? with
    | none => rfl
    | some task =>
      have hsame : task.recast f = task := by
        apply Task.recast_eq_self
        intro v hasked
        apply hf v (mem_of_asked? (List.mem_of_getElem? htask) hasked)
        rintro rfl
        apply hplace
        rw [answerers, List.getElem?_map, htask, Option.map_some, hasked, Option.map_some]
      simp only [Option.map_some, Function.comp_apply, hsame]

/-- Two variables, of which the first is read by a callback to be given. -/
def unsteadyScope (callback : Callback Nat Value) : Scope Nat where
  registry := {
    entries := #[
      { oid := ⟨[1, 3, 1]⟩, type := .integer, read? := some callback },
      { oid := ⟨[1, 3, 2]⟩, type := .integer
        read? := some fun state => (.ok (.integer (Int32.ofNat state)), state) }]
    ascending := List.pairwise_pair.2 (show (⟨[1, 3, 1]⟩ : Oid) < ⟨[1, 3, 2]⟩ by decide) }

theorem differOnlyIn_unsteadyScope (callback callback' : Callback Nat Value) :
    DifferOnlyIn ⟨[1, 3, 1]⟩ (unsteadyScope callback) (unsteadyScope callback') := by
  have hindices {index : Nat} {v w : Variable Nat}
      (hv : (unsteadyScope callback).registry.entries[index]? = some v)
      (hw : (unsteadyScope callback').registry.entries[index]? = some w) :
      (v.oid = ⟨[1, 3, 1]⟩ ∧ w.oid = v.oid ∧ w.isWalkable = v.isWalkable) ∨ w = v := by
    rcases index with _ | _ | index
    · cases hv
      cases hw
      exact .inl ⟨rfl, rfl, rfl⟩
    · cases hv
      cases hw
      exact .inr rfl
    · simp [unsteadyScope] at hv
  refine ⟨rfl, rfl, rfl, @fun _ _ _ hv hw => ?_, @fun _ _ _ hv hw => ?_,
    @fun _ _ _ hv hw hne => ?_⟩
  · rcases hindices hv hw with ⟨_, hoid, _⟩ | rfl
    · exact hoid
    · rfl
  · rcases hindices hv hw with ⟨_, _, hwalkable⟩ | rfl
    · exact hwalkable
    · rfl
  · rcases hindices hv hw with ⟨htarget, _⟩ | rfl
    · exact absurd htarget hne
    · rfl

theorem effectless_unsteadyScope {callback : Callback Nat Value}
    (h : ∀ state, (callback state).2 = state) : (unsteadyScope callback).Effectless := by
  intro v hv
  simp only [unsteadyScope, List.mem_toArray, List.mem_cons, List.not_mem_nil, or_false] at hv
  rcases hv with rfl | rfl
  · exact .of_read rfl h rfl rfl rfl
  · exact .of_read rfl (fun _ => rfl) rfl rfl rfl

/-- A breakdown of the first variable in a GetBulk request does not touch the second. -/
theorem serve_isolated_unsteadyScope :
    let sound : Callback Nat Value := fun state => (.ok (.integer 5), state)
    let broken : Callback Nat Value := fun state => (.error (.brokeDown .silent), state)
    let pdu := Pdu.getBulk 1 0 2 [.unset ⟨[1, 3]⟩]
    DifferOnlyIn ⟨[1, 3, 1]⟩ (unsteadyScope sound) (unsteadyScope broken) ∧
      isRequest pdu.type = true ∧
      (unsteadyScope sound).Effectless ∧ (unsteadyScope broken).Effectless ∧
      ((unsteadyScope sound).answerers pdu)[1]? ≠ some (some ⟨[1, 3, 1]⟩) ∧
      ∃ response response' after after',
        (unsteadyScope sound).serve default pdu 7 = (.ok (some response), after) ∧
        (unsteadyScope broken).serve default pdu 7 = (.ok (some response'), after') ∧
        response.bindings.length = 2 ∧
        response.bindings.map (·.oid) = response'.bindings.map (·.oid) ∧
        response.bindings[1]? = response'.bindings[1]? := by
  intro sound broken pdu
  have hdiffer := differOnlyIn_unsteadyScope sound broken
  have hsound : (unsteadyScope sound).Effectless := effectless_unsteadyScope fun _ => rfl
  have hbroken : (unsteadyScope broken).Effectless := effectless_unsteadyScope fun _ => rfl
  have hplace : ((unsteadyScope sound).answerers pdu)[1]? ≠ some (some ⟨[1, 3, 1]⟩) := by
    decide +kernel
  have hlength : ((unsteadyScope sound).answerers pdu).length = 2 := by decide +kernel
  obtain ⟨response, response', after, after', hserve, hserve', hcount, _, hoids, hsame⟩ :=
    serve_isolated hdiffer (show isRequest pdu.type = true from rfl) default 7
  exact ⟨hdiffer, rfl, hsound, hbroken, hplace, response, response', after, after', hserve,
    hserve', hcount.trans hlength, hoids, hsame hsound hbroken 1 hplace⟩

end Scope

end Snmp.Mib
