/-
  Snmp/Proofs/TurnServing.lean
  ============================
  **Serving is a run of turns.**

  Serving performs the tasks of its plan, and the task of a binding is performed by the rules of
  its turn (`Befalls.perform_eq`).  So serving makes the calls of a run and no others, leaves the
  state that the run leaves, and answers each binding with what became of it
  (`Run.recorded_serve_eq`, `Run.serve_eq`).
-/
import Snmp.Proofs.BindingTurns
import Snmp.Proofs.PermissionGate

namespace Snmp.Mib

variable {σ : Type}

/-! ### Recorded callbacks -/

namespace Variable

variable {v : Variable σ} {context : RequestContext} {state after : σ} {noted : List Call}

/-- What a recorded callback comes to and leaves. -/
theorem run_record {α : Type} {callback : Callback σ α} {outcome : Except Mishap α}
    {call : Except Mishap α → Call} (h : callback state = (outcome, after)) :
    run (record callback call) (state, noted) =
      (resultOf outcome, after, noted ++ [call outcome]) := by
  simp only [run, record, h]
  rfl

theorem permit_recorded {check : RequestContext → Callback σ Permission}
    {outcome : Except Mishap Permission} (hpermission : v.permission? = some check)
    (h : check context state = (outcome, after)) :
    v.recorded.permit context (state, noted) =
      (resultOf outcome, after, noted ++ [.permission v.oid context outcome]) := by
  simp only [permit, recorded, hpermission, Option.map_some]
  exact run_record h

theorem read_recorded {callback : Callback σ Value} {outcome : Except Mishap Value}
    (hread : v.read? = some callback) (h : callback state = (outcome, after)) :
    v.recorded.read (state, noted) =
      (some ((resultOf outcome).bind v.checkType), after, noted ++ [.read v.oid outcome]) := by
  simp only [read, recorded, hread, Option.map_some, bind, StateT.bind, run_record h]
  rfl

theorem write_recorded {callback : Value → Callback σ Unit} {value : Value}
    {outcome : Except Mishap Unit} (hwrite : v.write? = some callback)
    (h : callback value state = (outcome, after)) :
    v.recorded.write value (state, noted) =
      (some (resultOf outcome), after, noted ++ [.write v.oid value outcome]) := by
  simp only [write, recorded, hwrite, Option.map_some, bind, StateT.bind, run_record h]
  rfl

theorem notify_recorded {callback : Bool → Binding → Callback σ (Option Value)}
    {isInform : Bool} {binding : Binding} {outcome : Except Mishap (Option Value)}
    (hnotify : v.notify? = some callback)
    (h : callback isInform binding state = (outcome, after)) :
    v.recorded.notify isInform binding (state, noted) =
      (some (resultOf outcome), after, noted ++ [.notify v.oid isInform binding outcome]) := by
  simp only [notify, recorded, hnotify, Option.map_some, bind, StateT.bind, run_record h]
  rfl

end Variable

/-! ### Tasks -/

section Tasks

variable {scope : Scope σ} {context : RequestContext} {type : PduType} {v : Variable σ}
  {state after : σ} {demand : Demand} {calls : List Call} {fate : Fate}

/-- A demand is fulfilled by the rules. -/
theorem Variable.Meets.fulfil_eq (h : v.Meets state demand calls fate after) (place : Nat)
    (noted : List Call) :
    scope.recorded.fulfil place v.recorded demand (state, noted) =
      (fate.answer scope.escalates place v.oid, after, noted ++ calls) := by
  cases h with
  | unreadable hread =>
    simp only [Scope.fulfil, Variable.read, Variable.recorded, hread, List.append_nil]
    rfl
  | @read callback outcome after hread hrun =>
    simp only [Scope.fulfil, bind, StateT.bind, read_recorded hread hrun]
    rcases outcome with mishap | value
    · rfl
    · have hchecked : (resultOf (.ok value)).bind v.checkType = v.checkType value := rfl
      rw [hchecked, checkType, fateOfRead]
      split <;> rfl
  | unwritable hwrite =>
    simp only [Scope.fulfil, isWritable, Variable.recorded, hwrite, List.append_nil]
    rfl
  | mistyped hwrite htype =>
    have hwritable : v.recorded.isWritable = true := by
      simp only [isWritable, Variable.recorded, hwrite, Option.map_some, Option.isSome_some]
    have hother : _ ≠ some v.recorded.type := htype
    simp only [Scope.fulfil, hwritable, Bool.not_true, Bool.false_eq_true, if_false, if_pos hother,
      List.append_nil]
    rfl
  | @write callback value outcome after hwrite htype hrun =>
    have hwritable : v.recorded.isWritable = true := by
      simp only [isWritable, Variable.recorded, hwrite, Option.map_some, Option.isSome_some]
    have hdeclared : ¬value.type? ≠ some v.recorded.type := not_not_intro htype
    simp only [Scope.fulfil, hwritable, Bool.not_true, Bool.false_eq_true, if_false,
      if_neg hdeclared, bind, StateT.bind]
    rw [show v.recorded.oid = v.oid from rfl, write_recorded hwrite hrun]
    rcases outcome with mishap | ⟨⟩ <;> rfl
  | deaf hnotify =>
    simp only [Scope.fulfil, Variable.notify, Variable.recorded, hnotify, List.append_nil]
    rfl
  | @notify callback isInform value outcome after hnotify hrun =>
    simp only [Scope.fulfil, bind, StateT.bind]
    rw [show v.recorded.oid = v.oid from rfl, notify_recorded hnotify hrun]
    rcases outcome with mishap | _ | given <;> rfl

/-- The check is asked first, by the rules. -/
theorem Variable.Faces.perform_eq (h : v.Faces context state demand calls fate after)
    (place : Nat) (noted : List Call) :
    scope.recorded.perform context (.ask place v.recorded demand) (state, noted) =
      (fate.answer scope.escalates place v.oid, after, noted ++ calls) := by
  cases h with
  | unguarded hpermission hmeets =>
    simp only [Scope.perform, Scope.ifPermitted, permit, Variable.recorded, hpermission]
    exact hmeets.fulfil_eq place noted
  | allowed hpermission hcheck hmeets =>
    simp only [Scope.perform, Scope.ifPermitted, bind, StateT.bind,
      permit_recorded hpermission hcheck]
    refine (hmeets.fulfil_eq place _).trans ?_
    rw [List.append_assoc]
    rfl
  | denied hpermission hcheck =>
    simp only [Scope.perform, Scope.ifPermitted, bind, StateT.bind,
      permit_recorded hpermission hcheck]
    rfl
  | broke hpermission hcheck =>
    simp only [Scope.perform, Scope.ifPermitted, bind, StateT.bind,
      permit_recorded hpermission hcheck]
    rfl

end Tasks

/-! ### Plans in turns -/

/-- Finding a name is looking through the entries. -/
theorem Registry.find?_eq (r : Registry σ) (oid : Oid) :
    r.find? oid = r.entries.toList.find? (·.oid = oid) := by
  cases hfirst : r.entries.toList.find? (·.oid = oid) with
  | some v =>
    have hoid : v.oid = oid := by simpa using List.find?_some hfirst
    obtain ⟨index, hindex, hv⟩ := List.mem_iff_getElem.1 (List.mem_of_find?_eq_some hfirst)
    have hentry : r.entries[index]? = some v := by
      rw [← Array.getElem?_toList, List.getElem?_eq_getElem hindex, hv]
    rw [← hoid]
    exact r.find?_oid hentry
  | none =>
    have hnone := List.find?_eq_none.1 hfirst
    cases hfind : r.find? oid with
    | none => rfl
    | some v =>
      have hv := hnone v (Array.mem_toList_iff.2 (Registry.mem_of_find? hfind))
      exact absurd (decide_eq_true (Registry.oid_of_find? hfind)) hv

/-- The operations whose responses have one binding for each binding of the request. -/
def isItemwise : PduType → Bool
  | .getRequest | .getNextRequest | .setRequest | .informRequest | .trapV1 | .trapV2 => true
  | .getBulkRequest | .response | .report => false

namespace Scope

/-- The name under which a binding is answered. -/
def nameFor (scope : Scope σ) (type : PduType) (oid : Oid) : Oid :=
  ((scope.wanted? type oid).map (·.oid)).getD oid

/-- The task of a binding in its turn. -/
def turnTask (scope : Scope σ) (type : PduType) (place : Nat) (binding : Binding) : Task σ :=
  .ofFound place (demand type binding.value)
    ((fateOfUnfound type binding).answer scope.escalates place binding.oid)
    (scope.wanted? type binding.oid)

/-- The answer to a binding that has had its turn. -/
def turnAnswer (scope : Scope σ) (type : PduType) (place : Nat) (t : BindingTurn σ) : Answer :=
  t.fate.answer scope.escalates place (scope.nameFor type t.binding.oid)

section Plans

variable (scope : Scope σ) {type : PduType} {context : RequestContext} {binding : Binding}
  {state after : σ} {calls : List Call} {fate : Fate}

/-- The variable of GetNext is found by walking, and any other by its name. -/
theorem wanted?_eq (type : PduType) (oid : Oid) :
    scope.wanted? type oid =
      if type = .getNextRequest then scope.registry.nextVariable? oid
      else scope.registry.find? oid := by
  rw [wanted?, registered?, Registry.nextVariable?_eq_head?, Registry.find?_eq]

theorem nameFor_of_ne_next (htype : type ≠ .getNextRequest) (oid : Oid) :
    scope.nameFor type oid = oid := by
  rw [nameFor, wanted?_eq, if_neg htype]
  cases hfind : scope.registry.find? oid with
  | none => rfl
  | some v => exact Registry.oid_of_find? hfind

/-- Other than for GetBulk, the plan has a task for each binding in its turn. -/
theorem tasks_eq {pdu : Pdu} (h : isItemwise pdu.type = true) :
    scope.tasks pdu = pdu.bindings.mapIdx (scope.turnTask pdu.type) := by
  have hfind {type : PduType} (htype : type ≠ .getNextRequest) (oid : Oid) :
      scope.wanted? type oid = scope.registry.find? oid := by rw [wanted?_eq, if_neg htype]
  have hnotify {type : PduType} (htype : type ≠ .getNextRequest) {isInform : Bool}
      (hdemand : ∀ value, demand type value = .notify isInform value)
      (hunfound : ∀ place binding, unheard place binding =
        (fateOfUnfound type binding).answer scope.escalates place binding.oid) :
      scope.notifyTask isInform = scope.turnTask type := by
    funext place binding
    rw [notifyTask, turnTask, hfind htype, hdemand, hunfound]
  have hunheard (place : Nat) (binding : Binding) : unheard place binding =
      (fateOfUnfound .informRequest binding).answer scope.escalates place binding.oid := by
    rw [unheard, fateOfUnfound]
    split <;> rfl
  cases htype : pdu.type with
  | getRequest =>
    have htask : scope.getTask = scope.turnTask .getRequest := by
      funext place binding
      rw [getTask, turnTask, hfind (by decide)]
      rfl
    simp only [tasks, htype, htask]
  | getNextRequest =>
    have htask : scope.nextTask = scope.turnTask .getNextRequest := by
      funext place binding
      rw [nextTask, turnTask, wanted?_eq, if_pos rfl]
      rfl
    simp only [tasks, htype, htask]
  | setRequest =>
    have htask : scope.setTask = scope.turnTask .setRequest := by
      funext place binding
      rw [setTask, turnTask, hfind (by decide)]
      rfl
    simp only [tasks, htype, htask]
  | informRequest =>
    have htask : scope.notifyTask true = scope.turnTask .informRequest :=
      hnotify (by decide) (fun _ => rfl) hunheard
    simp only [tasks, htype, htask]
  | trapV1 =>
    have htask : scope.notifyTask false = scope.turnTask .trapV1 :=
      hnotify (by decide) (fun _ => rfl) hunheard
    simp only [tasks, htype, htask]
  | trapV2 =>
    have htask : scope.notifyTask false = scope.turnTask .trapV2 :=
      hnotify (by decide) (fun _ => rfl) hunheard
    simp only [tasks, htype, htask]
  | getBulkRequest => exact absurd (htype ▸ h) (by decide)
  | response => exact absurd (htype ▸ h) (by decide)
  | report => exact absurd (htype ▸ h) (by decide)

variable {scope}

/-- The task of a binding is performed by the rules of its turn. -/
theorem Befalls.perform_eq (h : scope.Befalls context type binding state calls fate after)
    (place : Nat) (noted : List Call) :
    scope.recorded.perform context ((scope.turnTask type place binding).recast recording)
        (state, noted) =
      (fate.answer scope.escalates place (scope.nameFor type binding.oid), after,
        noted ++ calls) := by
  cases h with
  | unfound hwanted =>
    rw [turnTask, nameFor, hwanted, List.append_nil]
    rfl
  | found hwanted hfaces =>
    rw [turnTask, nameFor, hwanted]
    exact hfaces.perform_eq place noted

/-! ### Runs -/

variable {turns : List (BindingTurn σ)}

/-- The tasks are performed turn by turn, by induction on the run: each finds the state and the
    record as the turn before it has left them. -/
theorem Run.mapM_eq (h : scope.Run context type state turns after) :
    ∀ place noted, (turns.mapIdx fun index t =>
          (scope.turnTask type (place + index) t.binding).recast recording).mapM
        (scope.recorded.perform context) (state, noted) =
      (turns.mapIdx fun index t => scope.turnAnswer type (place + index) t, after,
        noted ++ turns.flatMap (·.calls)) := by
  induction h with
  | done =>
    intro place noted
    rw [List.flatMap_nil, List.append_nil]
    rfl
  | @turn t rest last hbefalls hrun ih =>
    intro place noted
    have hrest := ih (place + 1) (noted ++ t.calls)
    simp only [Nat.add_assoc, Nat.add_comm 1] at hrest
    rw [List.mapIdx_cons, List.mapIdx_cons, List.mapM_cons, List.flatMap_cons,
      ← List.append_assoc]
    simp only [bind, StateT.bind, Nat.add_zero, hbefalls.perform_eq, hrest]
    rfl

/-- Every turn of a run is by the rules. -/
theorem Run.befalls (h : scope.Run context type state turns after) :
    ∀ t ∈ turns, scope.Befalls context type t.binding t.before t.calls t.fate t.after := by
  induction h with
  | done => exact fun t ht => absurd ht List.not_mem_nil
  | turn hbefalls _ ih =>
    intro t ht
    rcases List.mem_cons.1 ht with rfl | ht
    · exact hbefalls
    · exact ih t ht

/-- The bindings of the answers, in the order of the turns. -/
theorem bindings_turnAnswer (scope : Scope σ) (type : PduType) (turns : List (BindingTurn σ)) :
    (turns.mapIdx (scope.turnAnswer type)).map (·.binding) =
      turns.map fun t => ⟨scope.nameFor type t.binding.oid, t.fate.value⟩ := by
  apply List.ext_getElem?
  intro index
  simp only [List.getElem?_map, List.getElem?_mapIdx, Option.map_map]
  rfl

variable {pdu : Pdu}

/-- Serving makes the calls of the run, leaves the state that the run leaves, and answers each
    binding with what became of it. -/
theorem Run.recorded_serve_eq (h : scope.Run context pdu.type state turns after)
    (hitemwise : isItemwise pdu.type = true) (hbindings : turns.map (·.binding) = pdu.bindings) :
    scope.recorded.serve context pdu (state, []) =
      (conclude pdu (turns.mapIdx (scope.turnAnswer pdu.type)), after,
        turns.flatMap (·.calls)) := by
  have hplan : scope.recorded.tasks pdu = turns.mapIdx fun index t =>
      (scope.turnTask pdu.type index t.binding).recast recording := by
    rw [recorded, tasks_recast, tasks_eq scope hitemwise, ← hbindings]
    apply List.ext_getElem?
    intro index
    simp only [List.getElem?_map, List.getElem?_mapIdx, Option.map_map]
    rfl
  have hmapM := h.mapM_eq 0 []
  simp only [Nat.zero_add, List.nil_append, ← hplan] at hmapM
  simp only [Scope.serve_eq, bind, StateT.bind, hmapM]
  rfl

theorem Run.serve_eq (h : scope.Run context pdu.type state turns after)
    (hitemwise : isItemwise pdu.type = true) (hbindings : turns.map (·.binding) = pdu.bindings) :
    scope.serve context pdu state =
      (conclude pdu (turns.mapIdx (scope.turnAnswer pdu.type)), after) := by
  obtain ⟨_, _, hserve, _, _⟩ := serve_recorded pdu (scope.records_perform context) state
  rw [h.recorded_serve_eq hitemwise hbindings] at hserve
  exact Prod.ext (congrArg (·.1) hserve).symm (congrArg (·.2.1) hserve).symm

end Plans

end Scope

end Snmp.Mib
