/-
  Snmp/Proofs/PermissionGate.lean
  ===============================
  **No callback is called before the check of its variable has allowed it.**

  A task that asks a variable first makes its permission check with the context of the request.
  If the check denies or breaks down, that was the only call, and the answer carries nothing of
  the variable (`Handled`).  Otherwise at most one more callback of the same variable is called,
  right after the check (`Fulfilled`): a value that is written has the declared type, and so has
  a value that a read puts into an answer.  Serving performs one task after the other, so the
  calls of a request fall into pieces of this form, one for each binding (`serve_gated`).
-/
import Snmp.Proofs.CallRecord

namespace Snmp.Mib

variable {σ : Type}

/-! ### What a task takes -/

/-- A call of a variable other than its check; what is written has the declared type. -/
def Call.Serves (v : Variable σ) : Call → Prop
  | .permission .. => False
  | .read oid _ => oid = v.oid
  | .write oid value _ => oid = v.oid ∧ value.type? = some v.type
  | .notify oid .. => oid = v.oid

theorem Call.Serves.oid_eq {v : Variable σ} {call : Call} (h : call.Serves v) :
    call.oid = v.oid := by
  cases call with
  | permission => exact h.elim
  | read => exact h
  | write => exact h.1
  | notify => exact h

theorem Call.serves_read (v : Variable σ) (outcome : Except Mishap Value) :
    (Call.read v.oid outcome).Serves v := rfl

theorem Call.serves_write {v : Variable σ} {value : Value} (htype : value.type? = some v.type)
    (outcome : Except Mishap Unit) : (Call.write v.oid value outcome).Serves v := ⟨rfl, htype⟩

theorem Call.serves_notify (v : Variable σ) (isInform : Bool) (binding : Binding)
    (outcome : Except Mishap (Option Value)) :
    (Call.notify v.oid isInform binding outcome).Serves v := rfl

namespace Scope

variable (scope : Scope σ) (context : RequestContext)

/-- The calls and the answer once the request may have a variable: at most one callback is
    called. -/
inductive Fulfilled (place : Nat) (v : Variable σ) : List Call → Answer → Prop where
  /-- The variable lacks the callback, or the value to be written has another type. -/
  | refused {status : ErrorStatus} (hstatus : status ≠ .genErr) :
      Fulfilled place v [] (refuse place v.oid status)
  | failed {call : Call} (hcall : call.Serves v) (error : CallbackError) :
      Fulfilled place v [call] (scope.substitute place v.oid error)
  | read {value : Value} (htype : value.type? = some v.type) :
      Fulfilled place v [.read v.oid (.ok value)] ⟨place, ⟨v.oid, value⟩, none⟩
  | written {value : Value} (htype : value.type? = some v.type) :
      Fulfilled place v [.write v.oid value (.ok ())] ⟨place, ⟨v.oid, value⟩, none⟩
  | notified {isInform : Bool} {value : Value} {given? : Option Value} :
      Fulfilled place v [.notify v.oid isInform ⟨v.oid, value⟩ (.ok given?)]
        ⟨place, ⟨v.oid, given?.getD value⟩, none⟩

/-- The calls and the answer of a task. -/
inductive Handled : Task σ → List Call → Answer → Prop where
  | ready {answer : Answer} : Handled (.ready answer) [] answer
  | denied {place : Nat} {v : Variable σ} {demand : Demand} :
      Handled (.ask place v demand) [.permission v.oid context (.ok .denied)]
        (refuse place v.oid .noAccess)
  | broke {place : Nat} {v : Variable σ} {demand : Demand} {mishap : Mishap} :
      Handled (.ask place v demand) [.permission v.oid context (.error mishap)]
        (scope.substitute place v.oid (.ofMishap mishap))
  | allowed {place : Nat} {v : Variable σ} {demand : Demand} {calls : List Call}
      {answer : Answer} (h : Fulfilled scope place v calls answer) :
      Handled (.ask place v demand) (.permission v.oid context (.ok .allowed) :: calls) answer
  | unchecked {place : Nat} {v : Variable σ} {demand : Demand} {calls : List Call}
      {answer : Answer} (hnone : v.permission? = none) (h : Fulfilled scope place v calls answer) :
      Handled (.ask place v demand) calls answer

theorem records_fulfil (place : Nat) (v : Variable σ) (demand : Demand) :
    Records (scope.fulfil place v demand) (scope.recorded.fulfil place v.recorded demand)
      (scope.Fulfilled place v) := by
  cases demand with
  | read =>
    refine Records.bind v.records_read ?_
    rintro noted result (⟨rfl, rfl⟩ | ⟨mishap | value, rfl, rfl⟩)
    · exact Records.pure (.refused (by decide))
    · exact Records.pure (.failed (Call.serves_read v _) _)
    · have hresult : (Variable.resultOf (.ok value)).bind v.checkType = v.checkType value := rfl
      rw [hresult, Variable.checkType]
      by_cases htype : value.type? = some v.type
      · rw [if_pos htype]
        exact Records.pure (.read htype)
      · rw [if_neg htype]
        exact Records.pure (.failed (Call.serves_read v _) _)
  | write value =>
    have hwritable : v.recorded.isWritable = v.isWritable := Option.isSome_map
    have hdeclared : v.recorded.type = v.type := rfl
    simp only [fulfil, hwritable, hdeclared]
    by_cases hreadOnly : (!v.isWritable) = true
    · rw [if_pos hreadOnly, if_pos hreadOnly]
      exact Records.pure (.refused (by decide))
    rw [if_neg hreadOnly, if_neg hreadOnly]
    by_cases htype : value.type? = some v.type
    · rw [if_neg (not_not_intro htype), if_neg (not_not_intro htype)]
      refine Records.bind (v.records_write value) ?_
      rintro noted result (⟨rfl, rfl⟩ | ⟨mishap | ⟨⟩, rfl, rfl⟩)
      · exact Records.pure (.refused (by decide))
      · exact Records.pure (.failed (Call.serves_write htype _) _)
      · exact Records.pure (.written htype)
    · rw [if_pos htype, if_pos htype]
      exact Records.pure (.refused (by decide))
  | notify isInform value =>
    refine Records.bind (v.records_notify isInform ⟨v.oid, value⟩) ?_
    rintro noted result (⟨rfl, rfl⟩ | ⟨mishap | _ | given, rfl, rfl⟩)
    · exact Records.pure (.refused (by decide))
    · exact Records.pure (.failed (Call.serves_notify v isInform _ _) _)
    · exact Records.pure .notified
    · exact Records.pure .notified

/-- A task begins with the check, which decides whether anything else is called. -/
theorem records_perform (task : Task σ) :
    Records (scope.perform context task)
      (scope.recorded.perform context (task.recast recording)) (scope.Handled context task) := by
  cases task with
  | ready answer => exact Records.pure .ready
  | ask place v demand =>
    refine Records.bind (v.records_permit context) ?_
    rintro noted result (⟨hnone, rfl, rfl⟩ | ⟨mishap | _ | _, rfl, rfl⟩)
    · exact (scope.records_fulfil place v demand).mono fun _ _ h => .unchecked hnone h
    · exact Records.pure .broke
    · exact (scope.records_fulfil place v demand).mono fun _ _ h => .allowed h
    · exact Records.pure .denied

/-! ### Gated exchanges -/

end Scope

/-- What the check of a variable guards in an exchange that asks the variable. -/
structure Exchange.Gated (context : RequestContext) (v : Variable σ) (e : Exchange σ) : Prop where
  /-- No other variable is called. -/
  own : ∀ call ∈ e.calls, call.oid = v.oid
  /-- Another callback is called only right after the check has allowed it, or if there is no
      check. -/
  checked : ∀ before call after, e.calls = before ++ call :: after → call.isCheck = false →
    before = [.permission v.oid context (.ok .allowed)] ∨ before = [] ∧ v.permission? = none
  /-- A check that denies or breaks down is the only call, and the answer tells no more than
      that. -/
  stopped : ∀ oid asked outcome, .permission oid asked outcome ∈ e.calls →
    outcome ≠ .ok .allowed → e.calls = [.permission v.oid context outcome] ∧
      (e.answer.binding = .unset v.oid ∨ ∃ mishap, outcome = .error mishap ∧
        e.answer.binding = ⟨v.oid, (CallbackError.ofMishap mishap).toValue⟩)
  /-- For a binding that is refused no other callback is called. -/
  refused : ∀ status, e.answer.failure? = some status → status ≠ .genErr →
    (∀ call ∈ e.calls, call.isCheck = true) ∧ e.answer.binding = .unset v.oid
  written : ∀ oid value outcome, .write oid value outcome ∈ e.calls → value.type? = some v.type
  /-- What was read is answered only if it has the declared type. -/
  read : ∀ oid outcome, .read oid outcome ∈ e.calls →
    (∃ value, outcome = .ok value ∧ value.type? = some v.type ∧ value.isException = false ∧
      e.answer.binding = ⟨v.oid, value⟩) ∨
    ∃ error : CallbackError, e.answer.binding = ⟨v.oid, error.toValue⟩

namespace Scope

variable {scope : Scope σ} {context : RequestContext} {place : Nat} {v : Variable σ}
  {calls : List Call} {answer : Answer}

namespace Fulfilled

theorem serves (h : scope.Fulfilled place v calls answer) : ∀ call ∈ calls, call.Serves v := by
  intro call hcall
  cases h with
  | refused => cases hcall
  | failed hserves =>
    cases List.mem_singleton.1 hcall
    exact hserves
  | read =>
    cases List.mem_singleton.1 hcall
    exact Call.serves_read v _
  | written htype =>
    cases List.mem_singleton.1 hcall
    exact Call.serves_write htype _
  | notified =>
    cases List.mem_singleton.1 hcall
    exact Call.serves_notify v _ _ _

theorem length_le (h : scope.Fulfilled place v calls answer) : calls.length ≤ 1 := by
  cases h with
  | refused => exact Nat.zero_le 1
  | failed => exact Nat.le_refl 1
  | read => exact Nat.le_refl 1
  | written => exact Nat.le_refl 1
  | notified => exact Nat.le_refl 1

theorem eq_nil_of_refused (h : scope.Fulfilled place v calls answer) {status : ErrorStatus}
    (hfailure : answer.failure? = some status) (hstatus : status ≠ .genErr) :
    calls = [] ∧ answer.binding = .unset v.oid := by
  cases h with
  | refused => exact ⟨rfl, rfl⟩
  | failed =>
    rw [substitute] at hfailure
    split at hfailure
    · cases hfailure
      contradiction
    · contradiction
  | read => contradiction
  | written => contradiction
  | notified => contradiction

theorem binding_of_read (h : scope.Fulfilled place v calls answer) {oid : Oid}
    {outcome : Except Mishap Value} (hread : .read oid outcome ∈ calls) :
    (∃ value, outcome = .ok value ∧ value.type? = some v.type ∧ value.isException = false ∧
      answer.binding = ⟨v.oid, value⟩) ∨
    ∃ error : CallbackError, answer.binding = ⟨v.oid, error.toValue⟩ := by
  cases h with
  | refused => cases hread
  | failed _ error => exact .inr ⟨error, rfl⟩
  | read htype =>
    cases List.mem_singleton.1 hread
    refine .inl ⟨_, rfl, htype, ?_, rfl⟩
    rw [Value.isException, htype, Option.isNone_some]
  | written => cases List.mem_singleton.1 hread
  | notified => cases List.mem_singleton.1 hread

/-- The calls that follow a check which lets the request pass. -/
theorem gated (h : scope.Fulfilled place v calls answer) {check : List Call}
    (hcheck : check = [.permission v.oid context (.ok .allowed)] ∨
      check = [] ∧ v.permission? = none) (task : Task σ) :
    Exchange.Gated context v ⟨task, check ++ calls, answer⟩ := by
  have hpassed : ∀ call ∈ check, call = .permission v.oid context (.ok .allowed) := by
    intro call hcall
    rcases hcheck with rfl | ⟨rfl, _⟩
    · exact List.mem_singleton.1 hcall
    · cases hcall
  have hmem : ∀ call ∈ check ++ calls,
      call = .permission v.oid context (.ok .allowed) ∨ call ∈ calls ∧ call.Serves v := by
    intro call hcall
    rcases List.mem_append.1 hcall with hcall | hcall
    · exact .inl (hpassed call hcall)
    · exact .inr ⟨hcall, h.serves call hcall⟩
  constructor
  case own =>
    intro call hcall
    rcases hmem call hcall with rfl | ⟨_, hserves⟩
    · rfl
    · exact hserves.oid_eq
  case checked =>
    intro before call after hcalls hother
    have hbefore : before = check := by
      rcases List.append_eq_append_iff.1 hcalls with
        ⟨more, hbefore, hrest⟩ | ⟨more, hlonger, hrest⟩
      · -- At most one call follows the check, and it is this one.
        have hlength := congrArg List.length hrest
        have hle := h.length_le
        simp only [List.length_append, List.length_cons] at hlength
        have hmore : more = [] := List.eq_nil_of_length_eq_zero (by omega)
        rw [hbefore, hmore, List.append_nil]
      · cases more with
        | nil => rw [hlonger, List.append_nil]
        | cons first more =>
          cases (List.cons.inj hrest).1
          have hfirst := hpassed call (by rw [hlonger]; simp)
          rw [hfirst] at hother
          contradiction
    rw [hbefore]
    exact hcheck
  case stopped =>
    intro oid asked outcome hcall hstopped
    rcases hmem _ hcall with heq | ⟨_, hserves⟩
    · cases heq
      contradiction
    · exact hserves.elim
  case refused =>
    intro status hfailure hstatus
    obtain ⟨rfl, hbinding⟩ := h.eq_nil_of_refused hfailure hstatus
    refine ⟨?_, hbinding⟩
    intro call hcall
    rw [hpassed call (by simpa using hcall)]
    rfl
  case written =>
    intro oid value outcome hcall
    rcases hmem _ hcall with heq | ⟨_, hserves⟩
    · cases heq
    · exact hserves.2
  case read =>
    intro oid outcome hcall
    rcases hmem _ hcall with heq | ⟨hcall, _⟩
    · cases heq
    · exact h.binding_of_read hcall

end Fulfilled

variable (scope) in
/-- A check that does not let the request pass, and what is answered then. -/
theorem gated_of_stopped {outcome : Except Mishap Permission}
    (hanswer : answer = refuse place v.oid .noAccess ∨ ∃ mishap, outcome = .error mishap ∧
      answer = scope.substitute place v.oid (.ofMishap mishap)) (task : Task σ) :
    Exchange.Gated context v ⟨task, [.permission v.oid context outcome], answer⟩ := by
  constructor
  case own =>
    intro call hcall
    cases List.mem_singleton.1 hcall
    rfl
  case checked =>
    intro before call after hcalls hother
    have hcall : call ∈ before ++ call :: after := by simp
    rw [← hcalls] at hcall
    cases List.mem_singleton.1 hcall
    contradiction
  case stopped =>
    intro oid asked found hcall _
    cases List.mem_singleton.1 hcall
    refine ⟨rfl, ?_⟩
    rcases hanswer with rfl | ⟨mishap, hmishap, rfl⟩
    · exact .inl rfl
    · exact .inr ⟨mishap, hmishap, rfl⟩
  case refused =>
    intro status hfailure hstatus
    refine ⟨?_, ?_⟩
    · intro call hcall
      cases List.mem_singleton.1 hcall
      rfl
    · rcases hanswer with rfl | ⟨mishap, _, rfl⟩
      · rfl
      · simp only [substitute] at hfailure
        split at hfailure
        · cases hfailure
          contradiction
        · contradiction
  case written =>
    intro oid value result hcall
    cases List.mem_singleton.1 hcall
  case read =>
    intro oid result hcall
    cases List.mem_singleton.1 hcall

theorem Handled.gated {task : Task σ} (h : scope.Handled context task calls answer) :
    (task.asked? = none ∧ calls = []) ∨
      ∃ v, task.asked? = some v ∧ Exchange.Gated context v ⟨task, calls, answer⟩ := by
  cases h with
  | ready => exact .inl ⟨rfl, rfl⟩
  | denied => exact .inr ⟨_, rfl, scope.gated_of_stopped (.inl rfl) _⟩
  | broke => exact .inr ⟨_, rfl, scope.gated_of_stopped (.inr ⟨_, rfl, rfl⟩) _⟩
  | allowed h => exact .inr ⟨_, rfl, h.gated (.inl rfl) _⟩
  | unchecked hnone h => exact .inr ⟨_, rfl, h.gated (.inr ⟨rfl, hnone⟩) _⟩

/-! ### Requests -/

/-- Whatever is requested, the calls that serving makes fall into one piece for each binding, and
    the answers to the bindings make up what is served.  A piece for a binding that asks a
    variable is guarded by the check of the same variable; the other pieces are empty. -/
theorem serve_gated (scope : Scope σ) (context : RequestContext) (pdu : Pdu) (state : σ) :
    ∃ exchanges : List (Exchange σ), exchanges.map (·.task) = scope.tasks pdu ∧
      scope.recorded.serve context pdu (state, []) =
        ((scope.serve context pdu state).1, (scope.serve context pdu state).2,
          exchanges.flatMap (·.calls)) ∧
      (scope.serve context pdu state).1 = conclude pdu (exchanges.map (·.answer)) ∧
      ∀ e ∈ exchanges, (e.task.asked? = none ∧ e.calls = []) ∨
        ∃ v ∈ scope.registry.entries, e.task.asked? = some v ∧ e.Gated context v := by
  obtain ⟨exchanges, htasks, hserve, hserved, hall⟩ :=
    scope.serve_recorded pdu (scope.records_perform context) state
  refine ⟨exchanges, htasks, hserve, hserved, ?_⟩
  intro e he
  rcases (hall e he).gated with hready | ⟨v, hasked, hgated⟩
  · exact .inl hready
  · have htask : e.task ∈ scope.tasks pdu := htasks ▸ List.mem_map_of_mem he
    exact .inr ⟨v, mem_of_asked? htask hasked, hasked, hgated⟩

def deniedVariable : Variable Unit where
  oid := ⟨[1, 3, 1]⟩
  type := .integer
  read? := some fun state => (.ok (.integer 5), state)
  permission? := some fun _ state => (.ok .denied, state)

def allowedVariable : Variable Unit where
  oid := ⟨[1, 3, 2]⟩
  type := .integer
  read? := some fun state => (.ok (.integer 7), state)
  permission? := some fun _ state => (.ok .allowed, state)

def guardedScope : Scope Unit where
  registry := ⟨#[deniedVariable, allowedVariable], by decide⟩

def guardedRequest : Pdu :=
  ⟨.getRequest, 1, 0, 0, [.unset deniedVariable.oid, .unset allowedVariable.oid]⟩

theorem tasks_guardedRequest : guardedScope.tasks guardedRequest =
    [.ask 0 deniedVariable .read, .ask 1 allowedVariable .read] := by
  have hdenied := guardedScope.registry.find?_oid
    (show guardedScope.registry.entries[0]? = some deniedVariable from rfl)
  have hallowed := guardedScope.registry.find?_oid
    (show guardedScope.registry.entries[1]? = some allowedVariable from rfl)
  simp only [tasks, guardedRequest, List.mapIdx_cons, List.mapIdx_nil, getTask, Binding.unset,
    Nat.zero_add, hdenied, hallowed, Task.ofFound]

/-- The variable that is denied is not read. -/
theorem serve_gated_guardedScope :
    ∃ exchanges : List (Exchange Unit),
      exchanges.flatMap (·.calls) =
        [.permission ⟨[1, 3, 1]⟩ default (.ok .denied),
          .permission ⟨[1, 3, 2]⟩ default (.ok .allowed), .read ⟨[1, 3, 2]⟩ (.ok (.integer 7))] ∧
      ∀ e ∈ exchanges, (e.task.asked? = none ∧ e.calls = []) ∨
        ∃ v ∈ guardedScope.registry.entries, e.task.asked? = some v ∧ e.Gated default v := by
  obtain ⟨exchanges, _, hserve, _, hall⟩ := serve_gated guardedScope default guardedRequest ()
  refine ⟨exchanges, ?_, hall⟩
  have hcalls : (guardedScope.recorded.serve default guardedRequest ((), [])).2.2 =
      [.permission ⟨[1, 3, 1]⟩ default (.ok .denied),
        .permission ⟨[1, 3, 2]⟩ default (.ok .allowed),
        .read ⟨[1, 3, 2]⟩ (.ok (.integer 7))] := by
    rw [serve_eq, recorded, tasks_recast, tasks_guardedRequest]
    rfl
  rw [← hcalls, hserve]

end Scope

end Snmp.Mib
