/-
  Snmp/Proofs/CallRecord.lean
  ===========================
  **A record of the calls that serving makes.**

  Callbacks work on a state that a scope passes through and never looks into, so the state can
  carry a record.  The recorded form of a variable has the same callbacks, but each of them also
  notes that it was called, what it was given and what came of it.  A scope of recorded variables
  answers as the scope itself does and leaves the calls in the order in which they were made
  (`serve_recorded`): each task of the plan makes its own calls, all of them before the calls of
  the next task.
-/
import Snmp.Proofs.ExchangedCallbacks

namespace Snmp.Mib

variable {σ α β : Type}

/-- A call of a callback: whose it was, what it was given and what came of it. -/
inductive Call where
  | permission (oid : Oid) (context : RequestContext) (outcome : Except Mishap Permission)
  | read (oid : Oid) (outcome : Except Mishap Value)
  | write (oid : Oid) (value : Value) (outcome : Except Mishap Unit)
  | notify (oid : Oid) (isInform : Bool) (binding : Binding)
      (outcome : Except Mishap (Option Value))

namespace Call

/-- The name of the variable whose callback was called. -/
def oid : Call → Oid
  | .permission oid .. => oid
  | .read oid _ => oid
  | .write oid .. => oid
  | .notify oid .. => oid

/-- Whether the call was a permission check. -/
def isCheck : Call → Bool
  | .permission .. => true
  | _ => false

end Call

/-! ### Recorded scopes -/

/-- A callback that notes its call behind those noted before. -/
def record (callback : Callback σ α) (call : Except Mishap α → Call) :
    Callback (σ × List Call) α := fun (state, calls) =>
  let (outcome, after) := callback state
  (outcome, after, calls ++ [call outcome])

def Variable.recorded (v : Variable σ) : Variable (σ × List Call) where
  oid := v.oid
  type := v.type
  isHidden := v.isHidden
  document := v.document
  read? := v.read?.map fun callback => record callback (.read v.oid)
  write? := v.write?.map fun callback value => record (callback value) (.write v.oid value)
  permission? := v.permission?.map fun check context =>
    record (check context) (.permission v.oid context)
  notify? := v.notify?.map fun callback isInform binding =>
    record (callback isInform binding) (.notify v.oid isInform binding)

def recording : Recast σ (σ × List Call) where
  apply := Variable.recorded
  oid_apply _ := rfl
  isWalkable_apply v := by simp only [Variable.isWalkable, Variable.recorded, Option.isSome_map]

def Scope.recorded (scope : Scope σ) : Scope (σ × List Call) := scope.recast recording

/-! ### What is noted -/

/-- A recorded action does what the action does, and notes calls that go with its result. -/
def Records (action : StateM σ α) (recorded : StateM (σ × List Call) α)
    (P : List Call → α → Prop) : Prop :=
  ∀ state calls, ∃ noted,
    recorded (state, calls) = ((action state).1, (action state).2, calls ++ noted) ∧
      P noted (action state).1

namespace Records

variable {action : StateM σ α} {recorded : StateM (σ × List Call) α} {P : List Call → α → Prop}

theorem pure {a : α} (h : P [] a) : Records (Pure.pure a : StateM σ α) (Pure.pure a) P := by
  intro state calls
  refine ⟨[], ?_, h⟩
  rw [List.append_nil]
  rfl

/-- The calls of the next step are noted behind those of the first. -/
theorem bind {next : α → StateM σ β} {recordedNext : α → StateM (σ × List Call) β}
    {Q : List Call → β → Prop} (h : Records action recorded P)
    (k : ∀ noted a, P noted a →
      Records (next a) (recordedNext a) fun more b => Q (noted ++ more) b) :
    Records (action >>= next) (recorded >>= recordedNext) Q := by
  intro state calls
  obtain ⟨noted, hrun, hP⟩ := h state calls
  obtain ⟨more, hnext, hQ⟩ := k noted _ hP (action state).2 (calls ++ noted)
  refine ⟨noted ++ more, ?_, hQ⟩
  simp only [Bind.bind, StateT.bind, hrun, hnext, List.append_assoc]
  rfl

theorem mono {Q : List Call → α → Prop} (h : Records action recorded P)
    (himp : ∀ noted a, P noted a → Q noted a) : Records action recorded Q := by
  intro state calls
  obtain ⟨noted, hrun, hP⟩ := h state calls
  exact ⟨noted, hrun, himp _ _ hP⟩

end Records

namespace Variable

variable (v : Variable σ)

/-- The result that a callback's outcome is turned into. -/
def resultOf (outcome : Except Mishap α) : Except CallbackError α := outcome.mapError .ofMishap

theorem records_permit (context : RequestContext) :
    Records (v.permit context) (v.recorded.permit context) fun noted result =>
      (v.permission? = none ∧ noted = [] ∧ result = .ok .allowed) ∨
        ∃ outcome, noted = [.permission v.oid context outcome] ∧ result = resultOf outcome := by
  intro state calls
  simp only [permit, recorded]
  cases v.permission? with
  | none => exact ⟨[], by rw [List.append_nil]; rfl, .inl ⟨rfl, rfl, rfl⟩⟩
  | some check => exact ⟨_, rfl, .inr ⟨_, rfl, rfl⟩⟩

theorem records_read :
    Records v.read v.recorded.read fun noted result =>
      (noted = [] ∧ result = none) ∨
        ∃ outcome, noted = [.read v.oid outcome] ∧
          result = some ((resultOf outcome).bind v.checkType) := by
  intro state calls
  simp only [read, recorded]
  cases v.read? with
  | none => exact ⟨[], by rw [List.append_nil]; rfl, .inl ⟨rfl, rfl⟩⟩
  | some callback => exact ⟨_, rfl, .inr ⟨_, rfl, rfl⟩⟩

theorem records_write (value : Value) :
    Records (v.write value) (v.recorded.write value) fun noted result =>
      (noted = [] ∧ result = none) ∨
        ∃ outcome, noted = [.write v.oid value outcome] ∧ result = some (resultOf outcome) := by
  intro state calls
  simp only [write, recorded]
  cases v.write? with
  | none => exact ⟨[], by rw [List.append_nil]; rfl, .inl ⟨rfl, rfl⟩⟩
  | some callback => exact ⟨_, rfl, .inr ⟨_, rfl, rfl⟩⟩

theorem records_notify (isInform : Bool) (binding : Binding) :
    Records (v.notify isInform binding) (v.recorded.notify isInform binding) fun noted result =>
      (noted = [] ∧ result = none) ∨
        ∃ outcome, noted = [.notify v.oid isInform binding outcome] ∧
          result = some (resultOf outcome) := by
  intro state calls
  simp only [notify, recorded]
  cases v.notify? with
  | none => exact ⟨[], by rw [List.append_nil]; rfl, .inl ⟨rfl, rfl⟩⟩
  | some callback => exact ⟨_, rfl, .inr ⟨_, rfl, rfl⟩⟩

end Variable

/-! ### What a task notes -/

/-- A task, the calls that it took and the answer that it came to. -/
structure Exchange (σ : Type) where
  task : Task σ
  calls : List Call
  answer : Answer

namespace Scope

variable {scope : Scope σ} {context : RequestContext}

/-- What is noted of each task is noted of the plan, by induction on its tasks. -/
theorem records_mapM {P : Task σ → List Call → Answer → Prop} {tasks : List (Task σ)}
    (h : ∀ task ∈ tasks, Records (scope.perform context task)
      (scope.recorded.perform context (task.recast recording)) (P task)) :
    Records (tasks.mapM (scope.perform context))
      ((tasks.map (Task.recast recording)).mapM (scope.recorded.perform context))
      fun noted answers => ∃ exchanges : List (Exchange σ),
        exchanges.map (·.task) = tasks ∧ exchanges.map (·.answer) = answers ∧
          exchanges.flatMap (·.calls) = noted ∧ ∀ e ∈ exchanges, P e.task e.calls e.answer := by
  induction tasks with
  | nil => exact Records.pure ⟨[], rfl, rfl, rfl, by simp⟩
  | cons task rest ih =>
    rw [List.map_cons, List.mapM_cons, List.mapM_cons]
    refine Records.bind (h task List.mem_cons_self) ?_
    intro first answer hfirst
    refine Records.bind (ih fun other hother => h other (List.mem_cons_of_mem _ hother)) ?_
    rintro more answers ⟨exchanges, htasks, hanswers, hcalls, hall⟩
    refine Records.pure ⟨⟨task, first, answer⟩ :: exchanges, ?_, ?_, ?_, ?_⟩
    · rw [List.map_cons, htasks]
    · rw [List.map_cons, hanswers]
    · rw [List.flatMap_cons, hcalls, List.append_nil]
    · intro e he
      rcases List.mem_cons.1 he with rfl | he
      · exact hfirst
      · exact hall e he

/-- A recorded scope serves as the scope does, and its record is what its tasks have noted. -/
theorem serve_recorded {P : Task σ → List Call → Answer → Prop} (pdu : Pdu)
    (h : ∀ task, Records (scope.perform context task)
      (scope.recorded.perform context (task.recast recording)) (P task)) (state : σ) :
    ∃ exchanges : List (Exchange σ), exchanges.map (·.task) = scope.tasks pdu ∧
      scope.recorded.serve context pdu (state, []) =
        ((scope.serve context pdu state).1, (scope.serve context pdu state).2,
          exchanges.flatMap (·.calls)) ∧
      (scope.serve context pdu state).1 = conclude pdu (exchanges.map (·.answer)) ∧
      ∀ e ∈ exchanges, P e.task e.calls e.answer := by
  have hplan : Records (scope.serve context pdu) (scope.recorded.serve context pdu)
      fun noted served => ∃ exchanges : List (Exchange σ),
        exchanges.map (·.task) = scope.tasks pdu ∧
          served = conclude pdu (exchanges.map (·.answer)) ∧
          exchanges.flatMap (·.calls) = noted ∧ ∀ e ∈ exchanges, P e.task e.calls e.answer := by
    rw [serve_eq, serve_eq, recorded, tasks_recast]
    refine Records.bind (records_mapM fun task _ => h task) ?_
    rintro noted answers ⟨exchanges, htasks, hanswers, hcalls, hall⟩
    refine Records.pure ⟨exchanges, htasks, ?_, ?_, hall⟩
    · rw [hanswers]
    · rw [hcalls, List.append_nil]
  obtain ⟨noted, hserve, exchanges, htasks, hserved, hcalls, hall⟩ := hplan state []
  exact ⟨exchanges, htasks, by rw [hserve, hcalls, List.nil_append], hserved, hall⟩

end Scope

end Snmp.Mib
