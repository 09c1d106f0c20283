/-
  Snmp/Proofs/SetEffects.lean
  ===========================
  **A Set request writes what is admitted, and acknowledges what was written.**

  A binding is admitted in the state that the bindings before it have left: its name is
  registered, the check allows the request, there is a callback to write the variable, and the
  value is of the declared type.  Serving a Set request calls the write callbacks for the
  admitted bindings, in the order of the request and once each, whatever comes of the calls.
  The state that is left is the one to which the callbacks have led one after the other, so a
  write that fails undoes nothing and prevents nothing.  The response echoes a binding if its
  write succeeded, and otherwise has the value that stands for the reason
  (`serve_set_writes`).  These cannot be told apart where a request submits such a value.
-/
import Mathlib.Data.List.Forall2
import Snmp.Proofs.TurnServing

namespace Snmp.Mib

variable {σ : Type}

/-! ### What is admitted -/

namespace Variable

variable (v : Variable σ) (context : RequestContext)

/-- Whether a value is written to a variable that the request may have. -/
def accepts (value : Value) : Bool := v.isWritable && value.type? = some v.type

/-- The state that the write of a value leaves. -/
def writeEffect (value : Value) (state : σ) : σ :=
  match v.write? with
  | some callback => if value.type? = some v.type then (callback value state).2 else state
  | none => state

end Variable

namespace Scope

variable (scope : Scope σ) (context : RequestContext)

/-- Whether a binding is written in a state. -/
def admits (state : σ) (binding : Binding) : Bool :=
  (scope.registered? binding.oid).any fun v =>
    v.allows context state && v.accepts binding.value

/-- The state that a binding of a Set request leaves: that of the check, and of the write if it
    is allowed. -/
def setEffect (state : σ) (binding : Binding) : σ :=
  match scope.registered? binding.oid with
  | none => state
  | some v =>
    let checked := (v.check context state).2
    if v.allows context state then v.writeEffect binding.value checked else checked

end Scope

/-! ### What is acknowledged -/

/-- The binding that a call writes. -/
def Call.written? : Call → Option Binding
  | .write oid value _ => some ⟨oid, value⟩
  | _ => none

/-- The write of the binding was called, and succeeded. -/
def BindingTurn.Succeeded (t : BindingTurn σ) : Prop :=
  Call.write t.binding.oid t.binding.value (.ok ()) ∈ t.calls

/-- The value that stands for the reason why a binding was not written. -/
inductive Scope.Refuses (scope : Scope σ) (context : RequestContext) (t : BindingTurn σ) :
    Value → Prop
  | unknown : scope.registered? t.binding.oid = none → Refuses scope context t .noSuchInstance
  | denied : .permission t.binding.oid context (.ok .denied) ∈ t.calls →
      Refuses scope context t .null
  | unwritable {v : Variable σ} : scope.registered? t.binding.oid = some v →
      v.allows context t.before = true → v.isWritable = false → Refuses scope context t .null
  | mistyped {v : Variable σ} : scope.registered? t.binding.oid = some v →
      v.allows context t.before = true → v.isWritable = true →
      t.binding.value.type? ≠ some v.type → Refuses scope context t .null
  | checkFailed {mishap : Mishap} :
      .permission t.binding.oid context (.error mishap) ∈ t.calls →
      Refuses scope context t (CallbackError.ofMishap mishap).toValue
  | writeFailed {mishap : Mishap} :
      .write t.binding.oid t.binding.value (.error mishap) ∈ t.calls →
      Refuses scope context t (CallbackError.ofMishap mishap).toValue

/-- The values that stand for what was not written. -/
def IsSubstitute (value : Value) : Prop :=
  value = .noSuchInstance ∨ value = .null ∨ ∃ error : CallbackError, value = error.toValue

theorem Scope.Refuses.isSubstitute {scope : Scope σ} {context : RequestContext} {t : BindingTurn σ}
    {value : Value} (h : scope.Refuses context t value) : IsSubstitute value := by
  cases h with
  | unknown => exact .inl rfl
  | denied => exact .inr (.inl rfl)
  | unwritable => exact .inr (.inl rfl)
  | mistyped => exact .inr (.inl rfl)
  | checkFailed => exact .inr (.inr ⟨_, rfl⟩)
  | writeFailed => exact .inr (.inr ⟨_, rfl⟩)

/-- How the response acknowledges a binding of a Set request. -/
structure Scope.Acknowledges (scope : Scope σ) (context : RequestContext) (t : BindingTurn σ)
    (answer : Binding) : Prop where
  oid : answer.oid = t.binding.oid
  echoed : t.Succeeded → answer = t.binding
  refused : ¬t.Succeeded → scope.Refuses context t answer.value
  /-- A value that stands for nothing else is echoed only if it was written. -/
  exact : ¬IsSubstitute t.binding.value → (answer = t.binding ↔ t.Succeeded)

/-! ### Turns of a Set request -/

section Turns

variable {scope : Scope σ} {context : RequestContext} {v : Variable σ} {value : Value}
  {state after : σ} {calls : List Call} {fate : Fate}

/-- A write is called exactly if the value is accepted. -/
theorem Variable.Meets.filterMap_written? (h : v.Meets state (.write value) calls fate after) :
    calls.filterMap Call.written? = if v.accepts value then [⟨v.oid, value⟩] else [] := by
  cases h with
  | unwritable hwrite =>
    have hrefused : v.accepts value = false := by
      simp only [accepts, isWritable, hwrite, Option.isSome_none, Bool.false_and]
    rw [hrefused]
    rfl
  | mistyped hwrite htype =>
    have hrefused : v.accepts value = false := by
      simp only [accepts, decide_eq_false htype, Bool.and_false]
    rw [hrefused]
    rfl
  | write hwrite htype =>
    have haccepted : v.accepts value = true := by
      simp only [accepts, isWritable, hwrite, Option.isSome_some, decide_eq_true htype,
        Bool.and_true]
    rw [haccepted]
    rfl

theorem Variable.Meets.after_eq_writeEffect
    (h : v.Meets state (.write value) calls fate after) : after = v.writeEffect value state := by
  cases h with
  | unwritable hwrite => simp only [writeEffect, hwrite]
  | mistyped hwrite htype => simp only [writeEffect, hwrite, if_neg htype]
  | write hwrite htype hrun => simp only [writeEffect, hwrite, if_pos htype, hrun]

/-- Checks write nothing. -/
theorem filterMap_written?_of_isCheck {asked : List Call}
    (h : ∀ call ∈ asked, call.isCheck = true) : asked.filterMap Call.written? = [] := by
  rw [List.filterMap_eq_nil_iff]
  intro call hcall
  have hcheck := h call hcall
  cases call with
  | permission => rfl
  | read => rfl
  | write => exact absurd hcheck Bool.false_ne_true
  | notify => rfl

end Turns

namespace Scope

variable {scope : Scope σ} {context : RequestContext} {binding : Binding}
  {state after : σ} {calls : List Call} {fate : Fate} {turns : List (BindingTurn σ)}

/-- In its turn, a binding is written exactly if it is admitted. -/
theorem Befalls.filterMap_written?
    (h : scope.Befalls context .setRequest binding state calls fate after) :
    calls.filterMap Call.written? =
      if scope.admits context state binding then [binding] else [] := by
  cases hfound : scope.registered? binding.oid with
  | none =>
    obtain ⟨rfl, -, -⟩ := h.of_unfound ((scope.wanted?_of_ne_next (by decide) _).trans hfound)
    simp only [admits, hfound, Option.any_none]
    rfl
  | some v =>
    have hfaces := h.of_found ((scope.wanted?_of_ne_next (by decide) _).trans hfound)
    have hoid : v.oid = binding.oid := oid_of_registered? hfound
    simp only [admits, hfound, Option.any_some]
    rcases hfaces.allowed_or_stopped with
      ⟨asked, rest, rfl, hasked, hallows, hmeets⟩ | ⟨hallows, -, ⟨rfl, -⟩ | ⟨mishap, rfl, -⟩⟩
    · rw [List.filterMap_append, filterMap_written?_of_isCheck hasked, hallows, Bool.true_and,
        List.nil_append, hmeets.filterMap_written?, hoid]
    · rw [hallows]
      rfl
    · rw [hallows]
      rfl

theorem Befalls.after_eq_setEffect
    (h : scope.Befalls context .setRequest binding state calls fate after) :
    after = scope.setEffect context state binding := by
  cases hfound : scope.registered? binding.oid with
  | none =>
    obtain ⟨-, -, rfl⟩ := h.of_unfound ((scope.wanted?_of_ne_next (by decide) _).trans hfound)
    simp only [setEffect, hfound]
  | some v =>
    have hfaces := h.of_found ((scope.wanted?_of_ne_next (by decide) _).trans hfound)
    simp only [setEffect, hfound]
    rcases hfaces.allowed_or_stopped with ⟨_, _, -, -, hallows, hmeets⟩ | ⟨hallows, hafter, -⟩
    · rw [if_pos hallows]
      exact hmeets.after_eq_writeEffect
    · rw [if_neg (Bool.eq_false_iff.1 hallows)]
      exact hafter

/-- If a variable is met, the write that it is called for decides. -/
theorem acknowledged_of_meets {t : BindingTurn σ} {v : Variable σ} {checked : σ}
    {asked rest : List Call} (hfound : scope.registered? t.binding.oid = some v)
    (hcalls : t.calls = asked ++ rest)
    (hasked : ∀ call ∈ asked, call.isCheck = true) (hallows : v.allows context t.before = true)
    (hmeets : v.Meets checked (.write t.binding.value) rest t.fate t.after) :
    (t.Succeeded ∧ t.fate.value = t.binding.value) ∨
      (¬t.Succeeded ∧ scope.Refuses context t t.fate.value) := by
  have hoid : v.oid = t.binding.oid := oid_of_registered? hfound
  have hsucceeded : t.Succeeded ↔ .write t.binding.oid t.binding.value (.ok ()) ∈ rest := by
    rw [BindingTurn.Succeeded, hcalls, Call.mem_append_of_isCheck hasked rfl]
  rw [hsucceeded]
  generalize hfate : t.fate = fate at hmeets
  cases hmeets with
  | unwritable hwrite =>
    have hwritable : v.isWritable = false := by
      rw [Variable.isWritable, hwrite, Option.isSome_none]
    exact .inr ⟨List.not_mem_nil, .unwritable hfound hallows hwritable⟩
  | mistyped hwrite htype =>
    have hwritable : v.isWritable = true := by
      rw [Variable.isWritable, hwrite, Option.isSome_some]
    exact .inr ⟨List.not_mem_nil, .mistyped hfound hallows hwritable htype⟩
  | @write _ _ outcome _ _ _ hrun =>
    rw [hoid] at hcalls ⊢
    rcases outcome with mishap | ⟨⟩
    · have hmem : .write t.binding.oid t.binding.value (.error mishap) ∈ t.calls := by
        rw [hcalls]
        exact List.mem_append_right _ List.mem_cons_self
      refine .inr ⟨fun h => ?_, .writeFailed hmem⟩
      cases List.mem_singleton.1 h
    · exact .inl ⟨List.mem_cons_self, rfl⟩

theorem Befalls.acknowledged {t : BindingTurn σ}
    (h : scope.Befalls context .setRequest t.binding t.before t.calls t.fate t.after) :
    (t.Succeeded ∧ t.fate.value = t.binding.value) ∨
      (¬t.Succeeded ∧ scope.Refuses context t t.fate.value) := by
  cases hfound : scope.registered? t.binding.oid with
  | none =>
    obtain ⟨hcalls, hfate, -⟩ :=
      h.of_unfound ((scope.wanted?_of_ne_next (by decide) _).trans hfound)
    refine .inr ⟨?_, ?_⟩
    · rw [BindingTurn.Succeeded, hcalls]
      exact List.not_mem_nil
    · rw [hfate]
      exact .unknown hfound
  | some v =>
    have hfaces := h.of_found ((scope.wanted?_of_ne_next (by decide) _).trans hfound)
    have hoid : v.oid = t.binding.oid := oid_of_registered? hfound
    rcases hfaces.allowed_or_stopped with ⟨asked, rest, hcalls, hasked, hallows, hmeets⟩ |
      ⟨-, -, ⟨hcalls, hfate⟩ | ⟨mishap, hcalls, hfate⟩⟩
    · exact acknowledged_of_meets hfound hcalls hasked hallows hmeets
    · refine .inr ⟨?_, ?_⟩
      · rw [BindingTurn.Succeeded, hcalls, List.mem_singleton]
        exact Call.noConfusion
      · have hmem : .permission t.binding.oid context (.ok .denied) ∈ t.calls := by
          rw [hcalls, hoid]
          exact List.mem_cons_self
        rw [hfate]
        exact .denied hmem
    · refine .inr ⟨?_, ?_⟩
      · rw [BindingTurn.Succeeded, hcalls, List.mem_singleton]
        exact Call.noConfusion
      · have hmem : .permission t.binding.oid context (.error mishap) ∈ t.calls := by
          rw [hcalls, hoid]
          exact List.mem_cons_self
        rw [hfate]
        exact .checkFailed hmem

/-- The answer to a binding echoes it if its write succeeded, and tells the reason if not. -/
theorem Befalls.acknowledges {t : BindingTurn σ}
    (h : scope.Befalls context .setRequest t.binding t.before t.calls t.fate t.after) :
    scope.Acknowledges context t ⟨t.binding.oid, t.fate.value⟩ := by
  rcases h.acknowledged with ⟨hsucceeded, hvalue⟩ | ⟨hfailed, hrefused⟩
  · have hechoed : (⟨t.binding.oid, t.fate.value⟩ : Binding) = t.binding := by rw [hvalue]
    exact ⟨rfl, fun _ => hechoed, fun h => absurd hsucceeded h,
      fun _ => ⟨fun _ => hsucceeded, fun _ => hechoed⟩⟩
  · refine ⟨rfl, fun h => absurd h hfailed, fun _ => hrefused, fun hvalue => ?_⟩
    refine ⟨fun heq => absurd ?_ hvalue, fun h => absurd h hfailed⟩
    have hanswer : t.fate.value = t.binding.value := congrArg Binding.value heq
    exact hanswer ▸ hrefused.isSubstitute

/-! ### Runs of a Set request -/

/-- A run begins with a run of its first turns. -/
theorem Run.before {type : PduType} {earlier later : List (BindingTurn σ)} {t : BindingTurn σ}
    (h : scope.Run context type state (earlier ++ t :: later) after) :
    scope.Run context type state earlier t.before := by
  induction earlier generalizing state with
  | nil =>
    cases h with
    | turn => exact .done
  | cons first rest ih =>
    cases h with
    | turn hbefalls hrun => exact .turn hbefalls (ih hrun)

/-- The writes of a run are those of its turns, by induction on the run. -/
theorem Run.filterMap_written? (h : scope.Run context .setRequest state turns after) :
    (turns.flatMap (·.calls)).filterMap Call.written? =
      (turns.filter fun t => scope.admits context t.before t.binding).map (·.binding) := by
  induction h with
  | done => rfl
  | @turn t rest last hbefalls hrun ih =>
    rw [List.flatMap_cons, List.filterMap_append, hbefalls.filterMap_written?, ih,
      List.filter_cons]
    by_cases hadmits : scope.admits context t.before t.binding
    · rw [if_pos hadmits, if_pos hadmits]
      rfl
    · rw [if_neg hadmits, if_neg hadmits]
      rfl

/-- The state is handed on from turn to turn, by induction on the run. -/
theorem Run.after_eq_foldl (h : scope.Run context .setRequest state turns after) :
    after = (turns.map (·.binding)).foldl (scope.setEffect context) state := by
  induction h with
  | done => rfl
  | turn hbefalls hrun ih =>
    rw [List.map_cons, List.foldl_cons, ← hbefalls.after_eq_setEffect]
    exact ih

/-- What the calls, the state and the response of a Set request come to, given the turns of its
    bindings. -/
structure WritesAsAdmitted (scope : Scope σ) (context : RequestContext) (state : σ)
    (turns : List (BindingTurn σ)) (calls : List Call) (after : σ) (response : Pdu) : Prop where
  /-- The bindings that are admitted are written, in their order and once each. -/
  written : calls.filterMap Call.written? =
    (turns.filter fun t => scope.admits context t.before t.binding).map (·.binding)
  /-- A turn begins in the state to which those before it have led, whether or not they were
      successful. -/
  before : ∀ earlier t later, turns = earlier ++ t :: later →
    t.before = (earlier.map (·.binding)).foldl (scope.setEffect context) state
  /-- Nothing is undone in the end. -/
  after_eq : after = (turns.map (·.binding)).foldl (scope.setEffect context) state
  acknowledged : List.Forall₂ (scope.Acknowledges context) turns response.bindings

/-- A Set request writes what is admitted, whatever comes of the writes, and acknowledges what
    was written. -/
theorem serve_set_writes (scope : Scope σ) (context : RequestContext) {pdu : Pdu}
    (htype : pdu.type = .setRequest) (state : σ) :
    ∃ turns calls after response, scope.Run context .setRequest state turns after ∧
      turns.map (·.binding) = pdu.bindings ∧
      scope.serve context pdu state = (.ok (some response), after) ∧
      scope.recorded.serve context pdu (state, []) = (.ok (some response), after, calls) ∧
      scope.WritesAsAdmitted context state turns calls after response := by
  obtain ⟨turns, after, hrun, hbindings⟩ := scope.exists_run context pdu.type pdu.bindings state
  have hitemwise : isItemwise pdu.type = true := by rw [htype]; rfl
  have hrequest : isRequest pdu.type = true := by rw [htype]; rfl
  have hserve := hrun.serve_eq hitemwise hbindings
  have hrecorded := hrun.recorded_serve_eq hitemwise hbindings
  rw [conclude_of_isRequest hrequest] at hserve hrecorded
  have hanswers : (Response.toPdu ⟨turns.mapIdx (scope.turnAnswer pdu.type)⟩ pdu).bindings =
      turns.map fun t => ⟨t.binding.oid, t.fate.value⟩ := by
    rw [Response.bindings_toPdu, bindings_turnAnswer, htype]
    exact List.map_congr_left fun t _ => by rw [nameFor_of_ne_next scope (by decide)]
  rw [htype] at hrun
  refine ⟨turns, turns.flatMap (·.calls), after, _, hrun, hbindings, hserve, hrecorded, ?_⟩
  refine ⟨hrun.filterMap_written?, ?_, hrun.after_eq_foldl, ?_⟩
  · rintro earlier t later rfl
    exact hrun.before.after_eq_foldl
  · rw [hanswers, List.forall₂_map_right_iff, List.forall₂_same]
    exact fun t ht => (hrun.befalls t ht).acknowledges

/-- A scope on a journal of the values that were written: the write of the second variable puts
    its value down and fails, the third may not be written, and the fourth cannot. -/
def journalScope : Scope (List Value) where
  registry := {
    entries := #[
      { oid := ⟨[1, 3, 1]⟩, type := .integer,
        write? := some fun value journal => (.ok (), journal ++ [value]) },
      { oid := ⟨[1, 3, 2]⟩, type := .integer,
        write? := some fun value journal => (.error (.failed "busy"), journal ++ [value]) },
      { oid := ⟨[1, 3, 3]⟩, type := .integer,
        write? := some fun value journal => (.ok (), journal ++ [value]),
        permission? := some fun _ journal => (.ok .denied, journal) },
      { oid := ⟨[1, 3, 4]⟩, type := .integer }]
    ascending := by decide }

def journalSet : Pdu where
  type := .setRequest
  requestId := 3
  bindings := [⟨⟨[1, 3, 1]⟩, .integer 1⟩, ⟨⟨[1, 3, 2]⟩, .integer 2⟩, ⟨⟨[1, 3, 3]⟩, .integer 3⟩,
    ⟨⟨[1, 3, 4]⟩, .integer 4⟩, ⟨⟨[1, 3, 5]⟩, .integer 5⟩, ⟨⟨[1, 3, 1]⟩, .null⟩,
    ⟨⟨[1, 3, 1]⟩, .integer 7⟩]

/-- The write that fails leaves its value behind, and the last binding is written after all. -/
theorem serve_set_writes_journalSet :
    journalSet.type = .setRequest ∧
      ∃ turns calls after response, journalScope.Run default .setRequest [] turns after ∧
        journalScope.recorded.serve default journalSet ([], []) =
          (.ok (some response), after, calls) ∧
        journalScope.WritesAsAdmitted default [] turns calls after response ∧
        after = [.integer 1, .integer 2, .integer 7] ∧
        calls.filterMap Call.written? = [⟨⟨[1, 3, 1]⟩, .integer 1⟩, ⟨⟨[1, 3, 2]⟩, .integer 2⟩,
          ⟨⟨[1, 3, 1]⟩, .integer 7⟩] ∧
        response.bindings.map (·.value) = [.integer 1, .ofText "ERROR: busy", .null, .null,
          .noSuchInstance, .null, .integer 7] := by
  have htype : journalSet.type = .setRequest := rfl
  obtain ⟨turns, calls, after, response, hrun, -, -, hrecorded, hwrites⟩ :=
    serve_set_writes journalScope default htype []
  have hleft : (journalScope.recorded.serve default journalSet ([], [])).2.1 =
      [.integer 1, .integer 2, .integer 7] := by decide +kernel
  have hcalls : (journalScope.recorded.serve default journalSet ([], [])).2.2.filterMap
      Call.written? = [⟨⟨[1, 3, 1]⟩, .integer 1⟩, ⟨⟨[1, 3, 2]⟩, .integer 2⟩,
        ⟨⟨[1, 3, 1]⟩, .integer 7⟩] := by decide +kernel
  have hvalues : ((journalScope.recorded.serve default journalSet ([], [])).1.toOption.join.map
      fun response => response.bindings.map (·.value)) = some [.integer 1, .ofText "ERROR: busy",
        .null, .null, .noSuchInstance, .null, .integer 7] := by decide +kernel
  rw [hrecorded] at hleft hcalls hvalues
  exact ⟨htype, turns, calls, after, response, hrun, hrecorded, hwrites, hleft, hcalls,
    Option.some.inj hvalues⟩

/-- A variable that is busy whenever it is written. -/
def busyVariable : Variable Unit where
  oid := ⟨[1, 3, 1]⟩
  type := .octetString
  write? := some fun _ state => (.error (.failed "busy"), state)

def busyScope : Scope Unit where
  registry := ⟨#[busyVariable], by decide⟩

def busySet : Pdu where
  type := .setRequest
  requestId := 1
  bindings := [⟨⟨[1, 3, 1]⟩, .ofText "ERROR: busy"⟩]

def busyTurn : BindingTurn Unit where
  binding := ⟨⟨[1, 3, 1]⟩, .ofText "ERROR: busy"⟩
  before := ()
  calls := [.write ⟨[1, 3, 1]⟩ (.ofText "ERROR: busy") (.error (.failed "busy"))]
  fate := .ofWrite (.ofText "ERROR: busy") (.error (.failed "busy"))
  after := ()

/-- The value that is written is the one that stands for the failure: the write fails, and the
    response echoes the binding without an error. -/
theorem busySet_echoed :
    busyScope.Run default .setRequest () [busyTurn] () ∧ ¬busyTurn.Succeeded ∧
      ∃ response, busyScope.serve default busySet () = (.ok (some response), ()) ∧
        response.bindings = busySet.bindings ∧ response.errorStatus = 0 := by
  have hmeets : busyVariable.Meets () (.write (.ofText "ERROR: busy")) busyTurn.calls
      busyTurn.fate () := .write rfl rfl rfl
  have hrun : busyScope.Run default .setRequest () [busyTurn] () :=
    .turn (.found rfl (.unguarded rfl hmeets)) .done
  have hfailed : ¬busyTurn.Succeeded := by
    intro hsucceeded
    cases List.mem_singleton.1 hsucceeded
  exact ⟨hrun, hfailed, _, hrun.serve_eq rfl rfl, rfl, rfl⟩

end Scope

end Snmp.Mib
