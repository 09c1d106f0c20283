/-
  Snmp/Proofs/BulkWalk.lean
  =========================
  **GetBulk by way of GetNext.**

  The reference for a GetBulk request (`bulkByNext`) knows of no walk: it asks for the next
  identifier again and again, looks at the answers only, and tells the end of a walk unless the
  response so far already tells it for the same identifier.

  Two facts connect it with what a scope computes.  Stepping from answer to answer comes to the
  entries that stepping from index to index comes to (`reached_eq_stepIndex`), because an answer
  always names the variable that it is for; and no variable is ever answered with the marker
  that tells an end (`names_answerRead`), so the answers so far are enough to know which ends
  were told.
-/
import Snmp.Mib.Scope
import Snmp.Proofs.RegistryWalk
import Snmp.Proofs.Results

namespace Snmp.Mib

variable {σ : Type}

/-! ### Callbacks without effects -/

/-- A variable whose reads and permission checks leave the state as it is. -/
structure Variable.Pure (v : Variable σ) : Prop where
  read : ∀ callback, v.read? = some callback → ∀ state, (callback state).2 = state
  permission : ∀ check, v.permission? = some check →
    ∀ context state, (check context state).2 = state

def Scope.Pure (scope : Scope σ) : Prop := ∀ v ∈ scope.registry.entries, v.Pure

namespace Variable

variable {v : Variable σ}

theorem Pure.permit (h : v.Pure) (context : RequestContext) (state : σ) :
    (v.permit context state).2 = state := by
  rw [Variable.permit]
  cases hcheck : v.permission? with
  | none => rfl
  | some check => exact h.permission check hcheck context state

theorem Pure.read_state (h : v.Pure) (state : σ) : (v.read state).2 = state := by
  rw [Variable.read]
  cases hread : v.read? with
  | none => rfl
  | some callback => exact h.read callback hread state

theorem type_of_read {state : σ} {value : Value} (h : (v.read state).1 = some (.ok value)) :
    value.type? = some v.type := by
  rw [Variable.read] at h
  cases hread : v.read? with
  | none =>
    rw [hread] at h
    cases h
  | some callback =>
    rw [hread] at h
    rcases Except.bind_eq_ok (Option.some.inj h) with ⟨found, _, hcheck⟩
    rw [checkType] at hcheck
    split at hcheck
    · cases hcheck
      assumption
    · contradiction

end Variable

namespace Scope

/-! ### The reference -/

/-- The answer that a GetNext request gets for an identifier. -/
def nextAnswer (scope : Scope σ) (context : RequestContext) (state : σ) (place : Nat)
    (oid : Oid) : Answer := (scope.answerNext context place (.unset oid) state).1

def saysEnd (answer : Answer) : Bool := answer.binding.value = .endOfMibView

/-- The identifier that `count` GetNext requests in a row come to. -/
def stepOid (scope : Scope σ) (context : RequestContext) (state : σ) : (count : Nat) → Oid →
    Option Oid
  | 0, oid => some oid
  | count + 1, oid => do
    let reached ← scope.stepOid context state count oid
    let answer := scope.nextAnswer context state 0 reached
    if saysEnd answer then none else some answer.binding.oid

/-- The answer of a repetition to a binding: that of GetNext to the identifier that the
    repetitions before have come to, unless the walk has ended. -/
def repetitionAnswer? (scope : Scope σ) (context : RequestContext) (state : σ)
    (repetition place : Nat) (oid : Oid) : Option Answer := do
  let reached ← scope.stepOid context state repetition oid
  let answer := scope.nextAnswer context state place reached
  if saysEnd answer then none else some answer

/-- The answers so far and the one of a repetition to a binding.  The end of a walk is told with
    the identifier that was asked for, and once for each identifier. -/
def emit (scope : Scope σ) (context : RequestContext) (state : σ) (repetition : Nat)
    (answers : List Answer) (repeater : Nat × Oid) : List Answer :=
  match scope.repetitionAnswer? context state repetition repeater.1 repeater.2 with
  | some answer => answers ++ [answer]
  | none =>
    if ⟨repeater.2, .endOfMibView⟩ ∈ answers.map (·.binding) then answers
    else answers ++ [endOfWalk repeater.1 repeater.2]

/-- The places and identifiers of bindings from `place` on. -/
def placed : (place : Nat) → List Binding → List (Nat × Oid)
  | _, [] => []
  | place, binding :: rest => (place, binding.oid) :: placed (place + 1) rest

def singleAnswers (scope : Scope σ) (context : RequestContext) (state : σ) (pdu : Pdu) :
    List Answer :=
  (placed 0 (pdu.bindings.take pdu.nonRepeaters)).map fun single =>
    scope.nextAnswer context state single.1 single.2

/-- The answers to a GetBulk request, put together from answers to GetNext requests. -/
def bulkByNext (scope : Scope σ) (context : RequestContext) (state : σ) (pdu : Pdu) :
    List Answer :=
  let singles := pdu.bindings.take pdu.nonRepeaters
  let repeaters := placed singles.length (pdu.bindings.drop pdu.nonRepeaters)
  (List.range pdu.maxRepetitions).foldl
    (fun answers repetition => repeaters.foldl (scope.emit context state repetition) answers)
    (scope.singleAnswers context state pdu)

/-! ### Answers without effects -/

theorem ifPermitted_state {scope : Scope σ} {v : Variable σ} (h : v.Pure)
    (context : RequestContext) (place : Nat) {action : StateM σ Answer} (state : σ)
    (haction : (action state).2 = state) :
    (scope.ifPermitted context place v action state).2 = state := by
  obtain ⟨permission, hpermit⟩ : ∃ permission, v.permit context state = (permission, state) :=
    ⟨_, Prod.ext rfl (h.permit context state)⟩
  simp only [ifPermitted, bind, StateT.bind, hpermit]
  rcases permission with error | _ | _
  · rfl
  · exact haction
  · rfl

theorem answerRead_state {scope : Scope σ} {v : Variable σ} (h : v.Pure)
    (context : RequestContext) (place : Nat) (state : σ) :
    (scope.answerRead context place v state).2 = state := by
  apply ifPermitted_state h
  obtain ⟨result, hread⟩ : ∃ result, v.read state = (result, state) :=
    ⟨_, Prod.ext rfl (h.read_state state)⟩
  simp only [bind, StateT.bind, hread]
  rcases result with _ | error | value
  · rfl
  · rfl
  · rfl

/-- What holds of a refusal, of a substitute and of whatever the action answers holds of the
    answer. -/
theorem ifPermitted_answer {scope : Scope σ} {context : RequestContext} {place : Nat}
    {v : Variable σ} {action : StateM σ Answer} {P : Answer → Prop}
    (hrefuse : ∀ status, P (refuse place v.oid status))
    (hsubstitute : ∀ error, P (scope.substitute place v.oid error))
    (haction : ∀ state, P (action state).1) (state : σ) :
    P (scope.ifPermitted context place v action state).1 := by
  simp only [ifPermitted, bind, StateT.bind]
  obtain ⟨permission, permitted⟩ := v.permit context state
  rcases permission with error | _ | _
  · exact hsubstitute error
  · exact haction permitted
  · exact hrefuse .noAccess

/-- An answer for a variable in a place: it names the variable, and does not say that a walk has
    ended. -/
structure Names (answer : Answer) (place : Nat) (v : Variable σ) : Prop where
  place : answer.place = place
  oid : answer.binding.oid = v.oid
  value : answer.binding.value ≠ .endOfMibView

theorem names_refuse (place : Nat) (v : Variable σ) (status : ErrorStatus) :
    Names (refuse place v.oid status) place v :=
  ⟨rfl, rfl, by simp [refuse, Binding.unset]⟩

theorem names_substitute (scope : Scope σ) (place : Nat) (v : Variable σ)
    (error : CallbackError) : Names (scope.substitute place v.oid error) place v :=
  ⟨rfl, rfl, by simp [substitute, CallbackError.toValue, Value.ofText]⟩

/-- A value that was read has the declared type, which no marker has. -/
theorem names_answerRead (scope : Scope σ) (context : RequestContext) (place : Nat)
    (v : Variable σ) (state : σ) :
    Names (scope.answerRead context place v state).1 place v := by
  apply ifPermitted_answer (P := fun answer => Names answer place v) (names_refuse place v)
    (names_substitute scope place v)
  intro permitted
  simp only [bind, StateT.bind]
  cases hread : v.read permitted with
  | mk result left =>
    rcases result with _ | error | value
    · exact names_refuse place v _
    · exact names_substitute scope place v error
    · have htype := Variable.type_of_read (congrArg Prod.fst hread)
      refine ⟨rfl, rfl, ?_⟩
      rintro (hend : value = .endOfMibView)
      rw [hend] at htype
      contradiction

/-! ### Stepping -/

section Stepping

variable (scope : Scope σ) (context : RequestContext) (state : σ)

theorem nextAnswer_of_some {oid : Oid} {v : Variable σ}
    (h : scope.registry.nextVariable? oid = some v) (place : Nat) :
    scope.nextAnswer context state place oid = (scope.answerRead context place v state).1 := by
  simp only [nextAnswer, answerNext, Binding.unset, h]

theorem nextAnswer_of_none {oid : Oid} (h : scope.registry.nextVariable? oid = none)
    (place : Nat) : scope.nextAnswer context state place oid = endOfWalk place oid := by
  simp only [nextAnswer, answerNext, Binding.unset, h]
  rfl

theorem saysEnd_nextAnswer (place : Nat) (oid : Oid) :
    saysEnd (scope.nextAnswer context state place oid) =
      (scope.registry.nextVariable? oid).isNone := by
  cases h : scope.registry.nextVariable? oid with
  | none => rw [nextAnswer_of_none scope context state h]; rfl
  | some v =>
    rw [nextAnswer_of_some scope context state h, saysEnd, Option.isNone_some,
      decide_eq_false_iff_not]
    exact (names_answerRead scope context place v state).value

/-- A GetNext request for a single identifier is answered with `nextAnswer`. -/
theorem serve_getNext (requestId : Int32) (oid : Oid) :
    let request : Pdu := ⟨.getNextRequest, requestId, 0, 0, [.unset oid]⟩
    (scope.serve context request state).1 =
      .ok (some (Response.toPdu ⟨[scope.nextAnswer context state 0 oid]⟩ request)) := rfl

/-- The variable that `count + 1` steps come to. -/
def reached (count : Nat) (oid : Oid) : Option (Variable σ) :=
  (scope.stepOid context state count oid).bind scope.registry.nextVariable?

theorem stepOid_succ (count : Nat) (oid : Oid) :
    scope.stepOid context state (count + 1) oid =
      (scope.reached context state count oid).map (·.oid) := by
  rw [stepOid, reached]
  cases scope.stepOid context state count oid with
  | none => rfl
  | some current =>
    change (if saysEnd _ then none else some _) = _
    rw [saysEnd_nextAnswer]
    cases h : scope.registry.nextVariable? current with
    | none => simp [h]
    | some v =>
      simp [h, nextAnswer_of_some scope context state h,
        (names_answerRead scope context 0 v state).oid]

/-- Stepping by identifiers comes to the entries that stepping by indices comes to. -/
theorem reached_eq_stepIndex (count : Nat) (oid : Oid) :
    scope.reached context state count oid =
      (scope.registry.stepIndex count (scope.registry.next oid)).bind
        (scope.registry.entries[·]?) := by
  induction count with
  | zero => rfl
  | succ count ih =>
    rw [reached, stepOid_succ, ih, Registry.stepIndex]
    cases hindex : scope.registry.stepIndex count (scope.registry.next oid) with
    | none => rfl
    | some i =>
      have hi := Registry.lt_size_of_stepIndex (fun j hj => Registry.lt_size_of_next hj) hindex
      simp only [Option.bind_some, Array.getElem?_eq_getElem hi, Option.map_some,
        Registry.nextVariable?, Registry.next_oid _ hi]

theorem repetitionAnswer?_eq (repetition place : Nat) (oid : Oid) :
    scope.repetitionAnswer? context state repetition place oid =
      (scope.reached context state repetition oid).map fun v =>
        (scope.answerRead context place v state).1 := by
  rw [repetitionAnswer?, reached]
  cases scope.stepOid context state repetition oid with
  | none => rfl
  | some current =>
    change (if saysEnd _ then none else some _) = _
    rw [saysEnd_nextAnswer]
    cases h : scope.registry.nextVariable? current with
    | none => simp [h]
    | some v => simp [h, nextAnswer_of_some scope context state h]

end Stepping

/-- Steps that leave the state as it is do not influence one another, by induction on them. -/
theorem mapM_of_unchanged {α β : Type} {f : α → StateM σ β} {members : List α} {state : σ}
    (h : ∀ a ∈ members, (f a state).2 = state) :
    members.mapM f state = (members.map fun a => (f a state).1, state) := by
  induction members with
  | nil => rfl
  | cons a rest ih =>
    obtain ⟨b, hfirst⟩ : ∃ b, f a state = (b, state) :=
      ⟨_, Prod.ext rfl (h a List.mem_cons_self)⟩
    have hrest := ih fun c hc => h c (List.mem_cons_of_mem _ hc)
    simp only [List.mapM_cons, List.map_cons, bind, StateT.bind, hfirst, hrest]
    rfl

/-! ### Slots -/

section Slots

variable (scope : Scope σ) (context : RequestContext) (state : σ)

def slotAnswer (slot : Slot σ) : Answer := (scope.answerSlot context slot state).1

theorem mapM_answerSlot {slots : List (Slot σ)}
    (h : ∀ slot ∈ slots, (scope.answerSlot context slot state).2 = state) :
    slots.mapM (scope.answerSlot context) state =
      (slots.map (scope.slotAnswer context state), state) :=
  mapM_of_unchanged h

theorem slotAnswer_nextSlot (place : Nat) (oid : Oid) :
    scope.slotAnswer context state (scope.nextSlot place oid) =
      scope.nextAnswer context state place oid := by
  rw [nextSlot]
  cases h : scope.registry.nextVariable? oid with
  | none => exact (nextAnswer_of_none scope context state h place).symm
  | some v => exact (nextAnswer_of_some scope context state h place).symm

theorem map_singleSlots (bindings : List Binding) : ∀ place,
    (scope.singleSlots place bindings).map (scope.slotAnswer context state) =
      (placed place bindings).map fun single =>
        scope.nextAnswer context state single.1 single.2 := by
  induction bindings with
  | nil => exact fun _ => rfl
  | cons binding rest ih =>
    intro place
    rw [singleSlots, placed, List.map_cons, List.map_cons, slotAnswer_nextSlot, ih]

/-- The identifiers that are remembered are those whose end the answers tell. -/
def Remembers (finished : List Oid) (answers : List Answer) : Prop :=
  ∀ oid, oid ∈ finished ↔ ⟨oid, .endOfMibView⟩ ∈ answers.map (·.binding)

variable {scope context state}

/-- An answer that names a variable tells no end. -/
theorem Remembers.visit {finished : List Oid} {answers : List Answer}
    (h : Remembers finished answers) {answer : Answer} {place : Nat} {v : Variable σ}
    (hnames : Names answer place v) : Remembers finished (answers ++ [answer]) := by
  intro oid
  rw [h oid, List.map_append, List.mem_append]
  refine ⟨.inl, ?_⟩
  rintro (hmem | hmem)
  · exact hmem
  · have hbinding := List.mem_singleton.1 hmem
    exact absurd (congrArg Binding.value hbinding).symm hnames.value

theorem Remembers.ended {finished : List Oid} {answers : List Answer}
    (h : Remembers finished answers) (place : Nat) (start : Oid) :
    Remembers (start :: finished) (answers ++ [endOfWalk place start]) := by
  intro oid
  rw [List.mem_cons, h oid, List.map_append, List.mem_append, or_comm]
  simp [endOfWalk]

end Slots

end Scope

end Snmp.Mib
