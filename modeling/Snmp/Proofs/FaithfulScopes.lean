/-
  Snmp/Proofs/FaithfulScopes.lean
  ===============================
  **What a scope answers can be written.**

  A response is put together from names and values, and a reader has to find the same names and
  values in it.  The names come from the registry or from the request, and so do some of the
  values; all the others come from callbacks.  If the variables are faithful, that is if their
  names are short enough and their callbacks yield values that the wire form does not confuse,
  then whatever a scope answers to a request that was read can be written.

  Callbacks change the state on which the next ones work, so what is shown of an action has to
  hold from every state (`Always`).
-/
import Snmp.Proofs.Authentication
import Snmp.Proofs.BulkLoop

namespace Snmp

/-- A response to a request, in a form that the wire does not confuse with another. -/
structure Pdu.Answers (response request : Pdu) : Prop where
  type : response.type = .response
  requestId : response.requestId = request.requestId
  bindings : ∀ b ∈ response.bindings, b.Transmissible

namespace Mib

variable {σ α β : Type}

/-! ### What always holds -/

/-- Whatever state an action begins in, its result has a property. -/
def Always (action : StateM σ α) (P : α → Prop) : Prop := ∀ state, P (action state).1

namespace Always

variable {P : α → Prop} {Q : β → Prop}

theorem pure {a : α} (h : P a) : Always (Pure.pure a : StateM σ α) P := fun _ => h

theorem bind {action : StateM σ α} {next : α → StateM σ β} (h : Always action P)
    (k : ∀ a, P a → Always (next a) Q) : Always (action >>= next) Q := by
  intro state
  exact k _ (h state) _

/-- What always holds of the result for each member holds of all the results. -/
theorem mapM {f : β → StateM σ α} {members : List β} (h : ∀ b ∈ members, Always (f b) P) :
    Always (members.mapM f) (fun results => ∀ a ∈ results, P a) := by
  induction members with
  | nil =>
    rw [List.mapM_nil]
    exact Always.pure (by simp)
  | cons b rest ih =>
    rw [List.mapM_cons]
    refine Always.bind (h b List.mem_cons_self) ?_
    intro a ha
    refine Always.bind (ih fun c hc => h c (List.mem_cons_of_mem b hc)) ?_
    intro results hresults
    refine Always.pure ?_
    intro c hc
    rcases List.mem_cons.1 hc with rfl | hc
    · exact ha
    · exact hresults c hc

end Always

/-! ### Faithful variables -/

/-- A variable whose name is not longer than a reader takes, and whose callbacks yield only
    values that the wire form does not confuse with others. -/
structure Variable.Faithful (v : Variable σ) : Prop where
  short : v.oid.length ≤ Oid.maxArcs
  read : ∀ callback, v.read? = some callback →
    ∀ state value, (callback state).1 = .ok value → value.Transmissible
  notify : ∀ callback, v.notify? = some callback →
    ∀ isInform binding state value, (callback isInform binding state).1 = .ok (some value) →
      value.Transmissible

/-- A scope of faithful variables whose names have passed the check of the registry. -/
def Scope.Faithful (scope : Scope σ) : Prop :=
  ∀ v ∈ scope.registry.entries, v.Faithful ∧ v.oid.Transmissible

namespace Variable

variable {v : Variable σ}

theorem Faithful.always_read (h : v.Faithful) :
    Always v.read fun result => ∀ value, result = some (.ok value) → value.Transmissible := by
  intro state value hvalue
  rw [Variable.read] at hvalue
  cases hread : v.read? with
  | none =>
    rw [hread] at hvalue
    cases hvalue
  | some callback =>
    rw [hread] at hvalue
    rcases Except.bind_eq_ok (Option.some.inj hvalue) with ⟨found, hfound, hcheck⟩
    rw [checkType] at hcheck
    split at hcheck
    · cases hcheck
      exact h.read callback hread state value (Except.eq_ok_of_mapError hfound)
    · contradiction

theorem Faithful.always_notify (h : v.Faithful) (isInform : Bool) (binding : Binding) :
    Always (v.notify isInform binding) fun result =>
      ∀ value, result = some (.ok (some value)) → value.Transmissible := by
  intro state value hvalue
  rw [Variable.notify] at hvalue
  cases hnotify : v.notify? with
  | none =>
    rw [hnotify] at hvalue
    cases hvalue
  | some callback =>
    rw [hnotify] at hvalue
    have hok := Except.eq_ok_of_mapError (Option.some.inj hvalue)
    exact h.notify callback hnotify isInform binding state value hok

end Variable

namespace Registry

variable {r : Registry σ} {oid : Oid} {v : Variable σ}

theorem mem_of_find? (h : r.find? oid = some v) : v ∈ r.entries := by
  rw [find?] at h
  split at h
  · exact Array.mem_of_getElem? h
  · contradiction

theorem mem_of_nextVariable? (h : r.nextVariable? oid = some v) : v ∈ r.entries := by
  rcases Option.bind_eq_some_iff.1 h with ⟨index, _, hindex⟩
  exact Array.mem_of_getElem? hindex

end Registry

/-! ### Answers -/

/-- An answer whose binding can be written. -/
def Answer.Transmissible (answer : Answer) : Prop := answer.binding.Transmissible

namespace Scope

variable {scope : Scope σ} {context : RequestContext} {place : Nat} {oid : Oid}

theorem transmissible_refuse (h : oid.Transmissible) (status : ErrorStatus) :
    (refuse place oid status).Transmissible := ⟨h, trivial⟩

theorem transmissible_substitute (h : oid.Transmissible) (error : CallbackError) :
    (scope.substitute place oid error).Transmissible := ⟨h, trivial⟩

theorem transmissible_unknown (h : oid.Transmissible) : (unknown place oid).Transmissible :=
  ⟨h, trivial⟩

theorem transmissible_endOfWalk (h : oid.Transmissible) : (endOfWalk place oid).Transmissible :=
  ⟨h, trivial⟩

theorem always_ifPermitted {v : Variable σ} {action : StateM σ Answer}
    (hoid : v.oid.Transmissible) (haction : Always action Answer.Transmissible) :
    Always (scope.ifPermitted context place v action) Answer.Transmissible :=
  ifPermitted_answer (transmissible_refuse hoid) (transmissible_substitute hoid) haction

theorem always_answerRead (hfaithful : scope.Faithful) {v : Variable σ}
    (hmem : v ∈ scope.registry.entries) :
    Always (scope.answerRead context place v) Answer.Transmissible := by
  obtain ⟨hv, hoid⟩ := hfaithful v hmem
  apply always_ifPermitted hoid
  refine Always.bind hv.always_read ?_
  intro result hresult
  rcases result with _ | error | value
  · exact Always.pure (transmissible_refuse hoid _)
  · exact Always.pure (transmissible_substitute hoid error)
  · exact Always.pure ⟨hoid, hresult value rfl⟩

variable {binding : Binding}

theorem always_answerGet (hfaithful : scope.Faithful) (hbinding : binding.Transmissible) :
    Always (scope.answerGet context place binding) Answer.Transmissible := by
  rw [answerGet]
  cases hfind : scope.registry.find? binding.oid with
  | none => exact Always.pure (transmissible_unknown hbinding.oid)
  | some v => exact always_answerRead hfaithful (Registry.mem_of_find? hfind)

theorem always_answerNext (hfaithful : scope.Faithful) (hbinding : binding.Transmissible) :
    Always (scope.answerNext context place binding) Answer.Transmissible := by
  rw [answerNext]
  cases hnext : scope.registry.nextVariable? binding.oid with
  | none => exact Always.pure (transmissible_endOfWalk hbinding.oid)
  | some v => exact always_answerRead hfaithful (Registry.mem_of_nextVariable? hnext)

theorem always_answerSet (hfaithful : scope.Faithful) (hbinding : binding.Transmissible) :
    Always (scope.answerSet context place binding) Answer.Transmissible := by
  rw [answerSet]
  cases hfind : scope.registry.find? binding.oid with
  | none => exact Always.pure (transmissible_unknown hbinding.oid)
  | some v =>
    obtain ⟨_, hoid⟩ := hfaithful v (Registry.mem_of_find? hfind)
    apply always_ifPermitted hoid
    by_cases hreadOnly : (!v.isWritable) = true
    · rw [if_pos hreadOnly]
      exact Always.pure (transmissible_refuse hbinding.oid _)
    rw [if_neg hreadOnly]
    by_cases hwrong : binding.value.type? ≠ some v.type
    · rw [if_pos hwrong]
      exact Always.pure (transmissible_refuse hbinding.oid _)
    rw [if_neg hwrong]
    refine Always.bind (P := fun _ => True) (fun _ => trivial) ?_
    intro result _
    rcases result with _ | error | _
    · exact Always.pure (transmissible_refuse hbinding.oid _)
    · exact Always.pure (transmissible_substitute hbinding.oid error)
    · exact Always.pure hbinding

theorem always_answerNotify (hfaithful : scope.Faithful) (hbinding : binding.Transmissible)
    (isInform : Bool) :
    Always (scope.answerNotify context isInform place binding) Answer.Transmissible := by
  rw [answerNotify]
  cases hfind : scope.registry.find? binding.oid with
  | none =>
    by_cases hhead : binding.oid = sysUpTime ∨ binding.oid = snmpTrapOid
    · simp only [if_pos hhead]
      exact Always.pure hbinding
    · simp only [if_neg hhead]
      exact Always.pure (transmissible_unknown hbinding.oid)
  | some v =>
    obtain ⟨hv, hoid⟩ := hfaithful v (Registry.mem_of_find? hfind)
    apply always_ifPermitted hoid
    refine Always.bind (hv.always_notify isInform binding) ?_
    intro result hresult
    rcases result with _ | error | _ | value
    · exact Always.pure (transmissible_refuse hbinding.oid _)
    · exact Always.pure (transmissible_substitute hbinding.oid error)
    · exact Always.pure hbinding
    · exact Always.pure ⟨hbinding.oid, hresult value rfl⟩

/-- Bindings are answered one by one, by induction on their list. -/
theorem always_answerAll {answer : Nat → Binding → StateM σ Answer} {bindings : List Binding}
    (h : ∀ place, ∀ b ∈ bindings, Always (answer place b) Answer.Transmissible) : ∀ place,
    Always (answerAll answer place bindings) (fun answers => ∀ a ∈ answers, a.Transmissible) := by
  induction bindings with
  | nil =>
    intro place
    exact Always.pure (by simp)
  | cons binding rest ih =>
    intro place
    rw [answerAll]
    refine Always.bind (h place binding List.mem_cons_self) ?_
    intro first hfirst
    refine Always.bind (ih (fun place b hb => h place b (List.mem_cons_of_mem _ hb)) (place + 1)) ?_
    intro answers hanswers
    refine Always.pure ?_
    intro a ha
    rcases List.mem_cons.1 ha with rfl | ha
    · exact hfirst
    · exact hanswers a ha

/-! ### Bulk requests -/

/-- A slot that is for a registered variable, or for the end of a walk that was asked for. -/
def Slot.Within (scope : Scope σ) (oids : List Oid) : Slot σ → Prop
  | .visit _ v => v ∈ scope.registry.entries
  | .ended _ oid => oid ∈ oids

theorem within_singleSlots {oids : List Oid} (bindings : List Binding) : ∀ place,
    (∀ b ∈ bindings, b.oid ∈ oids) →
    ∀ slot ∈ scope.singleSlots place bindings, slot.Within scope oids := by
  induction bindings with
  | nil => exact fun _ _ _ hslot => absurd hslot List.not_mem_nil
  | cons binding rest ih =>
    intro place h slot hslot
    rcases List.mem_cons.1 hslot with rfl | hslot
    · rw [nextSlot]
      cases hnext : scope.registry.nextVariable? binding.oid with
      | none => exact h binding List.mem_cons_self
      | some v => exact Registry.mem_of_nextVariable? hnext
    · exact ih _ (fun b hb => h b (List.mem_cons_of_mem _ hb)) slot hslot

/-- A walk that began at one of the identifiers and has only registered variables ahead. -/
structure Walk.Within (scope : Scope σ) (oids : List Oid) (walk : Walk σ) : Prop where
  start : walk.start ∈ oids
  ahead : ∀ v ∈ walk.ahead, v ∈ scope.registry.entries

theorem Walk.Within.slot {oids : List Oid} {walk : Walk σ} (h : walk.Within scope oids) :
    walk.slot.Within scope oids := by
  obtain ⟨place, start, ahead⟩ := walk
  cases ahead with
  | nil => exact h.start
  | cons v more => exact h.ahead v List.mem_cons_self

/-- Each step of the walks takes slots of theirs and leaves what is ahead of them. -/
theorem within_repeatWalks {oids : List Oid} (count : Nat) :
    ∀ (finished : List Oid) (walks : List (Walk σ)), (∀ walk ∈ walks, walk.Within scope oids) →
    ∀ slot ∈ repeatWalks finished count walks, slot.Within scope oids := by
  induction count with
  | zero => exact fun _ _ _ _ hslot => absurd hslot List.not_mem_nil
  | succ count ih =>
    intro finished walks h slot hslot
    rw [repeatWalks_succ] at hslot
    rcases List.mem_append.1 hslot with hslot | hslot
    · obtain ⟨walk, hwalk, rfl⟩ := List.mem_map.1 ((sublist_stepWalks walks finished).subset hslot)
      exact (h walk hwalk).slot
    · apply ih _ _ _ slot hslot
      intro walk hwalk
      rcases List.mem_map.1 hwalk with ⟨before, hbefore, rfl⟩
      exact ⟨(h before hbefore).start, fun v hv =>
        (h before hbefore).ahead v (List.mem_of_mem_drop hv)⟩

theorem within_walks {oids : List Oid} (count : Nat) (bindings : List Binding) : ∀ place,
    (∀ b ∈ bindings, b.oid ∈ oids) →
    ∀ walk ∈ scope.walks count place bindings, walk.Within scope oids := by
  induction bindings with
  | nil => exact fun _ _ _ hwalk => absurd hwalk List.not_mem_nil
  | cons binding rest ih =>
    intro place h walk hwalk
    rcases List.mem_cons.1 hwalk with rfl | hwalk
    · refine ⟨h binding List.mem_cons_self, ?_⟩
      intro v hv
      rcases List.mem_filterMap.1 hv with ⟨index, _, hindex⟩
      exact Array.mem_of_getElem? hindex
    · exact ih _ (fun b hb => h b (List.mem_cons_of_mem _ hb)) walk hwalk

theorem within_bulkPlan (scope : Scope σ) (pdu : Pdu) :
    ∀ slot ∈ scope.bulkPlan pdu, slot.Within scope (pdu.bindings.map (·.oid)) := by
  intro slot hslot
  rcases List.mem_append.1 hslot with hslot | hslot
  · apply within_singleSlots _ 0 _ slot hslot
    intro b hb
    exact List.mem_map_of_mem (List.mem_of_mem_take hb)
  · apply within_repeatWalks _ _ _ _ slot hslot
    apply within_walks
    intro b hb
    exact List.mem_map_of_mem (List.mem_of_mem_drop hb)

theorem always_answerSlot (hfaithful : scope.Faithful) {oids : List Oid}
    (hoids : ∀ oid ∈ oids, oid.Transmissible) {slot : Slot σ} (h : slot.Within scope oids) :
    Always (scope.answerSlot context slot) Answer.Transmissible := by
  cases slot with
  | visit place v => exact always_answerRead hfaithful h
  | ended place oid => exact Always.pure (transmissible_endOfWalk (hoids oid h))

/-! ### Requests -/

theorem answers_toPdu {answers : List Answer} (h : ∀ a ∈ answers, a.Transmissible)
    (request : Pdu) : (Response.toPdu ⟨answers⟩ request).Answers request := by
  have hbindings : ∀ b ∈ Response.bindings ⟨answers⟩, b.Transmissible := by
    intro b hb
    rcases List.mem_map.1 hb with ⟨a, ha, rfl⟩
    exact h a ha
  rw [Response.toPdu]
  split
  · exact ⟨rfl, rfl, hbindings⟩
  · exact ⟨rfl, rfl, hbindings⟩

/-- A request whose bindings were read, other than a trap, is answered with a response that can be
    written, or with an error. -/
theorem always_serve (hfaithful : scope.Faithful) {pdu : Pdu}
    (hbindings : ∀ b ∈ pdu.bindings, b.Transmissible) (htrap : pdu.type.isTrap = false) :
    Always (scope.serve context pdu) fun served =>
      (∃ response, served = .ok (some response) ∧ response.Answers pdu) ∨
        ∃ error, served = .error error := by
  have hrespond (answers : List Answer) (h : ∀ a ∈ answers, a.Transmissible) :
      Always (Pure.pure (.ok (some (Response.toPdu ⟨answers⟩ pdu))) :
          StateM σ (Except Error (Option Pdu))) fun served =>
        (∃ response, served = .ok (some response) ∧ response.Answers pdu) ∨
          ∃ error, served = .error error :=
    Always.pure (.inl ⟨_, rfl, answers_toPdu h pdu⟩)
  rw [serve]
  cases htype : pdu.type with
  | getRequest =>
    refine Always.bind (always_answerAll ?_ 0) hrespond
    intro place b hb
    exact always_answerGet hfaithful (hbindings b hb)
  | getNextRequest =>
    refine Always.bind (always_answerAll ?_ 0) hrespond
    intro place b hb
    exact always_answerNext hfaithful (hbindings b hb)
  | getBulkRequest =>
    refine Always.bind (Always.mapM ?_) hrespond
    intro slot hslot
    refine always_answerSlot hfaithful ?_ (within_bulkPlan scope pdu slot hslot)
    intro oid hoid
    rcases List.mem_map.1 hoid with ⟨b, hb, rfl⟩
    exact (hbindings b hb).oid
  | setRequest =>
    refine Always.bind (always_answerAll ?_ 0) hrespond
    intro place b hb
    exact always_answerSet hfaithful (hbindings b hb)
  | informRequest =>
    refine Always.bind (always_answerAll ?_ 0) hrespond
    intro place b hb
    exact always_answerNotify hfaithful (hbindings b hb) true
  | trapV1 =>
    rw [htype] at htrap
    contradiction
  | trapV2 =>
    rw [htype] at htrap
    contradiction
  | response => exact Always.pure (.inr ⟨_, rfl⟩)
  | report => exact Always.pure (.inr ⟨_, rfl⟩)

end Scope

/-! ### Configurations -/

/-- The entries of a registry are the variables that were registered, all of which have passed the
    check. -/
theorem Registry.ofVariables_eq_ok {entries : List (Variable σ)} {r : Registry σ}
    (h : Registry.ofVariables entries = .ok r) :
    ∀ v ∈ r.entries, v ∈ entries ∧ v.oid.isEncodable = true := by
  rw [ofVariables] at h
  split at h
  · contradiction
  rename_i hchecked
  simp only at h
  split at h
  · contradiction
  cases h
  intro v hv
  have hmem : v ∈ entries := List.mem_mergeSort.1 (List.mem_toArray.1 hv)
  refine ⟨hmem, ?_⟩
  have hcheck := Except.eq_ok_of_forM hchecked v hmem
  rw [Oid.checkEncodable] at hcheck
  split at hcheck
  · assumption
  · contradiction

/-- A scope that is built from faithful variables is faithful: the check of the registry has done
    the rest. -/
theorem ScopeConfig.faithful_of_build {config : ScopeConfig σ} {scope : Scope σ}
    (hentries : ∀ v ∈ config.entries, v.Faithful) (h : config.build = .ok scope) :
    scope.Faithful := by
  rcases Except.bind_eq_ok h with ⟨registry, hregistry, h⟩
  cases h
  intro v hv
  obtain ⟨hmem, hencodable⟩ := Registry.ofVariables_eq_ok hregistry v hv
  have hfaithful := hentries v hmem
  exact ⟨hfaithful, hencodable, hfaithful.short⟩

end Mib

namespace Agent

variable {σ : Type}

theorem faithful_of_prepare {config : Config σ} {suite : Usm.Suite} {host : Host σ}
    {agent : Agent σ} (hprepare : config.prepare suite host = .ok agent)
    (hentries : ∀ scope ∈ config.scopes, ∀ v ∈ scope.entries, v.Faithful) :
    ∀ scope ∈ agent.scopes, scope.Faithful := by
  obtain ⟨scopes, routes, users, hscopes, _, _, rfl⟩ := Config.prepare_eq_ok hprepare
  intro scope hscope
  rcases Except.mem_of_mapM hscopes scope hscope with ⟨scopeConfig, hmem, hbuild⟩
  exact scopeConfig.faithful_of_build (hentries scopeConfig hmem) hbuild

theorem mem_of_route {agent : Agent σ} {key : Octets} {scope : Mib.Scope σ}
    (h : agent.route key = .ok scope) : scope ∈ agent.scopes := by
  rw [route] at h
  split at h
  · rename_i found hfound
    cases h
    obtain ⟨place, _, hplace⟩ := Option.bind_eq_some_iff.1 hfound
    exact List.mem_of_getElem? hplace
  · contradiction

end Agent

end Snmp
