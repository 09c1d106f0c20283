/-
  Snmp/Proofs/FirstFailure.lean
  =============================
  **One binding for each binding that is requested, and the first failure wins.**

  A request other than GetBulk is answered with one binding for each of its own, under the name
  that was asked for; GetNext answers under the name of the successor.  The values are those of
  the turns.  If no turn fails, the response reports success; otherwise it reports the status
  and the position of the first turn that fails, whatever comes after it
  (`serve_reports_first`).
-/
import Snmp.Proofs.BulkRequest
import Snmp.Proofs.TurnServing

namespace Snmp.Mib

variable {σ : Type}

namespace Scope

/-- What a response tells about the turns that the bindings of its request have had. -/
structure Tells (scope : Scope σ) (request : Pdu) (turns : List (BindingTurn σ)) (response : Pdu) :
    Prop where
  type : response.type = .response
  requestId : response.requestId = request.requestId
  length : response.bindings.length = request.bindings.length
  values : response.bindings.map (·.value) = turns.map (·.fate.value)
  /-- Each binding is answered under its own name. -/
  names : request.type ≠ .getNextRequest →
    response.bindings.map (·.oid) = request.bindings.map (·.oid)
  /-- GetNext answers under the name of the first variable beyond the one that was asked for. -/
  successors : request.type = .getNextRequest → ∀ (place : Nat) (binding : Binding) v rest,
    request.bindings[place]? = some binding → scope.registry.beyond binding.oid = v :: rest →
    response.bindings[place]?.map Binding.oid = some v.oid
  /-- Nothing comes after the last variable. -/
  ends : request.type = .getNextRequest → ∀ (place : Nat) (binding : Binding),
    request.bindings[place]? = some binding → scope.registry.beyond binding.oid = [] →
    response.bindings[place]? = some ⟨binding.oid, .endOfMibView⟩
  succeeded : (∀ t ∈ turns, t.fate.status? scope.escalates = none) →
    response.errorStatus = ErrorStatus.noError.code ∧ response.errorIndex = 0
  /-- What happens later does not change the report of the first failure. -/
  failed : ∀ earlier t later status, turns = earlier ++ t :: later →
    (∀ e ∈ earlier, e.fate.status? scope.escalates = none) →
    t.fate.status? scope.escalates = some status →
    response.errorStatus = status.code ∧ response.errorIndex.toInt = earlier.length + 1

variable {scope : Scope σ} {context : RequestContext} {type : PduType}
  {turns : List (BindingTurn σ)} {state after : σ}

/-! ### Names -/

theorem wanted?_of_next {oid : Oid} :
    scope.wanted? .getNextRequest oid = (scope.registry.beyond oid).head? := if_pos rfl

/-- GetNext does not fail for want of a successor. -/
theorem Run.fate_of_end (h : scope.Run context .getNextRequest state turns after)
    {t : BindingTurn σ} (ht : t ∈ turns) (hbeyond : scope.registry.beyond t.binding.oid = []) :
    t.fate = .settled .endOfMibView := by
  have hwanted : scope.wanted? .getNextRequest t.binding.oid = none := by
    rw [wanted?_of_next, hbeyond, List.head?_nil]
  exact ((h.befalls t ht).of_unfound hwanted).2.1

/-! ### The report -/

/-- The answers to turns fail as the turns do, each in its place. -/
theorem mem_mapIdx_turnAnswer {answer : Answer}
    (h : answer ∈ turns.mapIdx (scope.turnAnswer type)) :
    ∃ t ∈ turns, answer.failure? = t.fate.status? scope.escalates := by
  obtain ⟨place, hplace, rfl⟩ := List.mem_mapIdx.1 h
  exact ⟨turns[place], List.getElem_mem hplace, rfl⟩

theorem mapIdx_turnAnswer_append (earlier : List (BindingTurn σ)) (t : BindingTurn σ)
    (later : List (BindingTurn σ)) :
    (earlier ++ t :: later).mapIdx (scope.turnAnswer type) =
      earlier.mapIdx (scope.turnAnswer type) ++ scope.turnAnswer type earlier.length t ::
        later.mapIdx fun index => scope.turnAnswer type (earlier.length + (index + 1)) := by
  rw [List.mapIdx_append, List.mapIdx_cons]
  simp only [Nat.zero_add, Nat.add_comm]

variable {pdu : Pdu}

/-- The response that the turns of a run make up tells about them. -/
theorem Run.tells (h : scope.Run context pdu.type state turns after)
    (hbindings : turns.map (·.binding) = pdu.bindings)
    (hsize : pdu.bindings.length < 2147483647) :
    scope.Tells pdu turns (Response.toPdu ⟨turns.mapIdx (scope.turnAnswer pdu.type)⟩ pdu) := by
  have hlength : turns.length = pdu.bindings.length := by rw [← hbindings, List.length_map]
  have hall : (Response.toPdu ⟨turns.mapIdx (scope.turnAnswer pdu.type)⟩ pdu).bindings =
      turns.map fun t => ⟨scope.nameFor pdu.type t.binding.oid, t.fate.value⟩ := by
    rw [Response.bindings_toPdu, bindings_turnAnswer]
  have hplace {place : Nat} {binding : Binding} (hbinding : pdu.bindings[place]? = some binding) :
      ∃ t ∈ turns, t.binding = binding ∧
        (Response.toPdu ⟨turns.mapIdx (scope.turnAnswer pdu.type)⟩ pdu).bindings[place]? =
          some ⟨scope.nameFor pdu.type binding.oid, t.fate.value⟩ := by
    rw [← hbindings, List.getElem?_map] at hbinding
    obtain ⟨t, ht, rfl⟩ := Option.map_eq_some_iff.1 hbinding
    exact ⟨t, List.mem_of_getElem? ht, rfl, by rw [hall, List.getElem?_map, ht, Option.map_some]⟩
  have hreports := Response.toPdu_reportsFirst (turns.mapIdx (scope.turnAnswer pdu.type)) pdu
  have hkind := Response.type_toPdu (turns.mapIdx (scope.turnAnswer pdu.type)) pdu
  refine ⟨hkind.1, hkind.2, ?_, ?_, ?_, ?_, ?_, ?_, ?_⟩
  · rw [hall, List.length_map, hlength]
  · rw [hall, List.map_map]
    rfl
  · intro htype
    rw [hall, ← hbindings, List.map_map, List.map_map]
    exact List.map_congr_left fun t _ => scope.nameFor_of_ne_next htype t.binding.oid
  · intro htype place binding v rest hbinding hbeyond
    obtain ⟨t, -, -, hanswer⟩ := hplace hbinding
    rw [hanswer, htype, nameFor, wanted?_of_next, hbeyond]
    rfl
  · intro htype place binding hbinding hbeyond
    obtain ⟨t, ht, rfl, hanswer⟩ := hplace hbinding
    rw [htype] at h
    rw [hanswer, h.fate_of_end ht hbeyond, htype, nameFor, wanted?_of_next, hbeyond]
    rfl
  · intro hnone
    apply hreports.succeeded
    intro answer hanswer
    obtain ⟨t, ht, hfailure⟩ := mem_mapIdx_turnAnswer hanswer
    rw [hfailure, hnone t ht]
  · intro earlier t later status hturns hearlier hfails
    have hshort : earlier.length < turns.length := by
      rw [hturns, List.length_append, List.length_cons]
      omega
    rw [hturns, mapIdx_turnAnswer_append] at hreports
    obtain ⟨hstatus, hindex⟩ := hreports.failed _ _ _ status rfl (fun answer hanswer => by
      obtain ⟨e, he, hfailure⟩ := mem_mapIdx_turnAnswer hanswer
      rw [hfailure, hearlier e he]) hfails
    rw [← mapIdx_turnAnswer_append, ← hturns] at hstatus hindex
    have hposition : (scope.turnAnswer pdu.type earlier.length t).place = earlier.length := rfl
    rw [hposition] at hindex
    exact ⟨hstatus, by omega⟩

/-- Requests are served binding by binding, and the first failure is the one that is
    reported. -/
theorem serve_reports_first (scope : Scope σ) (context : RequestContext) {pdu : Pdu}
    (htype : pdu.type ∈ [.getRequest, .getNextRequest, .setRequest, .informRequest])
    (hsize : pdu.bindings.length < 2147483647) (state : σ) :
    ∃ turns after response, scope.Run context pdu.type state turns after ∧
      turns.map (·.binding) = pdu.bindings ∧
      scope.serve context pdu state = (.ok (some response), after) ∧
      scope.Tells pdu turns response := by
  have hkind : isItemwise pdu.type = true ∧ isRequest pdu.type = true := by
    revert htype
    cases pdu.type <;> decide
  obtain ⟨turns, after, hrun, hbindings⟩ := scope.exists_run context pdu.type pdu.bindings state
  refine ⟨turns, after, _, hrun, hbindings, ?_, hrun.tells hbindings hsize⟩
  rw [hrun.serve_eq hkind.1 hbindings, conclude_of_isRequest hkind.2]

/-- A scope that escalates errors: one variable counts how often it is written, the write of the
    other breaks down. -/
def brittleScope : Scope Nat where
  escalates := true
  registry := {
    entries := #[
      { oid := ⟨[1, 3, 1]⟩, type := .integer,
        write? := some fun _ count => (.ok (), count + 1) },
      { oid := ⟨[1, 3, 2]⟩, type := .integer,
        write? := some fun _ count => (.error (.brokeDown .silent), count) }]
    ascending := by decide }

def brittleSet : Pdu where
  type := .setRequest
  requestId := 7
  bindings := [⟨⟨[1, 3, 1]⟩, .integer 1⟩, ⟨⟨[1, 3, 2]⟩, .integer 2⟩, ⟨⟨[1, 3, 3]⟩, .integer 3⟩]

/-- The breakdown is reported, and not the unknown name behind it. -/
theorem serve_reports_first_brittleSet :
    brittleSet.type ∈ [.getRequest, .getNextRequest, .setRequest, .informRequest] ∧
      brittleSet.bindings.length < 2147483647 ∧
      ∃ turns after response, brittleScope.Run default .setRequest 0 turns after ∧
        brittleScope.serve default brittleSet 0 = (.ok (some response), after) ∧
        brittleScope.Tells brittleSet turns response ∧
        response.status = .genErr ∧ response.errorIndex = 2 := by
  have hsize : brittleSet.bindings.length < 2147483647 := by decide
  obtain ⟨turns, after, response, hrun, -, hserve, htells⟩ :=
    serve_reports_first brittleScope default (by decide) hsize 0
  have hreport : ((brittleScope.serve default brittleSet 0).1.toOption.join.map fun response =>
      (response.status, response.errorIndex)) = some (.genErr, 2) := by decide +kernel
  rw [hserve] at hreport
  have hpair := Option.some.inj hreport
  exact ⟨by decide, hsize, turns, after, response, hrun, hserve, htells,
    congrArg (·.1) hpair, congrArg (·.2) hpair⟩

end Scope

end Snmp.Mib
