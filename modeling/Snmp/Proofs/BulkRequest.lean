/-
  Snmp/Proofs/BulkRequest.lean
  ============================
  **A GetBulk request is answered as GetNext requests would be.**

  The slots that a scope plans, filled one by one, are the answers of the reference: the
  non-repeaters one GetNext each, then the repetitions.  What the walks remember in the
  beginning are the ends that the non-repeaters told.  The response carries the bindings of the
  answers, and the status and place of the first that failed.
-/
import Snmp.Proofs.BulkLoop

namespace Snmp.Mib

variable {σ : Type}

/-! ### The first failure -/

/-- A response reports the first failure of its answers: its status, and the place of the
    request's binding counted from one, as far as an index goes. -/
structure Response.ReportsFirst (response : Pdu) (answers : List Answer) : Prop where
  succeeded : (∀ answer ∈ answers, answer.failure? = none) →
    response.errorStatus = ErrorStatus.noError.code ∧ response.errorIndex = 0
  failed : ∀ before answer after status, answers = before ++ answer :: after →
    (∀ earlier ∈ before, earlier.failure? = none) → answer.failure? = some status →
    response.errorStatus = status.code ∧
      response.errorIndex.toInt = min (answer.place + 1 : Nat) 2147483647

theorem Response.toInt_errorIndex (place : Nat) :
    (errorIndex place).toInt = min (place + 1 : Nat) 2147483647 := by
  rw [errorIndex, Int32.toInt_ofNat_of_lt (by omega)]

theorem Response.toPdu_reportsFirst (answers : List Answer) (request : Pdu) :
    ReportsFirst (Response.toPdu ⟨answers⟩ request) answers := by
  constructor
  · intro hnone
    have hfirst : Response.firstFailure? ⟨answers⟩ = none := by
      rw [firstFailure?, List.findSome?_eq_none_iff]
      intro answer hanswer
      rw [hnone answer hanswer, Option.map_none]
    simp only [toPdu, hfirst]
    exact ⟨rfl, rfl⟩
  · intro before answer after status hanswers hbefore hfailure
    have hskip : before.findSome? (fun earlier =>
        earlier.failure?.map fun status => (status, earlier.place)) = none := by
      rw [List.findSome?_eq_none_iff]
      intro earlier hearlier
      rw [hbefore earlier hearlier, Option.map_none]
    have hfirst : Response.firstFailure? ⟨answers⟩ = some (status, answer.place) := by
      rw [firstFailure?, hanswers, List.findSome?_append, hskip, List.findSome?_cons, hfailure]
      rfl
    simp only [toPdu, hfirst]
    exact ⟨rfl, toInt_errorIndex answer.place⟩

namespace Scope

/-! ### The plan -/

section Plan

variable (scope : Scope σ) (context : RequestContext) (state : σ)

theorem map_snd_placed (bindings : List Binding) : ∀ place,
    (placed place bindings).map (·.2) = bindings.map (·.oid) := by
  induction bindings with
  | nil => exact fun _ => rfl
  | cons binding rest ih =>
    intro place
    rw [placed, List.map_cons, List.map_cons, ih]

/-- The walks begin with the ends in mind that the non-repeaters told. -/
theorem remembers_singles (singles : List Binding) (place : Nat) :
    Remembers
      ((singles.map (·.oid)).filter fun oid => (scope.registry.next oid).isNone)
      ((placed place singles).map fun single =>
        scope.nextAnswer context state single.1 single.2) := by
  intro oid
  rw [← map_snd_placed singles place, List.mem_filter, List.map_map]
  constructor
  · rintro ⟨hmem, hnext⟩
    rcases List.mem_map.1 hmem with ⟨single, hsingle, rfl⟩
    have hnone := (scope.registry.nextVariable?_eq_none single.2).2
      (Option.isNone_iff_eq_none.1 hnext)
    apply List.mem_map.2 ⟨single, hsingle, ?_⟩
    rw [Function.comp, nextAnswer_of_none scope context state hnone]
    rfl
  · intro hmem
    rcases List.mem_map.1 hmem with ⟨single, hsingle, hbinding⟩
    have hmarks := scope.saysEnd_nextAnswer context state single.1 single.2
    have hend : saysEnd (scope.nextAnswer context state single.1 single.2) = true := by
      rw [Function.comp] at hbinding
      rw [saysEnd, hbinding]
      rfl
    have hnone := Option.isNone_iff_eq_none.1 (hmarks.symm.trans hend)
    rw [Function.comp, nextAnswer_of_none scope context state hnone] at hbinding
    have hoid : single.2 = oid := congrArg Binding.oid hbinding
    subst hoid
    refine ⟨List.mem_map_of_mem hsingle, ?_⟩
    rw [(scope.registry.nextVariable?_eq_none single.2).1 hnone]
    rfl

/-- The slots of the plan, filled one by one, are the answers of the reference. -/
theorem map_bulkPlan (pdu : Pdu) :
    (scope.bulkPlan pdu).map (scope.slotAnswer context state) =
      scope.bulkByNext context state pdu := by
  have hremembers := scope.remembers_singles context state (pdu.bindings.take pdu.nonRepeaters) 0
  have hfold := scope.foldl_repetitions context state
    (placed (pdu.bindings.take pdu.nonRepeaters).length (pdu.bindings.drop pdu.nonRepeaters))
    pdu.maxRepetitions 0 _ _ (Nat.le_of_eq (Nat.zero_add _)) hremembers
  simp only [bulkPlan, bulkByNext, singleAnswers, List.map_append, map_singleSlots,
    repeatWalks_needed, walks_eq, List.range_eq_range', hfold]

theorem length_singleSlots (bindings : List Binding) : ∀ place,
    (scope.singleSlots place bindings).length = bindings.length := by
  induction bindings with
  | nil => exact fun _ => rfl
  | cons binding rest ih =>
    intro place
    rw [singleSlots, List.length_cons, List.length_cons, ih]

theorem length_ahead_walks_le {count place : Nat} {bindings : List Binding} :
    ∀ walk ∈ scope.walks count place bindings, walk.ahead.length ≤ scope.registry.size := by
  intro walk hwalk
  rw [walks_eq] at hwalk
  rcases List.mem_map.1 hwalk with ⟨repeater, _, rfl⟩
  exact scope.registry.length_ahead_le count (scope.registry.next repeater.2) 0 fun i hi =>
    ⟨Nat.zero_le i, Registry.lt_size_of_next hi⟩

/-- Each repeater has at most every variable of the registry, and one end. -/
theorem length_bulkPlan_le (pdu : Pdu) :
    (scope.bulkPlan pdu).length ≤ min pdu.nonRepeaters pdu.bindings.length
      + (pdu.bindings.length - pdu.nonRepeaters) * (scope.registry.size + 1) := by
  let singles := pdu.bindings.take pdu.nonRepeaters
  let walks := scope.walks pdu.maxRepetitions singles.length (pdu.bindings.drop pdu.nonRepeaters)
  have hwalks : walks.length = pdu.bindings.length - pdu.nonRepeaters := by
    have hplaced := congrArg List.length
      (map_snd_placed (pdu.bindings.drop pdu.nonRepeaters) singles.length)
    simp only [List.length_map, List.length_drop] at hplaced
    simp only [walks, walks_eq, List.length_map, hplaced]
  have hneeded : repetitionsNeeded pdu.maxRepetitions walks ≤ scope.registry.size + 1 :=
    repetitionsNeeded_le scope.length_ahead_walks_le
  have hrepeated := length_repeatWalks_le (repetitionsNeeded pdu.maxRepetitions walks)
    ((singles.map (·.oid)).filter fun oid => (scope.registry.next oid).isNone) walks
  rw [hwalks] at hrepeated
  have hsingles : (scope.singleSlots 0 singles).length =
      min pdu.nonRepeaters pdu.bindings.length := by
    rw [length_singleSlots, List.length_take]
  rw [bulkPlan, List.length_append, ← hsingles]
  exact Nat.add_le_add_left (Nat.le_trans hrepeated (Nat.mul_le_mul_left _ hneeded)) _

theorem pure_bulkPlan {scope : Scope σ} (hpure : scope.Pure) (pdu : Pdu) :
    ∀ slot ∈ scope.bulkPlan pdu, slot.Pure := by
  intro slot hslot
  rcases List.mem_append.1 hslot with hslot | hslot
  · exact pure_singleSlots hpure _ 0 slot hslot
  · apply pure_repeatWalks _ _ _ _ slot hslot
    intro walk hwalk v hv
    rw [walks_eq] at hwalk
    rcases List.mem_map.1 hwalk with ⟨repeater, _, rfl⟩
    rcases List.mem_filterMap.1 (List.mem_of_mem_drop hv) with ⟨index, _, hindex⟩
    exact hpure v (Array.mem_of_getElem? hindex)

end Plan

/-- With callbacks that have no effects, a GetBulk request is answered as the reference puts its
    answer together from GetNext requests, and within the bound that the registry sets. -/
theorem serve_getBulk {scope : Scope σ} (hpure : scope.Pure) (context : RequestContext)
    (state : σ) {pdu : Pdu} (htype : pdu.type = .getBulkRequest) :
    ∃ response, scope.serve context pdu state = (.ok (some response), state) ∧
      response.type = .response ∧ response.requestId = pdu.requestId ∧
      response.bindings = (scope.bulkByNext context state pdu).map (·.binding) ∧
      Response.ReportsFirst response (scope.bulkByNext context state pdu) ∧
      response.bindings.length ≤ min pdu.nonRepeaters pdu.bindings.length
        + (pdu.bindings.length - pdu.nonRepeaters) * (scope.registry.size + 1) := by
  have hserve : scope.serve context pdu state =
      (.ok (some (Response.toPdu ⟨scope.bulkByNext context state pdu⟩ pdu)), state) := by
    have hanswers := scope.mapM_answerSlot context state fun slot hslot =>
      answerSlot_state (pure_bulkPlan hpure pdu slot hslot) scope context state
    rw [map_bulkPlan] at hanswers
    simp only [serve, htype, bind, StateT.bind, hanswers]
    rfl
  have hbindings : (Response.toPdu ⟨scope.bulkByNext context state pdu⟩ pdu).bindings =
      (scope.bulkByNext context state pdu).map (·.binding) := by
    rw [Response.toPdu]
    split <;> rfl
  refine ⟨_, hserve, ?_, ?_, hbindings, Response.toPdu_reportsFirst _ pdu, ?_⟩
  · rw [Response.toPdu]
    split <;> rfl
  · rw [Response.toPdu]
    split <;> rfl
  · rw [hbindings, List.length_map, ← map_bulkPlan, List.length_map]
    exact scope.length_bulkPlan_le pdu

def exampleScope : Scope Unit where
  registry := {
    entries := #[
      ({ oid := ⟨[1, 3, 1]⟩, type := .integer } : Variable Unit).withConstant (.integer 5),
      ({ oid := ⟨[1, 3, 2]⟩, type := .integer } : Variable Unit).withConstant (.integer 7)]
    ascending := by decide }

/-- One non-repeater, whose walk ends at once, and three repeaters, one of them with its name. -/
def exampleBulk : Pdu :=
  .getBulk 1 1 3 [.unset ⟨[1, 3, 2]⟩, .unset ⟨[1, 3]⟩, .unset ⟨[1, 3, 2]⟩, .unset ⟨[1, 3, 1]⟩]

/-- The end that the non-repeater told is not told again, and walks of different lengths tell
    theirs one after the other. -/
theorem serve_getBulk_exampleBulk :
    ∃ response, exampleScope.serve default exampleBulk () = (.ok (some response), ()) ∧
      response.bindings =
        [⟨⟨[1, 3, 2]⟩, .endOfMibView⟩, ⟨⟨[1, 3, 1]⟩, .integer 5⟩, ⟨⟨[1, 3, 2]⟩, .integer 7⟩,
          ⟨⟨[1, 3, 2]⟩, .integer 7⟩, ⟨⟨[1, 3, 1]⟩, .endOfMibView⟩, ⟨⟨[1, 3]⟩, .endOfMibView⟩] := by
  have hpure : exampleScope.Pure := by
    intro v hv
    simp only [exampleScope, List.mem_toArray, List.mem_cons, List.not_mem_nil, or_false] at hv
    rcases hv with rfl | rfl
    · exact ⟨fun _ h _ => by cases h; rfl, fun _ h => by cases h⟩
    · exact ⟨fun _ h _ => by cases h; rfl, fun _ h => by cases h⟩
  have htype : exampleBulk.type = .getBulkRequest := rfl
  obtain ⟨response, hserve, _, _, hbindings, _, _⟩ := serve_getBulk hpure default () htype
  refine ⟨response, hserve, ?_⟩
  rw [hbindings]
  decide +kernel

end Scope

end Snmp.Mib
