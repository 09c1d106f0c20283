/-
  Snmp/Proofs/NextWalk.lean
  =========================
  **Walking by GetNext.**

  A manager that asks for what comes after a name, then for what comes after the name in the
  answer, and so on, sees every variable beyond the first name that can be walked, once and in
  ascending order, and is then told the end (`browse_visits`).  It does not matter how the
  callbacks behave nor what becomes of the state between two requests, because the name in an
  answer is that of the variable, whatever was read.

  One step goes to the head of what lies beyond a name (`nextVariable?_eq_head?`), and what lies
  beyond that head is the rest (`beyond_head`); the whole walk follows by induction on what lies
  beyond.  The names below a name are an interval of the order (`startsWith_of_between`), so
  that a walk which begins at a name goes through the names below it first.
-/
import Snmp.Proofs.BulkWalk

namespace Snmp

/-! ### Names below a name -/

namespace Oid

/-- A name comes before the names below it. -/
theorem le_of_startsWith {a b : Oid} (h : b.startsWith a = true) : a ≤ b :=
  show a.arcs ≤ b.arcs from List.IsPrefix.le (List.isPrefixOf_iff_prefix.1 h)

/-- What comes between a name and a name below it is below it as well: the arcs that the two
    share cannot become greater and smaller again. -/
theorem isPrefix_of_between : ∀ {top a b : List UInt32}, top ≤ a → a < b → top <+: b → top <+: a
  | [], _, _, _, _, _ => List.nil_prefix
  | arc :: top, a, b, htop, hab, hb => by
    obtain ⟨below, rfl⟩ := hb
    cases a with
    | nil => exact absurd (List.nil_lt_cons arc top) htop
    | cons first rest =>
      rw [List.cons_append, List.cons_lt_cons_iff] at hab
      rcases List.cons_le_cons_iff.1 htop with hless | ⟨rfl, hrest⟩
      · rcases hab with hgreater | ⟨rfl, _⟩
        · exact absurd hgreater (UInt32.lt_asymm hless)
        · exact absurd hless (UInt32.lt_irrefl _)
      · rcases hab with hgreater | ⟨_, hless⟩
        · exact absurd hgreater (UInt32.lt_irrefl _)
        · exact List.cons_prefix_cons.2
            ⟨rfl, isPrefix_of_between hrest hless (List.prefix_append top below)⟩

theorem startsWith_of_between {top a b : Oid} (htop : top ≤ a) (hab : a < b)
    (hb : b.startsWith top = true) : a.startsWith top = true :=
  List.isPrefixOf_iff_prefix.2
    (isPrefix_of_between htop hab (List.isPrefixOf_iff_prefix.1 hb))

theorem lt_iff_ne_of_startsWith {a b : Oid} (h : b.startsWith a = true) : a < b ↔ b ≠ a := by
  constructor
  · rintro hlt rfl
    exact lt_irrefl _ hlt
  · exact fun hne => lt_of_le_of_ne (le_of_startsWith h) (Ne.symm hne)

end Oid

namespace Mib

variable {σ : Type}

/-! ### What lies beyond a name -/

namespace Registry

variable (r : Registry σ)

/-- The variables beyond a name that can be walked, in ascending order. -/
def beyond (oid : Oid) : List (Variable σ) :=
  r.entries.toList.filter fun v => v.isWalkable && oid < v.oid

/-- The variables below a name that can be walked, in ascending order. -/
def below (oid : Oid) : List (Variable σ) :=
  r.entries.toList.filter fun v => v.isWalkable && v.oid.startsWith oid && v.oid ≠ oid

theorem pairwise_beyond (oid : Oid) : (r.beyond oid).Pairwise fun a b => a.oid < b.oid :=
  r.ascending.filter _

theorem lt_of_mem_beyond {oid : Oid} {v : Variable σ} (h : v ∈ r.beyond oid) : oid < v.oid := by
  have hkeep := (List.mem_filter.1 h).2
  simp only [Bool.and_eq_true, decide_eq_true_eq] at hkeep
  exact hkeep.2

/-- A walk goes on from the index from which on the names come after the given one. -/
theorem exists_start (oid : Oid) : ∃ start, r.next oid = r.walkableFrom start ∧
    ∀ j (h : j < r.entries.size), start ≤ j ↔ oid < r.entries[j].oid := by
  obtain ⟨hbefore, hafter⟩ := r.lowerBound_size oid
  rw [next, position]
  generalize r.lowerBound oid 0 r.size = index at hbefore hafter
  -- The walk goes on behind the entry that has the name, or from the gap where it would stand.
  by_cases hfound : ∃ h : index < r.entries.size, r.entries[index].oid = oid
  · obtain ⟨hindex, rfl⟩ := hfound
    refine ⟨index + 1, by simp [hindex], fun j hj => ⟨fun hlt => r.oid_lt_oid hlt hj, ?_⟩⟩
    intro hlt
    rcases Nat.lt_trichotomy j index with hless | rfl | hgreater
    · exact absurd (Oid.lt_trans hlt (r.oid_lt_oid hless hindex)) (Oid.lt_irrefl _)
    · exact absurd hlt (Oid.lt_irrefl _)
    · exact hgreater
  · have hany : ¬(r.entries[index]?.any fun v => v.oid = oid) = true := by
      intro hany
      by_cases hindex : index < r.entries.size
      · exact hfound ⟨hindex, by simpa [hindex] using hany⟩
      · simp [hindex] at hany
    refine ⟨index, by simp [hany], fun j hj => ⟨fun hle => ?_, fun hlt => ?_⟩⟩
    · have hle' := Oid.not_lt.1 (hafter j hle hj)
      apply Oid.lt_of_le_of_ne hle'
      rintro rfl
      rcases Nat.lt_or_eq_of_le hle with hless | rfl
      · exact hafter index (Nat.le_refl _) (by omega) (r.oid_lt_oid hless hj)
      · exact hfound ⟨hj, rfl⟩
    · apply Nat.le_of_not_lt
      intro hless
      exact Oid.lt_irrefl _ (Oid.lt_trans hlt (hbefore j hless hj))

/-- Looking for a walkable entry from an index on is a search among the entries from there. -/
theorem walkableFrom_eq_find? (index : Nat) :
    (r.walkableFrom index).bind (r.entries[·]?) =
      (r.entries.toList.drop index).find? (·.isWalkable) := by
  fun_induction r.walkableFrom index with
  | case1 index h hwalkable =>
    rw [List.drop_eq_getElem_cons (by simpa using h),
      List.find?_cons_of_pos (by simpa using hwalkable)]
    simp [h]
  | case2 index h hwalkable ih =>
    rw [List.drop_eq_getElem_cons (by simpa using h),
      List.find?_cons_of_neg (by simpa using hwalkable), ih]
  | case3 index h =>
    rw [List.drop_eq_nil_of_le (by simpa using h)]
    rfl

/-- A step of a walk goes to the first variable beyond the name. -/
theorem nextVariable?_eq_head? (oid : Oid) : r.nextVariable? oid = (r.beyond oid).head? := by
  obtain ⟨start, hnext, hstart⟩ := r.exists_start oid
  have hbefore : (r.entries.toList.take start).filter
      (fun v => v.isWalkable && decide (oid < v.oid)) = [] := by
    rw [List.filter_eq_nil_iff]
    intro v hv
    obtain ⟨j, hj, rfl⟩ := List.mem_take_iff_getElem.1 hv
    simp only [Bool.and_eq_true, decide_eq_true_eq, not_and]
    intro _ hlt
    have hle := (hstart j (by simp at hj; omega)).2 (by simpa using hlt)
    omega
  have hafter : (r.entries.toList.drop start).filter
      (fun v => v.isWalkable && decide (oid < v.oid)) =
        (r.entries.toList.drop start).filter (·.isWalkable) := by
    apply List.filter_congr
    intro v hv
    obtain ⟨j, hj, rfl⟩ := List.mem_drop_iff_getElem.1 hv
    have hlt := (hstart (start + j) (by simpa [Nat.add_comm] using hj)).1 (Nat.le_add_right _ _)
    simp [hlt]
  rw [nextVariable?, hnext, walkableFrom_eq_find?, ← List.head?_filter, ← hafter, beyond]
  conv => rhs; rw [← List.take_append_drop start r.entries.toList, List.filter_append, hbefore]
  rfl

/-- Beyond the first variable beyond a name lies the rest. -/
theorem beyond_head {oid : Oid} {v : Variable σ} {rest : List (Variable σ)}
    (h : r.beyond oid = v :: rest) : r.beyond v.oid = rest := by
  have hv := r.lt_of_mem_beyond (h ▸ List.mem_cons_self)
  have hsorted := r.pairwise_beyond oid
  rw [h] at hsorted
  have hrest := (List.pairwise_cons.1 hsorted).1
  have hcut : r.beyond v.oid = (r.beyond oid).filter fun w => v.oid < w.oid := by
    rw [beyond, beyond, List.filter_filter]
    apply List.filter_congr
    intro w _
    by_cases hw : v.oid < w.oid
    · simp [hw, Oid.lt_trans hv hw]
    · simp [hw]
  rw [hcut, h, List.filter_cons_of_neg (by simpa using Oid.lt_irrefl v.oid),
    List.filter_eq_self.2 (by simpa using hrest)]

theorem next_eq_none_iff (oid : Oid) : r.next oid = none ↔ r.beyond oid = [] := by
  rw [← nextVariable?_eq_none, nextVariable?_eq_head?, List.head?_eq_none_iff]

/-- The next index is that of the least variable beyond the name. -/
theorem next_eq_some_iff (oid : Oid) (index : Nat) :
    r.next oid = some index ↔
      ∃ v, r.entries[index]? = some v ∧ v ∈ r.beyond oid ∧ ∀ w ∈ r.beyond oid, v.oid ≤ w.oid := by
  have hleast {i : Nat} (hi : r.next oid = some i) :
      ∃ v, r.entries[i]? = some v ∧ v ∈ r.beyond oid ∧ ∀ w ∈ r.beyond oid, v.oid ≤ w.oid := by
    have hhead := r.nextVariable?_eq_head? oid
    rw [nextVariable?, hi, Option.bind_some,
      Array.getElem?_eq_getElem (lt_size_of_next hi)] at hhead
    obtain ⟨rest, hbeyond⟩ := List.head?_eq_some_iff.1 hhead.symm
    have hsorted := r.pairwise_beyond oid
    rw [hbeyond] at hsorted
    refine ⟨_, Array.getElem?_eq_getElem (lt_size_of_next hi), by simp [hbeyond], ?_⟩
    intro w hw
    rcases List.mem_cons.1 (hbeyond ▸ hw) with rfl | hrest
    · exact Oid.not_lt.1 (Oid.lt_irrefl _)
    · exact Oid.le_of_lt ((List.pairwise_cons.1 hsorted).1 w hrest)
  refine ⟨hleast, ?_⟩
  -- Two least variables have one name, and there is one index to a name.
  rintro ⟨v, hv, hmem, hle⟩
  cases hnext : r.next oid with
  | none =>
    rw [(r.next_eq_none_iff oid).1 hnext] at hmem
    contradiction
  | some i =>
    obtain ⟨w, hw, hmem', hle'⟩ := hleast hnext
    have hoid := Oid.le_antisymm (hle w hmem') (hle' v hmem)
    obtain ⟨hi, rfl⟩ := Array.getElem?_eq_some_iff.1 hw
    obtain ⟨hindex, rfl⟩ := Array.getElem?_eq_some_iff.1 hv
    rcases Nat.lt_trichotomy i index with hless | heq | hgreater
    · exact absurd (r.oid_lt_oid hless hindex) (hoid ▸ Oid.lt_irrefl _)
    · rw [heq]
    · exact absurd (r.oid_lt_oid hgreater hi) (hoid ▸ Oid.lt_irrefl _)

/-- What is kept of a list is its beginning, if only what follows is dropped. -/
theorem takeWhile_eq_filter {α : Type} {keep : α → Bool} {members : List α}
    (h : members.Pairwise fun a b => keep b = true → keep a = true) :
    members.takeWhile keep = members.filter keep := by
  induction members with
  | nil => rfl
  | cons a rest ih =>
    obtain ⟨hfirst, hrest⟩ := List.pairwise_cons.1 h
    by_cases ha : keep a = true
    · rw [List.takeWhile_cons_of_pos ha, List.filter_cons_of_pos ha, ih hrest]
    · rw [List.takeWhile_cons_of_neg ha, List.filter_cons_of_neg ha, eq_comm,
        List.filter_eq_nil_iff]
      exact fun b hb hkeep => ha (hfirst b hb hkeep)

/-- What lies beyond a name begins with what lies below it. -/
theorem takeWhile_beyond (oid : Oid) :
    (r.beyond oid).takeWhile (·.oid.startsWith oid) = r.below oid := by
  have hinterval : (r.beyond oid).Pairwise fun a b =>
      b.oid.startsWith oid = true → a.oid.startsWith oid = true := by
    apply (r.pairwise_beyond oid).imp_of_mem
    intro a b ha _ hab
    exact Oid.startsWith_of_between (Oid.le_of_lt (r.lt_of_mem_beyond ha)) hab
  rw [takeWhile_eq_filter hinterval, beyond, below, List.filter_filter]
  apply List.filter_congr
  intro v _
  by_cases hbelow : v.oid.startsWith oid = true
  · simp [hbelow, Oid.lt_iff_ne_of_startsWith hbelow]
  · simp [hbelow]

end Registry

/-! ### Asking -/

/-- The circumstances of a request: who sends it, how it is numbered, and what becomes of the
    state before it is served. -/
structure Occasion (σ : Type) where
  context : RequestContext
  requestId : Int32
  meanwhile : σ → σ

namespace Scope

/-- The GetNext request for one name. -/
def nextRequest (requestId : Int32) (oid : Oid) : Pdu :=
  ⟨.getNextRequest, requestId, 0, 0, [.unset oid]⟩

/-- The binding of a response that has one. -/
def onlyBinding? : Except Error (Option Pdu) → Option Binding
  | .ok (some ⟨.response, _, _, _, [binding]⟩) => some binding
  | _ => none

/-- Sends a GetNext request for one name.  The binding of the response. -/
def askNext (scope : Scope σ) (occasion : Occasion σ) (oid : Oid) :
    StateM σ (Option Binding) := do
  modify occasion.meanwhile
  return onlyBinding?
    (← scope.serve occasion.context (nextRequest occasion.requestId oid))

/-- Asks for what comes after a name, then for what comes after the name in the answer, until
    the end is told or `count` requests were sent.  The bindings of the responses. -/
def browse (scope : Scope σ) (occasions : Nat → Occasion σ) : (count : Nat) → Oid →
    StateM σ (List Binding)
  | 0, _ => return []
  | count + 1, oid => do
    match ← scope.askNext (occasions 0) oid with
    | none => return []
    | some binding =>
      if binding.value = .endOfMibView then return [binding]
      else return binding :: (← scope.browse (fun n => occasions (n + 1)) count binding.oid)

section Browsing

variable (scope : Scope σ)

theorem onlyBinding?_toPdu (answer : Answer) (request : Pdu) :
    onlyBinding? (.ok (some (Response.toPdu ⟨[answer]⟩ request))) = some answer.binding := by
  rw [Response.toPdu]
  split <;> rfl

theorem askNext_eq (occasion : Occasion σ) (oid : Oid) (state : σ) :
    scope.askNext occasion oid state =
      let answered := scope.answerNext occasion.context 0 (.unset oid) (occasion.meanwhile state)
      (some answered.1.binding, answered.2) :=
  Prod.ext (onlyBinding?_toPdu _ _) rfl

/-- Nothing lies beyond the name: the end is told with it. -/
theorem askNext_of_nil {oid : Oid} (h : scope.registry.beyond oid = []) (occasion : Occasion σ)
    (state : σ) : (scope.askNext occasion oid state).1 = some ⟨oid, .endOfMibView⟩ := by
  have hnone : scope.registry.nextVariable? oid = none := by
    rw [Registry.nextVariable?_eq_head?, h, List.head?_nil]
  rw [askNext_eq, answerNext]
  simp only [Binding.unset, hnone]
  rfl

/-- The first variable beyond the name is answered for, and it is not told that the end is
    reached. -/
theorem askNext_of_cons {oid : Oid} {v : Variable σ} {rest : List (Variable σ)}
    (h : scope.registry.beyond oid = v :: rest) (occasion : Occasion σ) (state : σ) :
    ∃ binding, (scope.askNext occasion oid state).1 = some binding ∧ binding.oid = v.oid ∧
      binding.value ≠ .endOfMibView := by
  have hsome : scope.registry.nextVariable? oid = some v := by
    rw [Registry.nextVariable?_eq_head?, h, List.head?_cons]
  have hnames := scope.names_answerRead occasion.context 0 v (occasion.meanwhile state)
  rw [askNext_eq, answerNext]
  simp only [Binding.unset, hsome]
  exact ⟨_, rfl, hnames.oid, hnames.value⟩

theorem browse_of_askNext {occasions : Nat → Occasion σ} {oid : Oid} {state : σ}
    {binding : Binding} (h : (scope.askNext (occasions 0) oid state).1 = some binding)
    (count : Nat) :
    (scope.browse occasions (count + 1) oid state).1 =
      if binding.value = .endOfMibView then [binding]
      else binding :: (scope.browse (fun n => occasions (n + 1)) count binding.oid
        (scope.askNext (occasions 0) oid state).2).1 := by
  cases hask : scope.askNext (occasions 0) oid state with
  | mk asked after =>
    rw [hask] at h
    cases h
    simp only [browse, bind, StateT.bind, hask]
    split <;> rfl

/-- A walk goes through what lies beyond the name, and is told the end with the last name, by
    induction on what lies beyond. -/
theorem browse_eq (visited : List (Variable σ)) : ∀ (oid : Oid) (occasions : Nat → Occasion σ)
    (count : Nat) (state : σ), scope.registry.beyond oid = visited → visited.length < count →
    ∃ answers, (scope.browse occasions count oid state).1 =
        answers ++ [⟨(visited.map (·.oid)).getLastD oid, .endOfMibView⟩] ∧
      answers.map (·.oid) = visited.map (·.oid) ∧
      ∀ answer ∈ answers, answer.value ≠ .endOfMibView := by
  induction visited with
  | nil =>
    intro oid occasions count state hbeyond hcount
    obtain ⟨count, rfl⟩ := Nat.exists_eq_add_of_lt hcount
    refine ⟨[], ?_, rfl, by simp⟩
    rw [scope.browse_of_askNext (scope.askNext_of_nil hbeyond _ state), if_pos rfl]
    rfl
  | cons v rest ih =>
    intro oid occasions count state hbeyond hcount
    obtain ⟨count, rfl⟩ := Nat.exists_eq_add_of_lt hcount
    obtain ⟨binding, hask, hoid, hvalue⟩ := scope.askNext_of_cons hbeyond (occasions 0) state
    obtain ⟨answers, hanswers, hoids, hvalues⟩ := ih v.oid (fun n => occasions (n + 1))
      (rest.length + 1 + count) (scope.askNext (occasions 0) oid state).2
      (scope.registry.beyond_head hbeyond) (by omega)
    refine ⟨binding :: answers, ?_, ?_, ?_⟩
    · rw [List.length_cons, scope.browse_of_askNext hask, if_neg hvalue, hoid, hanswers,
        List.map_cons, List.getLastD_cons, List.cons_append]
    · rw [List.map_cons, List.map_cons, hoid, hoids]
    · intro answer hanswer
      rcases List.mem_cons.1 hanswer with rfl | hrest
      · exact hvalue
      · exact hvalues answer hrest

end Browsing

/-- **A walk by GetNext is complete and ends.**  The next index is that of the least walkable
    entry with a greater name, if there is one.  So whatever callbacks do, and whatever happens
    between the requests, a walk visits the walkable entries with greater names in strictly
    ascending order, one with each request, and one request later it is told the end with the
    last name.  Until the first name that does not begin with the name at which the walk began,
    it visits exactly the walkable entries properly below that name. -/
theorem browse_visits (scope : Scope σ) (oid : Oid) :
    (∀ index, scope.registry.next oid = some index ↔
      ∃ v, scope.registry.entries[index]? = some v ∧ v ∈ scope.registry.beyond oid ∧
        ∀ w ∈ scope.registry.beyond oid, v.oid ≤ w.oid) ∧
    (scope.registry.next oid = none ↔ scope.registry.beyond oid = []) ∧
    ((scope.registry.beyond oid).Pairwise fun v w => v.oid < w.oid) ∧
    ∀ (occasions : Nat → Occasion σ) (state : σ) (count : Nat),
      (scope.registry.beyond oid).length < count →
      ∃ answers, (scope.browse occasions count oid state).1 =
          answers ++ [⟨((scope.registry.beyond oid).map (·.oid)).getLastD oid, .endOfMibView⟩] ∧
        answers.map (·.oid) = (scope.registry.beyond oid).map (·.oid) ∧
        (∀ answer ∈ answers, answer.value ≠ .endOfMibView) ∧
        (answers.map (·.oid)).takeWhile (·.startsWith oid) =
          (scope.registry.below oid).map (·.oid) := by
  refine ⟨scope.registry.next_eq_some_iff oid, scope.registry.next_eq_none_iff oid,
    scope.registry.pairwise_beyond oid, fun occasions state count hcount => ?_⟩
  obtain ⟨answers, hanswers, hoids, hvalues⟩ :=
    scope.browse_eq _ oid occasions count state rfl hcount
  refine ⟨answers, hanswers, hoids, hvalues, ?_⟩
  rw [hoids, List.takeWhile_map, ← scope.registry.takeWhile_beyond]
  rfl

/-- Variables of which one is hidden, one breaks down when it is read, and one cannot be read. -/
def patchyScope : Scope Nat where
  registry := {
    entries := #[
      { oid := ⟨[1, 3, 6, 1]⟩, type := .integer
        read? := some fun state => (.ok (.integer 5), state + 1) },
      { oid := ⟨[1, 3, 6, 1, 7]⟩, type := .integer, isHidden := true
        read? := some fun state => (.ok (.integer 6), state) },
      { oid := ⟨[1, 3, 6, 2]⟩, type := .integer
        read? := some fun state => (.error (.brokeDown .silent), state) },
      { oid := ⟨[1, 3, 6, 3]⟩, type := .integer
        write? := some fun _ state => (.ok (), state) },
      { oid := ⟨[1, 3, 7]⟩, type := .integer
        read? := some fun state => (.ok (.integer 8), state) }]
    ascending := by decide }

/-- A walk from the name above the first four goes past the hidden one and the one that cannot be
    read. -/
theorem browse_visits_patchyScope :
    (patchyScope.registry.beyond ⟨[1, 3, 6]⟩).length < 5 ∧
      ∃ answers, (patchyScope.browse (fun n => ⟨default, 1, (· + n)⟩) 5 ⟨[1, 3, 6]⟩ 0).1 =
          answers ++ [⟨⟨[1, 3, 7]⟩, .endOfMibView⟩] ∧
        answers.map (·.oid) = [⟨[1, 3, 6, 1]⟩, ⟨[1, 3, 6, 2]⟩, ⟨[1, 3, 7]⟩] ∧
        (answers.map (·.oid)).takeWhile (·.startsWith ⟨[1, 3, 6]⟩) =
          [⟨[1, 3, 6, 1]⟩, ⟨[1, 3, 6, 2]⟩] := by
  have hlength : (patchyScope.registry.beyond ⟨[1, 3, 6]⟩).length < 5 := by decide
  obtain ⟨_, _, _, hwalk⟩ := browse_visits patchyScope ⟨[1, 3, 6]⟩
  obtain ⟨answers, hanswers, hoids, _, hbelow⟩ := hwalk (fun n => ⟨default, 1, (· + n)⟩) 0 5 hlength
  have hbeyond : (patchyScope.registry.beyond ⟨[1, 3, 6]⟩).map (·.oid) =
      [⟨[1, 3, 6, 1]⟩, ⟨[1, 3, 6, 2]⟩, ⟨[1, 3, 7]⟩] := by decide
  rw [hbeyond] at hanswers hoids
  exact ⟨hlength, answers, hanswers, hoids, hbelow.trans (by decide)⟩

end Scope

end Mib

end Snmp
