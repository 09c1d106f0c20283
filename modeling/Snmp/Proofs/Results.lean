/-
  Snmp/Proofs/Results.lean
  ========================
  **Steps that may fail.**

  A chain of steps succeeds with what its last step yields, if each step before it succeeds.
  To name the cause of a failure does not touch a success.
-/

namespace Snmp.Except

variable {ε δ α β : Type}

theorem bind_eq_ok {x : Except ε α} {next : α → Except ε β} {b : β} (h : x >>= next = .ok b) :
    ∃ a, x = .ok a ∧ next a = .ok b := by
  cases x with
  | error e => contradiction
  | ok a => exact ⟨a, rfl, h⟩

@[simp] theorem mapError_ok (f : ε → δ) (a : α) :
    (Except.ok a : Except ε α).mapError f = .ok a := rfl

@[simp] theorem mapError_error (f : ε → δ) (e : ε) :
    (Except.error e : Except ε α).mapError f = .error (f e) := rfl

theorem eq_ok_of_mapError {x : Except ε α} {f : ε → δ} {a : α} (h : x.mapError f = .ok a) :
    x = .ok a := by
  cases x with
  | error e => contradiction
  | ok b =>
    cases h
    rfl

/-- A success of which one value is known. -/
theorem eq_ok_of_toOption_map {x : Except ε α} {f : α → β} {b : β}
    (h : x.toOption.map f = some b) : ∃ a, x = .ok a ∧ f a = b := by
  cases x with
  | error e => contradiction
  | ok a =>
    cases h
    exact ⟨a, rfl, rfl⟩

/-- A check of all the members of a list has succeeded for each of them. -/
theorem eq_ok_of_forM {f : α → Except ε PUnit} {members : List α}
    (h : members.forM f = .ok ()) : ∀ a ∈ members, f a = .ok () := by
  induction members with
  | nil => simp
  | cons first rest ih =>
    rcases bind_eq_ok h with ⟨_, hfirst, hrest⟩
    intro a ha
    rcases List.mem_cons.1 ha with rfl | ha
    · exact hfirst
    · exact ih hrest a ha

/-- Each result comes from a member. -/
theorem mem_of_mapM {f : α → Except ε β} {members : List α} : ∀ {results : List β},
    members.mapM f = .ok results → ∀ b ∈ results, ∃ a ∈ members, f a = .ok b := by
  induction members with
  | nil =>
    intro results h b hb
    cases h
    cases hb
  | cons first rest ih =>
    intro results h b hb
    rw [List.mapM_cons] at h
    rcases bind_eq_ok h with ⟨result, hfirst, h⟩
    rcases bind_eq_ok h with ⟨others, hrest, h⟩
    cases h
    rcases List.mem_cons.1 hb with rfl | hb
    · exact ⟨first, List.mem_cons_self, hfirst⟩
    · rcases ih hrest b hb with ⟨a, ha, hab⟩
      exact ⟨a, List.mem_cons_of_mem _ ha, hab⟩

end Snmp.Except
