/-
  Snmp/Proofs/RegistryWalk.lean
  =============================
  **Finding names and walking on from them.**

  Halving finds the least index whose entry does not come before an identifier; since entries
  are strictly ascending, that index holds the identifier if any does.  So going on from the
  name of an entry is going on from its index, and a walk computed ahead of time visits exactly
  the entries that stepping one by one visits.
-/
import Snmp.Mib.Registry

namespace Snmp.Mib.Registry

variable {σ : Type}

/-! ### Halving -/

/-- Entries further on have greater names. -/
theorem oid_lt_oid (r : Registry σ) {i j : Nat} (hij : i < j) (hj : j < r.entries.size) :
    r.entries[i].oid < r.entries[j].oid := by
  have h := List.pairwise_iff_getElem.1 r.ascending i j (by simpa using Nat.lt_trans hij hj)
    (by simpa using hj) hij
  simpa using h

/-- What comes before `oid` is an initial piece of the entries. -/
theorem any_lt_iff (r : Registry σ) (oid : Oid) (i : Nat) :
    r.entries[i]?.any (·.oid < oid) = true ↔
      ∃ h : i < r.entries.size, r.entries[i].oid < oid := by
  by_cases h : i < r.entries.size
  · simp [h]
  · simp [h]

/-- Halving keeps what is known on both sides of the gap, by induction on the gap. -/
theorem lowerBound_spec (r : Registry σ) (oid : Oid) : ∀ (gap low high : Nat), gap = high - low →
    low ≤ high → high ≤ r.entries.size →
    (∀ j (_ : j < low) (h : j < r.entries.size), r.entries[j].oid < oid) →
    (∀ j (_ : high ≤ j) (h : j < r.entries.size), ¬r.entries[j].oid < oid) →
    low ≤ r.lowerBound oid low high ∧ r.lowerBound oid low high ≤ high ∧
      (∀ j (_ : j < r.lowerBound oid low high) (h : j < r.entries.size),
        r.entries[j].oid < oid) ∧
      (∀ j (_ : r.lowerBound oid low high ≤ j) (h : j < r.entries.size),
        ¬r.entries[j].oid < oid) := by
  intro gap
  induction gap using Nat.strongRecOn with
  | _ gap ih =>
    intro low high hgap hle hhigh hbelow habove
    rw [lowerBound]
    by_cases hlt : low < high
    · rw [if_pos hlt]
      by_cases hany : r.entries[(low + high) / 2]?.any (·.oid < oid) = true
      · rw [if_pos hany]
        obtain ⟨hmiddle, hoid⟩ := (r.any_lt_iff oid _).1 hany
        have hbelow' : ∀ j (_ : j < (low + high) / 2 + 1) (h : j < r.entries.size),
            r.entries[j].oid < oid := by
          intro j hj h
          rcases Nat.lt_or_eq_of_le (Nat.lt_succ_iff.1 hj) with hbefore | heq
          · exact Oid.lt_trans (r.oid_lt_oid hbefore hmiddle) hoid
          · simpa only [heq] using hoid
        rcases ih (high - ((low + high) / 2 + 1)) (by omega)
          ((low + high) / 2 + 1) high rfl (by omega) hhigh hbelow' habove with
          ⟨hlow', hhigh', hrest⟩
        exact ⟨by omega, hhigh', hrest⟩
      · rw [if_neg hany]
        have habove' : ∀ j (_ : (low + high) / 2 ≤ j) (h : j < r.entries.size),
            ¬r.entries[j].oid < oid := by
          intro j hj h hoid
          apply hany
          rw [any_lt_iff]
          refine ⟨by omega, ?_⟩
          rcases Nat.lt_or_eq_of_le hj with hafter | heq
          · exact Oid.lt_trans (r.oid_lt_oid hafter h) hoid
          · simpa only [heq] using hoid
        rcases ih ((low + high) / 2 - low) (by omega)
          low ((low + high) / 2) rfl (by omega) (by omega) hbelow habove' with
          ⟨hlow', hhigh', hrest⟩
        exact ⟨hlow', by omega, hrest⟩
    · rw [if_neg hlt]
      have heq : low = high := by omega
      exact ⟨Nat.le_refl _, hle, hbelow, fun j hj h => habove j (by omega) h⟩

theorem lowerBound_size (r : Registry σ) (oid : Oid) :
    (∀ j (_ : j < r.lowerBound oid 0 r.size) (h : j < r.entries.size), r.entries[j].oid < oid) ∧
      (∀ j (_ : r.lowerBound oid 0 r.size ≤ j) (h : j < r.entries.size),
        ¬r.entries[j].oid < oid) :=
  (r.lowerBound_spec oid _ 0 r.size rfl (Nat.zero_le _) (Nat.le_refl _)
    (fun _ hj _ => absurd hj (Nat.not_lt_zero _))
    (fun _ hj h => absurd h (Nat.not_lt.2 hj))).2.2

/-- The name of an entry is found at the index of the entry. -/
theorem position_oid (r : Registry σ) {i : Nat} (hi : i < r.entries.size) :
    r.position r.entries[i].oid = .found i := by
  obtain ⟨hbelow, habove⟩ := r.lowerBound_size r.entries[i].oid
  have heq : r.lowerBound r.entries[i].oid 0 r.size = i := by
    rcases Nat.lt_trichotomy (r.lowerBound r.entries[i].oid 0 r.size) i with hlt | heq | hgt
    · exact absurd (r.oid_lt_oid hlt hi) (habove _ (Nat.le_refl _) (Nat.lt_trans hlt hi))
    · exact heq
    · exact absurd (hbelow i hgt hi) (Oid.lt_irrefl _)
  simp [position, heq, hi]

/-- An entry is found under its name. -/
theorem find?_oid (r : Registry σ) {i : Nat} {v : Variable σ} (h : r.entries[i]? = some v) :
    r.find? v.oid = some v := by
  obtain ⟨hi, rfl⟩ := Array.getElem?_eq_some_iff.1 h
  rw [find?, position_oid r hi]
  exact h

/-! ### Walking -/

/-- Going on from the name of an entry is going on from its index. -/
theorem next_oid (r : Registry σ) {i : Nat} (hi : i < r.entries.size) :
    r.next r.entries[i].oid = r.nextAfter i := by
  rw [next, position_oid r hi, nextAfter]

theorem walkableFrom_bounds (r : Registry σ) : ∀ (gap index i : Nat),
    gap = r.entries.size - index → r.walkableFrom index = some i →
    index ≤ i ∧ i < r.entries.size := by
  intro gap
  induction gap with
  | zero =>
    intro index i hgap h
    rw [walkableFrom, dif_neg (by omega)] at h
    contradiction
  | succ gap ih =>
    intro index i hgap h
    have hindex : index < r.entries.size := by omega
    rw [walkableFrom, dif_pos hindex] at h
    split at h
    · cases h
      exact ⟨Nat.le_refl _, hindex⟩
    · rcases ih (index + 1) i (by omega) h with ⟨hle, hlt⟩
      exact ⟨by omega, hlt⟩

theorem lt_size_of_next {r : Registry σ} {oid : Oid} {i : Nat} (h : r.next oid = some i) :
    i < r.entries.size := by
  rw [next] at h
  split at h <;> exact (r.walkableFrom_bounds _ _ i rfl h).2

theorem bounds_of_nextAfter {r : Registry σ} {index i : Nat} (h : r.nextAfter index = some i) :
    index < i ∧ i < r.entries.size := by
  obtain ⟨hle, hlt⟩ := r.walkableFrom_bounds _ _ i rfl h
  exact ⟨by omega, hlt⟩

theorem nextVariable?_eq_none (r : Registry σ) (oid : Oid) :
    r.nextVariable? oid = none ↔ r.next oid = none := by
  rw [nextVariable?]
  cases h : r.next oid with
  | none => simp
  | some i => simp [lt_size_of_next h]

/-- The index after `count` steps from an index. -/
def stepIndex (r : Registry σ) (count : Nat) (first : Option Nat) : Option Nat :=
  match count with
  | 0 => first
  | count + 1 => (r.stepIndex count first).bind r.nextAfter

theorem stepIndex_none (r : Registry σ) (count : Nat) : r.stepIndex count none = none := by
  induction count with
  | zero => rfl
  | succ count ih => rw [stepIndex, ih, Option.bind_none]

theorem lt_size_of_stepIndex {r : Registry σ} {first : Option Nat}
    (hfirst : ∀ i, first = some i → i < r.entries.size) :
    ∀ {count i : Nat}, r.stepIndex count first = some i → i < r.entries.size := by
  intro count i h
  cases count with
  | zero => exact hfirst i h
  | succ count =>
    rcases Option.bind_eq_some_iff.1 h with ⟨index, _, hnext⟩
    exact (bounds_of_nextAfter hnext).2

theorem stepIndex_succ (r : Registry σ) (count : Nat) (index : Nat) :
    r.stepIndex (count + 1) (some index) = r.stepIndex count (r.nextAfter index) := by
  induction count with
  | zero => rfl
  | succ count ih => rw [stepIndex, ih, stepIndex]

/-- The variables of a walk. -/
def ahead (r : Registry σ) (count : Nat) (first : Option Nat) : List (Variable σ) :=
  (r.walk count first).filterMap (r.entries[·]?)

theorem ahead_some (r : Registry σ) (count : Nat) {index : Nat} (h : index < r.entries.size) :
    r.ahead (count + 1) (some index) =
      r.entries[index] :: r.ahead count (r.nextAfter index) := by
  simp [ahead, walk, h]

/-- A walk computed ahead of time holds the entries that stepping comes to, by induction on its
    length. -/
theorem getElem?_ahead (r : Registry σ) : ∀ (count : Nat) (first : Option Nat) (n : Nat),
    (∀ i, first = some i → i < r.entries.size) → n < count →
    (r.ahead count first)[n]? = (r.stepIndex n first).bind (r.entries[·]?) := by
  intro count
  induction count with
  | zero => exact fun _ n _ hn => absurd hn (Nat.not_lt_zero n)
  | succ count ih =>
    intro first n hfirst hn
    cases first with
    | none =>
      rw [stepIndex_none]
      rfl
    | some index =>
      have hindex := hfirst index rfl
      rw [r.ahead_some count hindex]
      cases n with
      | zero => simp [stepIndex, hindex]
      | succ n =>
        rw [List.getElem?_cons_succ, stepIndex_succ]
        exact ih _ n (fun i hi => (bounds_of_nextAfter hi).2) (by omega)

theorem length_ahead_le (r : Registry σ) : ∀ (count : Nat) (first : Option Nat) (index : Nat),
    (∀ i, first = some i → index ≤ i ∧ i < r.entries.size) →
    (r.ahead count first).length ≤ r.entries.size - index := by
  intro count
  induction count with
  | zero => exact fun _ _ _ => Nat.zero_le _
  | succ count ih =>
    intro first index hfirst
    cases first with
    | none => exact Nat.zero_le _
    | some i =>
      obtain ⟨hle, hlt⟩ := hfirst i rfl
      have hrest := ih (r.nextAfter i) (i + 1) fun j hj =>
        ⟨(bounds_of_nextAfter hj).1, (bounds_of_nextAfter hj).2⟩
      rw [r.ahead_some count hlt, List.length_cons]
      omega

end Snmp.Mib.Registry
