/-
  Snmp/Proofs/RegistryOrder.lean
  ==============================
  **A registry is its variables in the order of their names.**

  The order of identifiers is that of the numbers of their arcs (`Precedes`).  Variables are
  registered exactly if their names survive encoding and are distinct; what comes out does not
  depend on the order in which they were given, because there is only one strictly ascending
  arrangement of them.  Where an identifier belongs is said of the arrangement alone
  (`Locates`), and halving finds it, at both ends as in the middle.
-/
import Snmp.Proofs.ConsistentConfigs
import Snmp.Proofs.RegistryWalk

namespace Snmp

namespace Oid

/-- What comes before in the order of numbers: after the arcs that both have, there is no arc more
    on the one side or a smaller one. -/
def Precedes (a b : Oid) : Prop :=
  ∃ common : List UInt32,
    (∃ arc rest, a.arcs = common ∧ b.arcs = common ++ arc :: rest) ∨
    ∃ x y restA restB, a.arcs = common ++ x :: restA ∧ b.arcs = common ++ y :: restB ∧
      x.toNat < y.toNat

theorem lt_iff_precedes (a b : Oid) : a < b ↔ a.Precedes b := by
  obtain ⟨as⟩ := a
  obtain ⟨bs⟩ := b
  show as < bs ↔ _
  induction as generalizing bs with
  | nil =>
    cases bs with
    | nil => simp [Precedes]
    | cons y bs => exact ⟨fun _ => ⟨[], .inl ⟨y, bs, rfl, rfl⟩⟩, fun _ => List.nil_lt_cons y bs⟩
  | cons x as ih =>
    cases bs with
    | nil => simp [Precedes]
    | cons y bs =>
      rw [List.cons_lt_cons_iff, UInt32.lt_iff_toNat_lt, ih]
      constructor
      · rintro (hlt | ⟨rfl, common, h⟩)
        · exact ⟨[], .inr ⟨x, y, as, bs, rfl, rfl, hlt⟩⟩
        · refine ⟨x :: common, h.imp ?_ ?_⟩
          · rintro ⟨arc, rest, rfl, rfl⟩
            exact ⟨arc, rest, rfl, rfl⟩
          · rintro ⟨c, d, restA, restB, rfl, rfl, hlt⟩
            exact ⟨c, d, restA, restB, rfl, rfl, hlt⟩
      · rintro ⟨common, h⟩
        cases common with
        | nil =>
          rcases h with ⟨arc, rest, h, -⟩ | ⟨c, d, restA, restB, ha, hb, hlt⟩
          · contradiction
          · cases ha
            cases hb
            exact .inl hlt
        | cons first common =>
          rcases h with ⟨arc, rest, ha, hb⟩ | ⟨c, d, restA, restB, ha, hb, hlt⟩
          · cases ha
            cases hb
            exact .inr ⟨rfl, as, .inl ⟨arc, rest, rfl, rfl⟩⟩
          · cases ha
            cases hb
            exact .inr ⟨rfl, common, .inr ⟨c, d, restA, restB, rfl, rfl, hlt⟩⟩

end Oid

namespace Mib

variable {σ : Type}

/-- A name that two neighbours share occurs twice. -/
theorem two_le_count_of_sharedOid? {entries : List (Variable σ)} {oid : Oid}
    (h : sharedOid? entries = some oid) : 2 ≤ (entries.map (·.oid)).count oid := by
  induction entries with
  | nil => contradiction
  | cons a rest ih =>
    cases rest with
    | nil => contradiction
    | cons b rest =>
      rw [sharedOid?] at h
      split at h
      · rename_i hsame
        cases h
        simp [← hsame]
      · exact Nat.le_trans (ih h) List.count_le_count_cons

namespace Registry

/-! ### Positions -/

/-- Where an identifier belongs: at the entry of this name, or behind just those entries that come
    before it. -/
inductive Locates (r : Registry σ) (oid : Oid) : Position → Prop
  | found {index : Nat} (inside : index < r.entries.size) (named : r.entries[index].oid = oid) :
      Locates r oid (.found index)
  | absent {index : Nat} (inside : index ≤ r.entries.size)
      (unnamed : ∀ v ∈ r.entries, v.oid ≠ oid)
      (before : ∀ (i : Nat) (h : i < r.entries.size), r.entries[i].oid.Precedes oid ↔ i < index) :
      Locates r oid (.absent index)

/-- Halving comes to the place of an identifier: if no entry has its name, what is left before the
    index comes before the identifier and the rest does not. -/
theorem locates_position (r : Registry σ) (oid : Oid) : r.Locates oid (r.position oid) := by
  by_cases hnamed : ∃ v ∈ r.entries, v.oid = oid
  · obtain ⟨v, hv, rfl⟩ := hnamed
    obtain ⟨i, hi, rfl⟩ := Array.mem_iff_getElem.1 hv
    rw [r.position_oid hi]
    exact .found hi rfl
  · have hunnamed : ∀ v ∈ r.entries, v.oid ≠ oid := fun v hv hoid => hnamed ⟨v, hv, hoid⟩
    obtain ⟨-, hinside, hbelow, habove⟩ := r.lowerBound_spec oid _ 0 r.size rfl (Nat.zero_le _)
      (Nat.le_refl _) (fun _ hj _ => absurd hj (Nat.not_lt_zero _))
      (fun _ hj h => absurd h (Nat.not_lt.2 hj))
    have hposition : r.position oid = .absent (r.lowerBound oid 0 r.size) := by
      refine if_neg fun h => ?_
      obtain ⟨v, hv, hoid⟩ := (Option.any_eq_true _ _).1 h
      exact hunnamed v (Array.mem_of_getElem? hv) (of_decide_eq_true hoid)
    rw [hposition]
    refine .absent hinside hunnamed fun i hi => ?_
    rw [← Oid.lt_iff_precedes]
    exact ⟨fun h => Nat.lt_of_not_le fun hle => habove i hle hi h, fun hlt => hbelow i hlt hi⟩

/-- An identifier belongs in one place only. -/
theorem Locates.position_eq {r : Registry σ} {oid : Oid} {p : Position} (h : r.Locates oid p) :
    r.position oid = p := by
  cases h with
  | found hi hnamed =>
    subst hnamed
    exact r.position_oid hi
  | @absent i hi hunnamed hbefore =>
    have hplace := r.locates_position oid
    generalize r.position oid = place at hplace ⊢
    cases hplace with
    | found hj hnamed => exact absurd hnamed (hunnamed _ (Array.getElem_mem hj))
    | @absent j hj _ hbefore' =>
      rcases Nat.lt_trichotomy i j with hlt | rfl | hgt
      · have hsize : i < r.entries.size := by omega
        exact absurd ((hbefore i hsize).1 ((hbefore' i hsize).2 hlt)) (Nat.lt_irrefl i)
      · rfl
      · have hsize : j < r.entries.size := by omega
        exact absurd ((hbefore' j hsize).1 ((hbefore j hsize).2 hgt)) (Nat.lt_irrefl j)

theorem position_eq_iff (r : Registry σ) (oid : Oid) (p : Position) :
    r.position oid = p ↔ r.Locates oid p :=
  ⟨fun h => h ▸ r.locates_position oid, fun h => h.position_eq⟩

theorem find?_eq_some_iff (r : Registry σ) (oid : Oid) (v : Variable σ) :
    r.find? oid = some v ↔ v ∈ r.entries ∧ v.oid = oid := by
  constructor
  · intro h
    have hlocates := r.locates_position oid
    rw [find?] at h
    cases hposition : r.position oid with
    | absent index =>
      rw [hposition] at h
      contradiction
    | found index =>
      rw [hposition] at h hlocates
      cases hlocates with
      | found hindex hnamed =>
        cases (Array.getElem?_eq_getElem hindex).symm.trans h
        exact ⟨Array.getElem_mem hindex, hnamed⟩
  · rintro ⟨hv, rfl⟩
    obtain ⟨i, hi⟩ := Array.getElem?_of_mem hv
    exact r.find?_oid hi

/-! ### Registration -/

theorem toList_of_ofVariables {entries : List (Variable σ)} {r : Registry σ}
    (h : ofVariables entries = .ok r) : r.entries.toList = sortByOid entries := by
  rw [ofVariables] at h
  split at h
  · contradiction
  · simp only at h
    split at h
    · contradiction
    · cases h
      rfl

/-- There is only one strictly ascending arrangement of variables. -/
theorem ofVariables_perm {entries others : List (Variable σ)} {r : Registry σ}
    (h : ofVariables entries = .ok r) (hperm : others.Perm entries) :
    ofVariables others = .ok r := by
  have hvalid := (exists_ofVariables_iff entries).1 ⟨r, h⟩
  obtain ⟨s, hs⟩ := (exists_ofVariables_iff others).2
    ⟨fun v hv => hvalid.1 v (hperm.mem_iff.1 hv), (hperm.map _).nodup_iff.2 hvalid.2⟩
  have hsame : s.entries.toList.Perm r.entries.toList := by
    rw [toList_of_ofVariables h, toList_of_ofVariables hs]
    exact (List.mergeSort_perm others _).trans (hperm.trans (List.mergeSort_perm entries _).symm)
  have hlists : s.entries.toList = r.entries.toList :=
    hsame.eq_of_pairwise (fun a b _ _ hab hba => absurd (Oid.lt_trans hab hba) (Oid.lt_irrefl _))
      s.ascending r.ascending
  obtain ⟨rentries, hr⟩ := r
  obtain ⟨sentries, hsorted⟩ := s
  cases Array.toList_inj.1 hlists
  exact hs

theorem forM_checkEncodable_of_find? {entries : List (Variable σ)} {v : Variable σ}
    (h : entries.find? (fun v => !v.oid.isEncodable) = some v) :
    entries.forM (fun v => v.oid.checkEncodable) =
      .error (.invalidOid .notEncodable (some v.oid.dotted)) := by
  induction entries with
  | nil => contradiction
  | cons first rest ih =>
    rw [List.find?_cons] at h
    cases hfirst : first.oid.isEncodable with
    | true =>
      rw [hfirst] at h
      simp only [List.forM, Oid.checkEncodable, hfirst, if_true]
      exact ih h
    | false =>
      rw [hfirst] at h
      cases h
      simp only [List.forM, Oid.checkEncodable, hfirst]
      rfl

/-- The first name that fails the check is reported, whatever else is wrong. -/
theorem ofVariables_of_find? {entries : List (Variable σ)} {v : Variable σ}
    (h : entries.find? (fun v => !v.oid.isEncodable) = some v) :
    ofVariables entries = .error (.invalidOid .notEncodable (some v.oid.dotted)) := by
  simp only [ofVariables, forM_checkEncodable_of_find? h]

/-- Names that pass the check but are not distinct are reported by one that occurs twice. -/
theorem ofVariables_of_not_nodup {entries : List (Variable σ)}
    (hchecked : ∀ v ∈ entries, v.oid.checkEncodable = .ok ())
    (hshared : ¬(entries.map (·.oid)).Nodup) :
    ∃ oid, ofVariables entries = .error (.config (.duplicateOid oid)) ∧
      2 ≤ (entries.map (·.oid)).count oid := by
  have hperm : (sortByOid entries).Perm entries := List.mergeSort_perm entries _
  rw [← (hperm.map _).nodup_iff, ← sharedOid?_eq_none_iff (pairwise_sortByOid entries)] at hshared
  obtain ⟨oid, hoid⟩ := Option.ne_none_iff_exists'.1 hshared
  refine ⟨oid, ?_, ?_⟩
  · simp only [ofVariables, Except.forM_eq_ok_iff.2 hchecked]
    split
    · rename_i other hother
      rw [hoid] at hother
      cases hother
      rfl
    · rename_i hnone
      exact absurd hnone hshared
  · rw [← (hperm.map _).count_eq]
    exact two_le_count_of_sharedOid? hoid

/-- What a registry has to do with the variables that are registered. -/
structure Holds (r : Registry σ) (entries : List (Variable σ)) : Prop where
  same : r.entries.toList.Perm entries
  ascending : r.entries.toList.Pairwise fun a b => a.oid.Precedes b.oid
  located : ∀ oid p, r.position oid = p ↔ r.Locates oid p
  found : ∀ oid v, r.find? oid = some v ↔ v ∈ entries ∧ v.oid = oid
  anyOrder : ∀ others : List (Variable σ), others.Perm entries → ofVariables others = .ok r

theorem holds_of_ofVariables {entries : List (Variable σ)} {r : Registry σ}
    (h : ofVariables entries = .ok r) : r.Holds entries := by
  have hsame : r.entries.toList.Perm entries := by
    rw [toList_of_ofVariables h]
    exact List.mergeSort_perm entries _
  refine ⟨hsame, ?_, r.position_eq_iff, ?_, fun others => ofVariables_perm h⟩
  · exact r.ascending.imp fun {a b} hlt => (Oid.lt_iff_precedes a.oid b.oid).1 hlt
  · intro oid v
    rw [find?_eq_some_iff, ← hsame.mem_iff, Array.mem_toList_iff]

/-- **A registry is its variables, strictly ascending by name.**  Variables are registered if all
    names pass the check and are distinct.  The registry then holds just these variables in the
    numeric order of their names, wherever each stood in the list; an identifier is located at
    the entry of its name or between the entries before and after it, and a variable is found
    under its name.  Of the reasons to refuse variables, a name that fails the check comes before
    a name that occurs twice. -/
theorem ofVariables_arranges (entries : List (Variable σ)) :
    ((∃ r, ofVariables entries = .ok r) ↔
      (∀ v ∈ entries, v.oid.checkEncodable = .ok ()) ∧ (entries.map (·.oid)).Nodup) ∧
    (∀ r, ofVariables entries = .ok r → r.Holds entries) ∧
    (∀ v, entries.find? (fun v => !v.oid.isEncodable) = some v →
      ofVariables entries = .error (.invalidOid .notEncodable (some v.oid.dotted))) ∧
    ((∀ v ∈ entries, v.oid.checkEncodable = .ok ()) → ¬(entries.map (·.oid)).Nodup →
      ∃ oid, ofVariables entries = .error (.config (.duplicateOid oid)) ∧
        2 ≤ (entries.map (·.oid)).count oid) :=
  ⟨exists_ofVariables_iff entries, fun _ => holds_of_ofVariables, fun _ => ofVariables_of_find?,
    ofVariables_of_not_nodup⟩

/-- Names whose order as numbers is not that of their texts. -/
def numbered : List (Variable Unit) :=
  [{ oid := ⟨[1, 3, 10]⟩, type := .integer }, { oid := ⟨[1, 3, 9]⟩, type := .integer }]

/-- A name that fails the check behind one that occurs twice. -/
def mixed : List (Variable Unit) :=
  numbered ++ numbered ++ [{ oid := ⟨[1, 40]⟩, type := .integer }]

theorem ofVariables_arranges_numbered :
    (∃ r, ofVariables numbered = .ok r ∧ r.Holds numbered) ∧
    ofVariables mixed = .error (.invalidOid .notEncodable (some "1.40")) ∧
    ∃ oid, ofVariables (numbered ++ numbered) = .error (.config (.duplicateOid oid)) ∧
      2 ≤ ((numbered ++ numbered).map (·.oid)).count oid := by
  have hchecked : ∀ v ∈ numbered ++ numbered, v.oid.checkEncodable = .ok () := by decide
  obtain ⟨r, hr⟩ := (ofVariables_arranges numbered).1.2 ⟨by decide, by decide⟩
  refine ⟨⟨r, hr, (ofVariables_arranges numbered).2.1 r hr⟩, ?_, ?_⟩
  · exact (ofVariables_arranges mixed).2.2.1 _ rfl
  · exact (ofVariables_arranges (numbered ++ numbered)).2.2.2 hchecked (by decide)

end Registry

end Mib

end Snmp
