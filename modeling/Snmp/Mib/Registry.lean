/-
  Snmp/Mib/Registry.lean
  ======================
  **Registries: variables in the order of their identifiers.**

  A registry keeps its variables strictly ascending, which makes every identifier either the
  name of one entry or a gap between two, found by halving (`position`).  A walk goes on from
  an identifier to the next entry that can be walked, whether or not the identifier is
  registered itself.
-/
import Snmp.Error
import Snmp.Mib.Variable
import Snmp.Oid.Order

namespace Snmp.Mib

variable {σ : Type}

/-! ### Sorting -/

/-- Variables in ascending order; variables of one name keep their order. -/
def sortByOid (entries : List (Variable σ)) : List (Variable σ) :=
  entries.mergeSort fun a b => a.oid ≤ b.oid

/-- The first identifier that two neighbours share. -/
def sharedOid? : List (Variable σ) → Option Oid
  | a :: b :: rest => if a.oid = b.oid then some a.oid else sharedOid? (b :: rest)
  | _ => none

/-- Ascending entries without equal neighbours are strictly ascending. -/
theorem pairwise_lt_of_sharedOid?_eq_none {entries : List (Variable σ)}
    (sorted : entries.Pairwise fun a b => a.oid ≤ b.oid) (h : sharedOid? entries = none) :
    entries.Pairwise fun a b => a.oid < b.oid := by
  induction entries with
  | nil => exact .nil
  | cons a rest ih =>
    cases rest with
    | nil => simp
    | cons b rest =>
      rw [sharedOid?] at h
      split at h
      · contradiction
      · rename_i hne
        rw [List.pairwise_cons] at sorted
        have tail := ih sorted.2 h
        have hab := Oid.lt_of_le_of_ne (sorted.1 b (by simp)) hne
        rw [List.pairwise_cons]
        refine ⟨fun c hc => ?_, tail⟩
        rcases List.mem_cons.1 hc with rfl | hc
        · exact hab
        · exact Oid.lt_trans hab ((List.pairwise_cons.1 tail).1 c hc)

theorem pairwise_sortByOid (entries : List (Variable σ)) :
    (sortByOid entries).Pairwise fun a b => a.oid ≤ b.oid := by
  have trans (a b c : Variable σ) (hab : decide (a.oid ≤ b.oid)) (hbc : decide (b.oid ≤ c.oid)) :
      decide (a.oid ≤ c.oid) := by
    simp only [decide_eq_true_eq] at *
    exact Oid.le_trans hab hbc
  have total (a b : Variable σ) : decide (a.oid ≤ b.oid) || decide (b.oid ≤ a.oid) := by
    simpa using Oid.le_total a.oid b.oid
  simpa [sortByOid] using List.pairwise_mergeSort trans total entries

/-! ### Registries -/

/-- Variables, strictly ascending by name. -/
structure Registry (σ : Type) where
  entries : Array (Variable σ)
  ascending : entries.toList.Pairwise fun a b => a.oid < b.oid

/-- Where an identifier belongs in a registry. -/
inductive Position where
  /-- It names the entry at this index. -/
  | found (index : Nat)
  /-- It names no entry, and would have to be inserted at this index. -/
  | absent (index : Nat)
deriving DecidableEq

namespace Registry

def empty : Registry σ := ⟨#[], .nil⟩

/-- Registers entries.  Every name must survive encoding, and no name may occur twice; the
    first is checked before the second. -/
def ofVariables (entries : List (Variable σ)) : Except Error (Registry σ) :=
  match entries.forM fun v => v.oid.checkEncodable with
  | .error error => .error error
  | .ok () =>
    let sorted := sortByOid entries
    match h : sharedOid? sorted with
    | some oid => .error (.config (.duplicateOid oid))
    | none =>
      .ok ⟨sorted.toArray, pairwise_lt_of_sharedOid?_eq_none (pairwise_sortByOid entries) h⟩

def size (r : Registry σ) : Nat := r.entries.size

/-- The least index from `low` to `high` whose entry does not come before `oid`, provided that
    the entries before `low` do and those from `high` on do not. -/
def lowerBound (r : Registry σ) (oid : Oid) (low high : Nat) : Nat :=
  if low < high then
    let middle := (low + high) / 2
    if r.entries[middle]?.any (·.oid < oid) then r.lowerBound oid (middle + 1) high
    else r.lowerBound oid low middle
  else low
termination_by high - low

def position (r : Registry σ) (oid : Oid) : Position :=
  let index := r.lowerBound oid 0 r.size
  if r.entries[index]?.any (·.oid = oid) then .found index else .absent index

/-- The variable with a name. -/
def find? (r : Registry σ) (oid : Oid) : Option (Variable σ) :=
  match r.position oid with
  | .found index => r.entries[index]?
  | .absent _ => none

/-! ### Walking -/

/-- The index of the first walkable entry from `index` on. -/
def walkableFrom (r : Registry σ) (index : Nat) : Option Nat :=
  if h : index < r.entries.size then
    if r.entries[index].isWalkable then some index else r.walkableFrom (index + 1)
  else none
termination_by r.entries.size - index

/-- The index of the first walkable entry after `oid`. -/
def next (r : Registry σ) (oid : Oid) : Option Nat :=
  match r.position oid with
  | .found index => r.walkableFrom (index + 1)
  | .absent index => r.walkableFrom index

/-- The index of the first walkable entry after the one at `index`. -/
def nextAfter (r : Registry σ) (index : Nat) : Option Nat := r.walkableFrom (index + 1)

/-- The indices of at most `count` walkable entries, beginning with the given one. -/
def walk (r : Registry σ) : (count : Nat) → (first : Option Nat) → List Nat
  | 0, _ => []
  | _ + 1, none => []
  | count + 1, some index => index :: r.walk count (r.nextAfter index)

/-- The indices of at most `count` walkable entries after `oid`. -/
def bulkNext (r : Registry σ) (oid : Oid) (count : Nat) : List Nat := r.walk count (r.next oid)

def nextVariable? (r : Registry σ) (oid : Oid) : Option (Variable σ) :=
  (r.next oid).bind (r.entries[·]?)

end Registry

end Snmp.Mib
