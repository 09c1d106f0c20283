/-
  Snmp/Oid/Order.lean
  ===================
  **The order of object identifiers is linear.**

  The laws are those of the lexicographic order of arcs, carried over to identifiers.  The last
  statement is what sorting needs: a sorted list without equal neighbours is strictly
  ascending.
-/
import Snmp.Oid.Basic

namespace Snmp.Oid

theorem lt_irrefl (a : Oid) : ¬a < a := List.lt_irrefl a.arcs

theorem lt_trans {a b c : Oid} (hab : a < b) (hbc : b < c) : a < c :=
  show a.arcs < c.arcs from List.lt_trans hab hbc

theorem le_total (a b : Oid) : a ≤ b ∨ b ≤ a := List.le_total a.arcs b.arcs

theorem le_trans {a b c : Oid} (hab : a ≤ b) (hbc : b ≤ c) : a ≤ c :=
  show a.arcs ≤ c.arcs from List.le_trans hab hbc

theorem lt_of_le_of_lt {a b c : Oid} (hab : a ≤ b) (hbc : b < c) : a < c :=
  show a.arcs < c.arcs from List.lt_of_le_of_lt hab hbc

theorem not_lt {a b : Oid} : ¬a < b ↔ b ≤ a :=
  show ¬a.arcs < b.arcs ↔ b.arcs ≤ a.arcs from List.not_lt

theorem le_antisymm {a b : Oid} (hab : a ≤ b) (hba : b ≤ a) : a = b := by
  cases a; cases b
  exact congrArg Oid.mk (List.le_antisymm hab hba)

theorem lt_of_le_of_ne {a b : Oid} (hab : a ≤ b) (h : a ≠ b) : a < b := by
  by_cases hlt : a < b
  · exact hlt
  · exact absurd (le_antisymm hab (not_lt.1 hlt)) h

theorem le_of_lt {a b : Oid} (h : a < b) : a ≤ b :=
  not_lt.1 fun hba => lt_irrefl a (lt_trans h hba)

theorem lt_of_lt_of_le {a b c : Oid} (hab : a < b) (hbc : b ≤ c) : a < c :=
  lt_of_le_of_ne (le_trans (le_of_lt hab) hbc) fun h =>
    absurd (h ▸ hbc) fun hba => not_lt.2 hba hab

end Snmp.Oid
