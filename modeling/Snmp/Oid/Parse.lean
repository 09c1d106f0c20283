/-
  Snmp/Oid/Parse.lean
  ===================
  **Object identifiers read from dotted text.**

  The text is at most one leading point followed by one to 128 numerals with points between
  them.  An arc may have leading zeros; a sign, a blank or an empty arc is refused.  Where a
  text both has an invalid arc and too many arcs, the first 128 arcs decide which is reported.
-/
import Snmp.Oid.Basic
import Snmp.Text.Fields

namespace Snmp.Oid

def dropPoint : List Char → List Char
  | '.' :: rest => rest
  | text => text

def parse (text : String) : Except Defect Oid :=
  match dropPoint text.toList with
  | [] => .error .empty
  | body =>
    let groups := Text.fields '.' body
    match (groups.take maxArcs).mapM Text.word32? with
    | none => .error .invalidArc
    | some arcs =>
      if groups.length ≤ maxArcs then .ok ⟨arcs⟩
      else .error (.tooManyArcs groups.length maxArcs)

/-- The identifier of any length with a dotted form, the empty text being the form of the one
    without arcs. -/
def ofDotted? (text : String) : Option Oid :=
  if text = "" then some ⟨[]⟩
  else ((Text.fields '.' text.toList).mapM Text.word32?).map Oid.mk

end Snmp.Oid
