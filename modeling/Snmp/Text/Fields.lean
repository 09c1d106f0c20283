/-
  Snmp/Text/Fields.lean
  =====================
  **Separated fields and decimal numerals.**

  `fields` cuts a text at every occurrence of a separator and keeps empty fields, so a text
  with `n` separators has `n + 1` fields.  `numeral?` reads a field that consists of ASCII
  digits and nothing else, with any number of leading zeros.
-/

namespace Snmp.Text

def fields (separator : Char) : List Char → List (List Char)
  | [] => [[]]
  | c :: rest =>
    if c = separator then [] :: fields separator rest
    else
      match fields separator rest with
      | [] => [[c]]
      | field :: more => (c :: field) :: more

theorem fields_ne_nil (separator : Char) (text : List Char) : fields separator text ≠ [] := by
  cases text with
  | nil => simp [fields]
  | cons c rest =>
    simp only [fields]
    split
    · simp
    · split <;> simp

def digit? (c : Char) : Option Nat :=
  if '0' ≤ c ∧ c ≤ '9' then some (c.toNat - 48) else none

def numeral? (text : List Char) : Option Nat :=
  match text with
  | [] => none
  | _ => (text.mapM digit?).map (·.foldl (fun n digit => n * 10 + digit) 0)

def word32? (text : List Char) : Option UInt32 :=
  (numeral? text).bind fun n => if n < UInt32.size then some (UInt32.ofNat n) else none

end Snmp.Text
