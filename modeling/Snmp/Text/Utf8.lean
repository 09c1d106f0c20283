/-
  Snmp/Text/Utf8.lean
  ===================
  **Octets read as UTF-8 text.**

  Communities, context names, user names and octet strings are octets on the wire and text for
  a reader.  `scan` walks the octets once and yields one entry for each character and one
  `none` for each ill-formed stretch, a stretch being the longest beginning of a well-formed
  sequence that the octets offer.  Strict reading (`decode?`) refuses any `none`; lossy reading
  (`decodeLossy`) shows each as U+FFFD.
-/
import Snmp.Octets

namespace Snmp.Text.Utf8

/-- A character of which the lead octet, and perhaps more, has been read. -/
structure Partial where
  /-- The bits gathered so far. -/
  bits : Nat
  /-- How many octets follow the next one. -/
  later : Nat
  /-- The least value that the next octet may have. -/
  least : UInt8
  /-- The greatest value that the next octet may have. -/
  greatest : UInt8

/-- What an octet that begins a character says. -/
inductive Lead where
  | complete (c : Char)
  | incomplete (p : Partial)
  | illFormed

/-- Reads the first octet of a character.  The bounds on the second octet exclude overlong
    forms, surrogates and values above U+10FFFF. -/
def lead (octet : UInt8) : Lead :=
  let n := octet.toNat
  if n < 0x80 then .complete (Char.ofNat n)
  else if n < 0xC2 then .illFormed
  else if n < 0xE0 then .incomplete ⟨n - 0xC0, 0, 0x80, 0xBF⟩
  else if n = 0xE0 then .incomplete ⟨0, 1, 0xA0, 0xBF⟩
  else if n = 0xED then .incomplete ⟨0xD, 1, 0x80, 0x9F⟩
  else if n < 0xF0 then .incomplete ⟨n - 0xE0, 1, 0x80, 0xBF⟩
  else if n = 0xF0 then .incomplete ⟨0, 2, 0x90, 0xBF⟩
  else if n < 0xF4 then .incomplete ⟨n - 0xF0, 2, 0x80, 0xBF⟩
  else if n = 0xF4 then .incomplete ⟨4, 2, 0x80, 0x8F⟩
  else .illFormed

/-- The characters of `octets`, `none` standing for an ill-formed stretch; `pending` is the
    character that the octets before them have begun. -/
def scan (pending : Option Partial) (octets : Octets) : List (Option Char) :=
  match pending, octets with
  | none, [] => []
  | some _, [] => [none]
  | none, octet :: rest =>
    match lead octet with
    | .complete c => some c :: scan none rest
    | .incomplete p => scan (some p) rest
    | .illFormed => none :: scan none rest
  | some p, octet :: rest =>
    if p.least ≤ octet ∧ octet ≤ p.greatest then
      let bits := p.bits * 64 + octet.toNat % 64
      match p.later with
      | 0 => some (Char.ofNat bits) :: scan none rest
      | later + 1 => scan (some ⟨bits, later, 0x80, 0xBF⟩) rest
    else
      none :: match lead octet with
        | .complete c => some c :: scan none rest
        | .incomplete q => scan (some q) rest
        | .illFormed => none :: scan none rest

def decode? (octets : Octets) : Option (List Char) :=
  (scan none octets).mapM id

def decodeLossy (octets : Octets) : String :=
  String.ofList ((scan none octets).map (·.getD '\uFFFD'))

def encode (text : String) : Octets :=
  text.toUTF8.data.toList

end Snmp.Text.Utf8
