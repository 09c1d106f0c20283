/-
  Snmp/Binding/Basic.lean
  =======================
  **Variable bindings.**

  A binding pairs the name of a variable with a value.  On the wire it is a SEQUENCE of the
  two, and a list of bindings is a SEQUENCE of such elements.
-/
import Snmp.Value.Encoding
import Snmp.Value.Text

namespace Snmp

open Ber

/-- A variable and a value for it. -/
structure Binding where
  oid : Oid
  value : Value
deriving DecidableEq, Inhabited

namespace Binding

def unset (oid : Oid) : Binding := ⟨oid, .null⟩

def withValue (binding : Binding) (value : Value) : Binding := { binding with value }

def describe (binding : Binding) : String := s!"{binding.oid.dotted} = {binding.value.describe}"

def push (binding : Binding) (w : Writer) : Writer :=
  w.pushSequence fun w => (binding.value.push w).pushOid binding.oid

/-- Puts bindings in front, the last one first, so that they end up in order. -/
def pushAll (bindings : List Binding) (w : Writer) : Writer :=
  bindings.foldr push w

def pushList (bindings : List Binding) (w : Writer) : Writer :=
  w.pushSequence (pushAll bindings)

def decode : Decoder Binding :=
  Decoder.sequence do
    let oid ← Decoder.oid
    return ⟨oid, ← Value.decode⟩

def decodeUpTo : (limit : Nat) → Decoder (List Binding)
  | 0 => return []
  | limit + 1 => do
    if (← get).isEmpty then return []
    let binding ← decode
    return binding :: (← decodeUpTo limit)

/-- Reads bindings until no octet is left.  A binding takes at least one octet, so there are no
    more bindings than octets. -/
def decodeAll : Decoder (List Binding) := do
  decodeUpTo (← get).remaining

def decodeList : Decoder (List Binding) := Decoder.sequence decodeAll

end Binding

end Snmp
