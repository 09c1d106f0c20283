/-
  Snmp/Mib/Answer.lean
  ====================
  **Answers to bindings, and the response they make up.**

  Each binding of a request is answered on its own: with a binding for the response and,
  perhaps, an error status.  The response carries all the bindings, and the status and place
  of the first binding that failed.
-/
import Snmp.Error

namespace Snmp.Mib

/-- What one binding of a request comes to. -/
structure Answer where
  /-- The place of the request's binding, from zero. -/
  place : Nat
  binding : Binding
  failure? : Option ErrorStatus := none
deriving DecidableEq

/-- The response that answers make up. -/
structure Response where
  answers : List Answer

namespace Response

def bindings (r : Response) : List Binding := r.answers.map (·.binding)

/-- The first failure and the place of the binding that failed. -/
def firstFailure? (r : Response) : Option (ErrorStatus × Nat) :=
  r.answers.findSome? fun answer => answer.failure?.map fun status => (status, answer.place)

/-- The error index of a place: places count from one, and the greatest index stands for all
    that do not fit. -/
def errorIndex (place : Nat) : Int32 := Int32.ofNat (min (place + 1) 2147483647)

def toPdu (r : Response) (request : Pdu) : Pdu :=
  let pdu := request.toResponse r.bindings
  match r.firstFailure? with
  | some (status, place) => pdu.withError status (errorIndex place)
  | none => pdu

end Response

end Snmp.Mib
