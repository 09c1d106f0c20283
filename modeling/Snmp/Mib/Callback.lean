/-
  Snmp/Mib/Callback.lean
  ======================
  **Code that stands behind variables.**

  A variable is served by callbacks, which belong to whoever registers it.  A callback works on
  a state that the agent passes through and never looks into; it yields a result, returns an
  error or breaks down.  Whatever it does is contained: a mishap becomes a value that tells what
  happened, and serving goes on.  One thing is assumed: that an error which was returned can be
  shown, for its text is made where nothing is contained any more.
-/
import Snmp.Message.Security
import Snmp.Net.Endpoint
import Snmp.Pdu.Basic

namespace Snmp.Mib

/-! ### Outcomes -/

/-- What is known about a breakdown. -/
inductive Breakdown where
  | described (text : String)
  | silent
deriving DecidableEq, Inhabited

def Breakdown.message : Breakdown → String
  | .described text => text
  | .silent => "unknown panic"

/-- How a callback may end other than with a result. -/
inductive Mishap where
  /-- It returned an error, which is taken as its text: showing the error is assumed to
      succeed. -/
  | failed (text : String)
  | brokeDown (cause : Breakdown)
deriving DecidableEq, Inhabited

/-- A callback on the state `σ` with results in `α`. -/
abbrev Callback (σ α : Type) := σ → Except Mishap α × σ

/-- The outcome of a permission check. -/
inductive Permission where
  | allowed
  | denied
deriving DecidableEq, Inhabited

/-- Why a binding carries no value of its variable. -/
inductive CallbackError where
  | failed (text : String)
  | fault (message : String)
  /-- A read yielded a value that is not of the declared type. -/
  | typeMismatch (declared : ValueType) (actual : Value)
deriving DecidableEq

namespace CallbackError

/-- The error that a mishap is reported as. -/
def ofMishap : Mishap → CallbackError
  | .failed text => .failed text
  | .brokeDown cause => .fault cause.message

def message : CallbackError → String
  | .failed text => text
  | .fault message => "panic: " ++ message
  | .typeMismatch declared actual =>
    s!"value {actual.diagnose} does not match declared type {declared.name}"

/-- The value that stands for the missing one.  To show a returned error is assumed to succeed,
    unlike to run the callback. -/
def toValue (error : CallbackError) : Value := .ofText ("ERROR: " ++ error.message)

end CallbackError

/-! ### Requests -/

/-- Who sent a request and how, for permission checks. -/
structure RequestContext where
  source : Net.Endpoint
  version : Version
  pduType : PduType
  requestId : Int32
  /-- The routing key: the community, or the context name in version 3. -/
  scope : Octets
  userName : Octets
  securityLevel : SecurityLevel
deriving DecidableEq, Inhabited

def RequestContext.scopeText (context : RequestContext) : String :=
  Text.Utf8.decodeLossy context.scope

end Snmp.Mib
