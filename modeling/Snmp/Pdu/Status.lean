/-
  Snmp/Pdu/Status.lean
  ====================
  **Error status codes.**

  A response carries a status code; the codes of the protocol have names, and any other code a
  peer may send keeps its number.
-/

namespace Snmp

/-- The error status of a response. -/
inductive ErrorStatus where
  | noError
  | tooBig
  | noSuchName
  | badValue
  | readOnly
  | genErr
  | noAccess
  | wrongType
  | wrongLength
  | wrongEncoding
  | wrongValue
  | noCreation
  | inconsistentValue
  | resourceUnavailable
  | commitFailed
  | undoFailed
  | authorizationError
  | notWritable
  | inconsistentName
  | unknown (code : Int32)
deriving DecidableEq, Inhabited

namespace ErrorStatus

def named : List (ErrorStatus × String) :=
  [ (.noError, "noError"), (.tooBig, "tooBig"), (.noSuchName, "noSuchName"),
    (.badValue, "badValue"), (.readOnly, "readOnly"), (.genErr, "genErr"),
    (.noAccess, "noAccess"), (.wrongType, "wrongType"), (.wrongLength, "wrongLength"),
    (.wrongEncoding, "wrongEncoding"), (.wrongValue, "wrongValue"),
    (.noCreation, "noCreation"), (.inconsistentValue, "inconsistentValue"),
    (.resourceUnavailable, "resourceUnavailable"), (.commitFailed, "commitFailed"),
    (.undoFailed, "undoFailed"), (.authorizationError, "authorizationError"),
    (.notWritable, "notWritable"), (.inconsistentName, "inconsistentName") ]

def ofCode (code : Int32) : ErrorStatus :=
  if code < 0 then .unknown code
  else match named[code.toInt.toNat]? with
    | some (status, _) => status
    | none => .unknown code

def code : ErrorStatus → Int32
  | .unknown code => code
  | status => Int32.ofNat (named.findIdx (·.1 = status))

def name : ErrorStatus → String
  | .unknown code => s!"unknown({code.toInt})"
  | status => ((named.find? (·.1 = status)).map (·.2)).getD ""

instance : ToString ErrorStatus := ⟨name⟩

def isError (status : ErrorStatus) : Bool := status != .noError

end ErrorStatus

end Snmp
