/-
  Snmp/Mib/SystemGroup.lean
  =========================
  **The system group: what an agent says about itself.**

  Seven variables.  Three of them are texts that a manager may write, and which live in a part
  of the state; a written value is kept as text, so octets that are not UTF-8 are replaced.
  The time that the agent has been up is told by the state as well.
-/
import Snmp.Mib.Scope

namespace Snmp.Mib

/-! ### Parts of a state -/

/-- A part of a state.  What is put into it is what it shows. -/
structure Part (σ α : Type) where
  get : σ → α
  set : α → σ → σ
  get_set : ∀ (part : α) (state : σ), get (set part state) = part

namespace Part

variable {σ α : Type}

/-- A state as a part of itself. -/
def whole : Part σ σ := ⟨id, fun state _ => state, fun _ _ => rfl⟩

/-- Changes the part and nothing else. -/
def modify (part : Part σ α) (change : α → α) (state : σ) : σ :=
  part.set (change (part.get state)) state

end Part

/-! ### Texts -/

/-- The texts of the group that can be written. -/
inductive SystemText where
  | contact
  | name
  | location
deriving DecidableEq, Inhabited

def systemOid (number : UInt32) : Oid := ⟨[1, 3, 6, 1, 2, 1, 1, number, 0]⟩

namespace SystemText

def oid : SystemText → Oid
  | .contact => systemOid 4
  | .name => systemOid 5
  | .location => systemOid 6

/-- What a text is called. -/
def document : SystemText → String
  | .contact => "sysContact"
  | .name => "sysName"
  | .location => "sysLocation"

/-- The greatest number of octets that a text is set to. -/
def maxLength : Nat := 255

end SystemText

/-- The present texts. -/
structure SystemTexts where
  contact : String := ""
  name : String := ""
  location : String := ""
deriving DecidableEq, Inhabited

namespace SystemTexts

def get (texts : SystemTexts) : SystemText → String
  | .contact => texts.contact
  | .name => texts.name
  | .location => texts.location

def set (texts : SystemTexts) (which : SystemText) (text : String) : SystemTexts :=
  match which with
  | .contact => { texts with contact := text }
  | .name => { texts with name := text }
  | .location => { texts with location := text }

theorem get_set (texts : SystemTexts) (which other : SystemText) (text : String) :
    (texts.set which text).get other = if other = which then text else texts.get other := by
  cases which <;> cases other <;> rfl

end SystemTexts

/-! ### Variables -/

/-- What the group says that does not change. -/
structure SystemInfo where
  descr : String := ""
  objectId : Oid := ⟨[1, 3, 6, 1, 4, 1, 8072, 3, 2, 10]⟩

namespace SystemGroup

variable {σ : Type}

def readText (texts : Part σ SystemTexts) (which : SystemText) : Callback σ Value := fun state =>
  (.ok (.ofText ((texts.get state).get which)), state)

/-- Writes a text, unless the value is too long or no string at all. -/
def writeText (texts : Part σ SystemTexts) (which : SystemText) (value : Value) :
    Callback σ Unit := fun state =>
  match value.octets? with
  | none => (.error (.failed "expected an OCTET STRING"), state)
  | some octets =>
    if SystemText.maxLength < octets.length then
      (.error (.failed s!"value of {octets.length} octets exceeds {SystemText.maxLength}"), state)
    else
      let text := Text.Utf8.decodeLossy octets
      (.ok (), texts.modify (·.set which text) state)

/-- Hundredths of a second in a number of milliseconds, modulo 2^32. -/
def ticks (milliseconds : Nat) : UInt32 := UInt32.ofNat (milliseconds / 10)

/-- A variable of the group that always has one value. -/
def constant (oid : Oid) (type : ValueType) (document : String) (value : Value) : Variable σ :=
  { oid, type, document : Variable σ }.withConstant value

def textVariable (texts : Part σ SystemTexts) (which : SystemText) : Variable σ where
  oid := which.oid
  type := .octetString
  document := which.document
  read? := some (readText texts which)
  write? := some (writeText texts which)

/-- The variable of the time that the agent has been up; `upTime` tells it in milliseconds. -/
def upTimeVariable (upTime : σ → Nat) : Variable σ where
  oid := Scope.sysUpTime
  type := .timeTicks
  document := "sysUpTime"
  read? := some fun state => (.ok (.timeTicks (ticks (upTime state))), state)

def entries (info : SystemInfo) (texts : Part σ SystemTexts) (upTime : σ → Nat) :
    List (Variable σ) :=
  [ constant (systemOid 1) .octetString "sysDescr" (.ofText info.descr),
    constant (systemOid 2) .objectIdentifier "sysObjectID" (.objectIdentifier info.objectId),
    upTimeVariable upTime,
    textVariable texts .contact,
    textVariable texts .name,
    textVariable texts .location,
    constant (systemOid 7) .integer "sysServices" (.integer 72) ]

end SystemGroup

end Snmp.Mib
