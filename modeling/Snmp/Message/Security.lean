/-
  Snmp/Message/Security.lean
  ==========================
  **Versions, security levels and message flags.**

  A message of version 1 or 2c names a community; one of version 3 states in its flags whether
  it is authenticated and whether it is encrypted.  Encryption without authentication has no
  meaning and counts as neither.
-/

namespace Snmp

/-- The version of a message. -/
inductive Version where
  | v1
  | v2c
  | v3
deriving DecidableEq, Inhabited

namespace Version

def number : Version → Int32
  | .v1 => 0
  | .v2c => 1
  | .v3 => 3

def ofNumber? (number : Int32) : Option Version :=
  [v1, v2c, v3].find? (·.number = number)

def usesCommunity (version : Version) : Bool := version != .v3

def name : Version → String
  | .v1 => "SNMPv1"
  | .v2c => "SNMPv2c"
  | .v3 => "SNMPv3"

instance : ToString Version := ⟨name⟩

end Version

/-- How a message is protected, from not at all upwards. -/
inductive SecurityLevel where
  | noAuthNoPriv
  | authNoPriv
  | authPriv
deriving DecidableEq, Inhabited

namespace SecurityLevel

def rank : SecurityLevel → Nat
  | .noAuthNoPriv => 0
  | .authNoPriv => 1
  | .authPriv => 2

instance : LE SecurityLevel := ⟨fun a b => a.rank ≤ b.rank⟩

instance : LT SecurityLevel := ⟨fun a b => a.rank < b.rank⟩

instance (a b : SecurityLevel) : Decidable (a ≤ b) := inferInstanceAs (Decidable (a.rank ≤ b.rank))

instance (a b : SecurityLevel) : Decidable (a < b) := inferInstanceAs (Decidable (a.rank < b.rank))

def name : SecurityLevel → String
  | .noAuthNoPriv => "noAuthNoPriv"
  | .authNoPriv => "authNoPriv"
  | .authPriv => "authPriv"

instance : ToString SecurityLevel := ⟨name⟩

end SecurityLevel

/-- The flags of a version 3 message. -/
structure MsgFlags where
  auth : Bool := false
  privacy : Bool := false
  reportable : Bool := false
deriving DecidableEq, Inhabited

namespace MsgFlags

def ofLevel (level : SecurityLevel) (reportable : Bool) : MsgFlags :=
  ⟨.authNoPriv ≤ level, level = .authPriv, reportable⟩

def level (flags : MsgFlags) : SecurityLevel :=
  match flags.auth, flags.privacy with
  | true, true => .authPriv
  | true, false => .authNoPriv
  | false, _ => .noAuthNoPriv

def toOctet (flags : MsgFlags) : UInt8 :=
  (if flags.auth then 1 else 0) ||| (if flags.privacy then 2 else 0)
    ||| (if flags.reportable then 4 else 0)

def ofOctet (octet : UInt8) : MsgFlags :=
  ⟨octet &&& 1 ≠ 0, octet &&& 2 ≠ 0, octet &&& 4 ≠ 0⟩

end MsgFlags

end Snmp
