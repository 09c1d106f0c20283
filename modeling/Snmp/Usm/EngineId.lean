/-
  Snmp/Usm/EngineId.lean
  ======================
  **Engine identifiers.**

  An authoritative engine is named by at most 32 octets.  Assigned data is marked by five
  octets: the enterprise that assigns it and the format "octets".
-/
import Snmp.Text.Hex

namespace Snmp.Usm

/-- The identifier of an engine. -/
structure EngineId where
  octets : Octets
deriving DecidableEq, Inhabited

namespace EngineId

/-- The greatest number of octets. -/
def maxLength : Nat := 32

/-- The mark before assigned data. -/
def dataMark : Octets := [0x80, 0x00, 0x4f, 0xb8, 0x05]

/-- Octets as they are, cut to the greatest length. -/
def ofOctets (octets : Octets) : EngineId := ⟨octets.take maxLength⟩

/-- Assigned data after its mark, cut to the greatest length. -/
def ofData (data : Octets) : EngineId := ofOctets (dataMark ++ data)

/-- Two hexadecimal digits for each octet. -/
def text (id : EngineId) : String := Text.Hex.encode id.octets

instance : ToString EngineId := ⟨text⟩

end EngineId

end Snmp.Usm
