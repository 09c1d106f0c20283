/-
  Snmp/Proofs/ParametersRoundTrip.lean
  ====================================
  **Security parameters on the wire, and where the authentication code stands in them.**

  The encoded parameters are cut at the authentication code into what comes before it, the code
  itself and what comes after it.  Both sides depend on the length of the code alone, so one
  code may be put in the place of another of the same length.  Reading the parameters back
  yields the offset of the code, and the parameters with boots and time cut to 31 bits.
-/
import Snmp.Usm.Parameters
import Snmp.Proofs.Elements

namespace Snmp.Usm.Parameters

open Ber Decoder

/-! ### Boots and time -/

/-- The parameters with the boots and the time that they have on the wire. -/
def capped (p : Parameters) : Parameters :=
  { p with
    engineBoots := min p.engineBoots maxCount
    engineTime := min p.engineTime maxCount }

theorem min_maxCount_of_le {count : UInt32} (h : count ≤ maxCount) : min count maxCount = count :=
  if_pos h

theorem toNat_min_maxCount (count : UInt32) :
    (min count maxCount).toNat = min count.toNat maxCount.toNat := by
  by_cases h : count ≤ maxCount
  · rw [min_maxCount_of_le h, Nat.min_eq_left (UInt32.le_iff_toNat_le.1 h)]
  · have hmin : min count maxCount = maxCount := if_neg h
    have hle : maxCount.toNat ≤ count.toNat :=
      Nat.le_of_not_le fun hle => h (UInt32.le_iff_toNat_le.2 hle)
    rw [hmin, Nat.min_eq_right hle]

theorem ofWireCount_wireCount (count : UInt32) :
    ofWireCount (wireCount count) = min count maxCount := by
  have hmax : maxCount.toNat = 2147483647 := rfl
  have hint : (wireCount count).toInt = min count.toNat maxCount.toNat := by
    rw [wireCount, Int32.toInt_ofNat_of_lt (by omega)]
  rw [ofWireCount, hint, Int.toNat_natCast, ← toNat_min_maxCount, UInt32.ofNat_toNat]

theorem capped_of_le {p : Parameters} (hboots : p.engineBoots ≤ maxCount)
    (htime : p.engineTime ≤ maxCount) : p.capped = p := by
  simp only [capped, min_maxCount_of_le hboots, min_maxCount_of_le htime]

/-! ### Around the authentication code -/

/-- The same parameters with another authentication code. -/
def withCode (p : Parameters) (code : Octets) : Parameters := { p with authParams := code }

def fieldsBefore (p : Parameters) : Octets :=
  element Tag.octetString p.engineId
    ++ (element Tag.integer (Octets.ofInt (wireCount p.engineBoots).toInt)
    ++ (element Tag.integer (Octets.ofInt (wireCount p.engineTime).toInt)
    ++ element Tag.octetString p.userName))

def content (p : Parameters) : Octets :=
  p.fieldsBefore
    ++ (element Tag.octetString p.authParams ++ element Tag.octetString p.privParams)

/-- The octets of the parameters before the authentication code. -/
def beforeCode (p : Parameters) : Octets :=
  elementHeader Tag.sequence p.content.length
    ++ (p.fieldsBefore ++ elementHeader Tag.octetString p.authParams.length)

def afterCode (p : Parameters) : Octets := element Tag.octetString p.privParams

theorem encode_eq_element (p : Parameters) : p.encode = element Tag.sequence p.content := by
  apply Writer.octets_sequence
  simp only [Writer.octets_pushOctetString, Writer.octets_pushInteger, Writer.octets_empty,
    List.append_nil, content, fieldsBefore, List.append_assoc]

theorem encode_eq (p : Parameters) : p.encode = p.beforeCode ++ (p.authParams ++ p.afterCode) := by
  simp only [encode_eq_element, element_eq Tag.sequence, beforeCode, afterCode, content,
    element_eq Tag.octetString p.authParams, List.append_assoc]

theorem length_content_withCode (p : Parameters) {code other : Octets}
    (h : code.length = other.length) :
    (p.withCode code).content.length = (p.withCode other).content.length := by
  simp only [content, withCode, fieldsBefore, List.length_append, length_element, headerSize, h]

theorem beforeCode_withCode (p : Parameters) {code other : Octets}
    (h : code.length = other.length) :
    (p.withCode code).beforeCode = (p.withCode other).beforeCode := by
  rw [beforeCode, beforeCode, length_content_withCode p h]
  simp only [withCode, fieldsBefore, h]

/-! ### Reading -/

/-- Parameters that were written are read back with their counts capped, together with the
    offset of the authentication code. -/
theorem decodeAt_encode {p : Parameters} (hfits : Fits p.encode) (base : Nat) :
    decodeAt p.encode base = .ok (p.capped, base + p.beforeCode.length) := by
  rw [encode_eq_element] at hfits ⊢
  have hcontent : Fits p.content := hfits.of_element
  have hbefore : Fits p.fieldsBefore := hcontent.left
  have hauth : Fits p.authParams := hcontent.right.left.of_element
  have hpriv : Fits p.privParams := hcontent.right.right.of_element
  have hbeforeCode : p.beforeCode.length =
      headerSize p.content + (p.fieldsBefore.length + headerSize p.authParams) := by
    simp only [beforeCode, List.length_append, length_elementHeader]
  rw [decodeAt, runOn, EStateM.run, Reader.ofOctets, decoder, Decoder.sequence,
    bind_ok (constructed_element_alone hcontent base), within, content]
  simp only [fieldsBefore, List.append_assoc]
  rw [bind_ok (reads_octetString hbefore.left.of_element _ _),
    bind_ok (reads_integer _ _ _), bind_ok (reads_integer _ _ _),
    bind_ok (reads_octetString hbefore.right.right.right.of_element _ _),
    bind_ok (octetStringAt_element hauth _ _), bind_ok ((reads_octetString hpriv).alone _)]
  simp only [pure, EStateM.pure, ofWireCount_wireCount, hbeforeCode, capped, content, fieldsBefore,
    List.append_assoc, List.length_append, Nat.add_assoc]

end Snmp.Usm.Parameters
