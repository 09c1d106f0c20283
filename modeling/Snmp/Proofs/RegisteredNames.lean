/-
  Snmp/Proofs/RegisteredNames.lean
  ================================
  **Which names survive their encoding.**

  The check that a registry makes of each name looks at the first two arcs, which share a
  subidentifier.  A reader also counts the arcs.  So a name is read back as itself exactly if it
  passes the check and has no more arcs than a reader takes (`ofContent_content_iff`), and a
  registered name of this length can stand in every request and in every reply.  The check does
  not count, so that a registry also accepts longer names, which are not read back.
-/
import Snmp.Proofs.FaithfulScopes
import Snmp.Proofs.ReadValues

namespace Snmp

open Ber Decoder

namespace Oid

theorem checkEncodable_eq_ok_iff (oid : Oid) :
    oid.checkEncodable = .ok () ↔ oid.isEncodable = true := by
  rw [checkEncodable]
  split
  · simp only [*]
  · simp only [*, reduceCtorEq]

/-- A name is read back exactly if it passes the check and is not too long. -/
theorem ofContent_content_iff (oid : Oid) :
    ofContent oid.content = .ok oid ↔ oid.checkEncodable = .ok () ∧ oid.length ≤ maxArcs := by
  rw [checkEncodable_eq_ok_iff]
  constructor
  · intro h
    obtain ⟨hencodable, hshort⟩ := (ofContent_eq_ok h).1
    exact ⟨hencodable, hshort⟩
  · rintro ⟨hencodable, hshort⟩
    exact ofContent_content ⟨hencodable, hshort⟩

end Oid

namespace Mib.Registry

variable {σ : Type}

/-- A binding that can be transmitted by a registered name. -/
structure Carries (r : Registry σ) (binding : Binding) : Prop where
  registered : ∃ v ∈ r.entries, v.oid = binding.oid
  short : binding.oid.length ≤ Oid.maxArcs
  value : binding.value.Transmissible

theorem Carries.transmissible {entries : List (Variable σ)} {r : Registry σ}
    (hregistry : ofVariables entries = .ok r) {binding : Binding} (h : r.Carries binding) :
    binding.Transmissible := by
  obtain ⟨v, hv, hoid⟩ := h.registered
  have hencodable := (ofVariables_eq_ok hregistry v hv).2
  rw [hoid] at hencodable
  exact ⟨⟨hencodable, h.short⟩, h.value⟩

/-- A single variable is registered if its name passes the check. -/
theorem ofVariables_singleton {v : Variable σ} (h : v.oid.isEncodable = true) :
    ∃ r, ofVariables [v] = .ok r ∧ r.entries = #[v] := by
  have hall : [v].forM (fun w => w.oid.checkEncodable) = .ok () := by
    simp only [List.forM, (Oid.checkEncodable_eq_ok_iff v.oid).2 h]
    rfl
  have hsort : sortByOid [v] = [v] := List.mergeSort_singleton v
  refine ⟨⟨#[v], by simp⟩, ?_, rfl⟩
  rw [ofVariables, hall]
  simp only
  split
  · rename_i oid hshared
    rw [hsort] at hshared
    contradiction
  · simp only [hsort]

/-- **The check of a registry tells which names survive, if they are not too long.**  A name is
    read back from its encoding as itself exactly if it passes the check and has no more arcs
    than a reader takes.  So in every request and every reply whose bindings name registered
    variables by such names, the names are read as they were written. -/
theorem names_survive :
    (∀ oid : Oid, Oid.ofContent oid.content = .ok oid ↔
      oid.checkEncodable = .ok () ∧ oid.length ≤ Oid.maxArcs) ∧
    ∀ (entries : List (Variable σ)) (r : Registry σ), ofVariables entries = .ok r →
      ∀ pdu : Pdu, pdu.type ≠ .trapV1 → (∀ b ∈ pdu.bindings, r.Carries b) →
        Fits (pdu.wire none) →
        (∀ w, (pdu.push none w).octets = pdu.wire none ++ w.octets) ∧
          Reads Pdu.decode (pdu.wire none) (pdu, none) := by
  refine ⟨Oid.ofContent_content_iff, ?_⟩
  intro entries r hregistry pdu htype hcarries hfits
  have hpdu : pdu.Transmissible none := by
    refine ⟨fun b hb => (hcarries b hb).transmissible hregistry, ?_, fun _ => rfl⟩
    exact fun htrap => absurd htrap htype
  exact ⟨pdu.octets_push none, Pdu.reads_decode hpdu hfits⟩

/-- A variable with a name of great arcs. -/
def remote : Variable Unit := { oid := ⟨[2, 4294967295, 16384]⟩, type := .integer }

def remoteRequest : Pdu := ⟨.getRequest, 1, 0, 0, [.unset remote.oid]⟩

/-- Great arcs are read back. -/
theorem names_survive_remote : ∃ r, ofVariables [remote] = .ok r ∧
    remoteRequest.type ≠ .trapV1 ∧ (∀ b ∈ remoteRequest.bindings, r.Carries b) ∧
    Fits (remoteRequest.wire none) ∧
    Reads Pdu.decode (remoteRequest.wire none) (remoteRequest, none) := by
  obtain ⟨r, hregistry, hentries⟩ :=
    ofVariables_singleton (show remote.oid.isEncodable = true from rfl)
  have hcarries : ∀ b ∈ remoteRequest.bindings, r.Carries b := by
    intro b hb
    cases List.mem_singleton.1 hb
    exact ⟨⟨remote, by simp [hentries], rfl⟩, by decide, trivial⟩
  have hfits : Fits (remoteRequest.wire none) := by
    have hlength : (remoteRequest.wire none).length = 27 := by decide +kernel
    rw [Fits, hlength]
    decide
  have htype : remoteRequest.type ≠ .trapV1 := by decide
  exact ⟨r, hregistry, htype, hcarries, hfits,
    (names_survive.2 [remote] r hregistry remoteRequest htype hcarries hfits).2⟩

/-- A variable with a name of 129 arcs. -/
def tooLong : Variable Unit := { oid := ⟨[1, 3] ++ List.replicate 127 1⟩, type := .integer }

set_option maxRecDepth 3000 in
/-- A name with an arc too many passes the check and is registered, but it is not read back. -/
theorem tooLong_unreadable :
    tooLong.oid.checkEncodable = .ok () ∧
      (∃ r, ofVariables [tooLong] = .ok r ∧ tooLong ∈ r.entries) ∧
      Oid.ofContent tooLong.oid.content = .error (.oidTooLong 129 128) := by
  obtain ⟨r, hregistry, hentries⟩ :=
    ofVariables_singleton (show tooLong.oid.isEncodable = true from rfl)
  exact ⟨rfl, ⟨r, hregistry, by simp [hentries]⟩, rfl⟩

end Mib.Registry

end Snmp
