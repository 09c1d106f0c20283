/-
  Snmp/Proofs/KeyStretching.lean
  ==============================
  **How a key is made longer.**

  A key is stretched by a loop that has no bound of its own (`Stretched`).  It comes to an end
  because a digest is not empty, and it takes no more digests than it needs.  The loop for one
  length and then the loop for another are one run of the loop for the greater of the two, which
  is why stretching in two steps is stretching once.
-/
import Snmp.Usm.Key

namespace Snmp.Usm

variable {suite : Suite} {protocol : AuthProtocol} {length : Nat} {octets result : Octets}

/-- A key with so many digests behind it, each of all that stands before it. -/
def grown (suite : Suite) (protocol : AuthProtocol) (octets : Octets) : (blocks : Nat) → Octets
  | 0 => octets
  | blocks + 1 =>
    grown suite protocol octets blocks ++ suite.digest protocol (grown suite protocol octets blocks)

/-- The runs of the loop that appends digests for as long as a key is too short. -/
inductive Stretched (suite : Suite) (protocol : AuthProtocol) (length : Nat) :
    Octets → Octets → Prop
  | done {octets : Octets} : length ≤ octets.length → Stretched suite protocol length octets octets
  | more {octets result : Octets} : octets.length < length →
      Stretched suite protocol length (octets ++ suite.digest protocol octets) result →
      Stretched suite protocol length octets result

theorem grown_append (octets : Octets) (blocks : Nat) :
    grown suite protocol (octets ++ suite.digest protocol octets) blocks =
      grown suite protocol octets (blocks + 1) := by
  induction blocks with
  | zero => rfl
  | succ blocks ih => rw [grown, ih, ← grown]

theorem prefix_grown (octets : Octets) (blocks : Nat) :
    octets <+: grown suite protocol octets blocks := by
  induction blocks with
  | zero => exact List.prefix_rfl
  | succ blocks ih => exact ih.trans (List.prefix_append _ _)

theorem Stretched.unique (h : Stretched suite protocol length octets result) {other : Octets}
    (hother : Stretched suite protocol length octets other) : result = other := by
  induction h with
  | done henough =>
    cases hother with
    | done _ => rfl
    | more hshort _ => exact absurd hshort (Nat.not_lt.2 henough)
  | more hshort _ ih =>
    cases hother with
    | done henough => exact absurd hshort (Nat.not_lt.2 henough)
    | more _ hother => exact ih hother

/-- The loop appends as many digests as it needs and no more. -/
theorem Stretched.fewest (h : Stretched suite protocol length octets result) :
    ∃ blocks, result = grown suite protocol octets blocks ∧ length ≤ result.length ∧
      ∀ fewer < blocks, (grown suite protocol octets fewer).length < length := by
  induction h with
  | done henough => exact ⟨0, rfl, henough, fun fewer hfewer => absurd hfewer (Nat.not_lt_zero _)⟩
  | more hshort _ ih =>
    obtain ⟨blocks, hresult, henough, hfewest⟩ := ih
    refine ⟨blocks + 1, by rw [hresult, grown_append], henough, fun fewer hfewer => ?_⟩
    cases fewer with
    | zero => exact hshort
    | succ fewer =>
      rw [← grown_append]
      exact hfewest fewer (Nat.lt_of_succ_lt_succ hfewer)

/-- A key that is long enough for `bound` is stretched to the greater of two lengths as it is to
    the other. -/
theorem Stretched.max_of_le (h : Stretched suite protocol length octets result) {bound : Nat}
    (hbound : bound ≤ octets.length) :
    Stretched suite protocol (max bound length) octets result := by
  induction h with
  | done henough => exact .done (Nat.max_le.2 ⟨hbound, henough⟩)
  | more hshort _ ih =>
    refine .more (Nat.lt_of_lt_of_le hshort (Nat.le_max_right _ _)) (ih ?_)
    rw [List.length_append]
    omega

/-- A run for one length and a run for another from where it ended are a run for the greater
    length, by induction on the first. -/
theorem Stretched.trans {first second : Nat} {between : Octets}
    (h : Stretched suite protocol first octets between)
    (hnext : Stretched suite protocol second between result) :
    Stretched suite protocol (max first second) octets result := by
  induction h with
  | done henough => exact hnext.max_of_le henough
  | more hshort _ ih =>
    exact .more (Nat.lt_of_lt_of_le hshort (Nat.le_max_left _ _)) (ih hnext)

/-- The loop ends if every digest makes the key longer, within as many rounds as octets are
    missing. -/
theorem stretched_stretch (hdigest : ∀ message, 0 < (suite.digest protocol message).length)
    (limit : Nat) (octets : Octets) (hlimit : length ≤ octets.length + limit) :
    Stretched suite protocol length octets
      (LocalizedKey.stretch suite protocol length limit octets) := by
  induction limit generalizing octets with
  | zero => exact .done hlimit
  | succ limit ih =>
    rw [LocalizedKey.stretch]
    split
    · rename_i hshort
      refine .more hshort (ih _ ?_)
      have hpos := hdigest octets
      rw [List.length_append]
      omega
    · rename_i henough
      exact .done (Nat.le_of_not_lt henough)

namespace LocalizedKey

theorem stretched_extendTo (key : LocalizedKey)
    (hdigest : ∀ message, 0 < (suite.digest key.protocol message).length) (length : Nat) :
    Stretched suite key.protocol length key.octets (key.extendTo suite length).octets :=
  stretched_stretch hdigest length key.octets (Nat.le_add_left _ _)

theorem extendTo_extendTo (key : LocalizedKey)
    (hdigest : ∀ message, 0 < (suite.digest key.protocol message).length) (first second : Nat) :
    (key.extendTo suite first).extendTo suite second = key.extendTo suite (max first second) := by
  have hboth := (key.stretched_extendTo hdigest first).trans
    ((key.extendTo suite first).stretched_extendTo hdigest second)
  exact congrArg (LocalizedKey.mk key.protocol)
    (hboth.unique (key.stretched_extendTo hdigest (max first second)))

/-- **A key is stretched by the fewest digests that make it long enough.**  The loop that has no
    bound ends, and only with this key.  The key begins with what it was, is not a whole digest
    longer than it has to be, and may be stretched in two steps as well as in one. -/
theorem extendTo_stretches (suite : Suite) (key : LocalizedKey) {size : Nat} (hsize : 0 < size)
    (hdigest : ∀ message, (suite.digest key.protocol message).length = size)
    (hkey : key.octets.length = size) :
    (∀ length,
      (∀ result, Stretched suite key.protocol length key.octets result ↔
        result = (key.extendTo suite length).octets) ∧
      (∃ blocks, (key.extendTo suite length).octets =
          grown suite key.protocol key.octets blocks ∧
        length ≤ (key.extendTo suite length).octets.length ∧
        ∀ fewer < blocks, (grown suite key.protocol key.octets fewer).length < length) ∧
      key.octets <+: (key.extendTo suite length).octets ∧
      (key.extendTo suite length).octets.length < max length size + size) ∧
    ∀ first second, (key.extendTo suite first).extendTo suite second =
      key.extendTo suite (max first second) := by
  have hpos : ∀ message, 0 < (suite.digest key.protocol message).length :=
    fun message => (hdigest message).symm ▸ hsize
  refine ⟨fun length => ?_, key.extendTo_extendTo hpos⟩
  have hrun := key.stretched_extendTo hpos length
  obtain ⟨blocks, hblocks, henough, hfewest⟩ := hrun.fewest
  refine ⟨fun result => ⟨fun h => h.unique hrun, fun h => h ▸ hrun⟩,
    ⟨blocks, hblocks, henough, hfewest⟩, hblocks ▸ prefix_grown key.octets blocks, ?_⟩
  -- The key before the last digest was still too short.
  rw [hblocks]
  cases blocks with
  | zero =>
    rw [grown, hkey]
    omega
  | succ blocks =>
    have hlast := hfewest blocks (Nat.lt_succ_self blocks)
    rw [grown, List.length_append, hdigest]
    omega

/-- A key of sixteen octets, half of what the longest cipher key needs. -/
def shortKey : LocalizedKey :=
  MasterKey.localize .standard ⟨.md5, [1, 2, 3]⟩ [128, 0, 0, 0, 1]

theorem extendTo_stretches_shortKey :
    (∀ message, (Suite.standard.digest shortKey.protocol message).length = 16) ∧
    shortKey.octets.length = 16 ∧
    shortKey.octets <+: (shortKey.extendTo .standard 32).octets ∧
    (shortKey.extendTo .standard 32).octets.length < 48 ∧
    (shortKey.extendTo .standard 24).extendTo .standard 32 = shortKey.extendTo .standard 32 := by
  have hdigest : ∀ message, (Suite.standard.digest shortKey.protocol message).length = 16 :=
    Suite.length_standard_digest .md5
  have hkey : shortKey.octets.length = 16 := Suite.length_standard_digest .md5 _
  obtain ⟨hlengths, htwice⟩ := extendTo_stretches .standard shortKey (by decide) hdigest hkey
  obtain ⟨-, -, hprefix, hshort⟩ := hlengths 32
  exact ⟨hdigest, hkey, hprefix, hshort, htwice 24 32⟩

end LocalizedKey

end Snmp.Usm
