/-
  Snmp/Proofs/PassphraseExpansion.lean
  ====================================
  **What is hashed of a passphrase.**

  A hash is fed a passphrase block by block, with an index that runs on from one block to the
  next and goes around the passphrase, while a count of its own says when it is enough.  Put
  together, the blocks are 2^20 octets, and the octet at a place is the one of the passphrase at
  that place, counted around (`cyclic`).  Passphrases that agree when they are repeated therefore
  have one master key.
-/
import Mathlib.Algebra.Group.Nat.Defs
import Snmp.Usm.Key

namespace Snmp.Usm

/-! ### Blocks -/

/-- The octet at a place of a passphrase that is repeated end to end. -/
def cyclic (passphrase : Octets) (place : Nat) : Option UInt8 :=
  passphrase[place % passphrase.length]?

/-- A block is filled from the index on, and the index moves by the octets that were taken. -/
theorem fillBlock_spec (passphrase : Array UInt8) (present : 0 < passphrase.size)
    (count index : Nat) :
    (fillBlock passphrase present count index).1.map some =
        (List.range' index count).map (cyclic passphrase.toList) ∧
      (fillBlock passphrase present count index).2 = index + count := by
  induction count generalizing index with
  | zero => exact ⟨rfl, rfl⟩
  | succ count ih =>
    obtain ⟨hrest, hnext⟩ := ih (index + 1)
    have hbound := Nat.mod_lt index present
    have hfirst : some passphrase[index % passphrase.size] = cyclic passphrase.toList index := by
      rw [cyclic, Array.length_toList, Array.getElem?_toList, Array.getElem?_eq_getElem]
    constructor
    · rw [List.range'_succ, List.map_cons, ← hfirst, ← hrest]
      rfl
    · rw [fillBlock, hnext]
      omega

/-- The blocks hold all that is still to be counted, from the index on, as long as that is a
    number of whole blocks: the loop counts in blocks and would feed the last one whole. -/
theorem flatten_expansionBlocks (passphrase : Array UInt8) (present : 0 < passphrase.size)
    (index count : Nat) (hwhole : blockLength ∣ expansionLength - count) :
    (expansionBlocks passphrase present index count).flatten.map some =
      (List.range' index (expansionLength - count)).map (cyclic passphrase.toList) := by
  fun_induction expansionBlocks passphrase present index count with
  | case1 index count hmore block next hblock ih =>
    obtain ⟨hfilled, hnext⟩ := fillBlock_spec passphrase present blockLength index
    rw [hblock] at hfilled hnext
    dsimp only at hfilled hnext
    have hle : blockLength ≤ expansionLength - count :=
      Nat.le_of_dvd (Nat.sub_pos_of_lt hmore) hwhole
    have hleft : expansionLength - count =
        blockLength + (expansionLength - (count + blockLength)) := by omega
    have hwhole' : blockLength ∣ expansionLength - (count + blockLength) := by
      rw [← Nat.sub_sub]
      exact Nat.dvd_sub hwhole (Nat.dvd_refl blockLength)
    rw [List.flatten_cons, List.map_append, hfilled, ih hwhole', hnext, hleft,
      ← List.range'_append_1, List.map_append]
  | case2 index count hdone =>
    rw [Nat.sub_eq_zero_of_le (Nat.le_of_not_lt hdone)]
    rfl

theorem expand_nil : expand [] = [] := rfl

theorem map_some_expand {passphrase : Octets} (hpresent : passphrase ≠ []) :
    (expand passphrase).map some = (List.range (2 ^ 20)).map (cyclic passphrase) := by
  have hsize : 0 < passphrase.toArray.size := List.length_pos_iff.2 hpresent
  rw [expand, dif_pos hsize, flatten_expansionBlocks _ hsize 0 0 (by decide), List.range_eq_range']
  rfl

theorem length_expand {passphrase : Octets} (hpresent : passphrase ≠ []) :
    (expand passphrase).length = 2 ^ 20 := by
  have hlength := congrArg List.length (map_some_expand hpresent)
  rwa [List.length_map, List.length_map, List.length_range] at hlength

theorem getElem?_expand {passphrase : Octets} (hpresent : passphrase ≠ []) {place : Nat}
    (hplace : place < 2 ^ 20) : (expand passphrase)[place]? = cyclic passphrase place := by
  have hentry : ((expand passphrase).map some)[place]? = some (cyclic passphrase place) := by
    rw [map_some_expand hpresent, List.getElem?_map, List.getElem?_range hplace]
    rfl
  rw [List.getElem?_map, Option.map_eq_some_iff] at hentry
  obtain ⟨octet, hoctet, hcyclic⟩ := hentry
  rw [hoctet, hcyclic]

theorem cyclic_eq_none_iff (passphrase : Octets) (place : Nat) :
    cyclic passphrase place = none ↔ passphrase = [] := by
  rw [cyclic, List.getElem?_eq_none_iff]
  constructor
  · intro hle
    rcases Nat.eq_zero_or_pos passphrase.length with hzero | hpos
    · exact List.length_eq_zero_iff.1 hzero
    · exact absurd (Nat.mod_lt place hpos) (Nat.not_lt.2 hle)
  · rintro rfl
    exact Nat.zero_le _

/-- Passphrases that agree on the octets that are hashed expand to the same octets. -/
theorem expand_congr {passphrase other : Octets}
    (h : ∀ place < 2 ^ 20, cyclic passphrase place = cyclic other place) :
    expand passphrase = expand other := by
  have hnil : passphrase = [] ↔ other = [] := by
    rw [← cyclic_eq_none_iff passphrase 0, h 0 (by decide), cyclic_eq_none_iff]
  by_cases hpresent : passphrase = []
  · rw [hpresent, hnil.1 hpresent]
  · apply (List.map_inj_right fun _ _ => Option.some.inj).1
    rw [map_some_expand hpresent, map_some_expand (mt hnil.2 hpresent)]
    exact List.map_congr_left fun place hplace => h place (List.mem_range.1 hplace)

theorem getElem?_flatten_replicate (passphrase : Octets) (times : Nat) {place : Nat}
    (hplace : place < times * passphrase.length) :
    (List.replicate times passphrase).flatten[place]? = cyclic passphrase place := by
  induction times generalizing place with
  | zero => simp at hplace
  | succ times ih =>
    rw [List.replicate_succ, List.flatten_cons]
    by_cases hfirst : place < passphrase.length
    · rw [List.getElem?_append_left hfirst, cyclic, Nat.mod_eq_of_lt hfirst]
    · have hle := Nat.le_of_not_lt hfirst
      rw [Nat.succ_mul] at hplace
      rw [List.getElem?_append_right hle, ih (by omega), cyclic, cyclic, ← Nat.mod_eq_sub_mod hle]

/-- Counting around a passphrase that is written several times is counting around it. -/
theorem cyclic_flatten_replicate (passphrase : Octets) {times : Nat} (htimes : 0 < times)
    (place : Nat) :
    cyclic (List.replicate times passphrase).flatten place = cyclic passphrase place := by
  by_cases hpresent : passphrase = []
  · rw [hpresent, List.flatten_replicate_nil]
  · have hpos := Nat.mul_pos htimes (List.length_pos_iff.2 hpresent)
    rw [cyclic, List.length_flatten, List.map_replicate, List.sum_replicate_nat,
      getElem?_flatten_replicate passphrase times (Nat.mod_lt place hpos), cyclic,
      Nat.mod_mod_of_dvd place (Nat.dvd_mul_left passphrase.length times), cyclic]

/-- **A master key is the digest of 2^20 octets of a passphrase, repeated end to end.**  So it is
    the key of the passphrase written any number of times, and the key of every passphrase that
    goes around to the same 2^20 octets.  Of the empty passphrase nothing is hashed. -/
theorem ofPassphrase_expands (suite : Suite) (protocol : AuthProtocol) :
    (∀ passphrase : Octets, passphrase ≠ [] → ∃ data : Octets,
      data.length = 2 ^ 20 ∧
      (∀ place < 2 ^ 20, data[place]? = passphrase[place % passphrase.length]?) ∧
      MasterKey.ofPassphrase suite protocol passphrase =
        ⟨protocol, suite.digest protocol data⟩) ∧
    MasterKey.ofPassphrase suite protocol [] = ⟨protocol, suite.digest protocol []⟩ ∧
    (∀ (passphrase : Octets) (times : Nat), 0 < times →
      MasterKey.ofPassphrase suite protocol (List.replicate times passphrase).flatten =
        MasterKey.ofPassphrase suite protocol passphrase) ∧
    ∀ passphrase other : Octets,
      (∀ place < 2 ^ 20,
        passphrase[place % passphrase.length]? = other[place % other.length]?) →
      MasterKey.ofPassphrase suite protocol passphrase =
        MasterKey.ofPassphrase suite protocol other := by
  refine ⟨fun passphrase hpresent => ?_, by rw [MasterKey.ofPassphrase, expand_nil], ?_, ?_⟩
  · exact ⟨expand passphrase, length_expand hpresent, fun place => getElem?_expand hpresent, rfl⟩
  · intro passphrase times htimes
    rw [MasterKey.ofPassphrase, MasterKey.ofPassphrase,
      expand_congr fun place _ => cyclic_flatten_replicate passphrase htimes place]
  · intro passphrase other h
    rw [MasterKey.ofPassphrase, MasterKey.ofPassphrase, expand_congr h]

/-- A passphrase of five octets, so that no block ends where the passphrase does. -/
def oddPassphrase : Octets := [0x6d, 0x61, 0x70, 0x6c, 0x65]

theorem ofPassphrase_expands_oddPassphrase :
    oddPassphrase ≠ [] ∧
    (∃ data : Octets, data.length = 2 ^ 20 ∧
      (∀ place < 2 ^ 20, data[place]? = oddPassphrase[place % oddPassphrase.length]?) ∧
      MasterKey.ofPassphrase .standard .sha256 oddPassphrase =
        ⟨.sha256, Suite.standard.digest .sha256 data⟩) ∧
    MasterKey.ofPassphrase .standard .sha256 (oddPassphrase ++ oddPassphrase) =
      MasterKey.ofPassphrase .standard .sha256 oddPassphrase := by
  obtain ⟨hdata, -, htimes, -⟩ := ofPassphrase_expands .standard .sha256
  exact ⟨by decide, hdata oddPassphrase (by decide), htimes oddPassphrase 2 (by decide)⟩

end Snmp.Usm
