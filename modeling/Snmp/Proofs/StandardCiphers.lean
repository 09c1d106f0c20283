/-
  Snmp/Proofs/StandardCiphers.lean
  ================================
  **The functions of the standards are lawful.**

  Feedback undoes itself because mixing twice with the same octets does, whatever the block
  function is.  DES undoes itself because a round exchanges the halves of a block after mixing
  one into the other, so that the rounds in reverse order run backwards, and because the
  permutations before and after the rounds are inverse to each other, which is read off their
  tables bit by bit.
-/
import Snmp.Proofs.KeyLaws
import Snmp.Proofs.Numbers

namespace Snmp

/-! ### Octets and words -/

namespace Octets

theorem xor_xor {a b : Octets} (h : a.length ≤ b.length) : xor (xor a b) b = a := by
  induction a generalizing b with
  | nil => rfl
  | cons x a ih =>
    cases b with
    | nil => simp at h
    | cons y b =>
      have htail := ih (b := b) (by simpa using h)
      simp only [xor, List.zipWith_cons_cons] at *
      rw [htail, UInt8.xor_assoc, UInt8.xor_self, UInt8.xor_zero]

theorem ofWord64_toWord64 {octets : Octets} (h : octets.length = 8) :
    ofWord64 (toWord64 octets) = octets := by
  have hlt : toNat octets < UInt64.size := by
    have hbound := toNat_lt octets
    rwa [h] at hbound
  apply eq_of_toNat_eq (by rw [length_ofWord64, h])
  rw [toNat_ofWord64, toNat_toWord64, Nat.mod_eq_of_lt hlt]

end Octets

namespace Crypto

/-! ### Feedback -/

namespace Aes

theorem length_toOctets (block : Block) : block.toOctets.length = 16 := rfl

theorem feed_eq {plaintext : Octets} (h : plaintext ≠ []) (keys : List Block) (previous : Octets) :
    feed keys previous plaintext =
      Octets.xor (plaintext.take 16) (transform keys (blockOf previous)).toOctets
        ++ feed keys
          (Octets.xor (plaintext.take 16) (transform keys (blockOf previous)).toOctets)
          (plaintext.drop 16) := by
  cases plaintext with
  | nil => exact absurd rfl h
  | cons octet rest => rw [feed, List.take_succ_cons, List.drop_succ_cons]

theorem unfeed_eq {ciphertext : Octets} (h : ciphertext ≠ []) (keys : List Block)
    (previous : Octets) :
    unfeed keys previous ciphertext =
      Octets.xor (ciphertext.take 16) (transform keys (blockOf previous)).toOctets
        ++ unfeed keys (ciphertext.take 16) (ciphertext.drop 16) := by
  cases ciphertext with
  | nil => exact absurd rfl h
  | cons octet rest => rw [unfeed, List.take_succ_cons, List.drop_succ_cons]

theorem length_feed (keys : List Block) (previous plaintext : Octets) :
    (feed keys previous plaintext).length = plaintext.length := by
  induction hn : plaintext.length using Nat.strongRecOn generalizing previous plaintext with
  | _ n ih =>
    by_cases h : plaintext = []
    · rw [← hn, h, feed]
    · have hpos := List.length_pos_iff.2 h
      rw [feed_eq h, List.length_append, ih _ (by rw [List.length_drop]; omega) _ _ rfl,
        Octets.length_xor, length_toOctets, List.length_take, List.length_drop]
      omega

theorem unfeed_feed (keys : List Block) (previous plaintext : Octets) :
    unfeed keys previous (feed keys previous plaintext) = plaintext := by
  induction hn : plaintext.length using Nat.strongRecOn generalizing previous plaintext with
  | _ n ih =>
    by_cases h : plaintext = []
    · rw [h, feed, unfeed]
    · have hpos := List.length_pos_iff.2 h
      let pad := (transform keys (blockOf previous)).toOctets
      let first := Octets.xor (plaintext.take 16) pad
      have hfirst : first.length = min 16 plaintext.length := by
        rw [Octets.length_xor, List.length_take, length_toOctets]
        omega
      have hfeed : feed keys previous plaintext = first ++ feed keys first (plaintext.drop 16) :=
        feed_eq h keys previous
      have hne : feed keys previous plaintext ≠ [] := by
        rw [← List.length_pos_iff, length_feed]
        exact hpos
      -- a block shorter than 16 octets is the last one
      have hcut : (feed keys previous plaintext).take 16 = first ∧
          (feed keys previous plaintext).drop 16 = feed keys first (plaintext.drop 16) := by
        rw [hfeed]
        by_cases hlong : 16 ≤ plaintext.length
        · rw [Nat.min_eq_left hlong] at hfirst
          rw [← hfirst]
          exact ⟨List.take_left, List.drop_left⟩
        · have hend : plaintext.drop 16 = [] := List.drop_of_length_le (by omega)
          rw [hend, feed, List.append_nil]
          exact ⟨List.take_of_length_le (by omega), List.drop_of_length_le (by omega)⟩
      rw [unfeed_eq hne, hcut.1, hcut.2, ih _ (by rw [List.length_drop]; omega) _ _ rfl,
        Octets.xor_xor (by rw [List.length_take, length_toOctets]; omega), List.take_append_drop]

end Aes

/-! ### Bit selections -/

namespace Des

/-- The bit of a word at a place that is counted from 1 at the top. -/
def bitAt (word place : UInt64) : Bool := word.toNat.testBit (64 - place.toNat)

/-- A step of a selection shifts the selected bit in below. -/
theorem testBit_shiftIn (bits word place : UInt64) (hplace : 1 ≤ place ∧ place ≤ 64) (i : Nat)
    (hi : i < 64) :
    (bits <<< 1 ||| (word >>> (64 - place) &&& 1)).toNat.testBit i =
      if i = 0 then bitAt word place else bits.toNat.testBit (i - 1) := by
  have hlow : 1 ≤ place.toNat := UInt64.le_iff_toNat_le.1 hplace.1
  have hhigh : place.toNat ≤ 64 := UInt64.le_iff_toNat_le.1 hplace.2
  have hone : (1 : UInt64).toNat = 1 := rfl
  have hwidth : (64 : UInt64).toNat = 64 := rfl
  have hsub : (64 - place).toNat % 64 = 64 - place.toNat := by
    rw [UInt64.toNat_sub_of_le _ _ hplace.2, hwidth]
    exact Nat.mod_eq_of_lt (by omega)
  simp only [UInt64.toNat_or, UInt64.toNat_and, UInt64.toNat_shiftLeft, UInt64.toNat_shiftRight,
    hsub, hone, Nat.mod_eq_of_lt (by decide : 1 < 64), Nat.testBit_or,
    Nat.testBit_and, Nat.testBit_mod_two_pow, Nat.testBit_shiftLeft, Nat.testBit_shiftRight,
    hi, decide_true, Bool.true_and]
  by_cases hzero : i = 0
  · simp [hzero, bitAt]
  · have hpos : 1 ≤ i := Nat.one_le_iff_ne_zero.2 hzero
    have hmask : Nat.testBit 1 i = false :=
      Bool.eq_false_iff.2 fun h => hzero (Nat.testBit_one_eq_true_iff_self_eq_zero.1 h)
    simp [hzero, hpos, hmask]

/-- A selection holds the bits at its places, the last place in the lowest bit, by induction on
    the places. -/
theorem testBit_foldl_select (word : UInt64) : ∀ (places : List UInt64) (bits : UInt64),
    (∀ place ∈ places, 1 ≤ place ∧ place ≤ 64) → ∀ i < 64,
    (places.foldl (fun (bits : UInt64) place =>
        bits <<< 1 ||| (word >>> (64 - place) &&& 1)) bits).toNat.testBit i =
      if i < places.length then bitAt word (places.reverse.getD i 0)
      else bits.toNat.testBit (i - places.length) := by
  intro places
  induction places with
  | nil =>
    intro bits _ i _
    simp
  | cons place rest ih =>
    intro bits hplaces i hi
    have hplace := hplaces place (by simp)
    rw [List.foldl_cons, ih _ (fun p hp => hplaces p (by simp [hp])) i hi]
    simp only [List.length_cons, List.reverse_cons]
    by_cases hlt : i < rest.length
    · have hsucc : i < rest.length + 1 := by omega
      rw [if_pos hlt, if_pos hsucc, List.getD_eq_getElem?_getD, List.getD_eq_getElem?_getD,
        List.getElem?_append_left (by simpa using hlt)]
    · rw [if_neg hlt, testBit_shiftIn _ _ _ hplace _ (by omega)]
      by_cases heq : i = rest.length
      · have hsucc : i < rest.length + 1 := by omega
        rw [if_pos (by omega), if_pos hsucc, List.getD_eq_getElem?_getD,
          List.getElem?_append_right (by simp [heq])]
        simp [heq]
      · have hsucc : ¬i < rest.length + 1 := by omega
        rw [if_neg (by omega), if_neg hsucc]
        congr 1

/-- The places of a permutation of 64 bits. -/
def IsTable (places : List UInt64) : Prop :=
  places.length = 64 ∧ ∀ place ∈ places, 1 ≤ place ∧ place ≤ 64

theorem testBit_select {places : List UInt64} (h : IsTable places) (word : UInt64) {i : Nat}
    (hi : i < 64) :
    (select 64 places word).toNat.testBit i = bitAt word (places.reverse.getD i 0) := by
  rw [select, testBit_foldl_select word places 0 h.2 i hi, if_pos (by rw [h.1]; exact hi)]

/-- Two tables are inverse if following one after the other leads back to each bit. -/
def Inverse (first second : List UInt64) : Prop :=
  ∀ i < 64, 64 - (first.reverse.getD (64 - (second.reverse.getD i 0).toNat) 0).toNat = i

theorem select_select {first second : List UInt64} (hfirst : IsTable first)
    (hsecond : IsTable second) (hinverse : Inverse first second) (word : UInt64) :
    select 64 second (select 64 first word) = word := by
  apply UInt64.toNat_inj.1
  apply Nat.eq_of_testBit_eq
  intro i
  by_cases hi : i < 64
  · have hplace : 1 ≤ second.reverse.getD i 0 := by
      have hmem : second.reverse.getD i 0 ∈ second := by
        have hlt : i < second.reverse.length := by simp [hsecond.1, hi]
        rw [List.getD_eq_getElem?_getD, List.getElem?_eq_getElem hlt, Option.getD_some]
        exact List.mem_reverse.1 (List.getElem_mem hlt)
      exact (hsecond.2 _ hmem).1
    have hnat : 1 ≤ (second.reverse.getD i 0).toNat := UInt64.le_iff_toNat_le.1 hplace
    rw [testBit_select hsecond _ hi, bitAt, testBit_select hfirst _ (by omega), bitAt,
      hinverse i hi]
  · have hbound (w : UInt64) : w.toNat.testBit i = false :=
      Nat.testBit_lt_two_pow (Nat.lt_of_lt_of_le w.toNat_lt
        (Nat.pow_le_pow_right (by decide) (by omega)))
    rw [hbound, hbound]

theorem isTable_of_all {places : List UInt64} (hlength : places.length = 64)
    (hall : places.all (fun place => 1 ≤ place && place ≤ 64) = true) : IsTable places := by
  refine ⟨hlength, fun place hplace => ?_⟩
  have hbounds := List.all_eq_true.1 hall place hplace
  simpa only [Bool.and_eq_true, decide_eq_true_eq] using hbounds

theorem isTable_initialPlaces : IsTable initialPlaces :=
  isTable_of_all rfl (by decide +kernel)

theorem isTable_finalPlaces : IsTable finalPlaces :=
  isTable_of_all rfl (by decide +kernel)

theorem final_initial (word : UInt64) :
    select 64 finalPlaces (select 64 initialPlaces word) = word := by
  apply select_select isTable_initialPlaces isTable_finalPlaces
  unfold Inverse
  decide +kernel

theorem initial_final (word : UInt64) :
    select 64 initialPlaces (select 64 finalPlaces word) = word := by
  apply select_select isTable_finalPlaces isTable_initialPlaces
  unfold Inverse
  decide +kernel

/-! ### Rounds -/

def Halves.swap (h : Halves) : Halves := ⟨h.right, h.left⟩

/-- Running a round again on the exchanged halves takes it back. -/
theorem round_swap_round (h : Halves) (key : UInt64) :
    round (round h key).swap key = h.swap := by
  simp only [round, Halves.swap, UInt32.xor_assoc, UInt32.xor_self, UInt32.xor_zero]

/-- The rounds in reverse order take back all of them, by induction on the keys. -/
theorem foldl_reverse_swap (keys : List UInt64) : ∀ (h : Halves),
    keys.reverse.foldl round (keys.foldl round h).swap = h.swap := by
  induction keys with
  | nil => exact fun h => rfl
  | cons key rest ih =>
    intro h
    have hfirst : (key :: rest).foldl round h = rest.foldl round (round h key) := rfl
    rw [List.reverse_cons, List.foldl_append, hfirst, ih]
    exact round_swap_round h key

def join (high low : UInt32) : UInt64 := high.toUInt64 <<< 32 ||| low.toUInt64

theorem toNat_join (high low : UInt32) :
    (join high low).toNat = high.toNat * 4294967296 + low.toNat := by
  have hhigh := high.toNat_lt
  have hlow := low.toNat_lt
  have hor := Nat.two_pow_add_eq_or_of_lt hlow high.toNat
  simp only [join, UInt64.toNat_or, UInt64.toNat_shiftLeft, UInt32.toNat_toUInt64,
    show (32 : UInt64).toNat % 64 = 32 from rfl, Nat.shiftLeft_eq]
  rw [Nat.mod_eq_of_lt (by omega), Nat.mul_comm, ← hor]

theorem high_join (high low : UInt32) : (join high low >>> 32).toUInt32 = high := by
  have hhigh := high.toNat_lt
  have hlow := low.toNat_lt
  apply UInt32.toNat_inj.1
  rw [UInt64.toNat_toUInt32, UInt64.toNat_shiftRight, toNat_join, Nat.shiftRight_eq_div_pow,
    show (32 : UInt64).toNat % 64 = 32 from rfl]
  omega

theorem low_join (high low : UInt32) : (join high low).toUInt32 = low := by
  have hlow := low.toNat_lt
  apply UInt32.toNat_inj.1
  rw [UInt64.toNat_toUInt32, toNat_join]
  omega

theorem join_high_low (word : UInt64) : join (word >>> 32).toUInt32 word.toUInt32 = word := by
  have hword := word.toNat_lt
  apply UInt64.toNat_inj.1
  rw [toNat_join, UInt64.toNat_toUInt32, UInt64.toNat_toUInt32, UInt64.toNat_shiftRight,
    Nat.shiftRight_eq_div_pow, show (32 : UInt64).toNat % 64 = 32 from rfl]
  omega

/-- The rounds with the keys in reverse order undo the rounds. -/
theorem transform_reverse_transform (keys : List UInt64) (block : UInt64) :
    transform keys.reverse (transform keys block) = block := by
  let permuted := select 64 initialPlaces block
  let h := keys.foldl round ⟨(permuted >>> 32).toUInt32, permuted.toUInt32⟩
  have hcipher : transform keys block = select 64 finalPlaces (join h.right h.left) := rfl
  have hback : keys.reverse.foldl round h.swap =
      ⟨permuted.toUInt32, (permuted >>> 32).toUInt32⟩ := foldl_reverse_swap keys _
  rw [hcipher, transform, initial_final, high_join, low_join]
  change select 64 finalPlaces (join (keys.reverse.foldl round h.swap).right
    (keys.reverse.foldl round h.swap).left) = block
  rw [hback, join_high_low, final_initial]

/-! ### Chaining -/

theorem unchain_chain (keys : List UInt64) : ∀ (previous : UInt64) (blocks : List UInt64),
    unchain keys.reverse previous (chain keys previous blocks) = blocks := by
  intro previous blocks
  induction blocks generalizing previous with
  | nil => rfl
  | cons block rest ih =>
    rw [chain, unchain, transform_reverse_transform, UInt64.xor_assoc, UInt64.xor_self,
      UInt64.xor_zero, ih]

theorem length_chain (keys : List UInt64) (previous : UInt64) (blocks : List UInt64) :
    (chain keys previous blocks).length = blocks.length := by
  induction blocks generalizing previous with
  | nil => rfl
  | cons block rest ih => rw [chain, List.length_cons, List.length_cons, ih]

theorem words64_flatMap (words : List UInt64) :
    words64 (words.flatMap Octets.ofWord64) = words := by
  induction words with
  | nil => rfl
  | cons word rest ih =>
    have hcons : words64 (Octets.ofWord64 word ++ rest.flatMap Octets.ofWord64) =
        Octets.toWord64 (Octets.ofWord64 word) :: words64 (rest.flatMap Octets.ofWord64) := rfl
    rw [List.flatMap_cons, hcons, Octets.toWord64_ofWord64, ih]

/-- Whole blocks are the octets of their words, by induction on the number of blocks. -/
theorem flatMap_words64 {octets : Octets} (h : octets.length % 8 = 0) :
    (words64 octets).flatMap Octets.ofWord64 = octets := by
  induction hn : octets.length using Nat.strongRecOn generalizing octets with
  | _ n ih =>
    match octets with
    | [] => rfl
    | a :: b :: c :: d :: e :: f :: g :: i :: rest =>
      simp only [List.length_cons] at h hn
      rw [words64, List.flatMap_cons, Octets.ofWord64_toWord64 rfl,
        ih rest.length (by omega) (by omega) rfl]
      rfl
    | [_] | [_, _] | [_, _, _] | [_, _, _, _] | [_, _, _, _, _] | [_, _, _, _, _, _]
    | [_, _, _, _, _, _, _] => simp at h

theorem length_flatMap_ofWord64 (words : List UInt64) :
    (words.flatMap Octets.ofWord64).length = 8 * words.length := by
  induction words with
  | nil => rfl
  | cons word rest ih =>
    rw [List.flatMap_cons, List.length_append, Octets.length_ofWord64, ih, List.length_cons]
    omega

theorem length_encrypt (key iv : Octets) {plaintext : Octets} (h : plaintext.length % 8 = 0) :
    (encrypt key iv plaintext).length = plaintext.length := by
  have hwords := length_flatMap_ofWord64 (words64 plaintext)
  rw [flatMap_words64 h] at hwords
  rw [encrypt, length_flatMap_ofWord64, length_chain, hwords]

theorem decrypt_encrypt (key iv : Octets) {plaintext : Octets} (h : plaintext.length % 8 = 0) :
    decrypt key iv (encrypt key iv plaintext) = plaintext := by
  rw [decrypt, encrypt, words64_flatMap, unchain_chain, flatMap_words64 h]

end Des

end Crypto

/-! ### The suite -/

namespace Usm.Suite

theorem length_standard_mac (protocol : AuthProtocol) (key message : Octets) :
    (standard.mac protocol key message).length = protocol.digestLength :=
  length_standard_digest protocol _

theorem standard_lawful : standard.Lawful where
  length_digest := length_standard_digest
  macLength_le protocol key message := by
    rw [length_standard_mac]
    cases protocol <;> decide
  length_encrypt protocol key iv plaintext _ _ htakes := by
    cases protocol with
    | des => exact Crypto.Des.length_encrypt key iv (htakes rfl)
    | aes128 => exact Crypto.Aes.length_feed _ _ _
    | aes192 => exact Crypto.Aes.length_feed _ _ _
    | aes256 => exact Crypto.Aes.length_feed _ _ _
  decrypt_encrypt protocol key iv plaintext _ _ htakes := by
    cases protocol with
    | des => exact Crypto.Des.decrypt_encrypt key iv (htakes rfl)
    | aes128 => exact Crypto.Aes.unfeed_feed _ _ _
    | aes192 => exact Crypto.Aes.unfeed_feed _ _ _
    | aes256 => exact Crypto.Aes.unfeed_feed _ _ _

/-- The standard suite with digests of the first 48 octets alone, so that the key of a passphrase
    takes one block and not 2^14 of them. -/
def brief : Suite :=
  { standard with digest := fun protocol message => standard.digest protocol (message.take 48) }

theorem brief_lawful : brief.Lawful :=
  { standard_lawful with length_digest := fun protocol _ => length_standard_digest protocol _ }

end Usm.Suite

end Snmp
