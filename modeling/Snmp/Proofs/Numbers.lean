/-
  Snmp/Proofs/Numbers.lean
  ========================
  **Numbers and the octets that denote them.**

  A natural number has a shortest octet string in base 256 (`ofNat`), and an integer has one in
  two's complement (`ofInt`).  The readers are their left inverses: `toNat` undoes `ofNat`, and
  `toInt` undoes `ofInt`.  A number below a power of 256 takes no more octets than the power
  says, which is what the length caps of the decoders ask for; a natural number written in two's
  complement is read back whether or not the top bit counts as a sign.

  Machine words are written with their full width, so the statement for them is plain.
-/
import Snmp.Octets

namespace Snmp.Octets

/-! ### Natural numbers -/

/-- The shortest non-empty octet string that denotes `n`. -/
def ofNat (n : Nat) : Octets :=
  if n < 256 then [UInt8.ofNat n] else ofNat (n / 256) ++ [UInt8.ofNat n]
termination_by n
decreasing_by omega

theorem pow_succ_base (k : Nat) : Nat.pow 256 (k + 1) = Nat.pow 256 k * 256 := rfl

theorem toNat_append_singleton (octets : Octets) (octet : UInt8) :
    toNat (octets ++ [octet]) = toNat octets * 256 + octet.toNat := by
  simp [toNat, List.foldl_append]

theorem toNat_ofNat_octet {n : Nat} (h : n < 256) : (UInt8.ofNat n).toNat = n := by
  rw [UInt8.toNat_ofNat']
  exact Nat.mod_eq_of_lt h

theorem foldl_toNat (octets : Octets) (n : Nat) :
    octets.foldl (fun n octet => n * 256 + octet.toNat) n =
      n * Nat.pow 256 octets.length + toNat octets := by
  induction octets generalizing n with
  | nil => simp [toNat]
  | cons octet rest ih =>
    have hzero := ih (0 * 256 + octet.toNat)
    rw [toNat, List.foldl_cons, List.foldl_cons, hzero, ih, List.length_cons, pow_succ_base]
    grind

theorem toNat_cons (octet : UInt8) (rest : Octets) :
    toNat (octet :: rest) = octet.toNat * Nat.pow 256 rest.length + toNat rest := by
  rw [toNat, List.foldl_cons, foldl_toNat]
  simp

theorem toNat_append (a b : Octets) :
    toNat (a ++ b) = toNat a * Nat.pow 256 b.length + toNat b := by
  rw [toNat, List.foldl_append, foldl_toNat]
  rfl

/-- The last octet of a number holds its remainder, whatever comes before it. -/
theorem toNat_ofNat_mod (n : Nat) : (UInt8.ofNat n).toNat = n % 256 := UInt8.toNat_ofNat'

@[simp] theorem toNat_ofNat (n : Nat) : toNat (ofNat n) = n := by
  induction n using Nat.strongRecOn with
  | _ n ih =>
    rw [ofNat]
    by_cases h : n < 256
    · rw [if_pos h]
      simp only [toNat, List.foldl_cons, List.foldl_nil, toNat_ofNat_octet h]
      omega
    · rw [if_neg h, toNat_append_singleton, ih (n / 256) (by omega), toNat_ofNat_mod]
      omega

theorem toNat_lt (octets : Octets) : toNat octets < Nat.pow 256 octets.length := by
  induction octets with
  | nil => simp [toNat]
  | cons octet rest ih =>
    have hoctet := octet.toNat_lt
    rw [toNat_cons, List.length_cons, pow_succ_base]
    have hmul : (octet.toNat + 1) * Nat.pow 256 rest.length ≤ 256 * Nat.pow 256 rest.length :=
      Nat.mul_le_mul_right _ hoctet
    grind

/-- Octet strings of one length that denote one number are equal, by induction on the octets. -/
theorem eq_of_toNat_eq {a b : Octets} (hlength : a.length = b.length) (h : toNat a = toNat b) :
    a = b := by
  induction a generalizing b with
  | nil => exact (List.eq_nil_of_length_eq_zero hlength.symm).symm
  | cons x a ih =>
    cases b with
    | nil => simp at hlength
    | cons y b =>
      simp only [List.length_cons, Nat.add_right_cancel_iff] at hlength
      rw [toNat_cons, toNat_cons, hlength] at h
      have ha := toNat_lt a
      have hb := toNat_lt b
      rw [hlength] at ha
      have hdigit : x.toNat = y.toNat := by
        have hx := Nat.mul_add_div (Nat.zero_lt_of_lt hb) x.toNat (toNat a)
        have hy := Nat.mul_add_div (Nat.zero_lt_of_lt hb) y.toNat (toNat b)
        rw [Nat.div_eq_of_lt ha] at hx
        rw [Nat.div_eq_of_lt hb] at hy
        grind
      have htail : toNat a = toNat b := by
        rw [hdigit] at h
        omega
      rw [UInt8.toNat_inj.1 hdigit, ih hlength htail]

theorem length_ofNat_pos (n : Nat) : 0 < (ofNat n).length := by
  rw [ofNat]
  split <;> simp

theorem length_ofNat_le {k : Nat} : ∀ {n : Nat}, n < Nat.pow 256 (k + 1) →
    (ofNat n).length ≤ k + 1 := by
  induction k with
  | zero =>
    intro n h
    rw [ofNat, if_pos (by simpa using h)]
    simp
  | succ k ih =>
    intro n h
    rw [ofNat]
    split
    · simp
    · have hdiv : n / 256 < Nat.pow 256 (k + 1) := by
        have hpow := pow_succ_base (k + 1)
        omega
      have := ih hdiv
      simp only [List.length_append, List.length_cons, List.length_nil]
      omega

/-! ### Integers -/

/-- The number that octets denote in two's complement. -/
def toInt (octets : Octets) : Int :=
  match octets with
  | [] => 0
  | first :: _ =>
    if first < 128 then (toNat octets : Int) else (toNat octets : Int) - Nat.pow 256 octets.length

/-- The shortest octet string that denotes `z` in two's complement.  A natural number whose top
    bit would be read as a sign gets a leading zero octet. -/
def ofInt (z : Int) : Octets :=
  if -128 ≤ z ∧ z < 128 then [UInt8.ofInt z] else ofInt (z / 256) ++ [UInt8.ofInt z]
termination_by z.natAbs
decreasing_by omega

/-- The sign of an octet string: the top bit of its first octet. -/
def isNegative (octets : Octets) : Bool :=
  match octets with
  | [] => false
  | first :: _ => decide (128 ≤ first)

theorem isNegative_append {octets : Octets} (h : octets ≠ []) (more : Octets) :
    isNegative (octets ++ more) = isNegative octets := by
  cases octets with
  | nil => exact absurd rfl h
  | cons first rest => rfl

theorem toInt_eq (octets : Octets) : toInt octets =
    if isNegative octets then (toNat octets : Int) - Nat.pow 256 octets.length
    else toNat octets := by
  cases octets with
  | nil => simp [toInt, isNegative, toNat]
  | cons first rest =>
    by_cases h : first < 128
    · have hn : ¬(128 : UInt8) ≤ first := UInt8.not_le.2 h
      simp [toInt, isNegative, h, hn]
    · have hn : (128 : UInt8) ≤ first := UInt8.not_lt.1 h
      simp [toInt, isNegative, h, hn]

theorem toInt_append_singleton {octets : Octets} (h : octets ≠ []) (octet : UInt8) :
    toInt (octets ++ [octet]) = toInt octets * 256 + octet.toNat := by
  rw [toInt_eq, toInt_eq, isNegative_append h, toNat_append_singleton]
  have hlength : (octets ++ [octet]).length = octets.length + 1 := by simp
  rw [hlength, pow_succ_base]
  split <;> omega

theorem ofInt_ne_nil (z : Int) : ofInt z ≠ [] := by
  rw [ofInt]
  split <;> simp

theorem toNat_ofInt_octet (z : Int) : ((UInt8.ofInt z).toNat : Int) = z % 256 := by
  have h : (UInt8.ofInt z).toNat = (z % 256).toNat := by
    have hlt : (z % 256).toNat < 256 := by omega
    simpa [UInt8.ofInt] using Nat.mod_eq_of_lt hlt
  rw [h]
  omega

theorem toInt_singleton (octet : UInt8) :
    toInt [octet] = if octet.toNat < 128 then (octet.toNat : Int) else octet.toNat - 256 := by
  have h : octet < 128 ↔ octet.toNat < 128 := UInt8.lt_iff_toNat_lt
  simp [toInt, toNat, h]

@[simp] theorem toInt_ofInt (z : Int) : toInt (ofInt z) = z := by
  induction hn : z.natAbs using Nat.strongRecOn generalizing z with
  | _ n ih =>
    rw [ofInt]
    by_cases h : -128 ≤ z ∧ z < 128
    · rw [if_pos h, toInt_singleton]
      have := toNat_ofInt_octet z
      split <;> omega
    · rw [if_neg h, toInt_append_singleton (ofInt_ne_nil _), toNat_ofInt_octet,
        ih _ (by omega) (z / 256) rfl]
      omega

theorem length_ofInt_pos (z : Int) : 0 < (ofInt z).length :=
  List.length_pos_iff.2 (ofInt_ne_nil z)

/-- A number of `8 k + 7` bits and a sign takes at most `k + 1` octets. -/
theorem length_ofInt_le {k : Nat} : ∀ {z : Int}, -(128 * Nat.pow 256 k : Nat) ≤ z →
    z < (128 * Nat.pow 256 k : Nat) → (ofInt z).length ≤ k + 1 := by
  induction k with
  | zero =>
    intro z hlow hhigh
    rw [ofInt, if_pos (by simp at hlow hhigh; omega)]
    simp
  | succ k ih =>
    intro z hlow hhigh
    rw [ofInt]
    split
    · simp
    · rw [pow_succ_base] at hlow hhigh
      have := ih (z := z / 256) (by omega) (by omega)
      simp only [List.length_append, List.length_cons, List.length_nil]
      omega

/-- Octet strings of one length that denote one integer are equal: two numbers below a power of
    256 that differ by a multiple of this power are one number. -/
theorem eq_of_toInt_eq {a b : Octets} (hlength : a.length = b.length) (h : toInt a = toInt b) :
    a = b := by
  apply eq_of_toNat_eq hlength
  have ha := toNat_lt a
  have hb := toNat_lt b
  rw [toInt_eq, toInt_eq, hlength] at h
  rw [hlength] at ha
  generalize Nat.pow 256 b.length = power at h ha hb
  split at h <;> split at h <;> omega

/-- The top bit of the first octet is the sign, so the rest is free to take any value. -/
theorem toInt_cons_bounds (first : UInt8) (rest : Octets) :
    -((128 * Nat.pow 256 rest.length : Nat) : Int) ≤ toInt (first :: rest) ∧
      toInt (first :: rest) < ((128 * Nat.pow 256 rest.length : Nat) : Int) := by
  have hvalue := toNat_cons first rest
  have hrest := toNat_lt rest
  have hoctet := first.toNat_lt
  have hpower : Nat.pow 256 (first :: rest).length = Nat.pow 256 rest.length * 256 := rfl
  rw [toInt, hpower, hvalue]
  generalize Nat.pow 256 rest.length = base at hrest
  by_cases hsign : first < 128
  · have hsmall : first.toNat ≤ 127 := Nat.le_of_lt_succ hsign
    have hproduct := Nat.mul_le_mul_right base hsmall
    rw [if_pos hsign]
    omega
  · have hlarge : 128 ≤ first.toNat := Nat.not_lt.1 hsign
    have hsmall : first.toNat ≤ 255 := by omega
    have hlow := Nat.mul_le_mul_right base hlarge
    have hhigh := Nat.mul_le_mul_right base hsmall
    rw [if_neg hsign]
    omega

/-- No octets denote an integer that fewer octets denote as well. -/
theorem length_ofInt_toInt_le {content : Octets} (h : content ≠ []) :
    (ofInt (toInt content)).length ≤ content.length := by
  cases content with
  | nil => exact absurd rfl h
  | cons first rest =>
    obtain ⟨hlow, hhigh⟩ := toInt_cons_bounds first rest
    exact length_ofInt_le hlow hhigh

/-- The first octet of a natural number in two's complement has no sign bit. -/
theorem isNegative_ofInt_natCast (n : Nat) : isNegative (ofInt n) = false := by
  have hz := toInt_ofInt n
  have hlt : toNat (ofInt n) < Nat.pow 256 (ofInt n).length := toNat_lt _
  rw [toInt_eq] at hz
  cases hneg : isNegative (ofInt n) with
  | false => rfl
  | true =>
    rw [hneg, if_pos rfl] at hz
    omega

@[simp] theorem toNat_ofInt_natCast (n : Nat) : toNat (ofInt n) = n := by
  have hz := toInt_ofInt n
  rw [toInt_eq, isNegative_ofInt_natCast, if_neg Bool.false_ne_true] at hz
  exact_mod_cast hz

/-! ### Machine words -/

/-- Shifting in an octet below appends a digit. -/
theorem shift_or_octet {a o : Nat} (h : o < 256) (bound : Nat) :
    a * 256 % (256 * bound) ||| o = a * 256 % (256 * bound) + o := by
  have hdigit : a * 256 % (256 * bound) = 256 * (a % bound) := by
    rw [Nat.mul_comm a 256, Nat.mul_mod_mul_left]
  rw [hdigit]
  exact (Nat.two_pow_add_eq_or_of_lt (i := 8) h _).symm

theorem foldl_toWord32 (octets : Octets) (w : UInt32) :
    (octets.foldl (fun (w : UInt32) octet => w <<< 8 ||| octet.toUInt32) w).toNat =
      octets.foldl (fun n octet => n * 256 + octet.toNat) w.toNat % UInt32.size := by
  induction octets generalizing w with
  | nil => exact (Nat.mod_eq_of_lt w.toNat_lt).symm
  | cons octet rest ih =>
    have hstep : (w <<< 8 ||| octet.toUInt32).toNat =
        (w.toNat * 256 + octet.toNat) % UInt32.size := by
      have hor := shift_or_octet (a := w.toNat) octet.toNat_lt 16777216
      have hlt := octet.toNat_lt
      simp only [UInt32.toNat_or, UInt32.toNat_shiftLeft, UInt8.toNat_toUInt32]
      rw [show (8 : UInt32).toNat % 32 = 8 from rfl, Nat.shiftLeft_eq,
        show 2 ^ 8 = 256 from rfl, show 2 ^ 32 = 256 * 16777216 from rfl, hor]
      simp only [UInt32.size]
      omega
    rw [List.foldl_cons, List.foldl_cons, ih, hstep, foldl_toNat, foldl_toNat,
      Nat.add_mod, Nat.mul_mod, Nat.mod_mod, ← Nat.mul_mod, ← Nat.add_mod]

/-- A word is the number that its octets denote, cut to its width. -/
theorem toNat_toWord32 (octets : Octets) :
    (toWord32 octets).toNat = toNat octets % UInt32.size := foldl_toWord32 octets 0

theorem foldl_toWord64 (octets : Octets) (w : UInt64) :
    (octets.foldl (fun (w : UInt64) octet => w <<< 8 ||| octet.toUInt64) w).toNat =
      octets.foldl (fun n octet => n * 256 + octet.toNat) w.toNat % UInt64.size := by
  induction octets generalizing w with
  | nil => exact (Nat.mod_eq_of_lt w.toNat_lt).symm
  | cons octet rest ih =>
    have hstep : (w <<< 8 ||| octet.toUInt64).toNat =
        (w.toNat * 256 + octet.toNat) % UInt64.size := by
      have hor := shift_or_octet (a := w.toNat) octet.toNat_lt 72057594037927936
      have hlt := octet.toNat_lt
      simp only [UInt64.toNat_or, UInt64.toNat_shiftLeft, UInt8.toNat_toUInt64]
      rw [show (8 : UInt64).toNat % 64 = 8 from rfl, Nat.shiftLeft_eq,
        show 2 ^ 8 = 256 from rfl, show 2 ^ 64 = 256 * 72057594037927936 from rfl, hor]
      simp only [UInt64.size]
      omega
    rw [List.foldl_cons, List.foldl_cons, ih, hstep, foldl_toNat, foldl_toNat,
      Nat.add_mod, Nat.mul_mod, Nat.mod_mod, ← Nat.mul_mod, ← Nat.add_mod]

theorem toNat_toWord64 (octets : Octets) :
    (toWord64 octets).toNat = toNat octets % UInt64.size := foldl_toWord64 octets 0

@[simp] theorem length_ofWord32 (w : UInt32) : (ofWord32 w).length = 4 := rfl

@[simp] theorem length_ofWord64 (w : UInt64) : (ofWord64 w).length = 8 := rfl

theorem toNat_ofWord32 (w : UInt32) : toNat (ofWord32 w) = w.toNat := by
  have h := w.toNat_lt
  simp only [ofWord32, toNat, List.foldl_cons, List.foldl_nil, UInt32.toNat_toUInt8,
    UInt32.toNat_shiftRight, Nat.shiftRight_eq_div_pow]
  rw [show (24 : UInt32).toNat % 32 = 24 from rfl, show (16 : UInt32).toNat % 32 = 16 from rfl,
    show (8 : UInt32).toNat % 32 = 8 from rfl]
  omega

theorem toNat_ofWord64 (w : UInt64) : toNat (ofWord64 w) = w.toNat := by
  have h := w.toNat_lt
  rw [ofWord64, toNat_append, toNat_ofWord32, toNat_ofWord32, length_ofWord32,
    UInt64.toNat_toUInt32, UInt64.toNat_toUInt32, UInt64.toNat_shiftRight,
    Nat.shiftRight_eq_div_pow, show (32 : UInt64).toNat % 64 = 32 from rfl,
    show Nat.pow 256 4 = 4294967296 from rfl]
  omega

@[simp] theorem toWord32_ofWord32 (w : UInt32) : toWord32 (ofWord32 w) = w := by
  rw [← UInt32.toNat_inj, toNat_toWord32, toNat_ofWord32]
  exact Nat.mod_eq_of_lt w.toNat_lt

@[simp] theorem toWord64_ofWord64 (w : UInt64) : toWord64 (ofWord64 w) = w := by
  rw [← UInt64.toNat_inj, toNat_toWord64, toNat_ofWord64]
  exact Nat.mod_eq_of_lt w.toNat_lt

end Snmp.Octets
