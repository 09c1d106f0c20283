/-
  Snmp/Crypto/Des.lean
  ====================
  **DES and cipher block chaining.**

  DES passes a 64-bit block through sixteen rounds between a fixed permutation of its bits and
  the inverse of that permutation.  A round exchanges the halves of the block after mixing one
  into the other, so running the rounds with the keys in reverse order undoes them, whatever
  the mixing function is.  Chaining mixes each block with the ciphertext before it.
-/
import Snmp.Crypto.BlockHash

namespace Snmp.Crypto.Des

/-! ### Bit selections -/

/-- The bits of `word` at the listed places, which are counted from 1 at the top of a word of
    `width` bits. -/
def select (width : UInt64) (places : List UInt64) (word : UInt64) : UInt64 :=
  places.foldl (fun bits place => bits <<< 1 ||| (word >>> (width - place) &&& 1)) 0

def initialPlaces : List UInt64 :=
  [ 58, 50, 42, 34, 26, 18, 10, 2, 60, 52, 44, 36, 28, 20, 12, 4,
    62, 54, 46, 38, 30, 22, 14, 6, 64, 56, 48, 40, 32, 24, 16, 8,
    57, 49, 41, 33, 25, 17, 9, 1, 59, 51, 43, 35, 27, 19, 11, 3,
    61, 53, 45, 37, 29, 21, 13, 5, 63, 55, 47, 39, 31, 23, 15, 7 ]

def finalPlaces : List UInt64 :=
  [ 40, 8, 48, 16, 56, 24, 64, 32, 39, 7, 47, 15, 55, 23, 63, 31,
    38, 6, 46, 14, 54, 22, 62, 30, 37, 5, 45, 13, 53, 21, 61, 29,
    36, 4, 44, 12, 52, 20, 60, 28, 35, 3, 43, 11, 51, 19, 59, 27,
    34, 2, 42, 10, 50, 18, 58, 26, 33, 1, 41, 9, 49, 17, 57, 25 ]

def roundPlaces : List UInt64 :=
  [ 16, 7, 20, 21, 29, 12, 28, 17, 1, 15, 23, 26, 5, 18, 31, 10,
    2, 8, 24, 14, 32, 27, 3, 9, 19, 13, 30, 6, 22, 11, 4, 25 ]

/-- The key bits in use; every eighth bit is left out. -/
def keyPlaces : List UInt64 :=
  [ 57, 49, 41, 33, 25, 17, 9, 1, 58, 50, 42, 34, 26, 18,
    10, 2, 59, 51, 43, 35, 27, 19, 11, 3, 60, 52, 44, 36,
    63, 55, 47, 39, 31, 23, 15, 7, 62, 54, 46, 38, 30, 22,
    14, 6, 61, 53, 45, 37, 29, 21, 13, 5, 28, 20, 12, 4 ]

def roundKeyPlaces : List UInt64 :=
  [ 14, 17, 11, 24, 1, 5, 3, 28, 15, 6, 21, 10,
    23, 19, 12, 4, 26, 8, 16, 7, 27, 20, 13, 2,
    41, 52, 31, 37, 47, 55, 30, 40, 51, 45, 33, 48,
    44, 49, 39, 56, 34, 53, 46, 42, 50, 36, 29, 32 ]

/-! ### Round keys -/

def rotations : List UInt64 := [1, 1, 2, 2, 2, 2, 2, 2, 1, 2, 2, 2, 2, 2, 2, 1]

def rotate28 (word amount : UInt64) : UInt64 :=
  (word <<< amount ||| word >>> (28 - amount)) &&& 0xfffffff

def roundKeysFrom (left right : UInt64) : List UInt64 → List UInt64
  | [] => []
  | amount :: rest =>
    let left := rotate28 left amount
    let right := rotate28 right amount
    select 56 roundKeyPlaces (left <<< 28 ||| right) :: roundKeysFrom left right rest

def roundKeys (key : UInt64) : List UInt64 :=
  let halves := select 64 keyPlaces key
  roundKeysFrom (halves >>> 28) (halves &&& 0xfffffff) rotations

/-! ### Rounds -/

def substitutions : List (Array UInt64) :=
  [ #[ 14, 0, 4, 15, 13, 7, 1, 4, 2, 14, 15, 2, 11, 13, 8, 1,
       3, 10, 10, 6, 6, 12, 12, 11, 5, 9, 9, 5, 0, 3, 7, 8,
       4, 15, 1, 12, 14, 8, 8, 2, 13, 4, 6, 9, 2, 1, 11, 7,
       15, 5, 12, 11, 9, 3, 7, 14, 3, 10, 10, 0, 5, 6, 0, 13 ],
    #[ 15, 3, 1, 13, 8, 4, 14, 7, 6, 15, 11, 2, 3, 8, 4, 14,
       9, 12, 7, 0, 2, 1, 13, 10, 12, 6, 0, 9, 5, 11, 10, 5,
       0, 13, 14, 8, 7, 10, 11, 1, 10, 3, 4, 15, 13, 4, 1, 2,
       5, 11, 8, 6, 12, 7, 6, 12, 9, 0, 3, 5, 2, 14, 15, 9 ],
    #[ 10, 13, 0, 7, 9, 0, 14, 9, 6, 3, 3, 4, 15, 6, 5, 10,
       1, 2, 13, 8, 12, 5, 7, 14, 11, 12, 4, 11, 2, 15, 8, 1,
       13, 1, 6, 10, 4, 13, 9, 0, 8, 6, 15, 9, 3, 8, 0, 7,
       11, 4, 1, 15, 2, 14, 12, 3, 5, 11, 10, 5, 14, 2, 7, 12 ],
    #[ 7, 13, 13, 8, 14, 11, 3, 5, 0, 6, 6, 15, 9, 0, 10, 3,
       1, 4, 2, 7, 8, 2, 5, 12, 11, 1, 12, 10, 4, 14, 15, 9,
       10, 3, 6, 15, 9, 0, 0, 6, 12, 10, 11, 1, 7, 13, 13, 8,
       15, 9, 1, 4, 3, 5, 14, 11, 5, 12, 2, 7, 8, 2, 4, 14 ],
    #[ 2, 14, 12, 11, 4, 2, 1, 12, 7, 4, 10, 7, 11, 13, 6, 1,
       8, 5, 5, 0, 3, 15, 15, 10, 13, 3, 0, 9, 14, 8, 9, 6,
       4, 11, 2, 8, 1, 12, 11, 7, 10, 1, 13, 14, 7, 2, 8, 13,
       15, 6, 9, 15, 12, 0, 5, 9, 6, 10, 3, 4, 0, 5, 14, 3 ],
    #[ 12, 10, 1, 15, 10, 4, 15, 2, 9, 7, 2, 12, 6, 9, 8, 5,
       0, 6, 13, 1, 3, 13, 4, 14, 14, 0, 7, 11, 5, 3, 11, 8,
       9, 4, 14, 3, 15, 2, 5, 12, 2, 9, 8, 5, 12, 15, 3, 10,
       7, 11, 0, 14, 4, 1, 10, 7, 1, 6, 13, 0, 11, 8, 6, 13 ],
    #[ 4, 13, 11, 0, 2, 11, 14, 7, 15, 4, 0, 9, 8, 1, 13, 10,
       3, 14, 12, 3, 9, 5, 7, 12, 5, 2, 10, 15, 6, 8, 1, 6,
       1, 6, 4, 11, 11, 13, 13, 8, 12, 1, 3, 4, 7, 10, 14, 7,
       10, 9, 15, 5, 6, 0, 8, 15, 0, 14, 5, 2, 9, 3, 2, 12 ],
    #[ 13, 1, 2, 15, 8, 13, 4, 8, 6, 10, 15, 3, 11, 7, 1, 4,
       10, 12, 9, 5, 3, 6, 14, 11, 5, 0, 0, 14, 12, 9, 7, 2,
       7, 2, 11, 1, 4, 14, 1, 7, 9, 4, 12, 10, 14, 8, 2, 13,
       0, 15, 6, 12, 10, 9, 13, 0, 15, 3, 3, 5, 5, 6, 8, 11 ] ]

/-- Substitutes six bits of the half block for each remaining table.  The groups of six overlap
    by two bits; `turn` brings the next one to the low end. -/
def substitute (half : UInt32) (key : UInt64) (turn : UInt32) (shift : UInt64)
    (bits : UInt64) : List (Array UInt64) → UInt64
  | [] => bits
  | table :: rest =>
    let six := ((rotateLeft32 half turn).toUInt64 ^^^ key >>> shift) &&& 0x3f
    substitute half key ((turn + 4) &&& 31) (shift - 6)
      (bits <<< 4 ||| table.getD six.toNat 0) rest

def mix (half : UInt32) (key : UInt64) : UInt32 :=
  (select 32 roundPlaces (substitute half key 5 42 0 substitutions)).toUInt32

/-- The two halves of a block. -/
structure Halves where
  left : UInt32
  right : UInt32

def round (h : Halves) (key : UInt64) : Halves := ⟨h.right, h.left ^^^ mix h.right key⟩

/-- Applies the rounds with the given keys to a block and exchanges its halves at the end. -/
def transform (keys : List UInt64) (block : UInt64) : UInt64 :=
  let permuted := select 64 initialPlaces block
  let h := keys.foldl round ⟨(permuted >>> 32).toUInt32, permuted.toUInt32⟩
  select 64 finalPlaces (h.right.toUInt64 <<< 32 ||| h.left.toUInt64)

/-! ### Chaining -/

def chain (keys : List UInt64) (previous : UInt64) : List UInt64 → List UInt64
  | [] => []
  | block :: rest =>
    let cipher := transform keys (block ^^^ previous)
    cipher :: chain keys cipher rest

def unchain (keys : List UInt64) (previous : UInt64) : List UInt64 → List UInt64
  | [] => []
  | cipher :: rest => (transform keys cipher ^^^ previous) :: unchain keys cipher rest

def encrypt (key iv plaintext : Octets) : Octets :=
  (chain (roundKeys (Octets.toWord64 key)) (Octets.toWord64 iv) (words64 plaintext)).flatMap
    Octets.ofWord64

def decrypt (key iv ciphertext : Octets) : Octets :=
  (unchain (roundKeys (Octets.toWord64 key)).reverse (Octets.toWord64 iv)
    (words64 ciphertext)).flatMap Octets.ofWord64

end Snmp.Crypto.Des
