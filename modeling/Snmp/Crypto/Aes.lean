/-
  Snmp/Crypto/Aes.lean
  ====================
  **AES and cipher feedback.**

  A block is four columns of four octets.  A round substitutes each octet, moves the octets of
  a row to other columns, mixes each column and adds a round key; the last round does not mix.
  Cipher feedback encrypts the ciphertext before each stretch of sixteen octets and adds the
  result to the stretch, so that only the forward cipher is needed and nothing is padded.
-/
import Snmp.Crypto.BlockHash

namespace Snmp.Crypto.Aes

def substitutions : Array UInt8 :=
  #[ 0x63, 0x7c, 0x77, 0x7b, 0xf2, 0x6b, 0x6f, 0xc5, 0x30, 0x01, 0x67, 0x2b, 0xfe, 0xd7,
     0xab, 0x76, 0xca, 0x82, 0xc9, 0x7d, 0xfa, 0x59, 0x47, 0xf0, 0xad, 0xd4, 0xa2, 0xaf,
     0x9c, 0xa4, 0x72, 0xc0, 0xb7, 0xfd, 0x93, 0x26, 0x36, 0x3f, 0xf7, 0xcc, 0x34, 0xa5,
     0xe5, 0xf1, 0x71, 0xd8, 0x31, 0x15, 0x04, 0xc7, 0x23, 0xc3, 0x18, 0x96, 0x05, 0x9a,
     0x07, 0x12, 0x80, 0xe2, 0xeb, 0x27, 0xb2, 0x75, 0x09, 0x83, 0x2c, 0x1a, 0x1b, 0x6e,
     0x5a, 0xa0, 0x52, 0x3b, 0xd6, 0xb3, 0x29, 0xe3, 0x2f, 0x84, 0x53, 0xd1, 0x00, 0xed,
     0x20, 0xfc, 0xb1, 0x5b, 0x6a, 0xcb, 0xbe, 0x39, 0x4a, 0x4c, 0x58, 0xcf, 0xd0, 0xef,
     0xaa, 0xfb, 0x43, 0x4d, 0x33, 0x85, 0x45, 0xf9, 0x02, 0x7f, 0x50, 0x3c, 0x9f, 0xa8,
     0x51, 0xa3, 0x40, 0x8f, 0x92, 0x9d, 0x38, 0xf5, 0xbc, 0xb6, 0xda, 0x21, 0x10, 0xff,
     0xf3, 0xd2, 0xcd, 0x0c, 0x13, 0xec, 0x5f, 0x97, 0x44, 0x17, 0xc4, 0xa7, 0x7e, 0x3d,
     0x64, 0x5d, 0x19, 0x73, 0x60, 0x81, 0x4f, 0xdc, 0x22, 0x2a, 0x90, 0x88, 0x46, 0xee,
     0xb8, 0x14, 0xde, 0x5e, 0x0b, 0xdb, 0xe0, 0x32, 0x3a, 0x0a, 0x49, 0x06, 0x24, 0x5c,
     0xc2, 0xd3, 0xac, 0x62, 0x91, 0x95, 0xe4, 0x79, 0xe7, 0xc8, 0x37, 0x6d, 0x8d, 0xd5,
     0x4e, 0xa9, 0x6c, 0x56, 0xf4, 0xea, 0x65, 0x7a, 0xae, 0x08, 0xba, 0x78, 0x25, 0x2e,
     0x1c, 0xa6, 0xb4, 0xc6, 0xe8, 0xdd, 0x74, 0x1f, 0x4b, 0xbd, 0x8b, 0x8a, 0x70, 0x3e,
     0xb5, 0x66, 0x48, 0x03, 0xf6, 0x0e, 0x61, 0x35, 0x57, 0xb9, 0x86, 0xc1, 0x1d, 0x9e,
     0xe1, 0xf8, 0x98, 0x11, 0x69, 0xd9, 0x8e, 0x94, 0x9b, 0x1e, 0x87, 0xe9, 0xce, 0x55,
     0x28, 0xdf, 0x8c, 0xa1, 0x89, 0x0d, 0xbf, 0xe6, 0x42, 0x68, 0x41, 0x99, 0x2d, 0x0f,
     0xb0, 0x54, 0xbb, 0x16 ]

def substitute (octet : UInt8) : UInt8 := substitutions.getD octet.toNat 0

def double (octet : UInt8) : UInt8 :=
  if octet < 0x80 then octet <<< 1 else octet <<< 1 ^^^ 0x1b

/-- A column of a block. -/
structure Column where
  a : UInt8
  b : UInt8
  c : UInt8
  d : UInt8

namespace Column

def add (x y : Column) : Column := ⟨x.a ^^^ y.a, x.b ^^^ y.b, x.c ^^^ y.c, x.d ^^^ y.d⟩

def substitute (x : Column) : Column :=
  ⟨Aes.substitute x.a, Aes.substitute x.b, Aes.substitute x.c, Aes.substitute x.d⟩

def rotate (x : Column) : Column := ⟨x.b, x.c, x.d, x.a⟩

def mix (x : Column) : Column :=
  let all := x.a ^^^ x.b ^^^ x.c ^^^ x.d
  ⟨x.a ^^^ all ^^^ double (x.a ^^^ x.b), x.b ^^^ all ^^^ double (x.b ^^^ x.c),
    x.c ^^^ all ^^^ double (x.c ^^^ x.d), x.d ^^^ all ^^^ double (x.d ^^^ x.a)⟩

def toOctets (x : Column) : Octets := [x.a, x.b, x.c, x.d]

end Column

/-- A block. -/
structure Block where
  p : Column
  q : Column
  r : Column
  s : Column

namespace Block

def add (x y : Block) : Block := ⟨x.p.add y.p, x.q.add y.q, x.r.add y.r, x.s.add y.s⟩

/-- Substitutes every octet and moves each row to the left by its number. -/
def scatter (x : Block) : Block :=
  let column (a b c d : Column) : Column := Column.substitute ⟨a.a, b.b, c.c, d.d⟩
  ⟨column x.p x.q x.r x.s, column x.q x.r x.s x.p, column x.r x.s x.p x.q, column x.s x.p x.q x.r⟩

def mix (x : Block) : Block := ⟨x.p.mix, x.q.mix, x.r.mix, x.s.mix⟩

def toOctets (x : Block) : Octets :=
  x.p.toOctets ++ x.q.toOctets ++ x.r.toOctets ++ x.s.toOctets

end Block

/-! ### Round keys -/

def columns : Octets → List Column
  | a :: b :: c :: d :: rest => ⟨a, b, c, d⟩ :: columns rest
  | _ => []

def blocks : List Column → List Block
  | p :: q :: r :: s :: rest => ⟨p, q, r, s⟩ :: blocks rest
  | _ => []

def Column.zero : Column := ⟨0, 0, 0, 0⟩

/-- Adds `count` columns to a key that had `size` columns; `constant` goes into the next
    column whose number is a multiple of `size`. -/
def extend (size : Nat) : (count : Nat) → (constant : UInt8) → Array Column → Array Column
  | 0, _, schedule => schedule
  | count + 1, constant, schedule =>
    let n := schedule.size
    let last := schedule.getD (n - 1) .zero
    let base := schedule.getD (n - size) .zero
    if n % size = 0 then
      let turned := last.rotate.substitute.add ⟨constant, 0, 0, 0⟩
      extend size count (double constant) (schedule.push (base.add turned))
    else if 6 < size ∧ n % size = 4 then
      extend size count constant (schedule.push (base.add last.substitute))
    else
      extend size count constant (schedule.push (base.add last))

def roundKeys (key : Octets) : List Block :=
  let start := columns key
  let size := start.length
  blocks (extend size (4 * (size + 7) - size) 1 start.toArray).toList

/-! ### The cipher -/

/-- Applies the rounds with the given keys; the round of the last key does not mix. -/
def rounds (block : Block) : List Block → Block
  | [] => block
  | [key] => block.scatter.add key
  | key :: rest => rounds (block.scatter.mix.add key) rest

def transform (keys : List Block) (block : Block) : Block :=
  match keys with
  | [] => block
  | key :: rest => rounds (block.add key) rest

/-- The block at the beginning of octets, zeros in the place of missing octets. -/
def blockOf (octets : Octets) : Block :=
  ((blocks (columns (octets ++ Octets.zeros 16))).head?).getD ⟨.zero, .zero, .zero, .zero⟩

/-! ### Feedback -/

def feed (keys : List Block) (previous : Octets) : Octets → Octets
  | [] => []
  | octet :: rest =>
    let cipher := Octets.xor (octet :: rest.take 15) (transform keys (blockOf previous)).toOctets
    cipher ++ feed keys cipher (rest.drop 15)
termination_by plaintext => plaintext.length
decreasing_by simp only [List.length_drop, List.length_cons]; omega

def unfeed (keys : List Block) (previous : Octets) : Octets → Octets
  | [] => []
  | octet :: rest =>
    let cipher := octet :: rest.take 15
    Octets.xor cipher (transform keys (blockOf previous)).toOctets
      ++ unfeed keys cipher (rest.drop 15)
termination_by ciphertext => ciphertext.length
decreasing_by simp only [List.length_drop, List.length_cons]; omega

def encrypt (key iv plaintext : Octets) : Octets := feed (roundKeys key) iv plaintext

def decrypt (key iv ciphertext : Octets) : Octets := unfeed (roundKeys key) iv ciphertext

end Snmp.Crypto.Aes
