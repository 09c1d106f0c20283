/-
  Snmp/Crypto/Sha256.lean
  =======================
  **SHA-256 and SHA-224.**

  Block hashes on blocks of 64 octets with eight 32-bit words of state.  They differ in the
  initial state, and SHA-224 leaves out the last word of the digest.
-/
import Snmp.Crypto.BlockHash

namespace Snmp.Crypto.Sha256

/-- The eight words of state. -/
structure State where
  a : UInt32
  b : UInt32
  c : UInt32
  d : UInt32
  e : UInt32
  f : UInt32
  g : UInt32
  h : UInt32

def constants : List UInt32 :=
  [ 0x428a2f98, 0x71374491, 0xb5c0fbcf, 0xe9b5dba5, 0x3956c25b, 0x59f111f1,
    0x923f82a4, 0xab1c5ed5, 0xd807aa98, 0x12835b01, 0x243185be, 0x550c7dc3,
    0x72be5d74, 0x80deb1fe, 0x9bdc06a7, 0xc19bf174, 0xe49b69c1, 0xefbe4786,
    0x0fc19dc6, 0x240ca1cc, 0x2de92c6f, 0x4a7484aa, 0x5cb0a9dc, 0x76f988da,
    0x983e5152, 0xa831c66d, 0xb00327c8, 0xbf597fc7, 0xc6e00bf3, 0xd5a79147,
    0x06ca6351, 0x14292967, 0x27b70a85, 0x2e1b2138, 0x4d2c6dfc, 0x53380d13,
    0x650a7354, 0x766a0abb, 0x81c2c92e, 0x92722c85, 0xa2bfe8a1, 0xa81a664b,
    0xc24b8b70, 0xc76c51a3, 0xd192e819, 0xd6990624, 0xf40e3585, 0x106aa070,
    0x19a4c116, 0x1e376c08, 0x2748774c, 0x34b0bcb5, 0x391c0cb3, 0x4ed8aa4a,
    0x5b9cca4f, 0x682e6ff3, 0x748f82ee, 0x78a5636f, 0x84c87814, 0x8cc70208,
    0x90befffa, 0xa4506ceb, 0xbef9a3f7, 0xc67178f2 ]

def extend : (count : Nat) → Array UInt32 → Array UInt32
  | 0, words => words
  | count + 1, words =>
    let n := words.size
    let word (back : Nat) : UInt32 := words.getD (n - back) 0
    let x := word 15
    let y := word 2
    let s0 := rotateRight32 x 7 ^^^ rotateRight32 x 18 ^^^ x >>> 3
    let s1 := rotateRight32 y 17 ^^^ rotateRight32 y 19 ^^^ y >>> 10
    extend count (words.push (word 16 + s0 + word 7 + s1))

def rotate (s : State) : List UInt32 → List UInt32 → State
  | constant :: constants, word :: words =>
    let s1 := rotateRight32 s.e 6 ^^^ rotateRight32 s.e 11 ^^^ rotateRight32 s.e 25
    let choice := (s.e &&& s.f) ^^^ (~~~s.e &&& s.g)
    let t1 := s.h + s1 + choice + constant + word
    let s0 := rotateRight32 s.a 2 ^^^ rotateRight32 s.a 13 ^^^ rotateRight32 s.a 22
    let majority := (s.a &&& s.b) ^^^ (s.a &&& s.c) ^^^ (s.b &&& s.c)
    rotate ⟨t1 + s0 + majority, s.a, s.b, s.c, s.d + t1, s.e, s.f, s.g⟩ constants words
  | _, _ => s

def compress (s : State) (block : Octets) : State :=
  let t := rotate s constants (extend 48 (words32 block).toArray).toList
  ⟨s.a + t.a, s.b + t.b, s.c + t.c, s.d + t.d, s.e + t.e, s.f + t.f, s.g + t.g, s.h + t.h⟩

def hash256 : BlockHash State where
  blockSize := 64
  lengthField length := Octets.ofWord64 (UInt64.ofNat (8 * length))
  initial := ⟨0x6a09e667, 0xbb67ae85, 0x3c6ef372, 0xa54ff53a,
    0x510e527f, 0x9b05688c, 0x1f83d9ab, 0x5be0cd19⟩
  compress := compress
  output s := [s.a, s.b, s.c, s.d, s.e, s.f, s.g, s.h].flatMap Octets.ofWord32

theorem length_digest_hash256 (message : Octets) : (hash256.digest message).length = 32 := rfl

def hash224 : BlockHash State where
  blockSize := 64
  lengthField length := Octets.ofWord64 (UInt64.ofNat (8 * length))
  initial := ⟨0xc1059ed8, 0x367cd507, 0x3070dd17, 0xf70e5939,
    0xffc00b31, 0x68581511, 0x64f98fa7, 0xbefa4fa4⟩
  compress := compress
  output s := [s.a, s.b, s.c, s.d, s.e, s.f, s.g].flatMap Octets.ofWord32

theorem length_digest_hash224 (message : Octets) : (hash224.digest message).length = 28 := rfl

end Snmp.Crypto.Sha256
