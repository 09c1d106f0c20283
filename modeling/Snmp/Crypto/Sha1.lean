/-
  Snmp/Crypto/Sha1.lean
  =====================
  **SHA-1.**

  A block hash on blocks of 64 octets with five 32-bit words of state.
-/
import Snmp.Crypto.BlockHash

namespace Snmp.Crypto.Sha1

/-- The five words of state. -/
structure State where
  a : UInt32
  b : UInt32
  c : UInt32
  d : UInt32
  e : UInt32

def extend : (count : Nat) → Array UInt32 → Array UInt32
  | 0, words => words
  | count + 1, words =>
    let n := words.size
    let word (back : Nat) : UInt32 := words.getD (n - back) 0
    extend count (words.push (rotateLeft32 (word 3 ^^^ word 8 ^^^ word 14 ^^^ word 16) 1))

/-- The mixing function and the constant of the round that a step belongs to. -/
def mix (round : Nat) (b c d : UInt32) : UInt32 :=
  match round with
  | 0 => ((b &&& c) ||| (~~~b &&& d)) + 0x5a827999
  | 1 => (b ^^^ c ^^^ d) + 0x6ed9eba1
  | 2 => ((b &&& c) ||| (b &&& d) ||| (c &&& d)) + 0x8f1bbcdc
  | _ => (b ^^^ c ^^^ d) + 0xca62c1d6

/-- Applies a step for each word, `index` being the number of the next one. -/
def rotate (index : Nat) (s : State) : List UInt32 → State
  | [] => s
  | word :: rest =>
    let sum := rotateLeft32 s.a 5 + mix (index / 20) s.b s.c s.d + s.e + word
    rotate (index + 1) ⟨sum, s.a, rotateLeft32 s.b 30, s.c, s.d⟩ rest

def compress (s : State) (block : Octets) : State :=
  let t := rotate 0 s (extend 64 (words32 block).toArray).toList
  ⟨s.a + t.a, s.b + t.b, s.c + t.c, s.d + t.d, s.e + t.e⟩

def hash : BlockHash State where
  blockSize := 64
  lengthField length := Octets.ofWord64 (UInt64.ofNat (8 * length))
  initial := ⟨0x67452301, 0xefcdab89, 0x98badcfe, 0x10325476, 0xc3d2e1f0⟩
  compress := compress
  output s := [s.a, s.b, s.c, s.d, s.e].flatMap Octets.ofWord32

theorem length_digest (message : Octets) : (hash.digest message).length = 20 := rfl

end Snmp.Crypto.Sha1
