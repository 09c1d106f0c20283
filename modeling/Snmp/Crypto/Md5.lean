/-
  Snmp/Crypto/Md5.lean
  ====================
  **MD5.**

  A block hash on blocks of 64 octets with four 32-bit words of state, written least
  significant octet first.
-/
import Snmp.Crypto.BlockHash

namespace Snmp.Crypto.Md5

/-- The four words of state. -/
structure State where
  a : UInt32
  b : UInt32
  c : UInt32
  d : UInt32

/-- For each step its constant, its rotation and the word of the block that it takes. -/
def steps : List (UInt32 × UInt32 × Nat) :=
  [ (0xd76aa478, 7, 0), (0xe8c7b756, 12, 1), (0x242070db, 17, 2), (0xc1bdceee, 22, 3),
    (0xf57c0faf, 7, 4), (0x4787c62a, 12, 5), (0xa8304613, 17, 6), (0xfd469501, 22, 7),
    (0x698098d8, 7, 8), (0x8b44f7af, 12, 9), (0xffff5bb1, 17, 10), (0x895cd7be, 22, 11),
    (0x6b901122, 7, 12), (0xfd987193, 12, 13), (0xa679438e, 17, 14), (0x49b40821, 22, 15),
    (0xf61e2562, 5, 1), (0xc040b340, 9, 6), (0x265e5a51, 14, 11), (0xe9b6c7aa, 20, 0),
    (0xd62f105d, 5, 5), (0x02441453, 9, 10), (0xd8a1e681, 14, 15), (0xe7d3fbc8, 20, 4),
    (0x21e1cde6, 5, 9), (0xc33707d6, 9, 14), (0xf4d50d87, 14, 3), (0x455a14ed, 20, 8),
    (0xa9e3e905, 5, 13), (0xfcefa3f8, 9, 2), (0x676f02d9, 14, 7), (0x8d2a4c8a, 20, 12),
    (0xfffa3942, 4, 5), (0x8771f681, 11, 8), (0x6d9d6122, 16, 11), (0xfde5380c, 23, 14),
    (0xa4beea44, 4, 1), (0x4bdecfa9, 11, 4), (0xf6bb4b60, 16, 7), (0xbebfbc70, 23, 10),
    (0x289b7ec6, 4, 13), (0xeaa127fa, 11, 0), (0xd4ef3085, 16, 3), (0x04881d05, 23, 6),
    (0xd9d4d039, 4, 9), (0xe6db99e5, 11, 12), (0x1fa27cf8, 16, 15), (0xc4ac5665, 23, 2),
    (0xf4292244, 6, 0), (0x432aff97, 10, 7), (0xab9423a7, 15, 14), (0xfc93a039, 21, 5),
    (0x655b59c3, 6, 12), (0x8f0ccc92, 10, 3), (0xffeff47d, 15, 10), (0x85845dd1, 21, 1),
    (0x6fa87e4f, 6, 8), (0xfe2ce6e0, 10, 15), (0xa3014314, 15, 6), (0x4e0811a1, 21, 13),
    (0xf7537e82, 6, 4), (0xbd3af235, 10, 11), (0x2ad7d2bb, 15, 2), (0xeb86d391, 21, 9) ]

def mix (round : Nat) (b c d : UInt32) : UInt32 :=
  match round with
  | 0 => (b &&& c) ||| (~~~b &&& d)
  | 1 => (d &&& b) ||| (~~~d &&& c)
  | 2 => b ^^^ c ^^^ d
  | _ => c ^^^ (b ||| ~~~d)

/-- Applies the remaining steps, `index` being the number of the next one. -/
def rotate (block : Array UInt32) (index : Nat) (s : State) :
    List (UInt32 × UInt32 × Nat) → State
  | [] => s
  | (constant, rotation, position) :: rest =>
    let sum := s.a + mix (index / 16) s.b s.c s.d + constant + block.getD position 0
    rotate block (index + 1) ⟨s.d, s.b + rotateLeft32 sum rotation, s.b, s.c⟩ rest

def compress (s : State) (block : Octets) : State :=
  let t := rotate (wordsReversed32 block).toArray 0 s steps
  ⟨s.a + t.a, s.b + t.b, s.c + t.c, s.d + t.d⟩

def octets (w : UInt32) : Octets := (Octets.ofWord32 w).reverse

def hash : BlockHash State where
  blockSize := 64
  lengthField length := (Octets.ofWord64 (UInt64.ofNat (8 * length))).reverse
  initial := ⟨0x67452301, 0xefcdab89, 0x98badcfe, 0x10325476⟩
  compress := compress
  output s := octets s.a ++ octets s.b ++ octets s.c ++ octets s.d

theorem length_digest (message : Octets) : (hash.digest message).length = 16 := rfl

end Snmp.Crypto.Md5
