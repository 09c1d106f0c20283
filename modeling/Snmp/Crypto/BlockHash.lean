/-
  Snmp/Crypto/BlockHash.lean
  ==========================
  **Hash functions that absorb a message block by block.**

  A block hash pads a message to whole blocks: the octet `0x80`, zeros, and the length of the
  message in bits.  It then feeds the blocks one by one to a compression function and writes
  out the final state.  The keyed form wraps a message in two passes of the hash.
-/
import Snmp.Octets

namespace Snmp.Crypto

/-- A hash function given by its compression function. -/
structure BlockHash (State : Type) where
  /-- The number of octets of a block. -/
  blockSize : Nat
  /-- The octets at the end of the padding, from the length of the message in octets. -/
  lengthField : Nat → Octets
  initial : State
  compress : State → Octets → State
  output : State → Octets

namespace BlockHash

variable {State : Type}

def absorb (h : BlockHash State) : (count : Nat) → State → Octets → State
  | 0, state, _ => state
  | count + 1, state, message =>
    h.absorb count (h.compress state (message.take h.blockSize)) (message.drop h.blockSize)

/-- A message of the given length is followed by these octets, which complete its last block. -/
def padding (h : BlockHash State) (length : Nat) : Octets :=
  let field := h.lengthField length
  let used := (length + 1 + field.length) % h.blockSize
  0x80 :: (Octets.zeros ((h.blockSize - used) % h.blockSize) ++ field)

def digest (h : BlockHash State) (message : Octets) : Octets :=
  let length := message.length
  let padding := h.padding length
  h.output (h.absorb ((length + padding.length) / h.blockSize) h.initial (message ++ padding))

end BlockHash

/-- A hash function with the block size that its keyed form needs. -/
structure Hash where
  blockSize : Nat
  digest : Octets → Octets

def BlockHash.toHash {State : Type} (h : BlockHash State) : Hash := ⟨h.blockSize, h.digest⟩

/-- A key as one block: its digest if it is longer, then zeros. -/
def Hash.blockOfKey (h : Hash) (key : Octets) : Octets :=
  let short := if h.blockSize < key.length then h.digest key else key
  short ++ Octets.zeros (h.blockSize - short.length)

def Hash.hmac (h : Hash) (key message : Octets) : Octets :=
  let block := h.blockOfKey key
  h.digest (block.map (· ^^^ 0x5c) ++ h.digest (block.map (· ^^^ 0x36) ++ message))

/-! ### Words of a block -/

def words32 : Octets → List UInt32
  | a :: b :: c :: d :: rest => Octets.toWord32 [a, b, c, d] :: words32 rest
  | _ => []

def wordsReversed32 : Octets → List UInt32
  | a :: b :: c :: d :: rest => Octets.toWord32 [d, c, b, a] :: wordsReversed32 rest
  | _ => []

def words64 : Octets → List UInt64
  | a :: b :: c :: d :: e :: f :: g :: h :: rest =>
    Octets.toWord64 [a, b, c, d, e, f, g, h] :: words64 rest
  | _ => []

def rotateLeft32 (w : UInt32) (n : UInt32) : UInt32 := w <<< n ||| w >>> (32 - n)

def rotateRight32 (w : UInt32) (n : UInt32) : UInt32 := w >>> n ||| w <<< (32 - n)

def rotateRight64 (w : UInt64) (n : UInt64) : UInt64 := w >>> n ||| w <<< (64 - n)

end Snmp.Crypto
