/-
  Snmp/Usm/Key.lean
  =================
  **Keys and message authentication codes.**

  A passphrase becomes a master key by hashing 2^20 octets of it, repeated end to end.  A
  master key is bound to an engine by hashing it around the engine identifier, so that a key
  that leaks from one engine is of no use at another.  Where a cipher needs a longer key than
  the hash yields, the key is stretched by appending digests of all that is there.
-/
import Snmp.Usm.Suite
import Snmp.Error

namespace Snmp.Usm

/-- The number of octets that a passphrase is expanded to. -/
def expansionLength : Nat := 1048576

/-- The number of octets that a hash is fed at a time. -/
def blockLength : Nat := 64

/-- Fills a block with the next `count` octets of a passphrase repeated end to end, and gives the
    index that comes after them. -/
def fillBlock (passphrase : Array UInt8) (present : 0 < passphrase.size) :
    (count index : Nat) → Octets × Nat
  | 0, index => ([], index)
  | count + 1, index =>
    have bound := Nat.mod_lt index present
    let (rest, next) := fillBlock passphrase present count (index + 1)
    (passphrase[index % passphrase.size] :: rest, next)

/-- The blocks that a hash is fed until `expansionLength` octets are counted.  The index runs on
    from block to block. -/
def expansionBlocks (passphrase : Array UInt8) (present : 0 < passphrase.size)
    (index count : Nat) : List Octets :=
  if count < expansionLength then
    let (block, next) := fillBlock passphrase present blockLength index
    block :: expansionBlocks passphrase present next (count + blockLength)
  else []
termination_by expansionLength - count
decreasing_by
  simp only [expansionLength, blockLength] at *
  omega

/-- A passphrase repeated end to end; the empty one stays empty. -/
def expand (passphrase : Octets) : Octets :=
  if present : 0 < passphrase.toArray.size then
    (expansionBlocks passphrase.toArray present 0 0).flatten
  else []

/-- A key that follows from a passphrase alone. -/
structure MasterKey where
  protocol : AuthProtocol
  octets : Octets
deriving DecidableEq

/-- A key that is bound to an engine. -/
structure LocalizedKey where
  protocol : AuthProtocol
  octets : Octets
deriving DecidableEq

def MasterKey.ofPassphrase (suite : Suite) (protocol : AuthProtocol) (passphrase : Octets) :
    MasterKey :=
  ⟨protocol, suite.digest protocol (expand passphrase)⟩

def MasterKey.localize (suite : Suite) (key : MasterKey) (engineId : Octets) : LocalizedKey :=
  ⟨key.protocol, suite.digest key.protocol (key.octets ++ engineId ++ key.octets)⟩

def MasterKey.diagnose (key : MasterKey) : String :=
  s!"MasterKey \x7b protocol: {key.protocol.identifier}, .. \x7d"

namespace LocalizedKey

def diagnose (key : LocalizedKey) : String :=
  s!"LocalizedKey \x7b protocol: {key.protocol.identifier}, .. \x7d"

/-- The message authentication code of a message. -/
def sign (suite : Suite) (key : LocalizedKey) (message : Octets) : Octets :=
  (suite.mac key.protocol key.octets message).take key.protocol.macLength

/-- Checks a message authentication code that came with a message. -/
def verify (suite : Suite) (key : LocalizedKey) (message code : Octets) :
    Except AuthDefect Unit :=
  let expected := key.sign suite message
  if code.length ≠ expected.length then .error (.wrongMacLength expected.length code.length)
  else if code = expected then .ok ()
  else .error .hmacMismatch

/-- Appends digests of the whole key, at most `limit` of them, until it has `length` octets. -/
def stretch (suite : Suite) (protocol : AuthProtocol) (length : Nat) :
    (limit : Nat) → (octets : Octets) → Octets
  | 0, octets => octets
  | limit + 1, octets =>
    if octets.length < length then
      stretch suite protocol length limit (octets ++ suite.digest protocol octets)
    else octets

/-- Stretches a key to at least `length` octets.  A digest is not empty, so `length` digests
    are always enough. -/
def extendTo (suite : Suite) (key : LocalizedKey) (length : Nat) : LocalizedKey :=
  { key with octets := stretch suite key.protocol length length key.octets }

end LocalizedKey

end Snmp.Usm
