/-
  Snmp/Usm/Protocol.lean
  ======================
  **Authentication and privacy protocols.**

  A user may be configured with one of six authentication protocols, each a keyed hash cut to
  a fixed length, and with one of four privacy protocols.  Protocols are named without regard
  to the case of ASCII letters; some have more than one name.
-/

namespace Snmp.Usm

/-- An authentication protocol. -/
inductive AuthProtocol where
  | md5
  | sha1
  | sha224
  | sha256
  | sha384
  | sha512
deriving DecidableEq, Hashable, Inhabited

/-- A privacy protocol. -/
inductive PrivProtocol where
  | des
  | aes128
  | aes192
  | aes256
deriving DecidableEq, Inhabited

/-- A name that names no protocol of its kind. -/
inductive UnknownProtocol where
  | authentication (name : String)
  | privacy (name : String)
deriving DecidableEq

def UnknownProtocol.message : UnknownProtocol → String
  | .authentication name =>
    s!"unknown authentication protocol '{name}'; expected one of: " ++
      "MD5, SHA, SHA-224, SHA-256, SHA-384, SHA-512"
  | .privacy name =>
    s!"unknown privacy protocol '{name}'; expected one of: DES, AES, AES-128, AES-192, AES-256"

/-- A name with its ASCII letters in upper case. -/
def upperCase (name : String) : String := String.ofList (name.toList.map Char.toUpper)

namespace AuthProtocol

def name : AuthProtocol → String
  | .md5 => "MD5"
  | .sha1 => "SHA"
  | .sha224 => "SHA-224"
  | .sha256 => "SHA-256"
  | .sha384 => "SHA-384"
  | .sha512 => "SHA-512"

def identifier : AuthProtocol → String
  | .md5 => "Md5"
  | .sha1 => "Sha1"
  | .sha224 => "Sha224"
  | .sha256 => "Sha256"
  | .sha384 => "Sha384"
  | .sha512 => "Sha512"

def names : List (String × AuthProtocol) :=
  [ ("MD5", .md5), ("SHA", .sha1), ("SHA1", .sha1), ("SHA-1", .sha1),
    ("SHA224", .sha224), ("SHA-224", .sha224), ("SHA256", .sha256), ("SHA-256", .sha256),
    ("SHA384", .sha384), ("SHA-384", .sha384), ("SHA512", .sha512), ("SHA-512", .sha512) ]

def ofName (name : String) : Except UnknownProtocol AuthProtocol :=
  match names.lookup (upperCase name) with
  | some protocol => .ok protocol
  | none => .error (.authentication name)

def digestLength : AuthProtocol → Nat
  | .md5 => 16
  | .sha1 => 20
  | .sha224 => 28
  | .sha256 => 32
  | .sha384 => 48
  | .sha512 => 64

/-- The length to which a keyed digest is cut. -/
def macLength : AuthProtocol → Nat
  | .md5 => 12
  | .sha1 => 12
  | .sha224 => 16
  | .sha256 => 24
  | .sha384 => 32
  | .sha512 => 48

end AuthProtocol

namespace PrivProtocol

def name : PrivProtocol → String
  | .des => "DES"
  | .aes128 => "AES"
  | .aes192 => "AES-192"
  | .aes256 => "AES-256"

def identifier : PrivProtocol → String
  | .des => "Des"
  | .aes128 => "Aes128"
  | .aes192 => "Aes192"
  | .aes256 => "Aes256"

def names : List (String × PrivProtocol) :=
  [ ("DES", .des), ("AES", .aes128), ("AES128", .aes128), ("AES-128", .aes128),
    ("AES192", .aes192), ("AES-192", .aes192), ("AES256", .aes256), ("AES-256", .aes256) ]

def ofName (name : String) : Except UnknownProtocol PrivProtocol :=
  match names.lookup (upperCase name) with
  | some protocol => .ok protocol
  | none => .error (.privacy name)

/-- The length of the key that a protocol consumes.  DES takes eight octets of key and eight
    octets that seed the initialization vector. -/
def keyLength : PrivProtocol → Nat
  | .des => 16
  | .aes128 => 16
  | .aes192 => 24
  | .aes256 => 32

def saltLength : PrivProtocol → Nat := fun _ => 8

end PrivProtocol

end Snmp.Usm
