/-
  Snmp/CommandLine/Options.lean
  =============================
  **Options, and how they are read from arguments.**

  A value is attached to its flag (`--name=x`, `-bx`, `-b=x`) or is the next argument, unless
  that begins with a dash.  Letters without values may stand together (`-vv`).  Two dashes end
  the flags, and nothing may follow them.

  A value that is the next argument is stored only when the next flag is met or the arguments
  end.  An argument that means nothing is therefore reported before a value that was read just
  ahead of it (`settle`).
-/
import Snmp.CommandLine.Flag
import Snmp.Text.Fields

namespace Snmp.CommandLine

/-! ### Options -/

/-- What the arguments ask for. -/
structure Options where
  bind : String := "[::]:161"
  communities : List String := []
  users : List String := []
  engineId? : Option String := none
  engineBoots : UInt32 := 1
  noSecurity : Bool := false
  workers? : Option Nat := none
  queueDepth : Nat := 1024
  recvBuffer? : Option Nat := none
  descr : String := "asnmp-agent 0.1.0"
  contact : String := ""
  name : String := ""
  location : String := ""
  verbose : UInt8 := 0
deriving DecidableEq, Inhabited

/-- The options with the community that is accepted if none is given. -/
def Options.withDefaultCommunity (options : Options) : Options :=
  if options.communities.isEmpty then { options with communities := ["public"] } else options

/-- Why arguments do not make up options. -/
inductive Stop where
  /-- A flag is not followed by its value. -/
  | missingValue
  | unknownArgument
  /-- A value is no number, or not one that the flag takes. -/
  | badNumber
  | repeatedFlag
  /-- A value is attached to a flag that takes none. -/
  | unexpectedValue
  | helpRequested
  | versionRequested
deriving DecidableEq, Inhabited

def Stop.message : Stop → String
  | .missingValue => "a flag is without its value"
  | .unknownArgument => "unexpected argument"
  | .badNumber => "invalid number"
  | .repeatedFlag => "a flag was given more than once"
  | .unexpectedValue => "a flag takes no value"
  | .helpRequested => usage
  | .versionRequested => "asnmp-agent 0.1.0"

/-! ### Numbers -/

def unsigned? (text : String) : Option Nat :=
  match text.toList with
  | '+' :: digits => Text.numeral? digits
  | digits => Text.numeral? digits

def signed? (text : String) : Option Int :=
  match text.toList with
  | '-' :: digits => (Text.numeral? digits).map fun n => -(n : Int)
  | _ => (unsigned? text).map Int.ofNat

/-- A number of 32 bits; zero may have a minus. -/
def word32? (text : String) : Option UInt32 := do
  let n ← signed? text
  if 0 ≤ n ∧ n < UInt32.size then some (UInt32.ofNat n.toNat) else none

def size? (text : String) : Option Nat := do
  let n ← unsigned? text
  if n < UInt64.size then some n else none

def positive? (text : String) : Option Nat := (size? text).filter (0 < ·)

def number {α : Type} (number? : Option α) (store : α → Options) : Except Stop Options :=
  match number? with
  | some n => .ok (store n)
  | none => .error .badNumber

/-! ### Progress -/

/-- What has been read so far. -/
structure Progress where
  options : Options := {}
  /-- The flags that must not be given again. -/
  given : List Flag := []
  /-- A flag whose value is not stored yet, and the value once it has been read. -/
  open? : Option (Flag × Option String) := none

namespace Progress

/-- Stops at a flag that was given before and must not be given again. -/
def mark (p : Progress) (flag : Flag) : Except Stop Progress :=
  if flag.isRepeatable then .ok p
  else if p.given.contains flag then .error .repeatedFlag
  else .ok { p with given := flag :: p.given }

def assign (o : Options) (flag : Flag) (value : String) : Except Stop Options :=
  match flag with
  | .bind => .ok { o with bind := value }
  | .community => .ok { o with communities := o.communities ++ [value] }
  | .user => .ok { o with users := o.users ++ [value] }
  | .engineId => .ok { o with engineId? := some value }
  | .engineBoots => number (word32? value) fun n => { o with engineBoots := n }
  | .workers => number (positive? value) fun n => { o with workers? := some n }
  | .queueDepth => number (size? value) fun n => { o with queueDepth := n }
  | .recvBuffer => number (size? value) fun n => { o with recvBuffer? := some n }
  | .descr => .ok { o with descr := value }
  | .contact => .ok { o with contact := value }
  | .name => .ok { o with name := value }
  | .location => .ok { o with location := value }
  | .noSecurity | .verbose | .help | .version => .error .unexpectedValue

def store (p : Progress) (flag : Flag) (value : String) : Except Stop Progress := do
  let p ← p.mark flag
  return { p with options := ← assign p.options flag value }

def settle (p : Progress) : Except Stop Progress :=
  match p.open? with
  | none => .ok p
  | some (_, none) => .error .missingValue
  | some (flag, some value) => { p with open? := none }.store flag value

def switch (p : Progress) (flag : Flag) : Except Stop Progress := do
  let p ← (← p.settle).mark flag
  let o := p.options
  match flag with
  | .noSecurity => return { p with options := { o with noSecurity := true } }
  | .verbose =>
    let verbose := if o.verbose = 255 then 255 else o.verbose + 1
    return { p with options := { o with verbose } }
  | .help => throw .helpRequested
  | .version => throw .versionRequested
  | _ => throw .missingValue

def take (p : Progress) (flag : Flag) (attached? : Option String) : Except Stop Progress := do
  let p ← p.settle
  match attached? with
  | some value => p.store flag value
  | none => return { p with open? := some (flag, none) }

def long (p : Progress) (name : String) (attached? : Option String) : Except Stop Progress :=
  match Flag.ofLong? name with
  | none => .error .unknownArgument
  | some flag =>
    if flag.takesValue then p.take flag attached?
    else if attached?.isSome then .error .unexpectedValue
    else p.switch flag

def attachment? : List Char → Option String
  | [] => none
  | '=' :: value => some (String.ofList value)
  | value => some (String.ofList value)

def letters (p : Progress) : List Char → Except Stop Progress
  | [] => .ok p
  | letter :: rest =>
    match Flag.ofLetter? letter with
    | none => .error .unknownArgument
    | some flag =>
      if flag.takesValue then p.take flag (attachment? rest)
      else do (← p.switch flag).letters rest

def word (p : Progress) (text : String) : Except Stop Progress :=
  match p.open? with
  | some (flag, none) => .ok { p with open? := some (flag, some text) }
  | _ => .error .unknownArgument

def argument (p : Progress) (text : String) : Except Stop Progress :=
  match text.toList with
  | '-' :: '-' :: rest =>
    let name := String.ofList (rest.takeWhile (· != '='))
    match rest.dropWhile (· != '=') with
    | _ :: value => p.long name (some (String.ofList value))
    | [] => p.long name none
  | '-' :: letter :: rest => p.letters (letter :: rest)
  | _ => p.word text

def arguments (p : Progress) : List String → Except Stop Progress
  | [] => p.settle
  | text :: rest =>
    if text = "--" then
      if rest.isEmpty then p.settle else .error .unknownArgument
    else do (← p.argument text).arguments rest

end Progress

def Options.parse (arguments : List String) : Except Stop Options := do
  let p ← ({} : Progress).arguments arguments
  return p.options.withDefaultCommunity

end Snmp.CommandLine
